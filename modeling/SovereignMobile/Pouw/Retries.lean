import SovereignMobile.Pouw.ReceiptContent

/-! # How often a receipt is submitted

Followed for one nonce. While a flush holds the receipt, no other one writes its row, so the row can
be told from where that flush is; between two flushes the retry count is the number of failures, until
the receipt is rejected. -/

namespace ReceiptStore

open EventLoop KeyedTable Option
open ReceiptEntity (receiptNonce)

/-- The receipt with this nonce is submitted at most `MAX_RETRY_COUNT + 1` times. While no flush is at
    it, its row is pending and counts the failures, or was rejected when they became that many. -/
structure RetriesBounded (n : Bytes) (s : State) : Prop where
  stored : ∀ c ∈ s.created, c.receiptNonce = n → ∃ r ∈ s.receipts, r.receiptNonce = n
  submitted_le : (s.submitted.count n : Int) ≤ MAX_RETRY_COUNT + 1
  failures_le : (s.failures.count n : Int) ≤ MAX_RETRY_COUNT + 1
  counted : (∀ x ∈ s.held, x.2 ≠ n) → ∀ r ∈ s.receipts, r.receiptNonce = n →
    if (s.failures.count n : Int) ≤ MAX_RETRY_COUNT then
      r.isPending = true ∧ r.retryCount = s.failures.count n
    else r.state = .REJECTED

/-- The lookup of `markRetry` returns the receipt. -/
def lookedUp (n : Bytes) : Except (Option String) (List ReceiptEntity) → Bool
  | .ok rows => rows.any fun r => r.receiptNonce = n
  | .error _ => false

def succeeded {α : Type} : Except (Option String) α → Bool
  | .ok _ => true
  | .error _ => false

/-- All submissions of the receipt fail, one flush at a time is at it, it is not created anew, its
    failures get written, and `markRetry` finds it, or has no need to: not if the count to be replaced
    is 0 anyway, and not if it is neither replaced nor at its limit. -/
def retryMeets (n : Bytes) (s : State) (c : Call) (o : Except (Option String) (Ret c)) : Bool :=
  match c, o with
  | .insert r, .ok _ => r.receiptNonce ≠ n || r.state ≠ .CREATED ||
      s.created.all fun c => c.receiptNonce ≠ n
  | .submitBatch receipts, o => (receipts.all fun r => r.receiptNonce ≠ n) || failed o
  | .markRejected m _, o => m ≠ n || succeeded o
  | .markRetry m, o => m ≠ n || succeeded o
  | .getPending _ .flush, .ok rows => (rows.all fun r => r.receiptNonce ≠ n) ||
      s.held.all fun x => x.2 ≠ n
  | .getPending _ (.markRetry m error), o => m ≠ n || lookedUp n o ||
      s.receipts.all fun r => r.receiptNonce ≠ n || r.retryCount = 0 ||
        (error = none && r.retryCount < MAX_RETRY_COUNT)
  | _, _ => true

def retriesMeet (n : Bytes) : Cond machine where
  op _ _ _ := true
  call _ s c o := retryMeets n s c o

/-! ## What concerns one nonce -/

structure View where
  row : Option ReceiptEntity
  failures : Nat
  submitted : Nat

def view (n : Bytes) (s : State) : View :=
  ⟨lookup ReceiptEntity.receiptNonce n s.receipts, s.failures.count n, s.submitted.count n⟩

/-- The row is right after `failures` failures. -/
def RowRight (failures : Nat) (r : ReceiptEntity) : Prop :=
  (failures ≤ 3 ∧ r.isPending = true ∧ r.retryCount = failures) ∨
    (failures = 4 ∧ r.state = .REJECTED)

/-- No failure is unaccounted for. -/
def Counted (v : View) : Prop :=
  v.submitted = v.failures ∧ ∀ r, v.row = some r → RowRight v.failures r

structure Bounded (v : View) : Prop where
  failures_le : v.failures ≤ 4
  submitted_le : v.submitted ≤ 4
  notAccepted : ∀ r, v.row = some r → r.state ≠ .ACCEPTED
  absent : v.row = none → v.failures = 0 ∧ v.submitted = 0

structure Tracked (n : Bytes) (s : State) : Prop where
  keyed : Keyed ReceiptEntity.receiptNonce s.receipts
  holder : ∀ x ∈ s.held, ∀ y ∈ s.held, x.2 = n → y.2 = n → x.1 = y.1
  created : (∃ c ∈ s.created, c.receiptNonce = n) ↔ (view n s).row ≠ none
  bounded : Bounded (view n s)
  absent : (view n s).row = none → ∀ x ∈ s.held, x.2 ≠ n
  counted : (∀ x ∈ s.held, x.2 ≠ n) → Counted (view n s)

theorem tracked_empty (n : Bytes) (t : Int) : Tracked n (State.empty t) := by
  refine ⟨List.nodup_nil, by simp [State.empty], ?_, ?_, by simp [State.empty], fun _ => ?_⟩
  · simp [State.empty, view, lookup]
  · refine ⟨Nat.zero_le _, Nat.zero_le _, ?_, fun _ => ⟨rfl, rfl⟩⟩
    intro r hr
    simp [view, State.empty, lookup] at hr
  · refine ⟨rfl, fun r hr => ?_⟩
    simp [view, State.empty, lookup] at hr

theorem Tracked.retriesBounded {n : Bytes} {s : State} (h : Tracked n s) : RetriesBounded n s := by
  have hf : s.failures.count n ≤ 4 := h.bounded.failures_le
  have hs : s.submitted.count n ≤ 4 := h.bounded.submitted_le
  refine ⟨fun c hc hn => ?_, ?_, ?_, fun hheld r hr hn => ?_⟩
  · have hrow := h.created.1 ⟨c, hc, hn⟩
    obtain ⟨r, hr⟩ := ne_none_iff_exists'.1 hrow
    exact ⟨r, (lookup_eq_some hr).1, (lookup_eq_some hr).2⟩
  · unfold MAX_RETRY_COUNT
    omega
  · unfold MAX_RETRY_COUNT
    omega
  have hrow : (view n s).row = some r := h.keyed.lookup_iff.2 ⟨hr, hn⟩
  have hright : RowRight (s.failures.count n) r := (h.counted hheld).2 r hrow
  unfold MAX_RETRY_COUNT
  rcases hright with ⟨hle, hp, hc⟩ | ⟨hfour, hst⟩
  · rw [if_pos (by omega)]
    exact ⟨hp, hc⟩
  · rw [if_neg (by omega)]
    exact hst

/-- Calls that are not about the receipt. -/
def Untouched (n : Bytes) : Call → Prop
  | .insert r => r.receiptNonce ≠ n
  | .submitBatch receipts => ∀ r ∈ receipts, r.receiptNonce ≠ n
  | .markAccepted nonces => n ∉ nonces
  | .markRejected m _ => m ≠ n
  | .markRetry m => m ≠ n
  | .getPending _ purpose => purpose ≠ .flush
  | .deleteOldAccepted _ => True

section Effects
variable {n : Bytes} {s : State}

variable {s' : State} {i : Nat} {c : Call} {r : ReceiptEntity} {v : View}

theorem Tracked.congr (h : Tracked n s) (hk : Keyed receiptNonce s'.receipts)
    (hheld : s'.held = s.held)
    (hc : (∃ c ∈ s'.created, c.receiptNonce = n) ↔ ∃ c ∈ s.created, c.receiptNonce = n)
    (hv : view n s' = view n s) : Tracked n s' := by
  refine ⟨hk, ?_, ?_, ?_, ?_, ?_⟩
  · rw [hheld]
    exact h.holder
  · rw [hc, hv]
    exact h.created
  · rw [hv]
    exact h.bounded
  · rw [hv, hheld]
    exact h.absent
  · rw [hv, hheld]
    exact h.counted

theorem Tracked.row_of_held (h : Tracked n s) (hi : (i, n) ∈ s.held) :
    (view n s).row ≠ none := fun hnone => h.absent hnone _ hi rfl

theorem Tracked.write (h : Tracked n s) (hi : (i, n) ∈ s.held)
    (hk : Keyed receiptNonce s'.receipts) (hheld : s'.held = s.held)
    (hc : s'.created = s.created) (hrow : (view n s').row ≠ none) (hb : Bounded (view n s')) :
    Tracked n s' := by
  refine ⟨hk, ?_, ?_, hb, fun hnone => absurd hnone hrow, fun hno => ?_⟩
  · rw [hheld]
    exact h.holder
  · rw [hc]
    exact iff_of_true (h.created.2 (h.row_of_held hi)) hrow
  · exact absurd rfl (hno _ (hheld ▸ hi))

theorem keyed_effect (h : Keyed receiptNonce s.receipts) (i : Nat) (c : Call)
    (o : Except (Option String) (Ret c)) :
    Keyed receiptNonce (effect i c o s).receipts := by
  cases c with
  | submitBatch receipts =>
    simp only [effect, State.answerSubmit]
    split <;> exact h
  | getPending limit purpose => cases o <;> cases purpose <;> exact h
  | insert r =>
    cases o with
    | error message => exact h
    | ok u => exact h.replace r
  | markAccepted nonces | markRejected m reason | markRetry m =>
    cases o with
    | error message => exact h
    | ok u => exact h.updateWhere _ fun _ => rfl
  | deleteOldAccepted before =>
    cases o with
    | error message => exact h
    | ok u => exact h.filter _

/-- Only a flush that reads changes who holds what. -/
theorem held_effect (o : Except (Option String) (Ret c))
    (hc : ∀ limit, c ≠ .getPending limit .flush) : (effect i c o s).held = s.held := by
  cases c with
  | submitBatch receipts =>
    simp only [effect, State.answerSubmit]
    split <;> rfl
  | getPending limit purpose =>
    cases o with
    | error message => rfl
    | ok rows =>
      cases purpose with
      | flush => exact absurd rfl (hc limit)
      | markRetry m error => rfl
  | _ => cases o <;> rfl

theorem view_of_receipts (hr : lookup receiptNonce n s'.receipts = lookup receiptNonce n s.receipts)
    (hf : s'.failures.count n = s.failures.count n) (hs : s'.submitted = s.submitted) :
    view n s' = view n s := by
  unfold view
  rw [hr, hf, hs]

theorem view_effect_of_untouched (h : Tracked n s) (o : Except (Option String) (Ret c))
    (hu : Untouched n c) :
    view n (effect i c o s) = view n s := by
  cases c with
  | submitBatch receipts =>
    have hnot : n ∉ receipts.map receiptNonce := by
      intro hn
      obtain ⟨r, hr, he⟩ := List.mem_map.1 hn
      exact hu r hr he
    simp only [effect, State.answerSubmit]
    split
    · refine view_of_receipts rfl ?_ rfl
      rw [List.count_append, List.count_eq_zero.2 hnot, Nat.add_zero]
    · rfl
  | getPending limit purpose => cases o <;> cases purpose <;> rfl
  | insert r =>
    cases o with
    | error message => rfl
    | ok u => exact view_of_receipts (lookup_replace_other hu s.receipts) rfl rfl
  | markAccepted nonces =>
    cases o with
    | error message => rfl
    | ok u =>
      refine view_of_receipts (lookup_updateWhere_other (fun _ => rfl) fun r hr => ?_) rfl rfl
      have hnot : n ∉ nonces := hu
      simpa [hr] using hnot
  | markRejected m reason | markRetry m =>
    cases o with
    | error message => rfl
    | ok u =>
      refine view_of_receipts (lookup_updateWhere_other (fun _ => rfl) fun r hr => ?_) rfl rfl
      simpa [hr] using Ne.symm hu
  | deleteOldAccepted before =>
    cases o with
    | error message => rfl
    | ok u =>
      refine view_of_receipts (lookup_filter (fun r hr => ?_) h.keyed) rfl rfl
      have hst := h.bounded.notAccepted r hr
      simp [hst]

theorem created_effect_of_untouched (o : Except (Option String) (Ret c)) (hu : Untouched n c) :
    (∃ c' ∈ (effect i c o s).created, c'.receiptNonce = n) ↔
      ∃ c' ∈ s.created, c'.receiptNonce = n := by
  cases c with
  | submitBatch receipts =>
    simp only [effect, State.answerSubmit]
    split <;> exact .rfl
  | getPending limit purpose => cases o <;> cases purpose <;> exact .rfl
  | insert r =>
    cases o with
    | error message => exact .rfl
    | ok u =>
      have hne : r.receiptNonce ≠ n := hu
      simp only [effect, State.insert]
      split
      · simp [exists_or, hne]
      · exact .rfl
  | _ => cases o <;> exact .rfl

theorem Tracked.untouched (h : Tracked n s) (o : Except (Option String) (Ret c))
    (hu : Untouched n c) : Tracked n (effect i c o s) := by
  have hheld : (effect i c o s).held = s.held := by
    refine held_effect o fun limit hc => ?_
    subst hc
    exact hu rfl
  exact h.congr (keyed_effect h.keyed i c o) hheld (created_effect_of_untouched o hu)
    (view_effect_of_untouched h o hu)

/-! ## Writes to the receipt -/

theorem view_insert (hn : r.receiptNonce = n) :
    view n (s.insert r) = { view n s with row := some r } := by
  subst hn
  unfold view State.insert
  rw [lookup_replace_self]

theorem view_updateRows (f : ReceiptEntity → ReceiptEntity)
    (hf : ∀ r, (f r).receiptNonce = r.receiptNonce) :
    view n (s.updateRows (fun m => m = n) f) = { view n s with row := (view n s).row.map f } := by
  unfold view State.updateRows
  rw [lookup_updateWhere hf]
  cases hl : lookup receiptNonce n s.receipts with
  | none => rfl
  | some r => simp [(lookup_eq_some hl).2]

/-- What `markRejected` does to a row. -/
def rejected (reason : String) (r : ReceiptEntity) : ReceiptEntity :=
  { r with state := .REJECTED, lastError := some reason }

/-- What the statement `markRetry` does to a row. -/
def waiting (r : ReceiptEntity) : ReceiptEntity :=
  { r with state := .RETRY_WAIT, retryCount := r.retryCount + 1 }

theorem view_markRejected (reason : String) : view n (s.markRejected n reason) =
    { view n s with row := (view n s).row.map (rejected reason) } :=
  view_updateRows (rejected reason) fun _ => rfl

theorem view_markRetry :
    view n (s.markRetry n) = { view n s with row := (view n s).row.map waiting } :=
  view_updateRows waiting fun _ => rfl

theorem view_answerSubmit (receipts : List ReceiptEntity)
    {o : Except (Option String) SubmitResponse} (hf : failed o = true) :
    view n (s.answerSubmit receipts o) = { view n s with
      failures := (view n s).failures + (receipts.map receiptNonce).count n } := by
  unfold view State.answerSubmit
  rw [if_pos hf]
  simp

theorem Bounded.withRow (h : Bounded v) {row : Option ReceiptEntity}
    (hr : ∀ r, row = some r → r.state ≠ .ACCEPTED) (hrow : row = none → v.row = none) :
    Bounded { v with row := row } :=
  ⟨h.failures_le, h.submitted_le, hr, fun hnone => h.absent (hrow hnone)⟩

theorem Bounded.mapRow (h : Bounded v) {f : ReceiptEntity → ReceiptEntity}
    (hf : ∀ r, (f r).state ≠ .ACCEPTED) : Bounded { v with row := v.row.map f } := by
  refine h.withRow (fun x hx => ?_) fun hx => map_eq_none_iff.1 hx
  obtain ⟨r, -, rfl⟩ := map_eq_some_iff.1 hx
  exact hf r

theorem Tracked.insertNew (h : Tracked n s) (hn : r.receiptNonce = n) (hst : r.state = .CREATED)
    (hcount : r.retryCount = 0) (hnew : ∀ c ∈ s.created, c.receiptNonce ≠ n) :
    Tracked n (s.insert r) ∧ ∀ x ∈ s.held, x.2 ≠ n := by
  have hnone : (view n s).row = none := by
    by_contra hrow
    obtain ⟨c, hc, he⟩ := h.created.2 hrow
    exact hnew c hc he
  have hfree := h.absent hnone
  obtain ⟨hf, hs⟩ := h.bounded.absent hnone
  have hv := view_insert (s := s) hn
  have hrow : (view n (s.insert r)).row = some r := by rw [hv]
  refine ⟨⟨h.keyed.replace r, h.holder, ?_, ?_, ?_, fun _ => ?_⟩, hfree⟩
  · refine iff_of_true ⟨r, ?_, hn⟩ (by simp [hrow])
    simp [State.insert, hst]
  · rw [hv]
    refine h.bounded.withRow (fun x hx => ?_) fun hx => by cases hx
    rw [← some.inj hx, hst]
    simp
  · exact fun hno => absurd hno (by simp [hrow])
  · rw [hv]
    refine ⟨hs.trans hf.symm, fun x hx => .inl ?_⟩
    rw [← some.inj hx, hf, hcount]
    exact ⟨by omega, by simp [ReceiptEntity.isPending, hst], rfl⟩

/-- A flush reads receipts, of which it holds that with the nonce alone. -/
theorem Tracked.hold (h : Tracked n s) (i : Nat) {rows : List ReceiptEntity}
    (hrows : ∀ r ∈ rows, r ∈ s.receipts)
    (hc : (∀ r ∈ rows, r.receiptNonce ≠ n) ∨ ∀ x ∈ s.held, x.2 ≠ n) :
    Tracked n (s.hold i .flush rows) := by
  have hmem : ∀ x : Nat × Bytes, x ∈ (s.hold i .flush rows).held → x.2 = n →
      x ∈ s.held ∨ (x.1 = i ∧ ∃ r ∈ rows, r.receiptNonce = n) := by
    intro x hx hxn
    rcases List.mem_append.1 hx with hx | hx
    · exact .inl hx
    · obtain ⟨r, hr, rfl⟩ := List.mem_map.1 hx
      exact .inr ⟨rfl, r, hr, hxn⟩
  refine ⟨h.keyed, ?_, h.created, h.bounded, ?_, fun hno => ?_⟩
  · intro x hx y hy hxn hyn
    rcases hmem x hx hxn with hx | ⟨hxi, r, hr, hrn⟩ <;>
      rcases hmem y hy hyn with hy | ⟨hyi, r', hr', hrn'⟩
    · exact h.holder x hx y hy hxn hyn
    · rcases hc with hc | hc
      · exact absurd hrn' (hc r' hr')
      · exact absurd hxn (hc x hx)
    · rcases hc with hc | hc
      · exact absurd hrn (hc r hr)
      · exact absurd hyn (hc y hy)
    · exact hxi.trans hyi.symm
  · intro hnone x hx hxn
    rcases hmem x hx hxn with hx | ⟨-, r, hr, hrn⟩
    · exact h.absent hnone x hx hxn
    · exact lookup_eq_none.1 hnone r (hrows r hr) hrn
  · exact h.counted fun x hx => hno x (List.mem_append_left _ hx)

end Effects

/-! ## One holder at a time -/

/-- What a task has to know of the receipt when it issues a call. -/
def Allowed (n : Bytes) (i : Nat) (s : State) : Call → Prop
  | .insert r => r.receiptNonce = n → (r.state = .CREATED ∧ r.retryCount = 0) ∨
      ((i, n) ∈ s.held ∧ r.state ≠ .CREATED ∧ r.state ≠ .ACCEPTED)
  | .submitBatch receipts => (∃ r ∈ receipts, r.receiptNonce = n) → (i, n) ∈ s.held ∧
      (receipts.map ReceiptEntity.receiptNonce).count n ≤ 1 ∧ s.failures.count n ≤ 3
  | .markAccepted nonces => n ∉ nonces
  | .markRejected m _ => m = n → (i, n) ∈ s.held
  | .markRetry m => m = n → (i, n) ∈ s.held
  | _ => True

def retryOutline (n : Bytes) : Spec machine where
  Inv := Tracked n
  Rely i s s' := ((i, n) ∈ s'.held ↔ (i, n) ∈ s.held) ∧ ((i, n) ∈ s.held → view n s' = view n s)
  OpPre i s o :=
    match o with
    | .submitting receipts => (∃ r ∈ receipts, r.receiptNonce = n) → (i, n) ∈ s.held ∧
        (receipts.map ReceiptEntity.receiptNonce).count n ≤ 1 ∧ s.submitted.count n ≤ 3
    | .release => (i, n) ∈ s.held → Counted (view n s)
  CallPre := Allowed n
  Fin i s := (i, n) ∉ s.held

section Sound
variable {n : Bytes} {s : State} {i : Nat}

/-- Others rely on nothing that the holder of the receipt changes. -/
theorem rely_of_holder (h : Tracked n s) (hi : (i, n) ∈ s.held) {s' : State}
    (hheld : s'.held = s.held) (j : Nat) (hj : j ≠ i) : (retryOutline n).Rely j s s' :=
  ⟨by rw [hheld], fun hjn => absurd (h.holder _ hjn _ hi rfl rfl) hj⟩

variable {receipts : List ReceiptEntity} {c : Call} {o : Except (Option String) (Ret c)}
    {limit : Nat} {a : Answer}

theorem failed_of_retryMeets {o : Except (Option String) SubmitResponse}
    (hc : retryMeets n s (.submitBatch receipts) o = true)
    (hr : ∃ r ∈ receipts, r.receiptNonce = n) :
    failed o = true := by
  obtain ⟨r, hr, hn⟩ := hr
  simp only [retryMeets, Bool.or_eq_true, List.all_eq_true, decide_eq_true_eq] at hc
  exact hc.resolve_left fun hall => hall r hr hn

/-- A call that is about the receipt is made by its holder. -/
theorem Tracked.touched (h : Tracked n s) (hi : (i, n) ∈ s.held) (ha : Allowed n i s c)
    (hc : retryMeets n s c o = true)
    (hins : ∀ r, c = .insert r → r.state ≠ .CREATED ∧ r.state ≠ .ACCEPTED) (ht : ¬ Untouched n c)
    (hflush : ∀ limit, c ≠ .getPending limit .flush) :
    Tracked n (effect i c o s) := by
  have hrow := h.row_of_held hi
  have hheld := held_effect (i := i) (s := s) o hflush
  have hk := keyed_effect h.keyed i c o
  cases c with
  | insert r =>
    have hn : r.receiptNonce = n := by_contra fun hne => ht hne
    obtain ⟨hnew, hacc⟩ := hins r rfl
    cases o with
    | error message => exact h
    | ok u =>
      have hcr : (s.insert r).created = s.created := by simp [State.insert, hnew]
      have hv := view_insert (s := s) hn
      refine h.write hi hk hheld hcr (by simp [effect, hv]) ?_
      rw [effect, hv]
      refine h.bounded.withRow (fun x hx => ?_) fun hx => by cases hx
      rw [← some.inj hx]
      exact hacc
  | submitBatch receipts =>
    have hr : ∃ r ∈ receipts, r.receiptNonce = n := by
      by_contra hno
      exact ht fun r hr hrn => hno ⟨r, hr, hrn⟩
    obtain ⟨-, hone, hle⟩ := ha hr
    have hf := failed_of_retryMeets hc hr
    have hv := view_answerSubmit (n := n) (s := s) receipts hf
    have hcr : (s.answerSubmit receipts o).created = s.created := by
      unfold State.answerSubmit
      rw [if_pos hf]
    refine h.write hi hk hheld hcr (by simpa only [effect, hv] using hrow) ?_
    rw [effect, hv]
    refine ⟨?_, h.bounded.submitted_le, h.bounded.notAccepted, fun hno => absurd hno hrow⟩
    have hle' : (view n s).failures ≤ 3 := hle
    dsimp only
    omega
  | markAccepted nonces => exact absurd ha ht
  | markRejected m reason =>
    have hn : m = n := by_contra fun hne => ht hne
    subst hn
    cases o with
    | error message => exact h
    | ok u =>
      have hv := view_markRejected (n := m) (s := s) reason
      refine h.write hi hk hheld rfl (by simpa [effect, hv] using hrow) ?_
      rw [effect, hv]
      exact h.bounded.mapRow fun r => by simp [rejected]
  | markRetry m =>
    have hn : m = n := by_contra fun hne => ht hne
    subst hn
    cases o with
    | error message => exact h
    | ok u =>
      have hv := view_markRetry (n := m) (s := s)
      refine h.write hi hk hheld rfl (by simpa [effect, hv] using hrow) ?_
      rw [effect, hv]
      exact h.bounded.mapRow fun r => by simp [waiting]
  | getPending limit purpose =>
    refine absurd ?_ (hflush limit)
    have hp : purpose = .flush := by_contra fun hne => ht hne
    rw [hp]
  | deleteOldAccepted before => exact absurd trivial ht

theorem rely_refl (j : Nat) (s : State) : (retryOutline n).Rely j s s := ⟨.rfl, fun _ => rfl⟩

theorem rely_of_untouched (h : Tracked n s) (o : Except (Option String) (Ret c))
    (hu : Untouched n c) (j : Nat) : (retryOutline n).Rely j s (effect i c o s) := by
  have hheld : (effect i c o s).held = s.held := by
    refine held_effect o fun limit hc => ?_
    subst hc
    exact hu rfl
  exact ⟨by rw [hheld], fun _ => view_effect_of_untouched h o hu⟩

theorem rely_of_hold (rows : List ReceiptEntity) (j : Nat) (hj : j ≠ i) :
    (retryOutline n).Rely j s (effect i (.getPending limit .flush) (.ok rows) s) := by
  refine ⟨?_, fun _ => rfl⟩
  simp [effect, State.hold, Ne.symm hj]

/-- Whoever makes a call about the receipt holds it, unless it reads it or creates it. -/
theorem held_of_allowed (ha : Allowed n i s c) (ht : ¬ Untouched n c)
    (hflush : ∀ limit, c ≠ .getPending limit .flush)
    (hnew : ∀ r, c = .insert r → ¬ (r.state = .CREATED ∧ r.retryCount = 0)) :
    (i, n) ∈ s.held := by
  cases c with
  | insert r =>
    have hn : r.receiptNonce = n := by_contra fun hne => ht hne
    exact ((ha hn).resolve_left (hnew r rfl)).1
  | submitBatch receipts =>
    refine (ha ?_).1
    by_contra hno
    exact ht fun r hr hrn => hno ⟨r, hr, hrn⟩
  | markAccepted nonces => exact absurd ha ht
  | markRejected | markRetry => exact ha (by_contra fun hne => ht hne)
  | getPending limit purpose =>
    have hp : purpose = .flush := by_contra fun hne => ht hne
    exact absurd (by rw [hp]) (hflush limit)
  | deleteOldAccepted before => exact absurd trivial ht

theorem rows_of_outcome {purpose : Purpose} {rows : List ReceiptEntity}
    (h : outcome (.getPending limit purpose) a s = some (.ok rows)) :
    rows = oldestPending limit s.receipts := by
  cases a with
  | ok =>
    simp only [outcome, some.injEq, Except.ok.injEq] at h
    exact h.symm
  | throws | http => simp [outcome] at h

/-- One call keeps the invariant, and leaves the receipt to its holder. -/
theorem Tracked.effect (h : Tracked n s) (ha : Allowed n i s c) (hc : retryMeets n s c o = true)
    (ho : outcome c a s = some o) :
    Tracked n (effect i c o s) ∧ ∀ j, j ≠ i → (retryOutline n).Rely j s (effect i c o s) := by
  -- a call about another receipt, a flush that reads, a creation, or a call of the holder
  by_cases hu : Untouched n c
  · exact ⟨h.untouched o hu, fun j _ => rely_of_untouched h o hu j⟩
  by_cases hflush : ∃ limit, c = .getPending limit .flush
  · obtain ⟨limit, rfl⟩ := hflush
    cases o with
    | error message => exact ⟨h, fun j _ => rely_refl j s⟩
    | ok rows =>
      have hrows := rows_of_outcome ho
      refine ⟨h.hold i (fun r hr => ?_) ?_, rely_of_hold rows⟩
      · exact (mem_of_mem_oldestPending (hrows ▸ hr)).1
      · simpa [retryMeets] using hc
  by_cases hnew : ∃ r, c = .insert r ∧ r.state = .CREATED ∧ r.retryCount = 0
  · obtain ⟨r, rfl, hst, hcount⟩ := hnew
    have hn : r.receiptNonce = n := by_contra fun hne => hu hne
    cases o with
    | error message => exact ⟨h, fun j _ => rely_refl j s⟩
    | ok u =>
      have hfresh : ∀ c ∈ s.created, c.receiptNonce ≠ n := by
        simpa [retryMeets, hn, hst] using hc
      obtain ⟨hnext, hfree⟩ := h.insertNew hn hst hcount hfresh
      exact ⟨hnext, fun j _ => ⟨.rfl, fun hj => absurd rfl (hfree _ hj)⟩⟩
  · have hfl : ∀ limit, c ≠ .getPending limit .flush := fun limit he => hflush ⟨limit, he⟩
    have hi := held_of_allowed ha hu hfl fun r he hr => hnew ⟨r, he, hr⟩
    refine ⟨h.touched hi ha hc (fun r he => ?_) hu hfl, rely_of_holder h hi (held_effect o hfl)⟩
    subst he
    have hn : r.receiptNonce = n := by_contra fun hne => hu hne
    rcases ha hn with hr | hr
    · exact absurd ⟨r, rfl, hr⟩ hnew
    · exact hr.2

theorem Tracked.submitting (h : Tracked n s)
    (hpre : (retryOutline n).OpPre i s (.submitting receipts)) :
    Tracked n (apply i (.submitting receipts) s) ∧
      ∀ j, j ≠ i → (retryOutline n).Rely j s (apply i (.submitting receipts) s) := by
  by_cases hr : ∃ r ∈ receipts, r.receiptNonce = n
  · obtain ⟨hi, hone, hle⟩ := hpre hr
    have hcount : (s.submitted ++ receipts.map receiptNonce).count n ≤ 4 := by
      rw [List.count_append]
      omega
    have hrow := h.row_of_held hi
    refine ⟨h.write hi h.keyed rfl rfl hrow ?_, rely_of_holder h hi rfl⟩
    exact ⟨h.bounded.failures_le, hcount, h.bounded.notAccepted, fun hno => absurd hno hrow⟩
  · have hnot : n ∉ receipts.map receiptNonce := by
      intro hn
      obtain ⟨r, hmem, he⟩ := List.mem_map.1 hn
      exact hr ⟨r, hmem, he⟩
    have hv : view n (apply i (.submitting receipts) s) = view n s := by
      simp [view, apply, List.count_eq_zero.2 hnot]
    exact ⟨h.congr h.keyed rfl .rfl hv, fun j _ => ⟨.rfl, fun _ => hv⟩⟩

theorem Tracked.release (h : Tracked n s) (hpre : (retryOutline n).OpPre i s .release) :
    Tracked n (apply i .release s) ∧
      ∀ j, j ≠ i → (retryOutline n).Rely j s (apply i .release s) := by
  have hmem : ∀ x, x ∈ (apply i .release s).held ↔ x ∈ s.held ∧ x.1 ≠ i := by
    intro x
    simp [apply]
  refine ⟨⟨h.keyed, ?_, h.created, h.bounded, ?_, fun hno => ?_⟩, fun j hj => ⟨?_, fun _ => rfl⟩⟩
  · intro x hx y hy hxn hyn
    exact h.holder x ((hmem x).1 hx).1 y ((hmem y).1 hy).1 hxn hyn
  · exact fun hnone x hx => h.absent hnone x ((hmem x).1 hx).1
  · -- either the receipt is let go of here, or nobody held it
    by_cases hi : (i, n) ∈ s.held
    · exact hpre hi
    refine h.counted fun x hx hxn => ?_
    by_cases hxi : x.1 = i
    · exact hi (by rw [← hxi, ← hxn]; exact hx)
    · exact hno x ((hmem x).2 ⟨hx, hxi⟩) hxn
  · rw [hmem]
    exact ⟨And.left, fun hjn => ⟨hjn, hj⟩⟩

theorem retryOutline_sound (n : Bytes) : (retryOutline n).Sound (retriesMeet n) where
  refl j s := rely_refl j s
  trans i s1 s2 s3 h1 h2 :=
    ⟨h2.1.trans h1.1, fun hi => (h2.2 (h1.1.2 hi)).trans (h1.2 hi)⟩
  op i s o hi _ hpre := by
    cases o with
    | submitting receipts => exact hi.submitting hpre
    | release => exact hi.release hpre
  call i s c r s' o hi hpre hp hc := by
    obtain ⟨ho, rfl⟩ := perform_eq_some hp
    have hi' : Tracked n { s with currentTimeMillis := r.currentTimeMillis } :=
      hi.congr hi.keyed rfl .rfl rfl
    exact hi'.effect hpre hc ho
  fin i s s' hf hr _ := fun hi => hf (hr.1.1 hi)

end Sound

end ReceiptStore
