import SovereignMobile.Pouw.Retries

/-! # A flush and its failures

What a flush knows of the receipt that is followed, from reading it to letting go of it. -/

namespace ReceiptStore

open EventLoop KeyedTable List
open ReceiptEntity (receiptNonce)

/-- The task does not hold the receipt, or it does and `P` describes it. -/
def Knows (n : Bytes) (i : Nat) (K : Option (View → Prop)) (s : State) : Prop :=
  match K with
  | none => (i, n) ∉ s.held
  | some P => (i, n) ∈ s.held ∧ P (view n s)

/-- So many failures and submissions are recorded, and the row is pending and counts `c` of them. -/
def Phase (failures submitted c : Nat) (v : View) : Prop :=
  v.failures = failures ∧ v.submitted = submitted ∧ c ≤ 3 ∧
    ∃ r, v.row = some r ∧ r.isPending = true ∧ r.retryCount = c

theorem Phase.counted {c : Nat} {v : View} (h : Phase c c c v) : Counted v := by
  obtain ⟨hf, hs, hle, r, hr, hp, hc⟩ := h
  refine ⟨hs.trans hf.symm, fun x hx => .inl ?_⟩
  obtain rfl : r = x := Option.some.inj (hr.symm.trans hx)
  rw [hf]
  exact ⟨hle, hp, hc⟩

variable {n : Bytes} {i : Nat}

theorem Knows.mono {P P' : View → Prop} {s : State} (h : Knows n i (some P) s)
    (hP : P (view n s) → P' (view n s)) : Knows n i (some P') s :=
  ⟨h.1, hP h.2⟩

section Calls
variable {n : Bytes} {i : Nat} {K : Option (View → Prop)} {s : State}

variable {s' : State} {c : Call}

theorem Knows.rely (h : Knows n i K s) (hr : (retryOutline n).Rely i s s') : Knows n i K s' := by
  cases K with
  | none => exact fun hi => h (hr.1.1 hi)
  | some P => exact ⟨hr.1.2 h.1, by rw [hr.2 h.1]; exact h.2⟩

theorem allowed_of_untouched (hu : Untouched n c) : Allowed n i s c := by
  cases c with
  | insert r | markRejected | markRetry => exact fun hn => absurd hn hu
  | submitBatch receipts =>
    rintro ⟨r, hr, hn⟩
    exact absurd hn (hu r hr)
  | markAccepted nonces => exact hu
  | getPending | deleteOldAccepted => trivial

theorem Knows.untouched (h : Knows n i K s) (ht : Tracked n s) (o : Except (Option String) (Ret c))
    (hu : Untouched n c) : Knows n i K (effect i c o s) :=
  h.rely (rely_of_untouched ht o hu i)

theorem knows_of_perform {r : Reply} {o : Except (Option String) (Ret c)} (ht : Tracked n s)
    (h : Knows n i K s) (hu : Untouched n c) (hp : perform i c r s = some (s', o)) :
    Knows n i K s' := by
  obtain ⟨-, rfl⟩ := perform_eq_some hp
  have ht' : Tracked n { s with currentTimeMillis := r.currentTimeMillis } :=
    ht.congr ht.keyed rfl .rfl rfl
  have h' : Knows n i K { s with currentTimeMillis := r.currentTimeMillis } := by
    cases K <;> exact h
  exact h'.untouched ht' o hu

theorem keeps_untouched (hu : Untouched n c) :
    (retryOutline n).Keeps (retriesMeet n) i (Knows n i K) (dao c) := by
  refine .await (fun s s' h hr _ => h.rely hr) (fun s _ _ => allowed_of_untouched hu) ?_
  intro s r s' o ht h hp _
  exact knows_of_perform ht h hu hp

theorem wp_held {P : View → Prop} {P' : Except (Option String) (Ret c) → View → Prop}
    (hfl : ∀ limit, c ≠ .getPending limit .flush)
    (hallow : ∀ s, (i, n) ∈ s.held → P (view n s) → Allowed n i s c)
    (heff : ∀ s o, Tracked n s → P (view n s) → retryMeets n s c o = true →
      P' o (view n (effect i c o s))) (h : Knows n i (some P) s) :
    (retryOutline n).Wp (retriesMeet n) i (dao c) (fun o s' => Knows n i (some (P' o)) s') s := by
  refine .await fun s1 hr1 ht1 => ?_
  have h1 := h.rely hr1
  refine ⟨hallow s1 h1.1 h1.2, fun r s2 o hp hc _ s3 hr3 _ => ?_⟩
  obtain ⟨-, rfl⟩ := perform_eq_some hp
  have ht' : Tracked n { s1 with currentTimeMillis := r.currentTimeMillis } :=
    .congr ht1 ht1.keyed rfl .rfl rfl
  have h2 : Knows n i (some (P' o))
      (effect i c o { s1 with currentTimeMillis := r.currentTimeMillis }) := by
    refine ⟨?_, heff _ o ht' h1.2 hc⟩
    rw [held_effect o hfl]
    exact h1.1
  exact h2.rely hr3

end Calls

/-! ## `markRetry` -/

/-- What a query came to: its rows, or none where it threw. -/
def rowsOf : Except (Option String) (List ReceiptEntity) → List ReceiptEntity
  | .ok rows => rows
  | .error _ => []

/-- The lookup found the row that counts `c`, or missed it without harm. -/
def FoundRight (n : Bytes) (c : Nat) (error : Option String) (receipt : Option ReceiptEntity) :
    Prop :=
  (∃ x, receipt = some x ∧ x.receiptNonce = n ∧ x.retryCount = c) ∨
    (receipt = none ∧ (c = 0 ∨ (error = none ∧ c < 3)))

section Retry
variable {n : Bytes} {i : Nat} {s : State} {c : Nat} {error : Option String}

variable {f g : Nat} {receipt : Option ReceiptEntity} {m : Bytes} {rows : List ReceiptEntity}

theorem foundRight_of_retryMeets (ht : Tracked n s) (hp : Phase f g c (view n s))
    {o : Except (Option String) (List ReceiptEntity)} (ho : ∀ r ∈ rowsOf o, r ∈ s.receipts)
    (hc : retryMeets n s (.getPending 1 (.markRetry n error)) o = true) :
    FoundRight n c error ((rowsOf o).find? fun r => r.receiptNonce = n) := by
  obtain ⟨-, -, -, row, hrow, -, hcount⟩ := hp
  have hrow' := lookup_eq_some hrow
  cases hfind : (rowsOf o).find? fun r => r.receiptNonce = n with
  | some x =>
    have hxn : x.receiptNonce = n := by simpa using find?_some hfind
    have hx : (view n s).row = some x :=
      ht.keyed.lookup_iff.2 ⟨ho x (mem_of_find?_eq_some hfind), hxn⟩
    obtain rfl : row = x := Option.some.inj (hrow.symm.trans hx)
    exact .inl ⟨row, rfl, hxn, hcount⟩
  | none =>
    right
    have hmiss : lookedUp n o = false := by
      cases o with
      | error message => rfl
      | ok rows => simpa [lookedUp, rowsOf] using hfind
    simp only [retryMeets, hmiss, Bool.or_eq_true, decide_eq_true_eq, ne_eq, not_true_eq_false,
      Bool.false_eq_true, false_or, all_eq_true, Bool.and_eq_true] at hc
    have hr := hc row hrow'.1
    rw [hrow'.2] at hr
    unfold MAX_RETRY_COUNT at hr
    refine ⟨rfl, ?_⟩
    rcases hr with (hr | hr) | ⟨he, hr⟩
    · exact absurd rfl hr
    · exact .inl (by omega)
    · exact .inr ⟨he, by omega⟩

theorem wp_lookup (h : Knows n i (some (Phase f g c)) s) :
    (retryOutline n).Wp (retriesMeet n) i (getPending 1 (.markRetry n error)) (fun r s' =>
      Knows n i (some (Phase f g c)) s' ∧ ∃ found, r = .ok found ∧
        FoundRight n c error (found.find? fun r => r.receiptNonce = n)) s := by
  have hu : Untouched n (.getPending 1 (.markRetry n error)) := by
    intro he
    simp at he
  have hq : (retryOutline n).Wp (retriesMeet n) i (dao (.getPending 1 (.markRetry n error)))
      (fun r s' => Knows n i (some (Phase f g c)) s' ∧
        FoundRight n c error ((rowsOf r).find? fun r => r.receiptNonce = n)) s := by
    refine .await fun s1 hr1 ht1 => ⟨allowed_of_untouched (s := s1) (i := i) hu, ?_⟩
    intro r s2 o hp hc _ s3 hr3 _
    have h1 := h.rely hr1
    refine ⟨(knows_of_perform ht1 h1 hu hp).rely hr3, ?_⟩
    obtain ⟨ho, -⟩ := perform_eq_some hp
    refine foundRight_of_retryMeets ht1 h1.2 (fun x hx => ?_) hc
    cases o with
    | error message => simp [rowsOf] at hx
    | ok rows =>
      have hrows := rows_of_outcome ho
      exact (mem_of_mem_oldestPending (hrows ▸ hx)).1
  refine .tryCatch hq ?_ ?_
  · rintro found s' _ ⟨h', hf⟩
    exact ⟨h', found, rfl, hf⟩
  · rintro e s' hi' ⟨h', hf⟩
    exact .pure hi' ⟨h', [], rfl, hf⟩

theorem phase_markRetry (hlt : c < 3) (h : Phase f g c (view n s)) :
    Phase f g (c + 1) (view n (s.markRetry n)) := by
  obtain ⟨hf, hs, -, r, hr, -, hcount⟩ := h
  rw [view_markRetry]
  refine ⟨hf, hs, hlt, waiting r, by rw [hr]; rfl, rfl, ?_⟩
  simp [waiting, hcount]

theorem phase_insert {r : ReceiptEntity} (h : Phase f g c (view n s)) (hn : r.receiptNonce = n)
    (hp : r.isPending = true) (hcount : r.retryCount = c) :
    Phase f g c (view n (s.insert r)) := by
  obtain ⟨hf, hs, hle, -⟩ := h
  rw [view_insert hn]
  exact ⟨hf, hs, hle, r, rfl, hp, hcount⟩

theorem counted_markRejected (reason : String) (h : Phase 4 4 3 (view n s)) :
    Counted (view n (s.markRejected n reason)) := by
  obtain ⟨hf, hs, -, r, hr, -, -⟩ := h
  rw [view_markRejected]
  refine ⟨hs.trans hf.symm, fun x hx => .inr ⟨hf, ?_⟩⟩
  obtain ⟨r', -, rfl⟩ := Option.map_eq_some_iff.1 hx
  rfl

theorem retried_right (hfound : FoundRight n c error receipt) {e : String} (he : error = some e)
    (t : Int) :
    (retried receipt n e t).receiptNonce = n ∧ (retried receipt n e t).state = .RETRY_WAIT ∧
      (retried receipt n e t).retryCount = (c + 1 : Nat) := by
  rcases hfound with ⟨x, rfl, hn, hc⟩ | ⟨rfl, hc⟩
  · exact ⟨hn, rfl, by simp [retried, hc]⟩
  -- a row that was missed is replaced by one that counts 1, which is right if it counted 0
  · rcases hc with rfl | ⟨hnone, -⟩
    · exact ⟨rfl, rfl, rfl⟩
    · exact nomatch hnone.symm.trans he

theorem wp_retryOrReject (hfound : FoundRight n c error receipt)
    (h : Knows n i (some (Phase (c + 1) (c + 1) c)) s) :
    (retryOutline n).Wp (retriesMeet n) i (retryOrReject n error receipt)
      (fun _ s' => Knows n i (some Counted) s') s := by
  have hle : c ≤ 3 := h.2.2.2.1
  unfold retryOrReject
  split
  · -- only a row that was found is at its limit
    rename_i hex
    have hc : c = 3 := by
      rcases hfound with ⟨x, rfl, -, hx⟩ | ⟨rfl, -⟩
      · have hx' : MAX_RETRY_COUNT ≤ x.retryCount := by simpa [exhausted] using hex
        unfold MAX_RETRY_COUNT at hx'
        omega
      · simp [exhausted] at hex
    subst hc
    have hreject : (retryOutline n).Wp (retriesMeet n) i
        (dao (.markRejected n (error.getD "Max retries exceeded")))
        (fun _ s' => Knows n i (some Counted) s') s := by
      refine wp_held (by simp) (fun _ hheld _ _ => hheld) (fun s o _ hp hc => ?_) h
      cases o with
      | error message => simp [retryMeets, succeeded] at hc
      | ok u => exact counted_markRejected _ hp
    exact .tryCatch hreject (fun _ _ _ h' => h') fun _ _ hi' h' => .pure hi' h'
  · rename_i hex
    have hlt : c < 3 := by
      rcases hfound with ⟨x, rfl, -, hx⟩ | ⟨rfl, hc⟩
      · have hx' : ¬ MAX_RETRY_COUNT ≤ x.retryCount := by simpa [exhausted] using hex
        unfold MAX_RETRY_COUNT at hx'
        omega
      · omega
    have hstmt : (retryOutline n).Wp (retriesMeet n) i (dao (.markRetry n))
        (fun _ s' => Knows n i (some (Phase (c + 1) (c + 1) (c + 1))) s') s := by
      refine wp_held (by simp) (fun _ hheld _ _ => hheld) (fun s o _ hp hc => ?_) h
      cases o with
      | error message => simp [retryMeets, succeeded] at hc
      | ok u => exact phase_markRetry hlt hp
    refine .bind hstmt (fun _ s' hi' h' => ?_) fun _ _ _ h' => h'.mono Phase.counted
    cases error with
    | none => exact .pure hi' (h'.mono Phase.counted)
    | some e =>
      -- the insert that stores the error writes the count that the statement has left
      obtain ⟨hn, hst, hcount⟩ := retried_right hfound rfl s'.currentTimeMillis
      have hinsert : (retryOutline n).Wp (retriesMeet n) i
          (dao (.insert (retried receipt n e s'.currentTimeMillis)))
          (fun _ s'' => Knows n i (some (Phase (c + 1) (c + 1) (c + 1))) s'') s' := by
        refine wp_held (by simp) (fun _ hheld _ _ => .inr ⟨hheld, ?_⟩) (fun s o _ hp _ => ?_) h'
        · simp [hst]
        cases o with
        | error message => exact hp
        | ok u => exact phase_insert hp hn (by simp [ReceiptEntity.isPending, hst]) hcount
      exact .getThen (.mono hinsert fun _ _ _ h'' => h''.mono Phase.counted)

/-- The failure of the receipt is counted, or ends its retries. -/
theorem wp_markRetry (h : Knows n i (some (Phase (c + 1) (c + 1) c)) s) :
    (retryOutline n).Wp (retriesMeet n) i (markRetry n error)
      (fun r s' => r = .ok () ∧ Knows n i (some Counted) s') s := by
  have hbody : (retryOutline n).Wp (retriesMeet n) i
      (getPending 1 (.markRetry n error) >>= fun pending =>
        retryOrReject n error (pending.find? fun r => r.receiptNonce = n))
      (fun _ s' => Knows n i (some Counted) s') s := by
    refine .bind (wp_lookup h) ?_ ?_
    · rintro pending s' _ ⟨h', found, hfound, hright⟩
      obtain rfl : pending = found := by simpa using hfound
      exact wp_retryOrReject hright h'
    · rintro e s' _ ⟨-, found, hfound, -⟩
      simp at hfound
  refine .tryCatch hbody (fun _ _ _ h' => ⟨rfl, h'⟩) fun _ s' hi' h' => ?_
  exact .pure hi' ⟨rfl, h'⟩

variable {K : Option (View → Prop)}

theorem keeps_getPending :
    (retryOutline n).Keeps (retriesMeet n) i (Knows n i K) (getPending 1 (.markRetry m error)) := by
  refine .tryCatch (keeps_untouched ?_) fun _ => .pure _
  intro he
  simp at he

theorem keeps_retryOrReject_other (hm : m ≠ n) (hr : ∀ x, receipt = some x → x.receiptNonce = m) :
    (retryOutline n).Keeps (retriesMeet n) i (Knows n i K) (retryOrReject m error receipt) := by
  have hretried : ∀ e t, (retried receipt m e t).receiptNonce ≠ n := by
    intro e t
    cases receipt with
    | none => exact hm
    | some x =>
      have hx : (retried (some x) m e t).receiptNonce = m := hr x rfl
      rw [hx]
      exact hm
  unfold retryOrReject
  split
  · exact .tryCatch (keeps_untouched hm) fun _ => .pure ()
  refine .bind (keeps_untouched hm) fun _ => ?_
  cases error with
  | none => exact .pure ()
  | some e =>
    intro s hi h
    have hu : Untouched n (.insert (retried receipt m e s.currentTimeMillis)) := hretried e _
    exact .getThen (keeps_untouched hu s hi h)

theorem wp_markRetry_other (hm : m ≠ n) (hi : Tracked n s) (h : Knows n i K s) :
    (retryOutline n).Wp (retriesMeet n) i (markRetry m error)
      (fun r s' => r = .ok () ∧ Knows n i K s') s := by
  have hbody : (retryOutline n).Keeps (retriesMeet n) i (Knows n i K)
      (getPending 1 (.markRetry m error) >>= fun pending =>
        retryOrReject m error (pending.find? fun r => r.receiptNonce = m)) := by
    refine .bind keeps_getPending fun pending => ?_
    exact keeps_retryOrReject_other hm fun x hx => by simpa using find?_some hx
  refine .tryCatch (hbody s hi h) (fun _ _ _ h' => ⟨rfl, h'⟩) fun _ s' hi' h' => ?_
  exact .pure hi' ⟨rfl, h'⟩

/-! ## Loops over a batch -/

/-- How often the receipt is in a batch. -/
def inBatch (n : Bytes) (rows : List ReceiptEntity) : Nat :=
  (rows.map ReceiptEntity.receiptNonce).count n

theorem inBatch_cons (r : ReceiptEntity) (rows : List ReceiptEntity) :
    inBatch n (r :: rows) = inBatch n rows + if r.receiptNonce = n then 1 else 0 := by
  simp [inBatch, count_cons]

/-- With `rows` left to mark, the receipt is among them, or has been dealt with. -/
def LeftToMark (n : Bytes) (i c : Nat) (rows : List ReceiptEntity) (s : State) : Prop :=
  (inBatch n rows = 1 ∧ Knows n i (some (Phase (c + 1) (c + 1) c)) s) ∨
    (inBatch n rows = 0 ∧ Knows n i (some Counted) s)

theorem wp_markOne {x : ReceiptEntity} {xs : List ReceiptEntity} (hi : Tracked n s)
    (h : LeftToMark n i c (x :: xs) s) :
    (retryOutline n).Wp (retriesMeet n) i (markRetry x.receiptNonce error)
      (fun r s' => r = .ok () ∧ LeftToMark n i c xs s') s := by
  unfold LeftToMark at h
  rw [inBatch_cons] at h
  by_cases hx : x.receiptNonce = n
  · rw [if_pos hx] at h
    obtain ⟨hcount, hk⟩ := h.resolve_right (by omega)
    rw [hx]
    refine .mono (wp_markRetry hk) ?_
    rintro r s' _ ⟨hr, h'⟩
    exact ⟨hr, .inr ⟨by omega, h'⟩⟩
  · rw [if_neg hx] at h
    rcases h with ⟨hcount, hk⟩ | ⟨hcount, hk⟩
    · refine .mono (wp_markRetry_other hx hi hk) ?_
      rintro r s' _ ⟨hr, h'⟩
      exact ⟨hr, .inl ⟨hcount, h'⟩⟩
    · refine .mono (wp_markRetry_other hx hi hk) ?_
      rintro r s' _ ⟨hr, h'⟩
      exact ⟨hr, .inr ⟨hcount, h'⟩⟩

/-- The failure of a batch that the receipt is in. -/
theorem wp_markAllRetry (hone : inBatch n rows = 1) (hi : Tracked n s)
    (h : Knows n i (some (Phase (c + 1) (c + 1) c)) s) :
    (retryOutline n).Wp (retriesMeet n) i (markAllRetry rows error)
      (fun r s' => r = .ok () ∧ Knows n i (some Counted) s') s := by
  refine .forEach (J := LeftToMark n i c) (E := fun _ _ => False) rows hi
    (.inl ⟨hone, h⟩) (fun x xs s hi h => ?_) ?_ fun _ _ _ hfalse => hfalse.elim
  · refine .mono (wp_markOne hi h) ?_
    rintro r s' _ ⟨rfl, h'⟩
    exact ⟨fun _ _ => h', fun e he => nomatch he⟩
  · rintro s' _ (⟨hcount, -⟩ | ⟨-, h'⟩)
    · simp [inBatch] at hcount
    · exact ⟨rfl, h'⟩

theorem keeps_markAllRetry_other (hno : ∀ r ∈ rows, r.receiptNonce ≠ n) :
    (retryOutline n).Keeps (retriesMeet n) i (Knows n i K) (markAllRetry rows error) := by
  refine .forEach fun r hr s hi h => ?_
  exact .mono (wp_markRetry_other (hno r hr) hi h) fun _ _ _ h' => h'.2

end Retry

/-! ## One flush -/

section Flush
variable {n : Bytes} {i : Nat} {s : State} {c : Nat} {rows : List ReceiptEntity}

variable {response : SubmitResponse} {r : ReceiptEntity}

/-- The nonces in a response are those of the batch. -/
theorem nonces_of_outcome {a : Answer} (h : outcome (.submitBatch rows) a s = some (.ok response)) :
    ∀ m, m ∈ response.acceptedNonces ∨ m ∈ response.rejectedNonces →
      ∃ r ∈ rows, r.receiptNonce = m := by
  have hparse : ∀ body, ∀ m, m ∈ (parseSubmitResponse body rows).acceptedNonces ∨
      m ∈ (parseSubmitResponse body rows).rejectedNonces → ∃ r ∈ rows, r.receiptNonce = m := by
    intro body m hm
    cases body with
    | counters accepted rejected =>
      rcases hm with hm | hm
      · obtain ⟨r, hr, he⟩ := mem_map.1 hm
        exact ⟨r, mem_of_mem_take hr, he⟩
      · obtain ⟨r, hr, he⟩ := mem_map.1 hm
        exact ⟨r, mem_of_mem_drop (mem_of_mem_take hr), he⟩
    | other =>
      rcases hm with hm | hm
      · simp [parseSubmitResponse] at hm
      · exact mem_map.1 hm
  cases a with
  | ok | throws => simp [outcome] at h
  | http status body error =>
    simp only [outcome, Option.some.injEq, submitOutcome] at h
    split at h
    · rw [← Except.ok.inj h]
      exact hparse body
    · repeat' split at h
      all_goals simp at h

theorem keeps_recordResponse_other (hno : ∀ r ∈ rows, r.receiptNonce ≠ n)
    (hr : ∀ m, m ∈ response.acceptedNonces ∨
      m ∈ response.rejectedNonces → ∃ r ∈ rows, r.receiptNonce = m) :
    (retryOutline n).Keeps (retriesMeet n) i (Knows n i none) (recordResponse rows response) := by
  have hne : ∀ m, m ∈ response.acceptedNonces ∨ m ∈ response.rejectedNonces → m ≠ n := by
    intro m hm he
    obtain ⟨r, hmem, hrm⟩ := hr m hm
    exact hno r hmem (hrm.trans he)
  unfold recordResponse
  split
  · refine .bind (.tryCatch (keeps_untouched ?_) fun _ => .pure ()) ?_
    · exact fun hn => hne n (.inl hn) rfl
    intro _
    refine .forEach fun m hm => ?_
    refine .tryCatch (keeps_untouched ?_) fun _ => .pure ()
    exact hne m (.inr hm)
  · exact keeps_markAllRetry_other hno

theorem keeps_update {K : Option (View → Prop)} (hr : r.receiptNonce ≠ n) :
    (retryOutline n).Keeps (retriesMeet n) i (Knows n i K) (update r) :=
  .tryCatch (keeps_untouched hr) fun _ => .throw _

/-- A flush that has read other receipts only. -/
theorem keeps_submitPending_other (hno : ∀ r ∈ rows, r.receiptNonce ≠ n) :
    (retryOutline n).Keeps (retriesMeet n) i (Knows n i none) (submitPending rows) := by
  refine .bind (.forEach fun r hr => keeps_update (hno r hr)) fun _ => ?_
  refine .bind (fun s _ h => ?_) fun _ => ?_
  · refine .op fun _ => ⟨?_, fun _ => h⟩
    rintro ⟨r, hr, hn⟩
    exact absurd hn (hno r hr)
  refine .tryCatch (fun s _ h => ?_) fun _ => keeps_markAllRetry_other hno
  have hsubmit : (retryOutline n).Wp (retriesMeet n) i (dao (.submitBatch rows)) (fun o s' =>
      Knows n i none s' ∧ ∀ response, o = .ok response → ∀ m, m ∈ response.acceptedNonces ∨
        m ∈ response.rejectedNonces → ∃ r ∈ rows, r.receiptNonce = m) s := by
    have hu : Untouched n (.submitBatch rows) := hno
    refine .await fun s1 hr1 ht1 => ⟨allowed_of_untouched hu, ?_⟩
    intro r s2 o hp _ _ s3 hr3 _
    refine ⟨(knows_of_perform ht1 (h.rely hr1) hu hp).rely hr3, fun response he => ?_⟩
    subst he
    exact nonces_of_outcome (perform_eq_some hp).1
  refine .bind hsubmit (fun response s' hi' h' => ?_) fun _ _ _ h' => h'.1
  exact keeps_recordResponse_other hno (h'.2 response rfl) s' hi' h'.1

/-- Writing a copy back that is as old as the flush. -/
theorem keeps_update_held (hr : r.receiptNonce = n → r.retryCount = c) :
    (retryOutline n).Keeps (retriesMeet n) i (Knows n i (some (Phase c c c)))
      (update { r with state := .QUEUED }) := by
  by_cases hn : r.receiptNonce = n
  · intro s hi h
    have hinsert : (retryOutline n).Wp (retriesMeet n) i (dao (.insert { r with state := .QUEUED }))
        (fun _ s' => Knows n i (some (Phase c c c)) s') s := by
      refine wp_held (by simp) (fun _ hheld _ _ => .inr ⟨hheld, by simp⟩) (fun s o _ hp _ => ?_) h
      cases o with
      | error message => exact hp
      | ok u => exact phase_insert hp hn (by simp [ReceiptEntity.isPending]) (hr hn)
    exact .tryCatch hinsert (fun _ _ _ h' => h') fun _ _ hi' h' => .throw hi' h'
  · exact keeps_update hn

/-- The batch with the receipt is submitted, in vain. -/
theorem wp_submitBatch (hone : inBatch n rows = 1) (h : Knows n i (some (Phase c (c + 1) c)) s) :
    (retryOutline n).Wp (retriesMeet n) i
      (Async.tryCatch (dao (.submitBatch rows) >>= fun response => recordResponse rows response)
        fun message => markAllRetry rows message)
      (fun _ s' => Knows n i (some Counted) s') s := by
  have hsubmit : (retryOutline n).Wp (retriesMeet n) i (dao (.submitBatch rows)) (fun o s' =>
      Knows n i (some fun v => Phase (c + 1) (c + 1) c v ∧ failed o = true) s') s := by
    refine wp_held (by simp) (fun s hheld hp _ => ?_) (fun s o _ hp hc => ?_) h
    · obtain ⟨hf, -, hle, -⟩ := hp
      have hf' : s.failures.count n = c := hf
      exact ⟨hheld, Nat.le_of_eq hone, by omega⟩
    have hmem : ∃ r ∈ rows, r.receiptNonce = n := by
      have hpos : 0 < inBatch n rows := by omega
      exact mem_map.1 (count_pos_iff.1 hpos)
    have hfail := failed_of_retryMeets hc hmem
    obtain ⟨hf, hs, hle, hrow⟩ := hp
    rw [effect, view_answerSubmit rows hfail]
    exact ⟨⟨by rw [← hf]; exact congrArg _ hone, hs, hle, hrow⟩, hfail⟩
  have hbody : (retryOutline n).Wp (retriesMeet n) i
      (dao (.submitBatch rows) >>= fun response => recordResponse rows response) (fun r s' =>
        (∀ a, r = .ok a → Knows n i (some Counted) s') ∧
          ∀ e, r = .error e → Knows n i (some (Phase (c + 1) (c + 1) c)) s') s := by
    refine .bind hsubmit (fun response s' hi' h' => ?_) fun e s' _ h' => ?_
    · have hno : response.success = false := by simpa [failed] using h'.2.2
      unfold recordResponse
      rw [if_neg (by simp [hno])]
      refine .mono (wp_markAllRetry hone hi' (h'.mono And.left)) ?_
      rintro r s'' _ ⟨rfl, h''⟩
      exact ⟨fun _ _ => h'', fun e he => by cases he⟩
    · exact ⟨fun a ha => absurd ha (by simp), fun _ _ => h'.mono And.left⟩
  refine .tryCatch hbody (fun a _ _ h' => h'.1 a rfl) fun e s' hi' h' => ?_
  exact .mono (wp_markAllRetry hone hi' (h'.2 e rfl)) fun _ _ _ h'' => h''.2

/-- A flush that has read the receipt. -/
theorem wp_submitPending (hone : inBatch n rows = 1)
    (hr : ∀ r ∈ rows, r.receiptNonce = n → r.retryCount = c) (hi : Tracked n s)
    (h : Knows n i (some (Phase c c c)) s) :
    (retryOutline n).Wp (retriesMeet n) i (submitPending rows)
      (fun _ s' => Knows n i (some Counted) s') s := by
  have hloop : (retryOutline n).Keeps (retriesMeet n) i (Knows n i (some (Phase c c c)))
      (Async.forEach (fun r => update { r with state := .QUEUED }) rows) :=
    .forEach fun r hmem => keeps_update_held (hr r hmem)
  refine .bind (hloop s hi h) (fun _ s1 hi1 h1 => ?_) fun _ _ _ h' => h'.mono Phase.counted
  have hop : (retryOutline n).Wp (retriesMeet n) i (exec (.submitting rows))
      (fun r s' => r = .ok () ∧ Knows n i (some (Phase c (c + 1) c)) s') s1 := by
    obtain ⟨hf, hs, hle, hrow⟩ := h1.2
    have hs' : s1.submitted.count n = c := hs
    refine .op fun _ => ⟨fun _ => ⟨h1.1, Nat.le_of_eq hone, by omega⟩, fun _ => ?_⟩
    refine ⟨rfl, h1.1, hf, ?_, hle, hrow⟩
    simp only [view, apply, count_append, hs']
    exact congrArg _ hone
  refine .bind hop (fun _ s2 _ h2 => ?_) fun _ _ _ h' => by cases h'.1
  exact wp_submitBatch hone h2.2

/-- What a flush has read: not the receipt, or the receipt once, as its row is. -/
def Read (n : Bytes) (i : Nat) (rows : List ReceiptEntity) (s : State) : Prop :=
  ((∀ r ∈ rows, r.receiptNonce ≠ n) ∧ Knows n i none s) ∨
    ∃ c : Nat, inBatch n rows = 1 ∧ (∀ r ∈ rows, r.receiptNonce = n → r.retryCount = c) ∧
      Knows n i (some (Phase c c c)) s

theorem nodup_oldestPending {receipts : List ReceiptEntity} (limit : Nat)
    (h : Keyed receiptNonce receipts) :
    ((oldestPending limit receipts).map receiptNonce).Nodup := by
  refine List.Nodup.sublist ((take_sublist _ _).map _) ?_
  have hperm := (perm_insertionSort (fun a b : ReceiptEntity => a.createdAt ≤ b.createdAt)
    (receipts.filter ReceiptEntity.isPending)).map receiptNonce
  exact hperm.nodup_iff.2 (h.filter _)

theorem read_of_hold (ht : Tracked n s) (hfree : (i, n) ∉ s.held) {limit : Nat}
    (hc : retryMeets n s (.getPending limit .flush) (.ok (oldestPending limit s.receipts)) = true) :
    Read n i (oldestPending limit s.receipts)
      (s.hold i .flush (oldestPending limit s.receipts)) := by
  by_cases hn : ∃ r ∈ oldestPending limit s.receipts, r.receiptNonce = n
  · obtain ⟨r, hr, hrn⟩ := hn
    have hnobody : ∀ x ∈ s.held, x.2 ≠ n := by
      simp only [retryMeets, Bool.or_eq_true, all_eq_true, decide_eq_true_eq] at hc
      exact hc.resolve_left fun hall => hall r hr hrn
    have hrow : ∀ x ∈ oldestPending limit s.receipts, x.receiptNonce = n →
        (view n s).row = some x := fun x hx hxn =>
      ht.keyed.lookup_iff.2 ⟨(mem_of_mem_oldestPending hx).1, hxn⟩
    obtain ⟨hsub, hright⟩ := ht.counted hnobody
    have hpending := (mem_of_mem_oldestPending hr).2
    rcases hright r (hrow r hr hrn) with ⟨hle, hp, hcount⟩ | ⟨-, hst⟩
    · refine .inr ⟨(view n s).failures, ?_, fun x hx hxn => ?_, ?_, ?_⟩
      · refine count_eq_one_of_mem (nodup_oldestPending limit ht.keyed) ?_
        rw [← hrn]
        exact mem_map_of_mem hr
      · obtain rfl : r = x := Option.some.inj ((hrow r hr hrn).symm.trans (hrow x hx hxn))
        exact hcount
      · refine mem_append_right _ (mem_map.2 ⟨r, hr, ?_⟩)
        rw [hrn]
      · exact ⟨rfl, hsub, hle, r, hrow r hr hrn, hp, hcount⟩
    · simp [ReceiptEntity.isPending, hst] at hpending
  · have hno : ∀ r ∈ oldestPending limit s.receipts, r.receiptNonce ≠ n := fun r hr hrn =>
      hn ⟨r, hr, hrn⟩
    refine .inl ⟨hno, fun hi => ?_⟩
    rcases mem_append.1 hi with hi | hi
    · exact hfree hi
    · obtain ⟨r, hr, he⟩ := mem_map.1 hi
      exact hno r hr (congrArg Prod.snd he)

theorem Read.rely {s' : State} (h : Read n i rows s) (hr : (retryOutline n).Rely i s s') :
    Read n i rows s' := by
  rcases h with ⟨hno, hk⟩ | ⟨c, hone, hsame, hk⟩
  · exact .inl ⟨hno, hk.rely hr⟩
  · exact .inr ⟨c, hone, hsame, hk.rely hr⟩

theorem wp_read (hfree : (i, n) ∉ s.held) :
    (retryOutline n).Wp (retriesMeet n) i (getPending MAX_BATCH_SIZE .flush)
      (fun r s' => ∃ rows, r = .ok rows ∧ Read n i rows s') s := by
  have hnil : ∀ s, (i, n) ∉ s.held → Read n i [] s := fun s h =>
    .inl ⟨fun r hr => absurd hr (by simp), h⟩
  have hquery : (retryOutline n).Wp (retriesMeet n) i (dao (.getPending MAX_BATCH_SIZE .flush))
      (fun r s' => Read n i (rowsOf r) s') s := by
    refine .await fun s1 hr1 ht1 => ⟨trivial, fun r s2 o hp hc _ s3 hr3 _ => ?_⟩
    have hfree1 : (i, n) ∉ s1.held := fun hi => hfree (hr1.1.1 hi)
    obtain ⟨ho, rfl⟩ := perform_eq_some hp
    have ht' : Tracked n { s1 with currentTimeMillis := r.currentTimeMillis } :=
      .congr ht1 ht1.keyed rfl .rfl rfl
    refine .rely ?_ hr3
    cases o with
    | error message => exact hnil _ hfree1
    | ok found =>
      have hfound := rows_of_outcome ho
      subst hfound
      exact read_of_hold ht' hfree1 hc
  refine .tryCatch hquery (fun found _ _ h => ⟨found, rfl, h⟩) fun _ s' hi' h => ?_
  exact .pure hi' ⟨[], rfl, h⟩

/-- Letting go of the receipt, if it was held. -/
theorem wp_release (h : Knows n i none s ∨ Knows n i (some Counted) s)
    (r : Except (Option String) Unit) :
    (retryOutline n).Wp (retriesMeet n) i (exec .release >>= fun _ => ofExcept r)
      (fun _ s' => (i, n) ∉ s'.held) s := by
  have hop : (retryOutline n).Wp (retriesMeet n) i (exec .release)
      (fun _ s' => (i, n) ∉ s'.held) s := by
    refine .op fun _ => ⟨fun hheld => ?_, fun _ hheld => ?_⟩
    · rcases h with h | h
      · exact absurd hheld h
      · exact h.2
    · simp [apply] at hheld
  refine .bind hop (fun _ s' hi' h' => ?_) fun _ _ _ h' => h'
  cases r with
  | ok a => exact .pure hi' h'
  | error e => exact .throw hi' h'

theorem safe_flush (hfree : (i, n) ∉ s.held) :
    (retryOutline n).Safe (retriesMeet n) i processPendingSubmissions.toTask s := by
  have hwp : (retryOutline n).Wp (retriesMeet n) i processPendingSubmissions
      (fun _ s' => (i, n) ∉ s'.held) s := by
    refine .bind (wp_read hfree) ?_ ?_
    · rintro rows s' hi' ⟨rows', he, hread⟩
      obtain rfl : rows = rows' := by simpa using he
      split
      · rename_i hempty
        obtain rfl := isEmpty_iff.1 hempty
        refine .pure hi' ?_
        rcases hread with ⟨-, hk⟩ | ⟨c, hone, -⟩
        · exact hk
        · simp [inBatch] at hone
      · have hsubmit : (retryOutline n).Wp (retriesMeet n) i (submitPending rows)
            (fun _ s'' => Knows n i none s'' ∨ Knows n i (some Counted) s'') s' := by
          rcases hread with ⟨hno, hk⟩ | ⟨c, hone, hsame, hk⟩
          · exact .mono (keeps_submitPending_other hno s' hi' hk) fun _ _ _ => .inl
          · exact .mono (wp_submitPending hone hsame hi' hk) fun _ _ _ => .inr
        exact .settle hsubmit fun r s'' _ h'' => wp_release h'' r
    · rintro e s' _ ⟨rows, he, -⟩
      simp at he
  exact hwp.toTask fun _ _ _ h => h

end Flush

theorem keeps_createReceipt (q : NewReceipt) (t : Int) :
    (retryOutline n).Keeps (retriesMeet n) i (Knows n i none) (dao (.insert (newReceipt q t))) := by
  refine .await (fun s s' h hr _ => h.rely hr) (fun s _ _ _ => .inl ⟨rfl, rfl⟩) ?_
  intro s r s' o _ h hp _
  obtain ⟨-, rfl⟩ := perform_eq_some hp
  cases o with
  | error | ok => exact h

theorem safe_retries (n : Bytes) (c : Cmd) (i : Nat) (s : State) (hi : Tracked n s)
    (hfree : (i, n) ∉ s.held) : (retryOutline n).Safe (retriesMeet n) i (prog c) s := by
  cases c with
  | processPendingSubmissions => exact safe_flush hfree
  | createReceipt q =>
    have hsave : (retryOutline n).Keeps (retriesMeet n) i (Knows n i none)
        (save (newReceipt q s.currentTimeMillis)) :=
      .tryCatch (keeps_createReceipt q _) fun _ => .throw _
    exact Spec.Wp.toTask (Spec.Wp.getThen (hsave s hi hfree)) fun _ _ _ h => h
  | cleanup =>
    have hrun : (retryOutline n).Keeps (retriesMeet n) i (Knows n i none) cleanup := by
      refine .tryCatch (fun s' hi' h' => .getThen ?_) fun _ => .pure ()
      exact keeps_untouched (by trivial) s' hi' h'
    exact Spec.Wp.toTask (hrun s hi hfree) fun _ _ _ h => h

/-- Where the condition is met, four failures end the retries of a receipt, whatever else is pending. -/
theorem retriesBounded_of_retriesMeet (n : Bytes) {w : Sys machine}
    (h : Reach (retriesMeet n) prog IsEmpty w) : RetriesBounded n w.state := by
  have hinit : ∀ s, IsEmpty s → Tracked n s := by
    rintro s ⟨t, rfl⟩
    exact tracked_empty n t
  have hfree : ∀ s i, IsEmpty s → (retryOutline n).Fin i s := by
    rintro s i ⟨t, rfl⟩ hi
    simp [State.empty] at hi
  have hw := (retryOutline_sound n).reach hinit hfree (safe_retries n) h
  exact hw.inv.retriesBounded

/-- A single receipt is submitted four times in vain. -/
def fourFailures : List (Move machine Cmd) :=
  List.flatten [create 0 1 1001, flush 1 1 1002 unavailable 3, flush 2 1 1003 unavailable 3,
    flush 3 1 1004 unavailable 3, flush 4 1 1005 unavailable 2]

theorem retriesBounded_fourFailures :
    ∃ w, initially.run (retriesMeet [1]) prog fourFailures = some w ∧
      w.state.receipts.map (fun r => (r.state, r.retryCount)) = [(.REJECTED, 3)] ∧
      RetriesBounded [1] w.state := by
  have hw : (initially.run (retriesMeet [1]) prog fourFailures).map
      (fun w => w.state.receipts.map fun r => (r.state, r.retryCount)) = some [(.REJECTED, 3)] := by
    decide
  rw [Option.map_eq_some_iff] at hw
  obtain ⟨w, hrun, hrows⟩ := hw
  exact ⟨w, hrun, hrows, retriesBounded_of_retriesMeet [1] (.of_run isEmpty_empty hrun)⟩

/-- All submissions of the receipt fail, every statement goes through, and a flush starts when the one
    before is done. -/
def submissionsFail (n : Bytes) : Cond machine where
  op _ _ _ := true
  call _ s c o :=
    match c, o with
    | .submitBatch receipts, o => (receipts.all fun r => r.receiptNonce ≠ n) || failed o
    | .getPending _ .flush, o => s.held.isEmpty && succeeded o
    | _, o => succeeded o

/-- Two receipts are submitted four times in vain. -/
def bothFailFourTimes : List (Move machine Cmd) :=
  List.flatten [create 0 1 1001, create 1 2 1002, flush 2 2 1003 unavailable 6,
    flush 3 2 1004 unavailable 6, flush 4 2 1005 unavailable 6, flush 5 2 1006 unavailable 5]

/-- After four failures the second of two receipts is pending, with a count of two. -/
theorem bothFailFourTimes_not_retriesBounded :
    ¬ ∀ (n : Bytes) (w : Sys machine), Reach (submissionsFail n) prog IsEmpty w →
      RetriesBounded n w.state := by
  intro hall
  have hw : (initially.run (submissionsFail [2]) prog bothFailFourTimes).map
      (fun w => (w.state.held, w.state.failures.count [2], w.state.receipts.any fun r =>
        r.receiptNonce = [2] && r.state = .RETRY_WAIT && r.retryCount = 2)) =
      some ([], 4, true) := by decide
  rw [Option.map_eq_some_iff] at hw
  obtain ⟨w, hrun, hobs⟩ := hw
  simp only [Prod.mk.injEq, any_eq_true, Bool.and_eq_true, decide_eq_true_eq] at hobs
  obtain ⟨hheld, hfailures, r, hr, ⟨hn, hst⟩, -⟩ := hobs
  have hb := (hall [2] w (.of_run isEmpty_empty hrun)).counted (by simp [hheld]) r hr hn
  rw [hfailures, if_neg (by decide), hst] at hb
  simp at hb

end ReceiptStore
