import SovereignMobile.EventLoop.Wp
import SovereignMobile.Pouw.ReceiptStore

/-! # What becomes of a stored receipt

A flush writes receipts back from copies that it has read earlier. As long as each write goes to a
receipt that has not reached a final state, and each retry finds the receipt it is for, a receipt
keeps its content and its final state. -/

namespace ReceiptStore

open EventLoop KeyedTable List Bool

/-- A receipt without what flushes may change. -/
def content (r : ReceiptEntity) : ReceiptEntity :=
  { r with state := .CREATED, retryCount := 0, lastError := none }

/-- A stored receipt is what was created under its nonce, and once it was accepted or rejected it is
    not pending. -/
structure Intact (s : State) : Prop where
  unchanged : ∀ r ∈ s.receipts, ∀ c ∈ s.created, c.receiptNonce = r.receiptNonce →
    content r = content c
  final : ∀ r ∈ s.receipts, r.receiptNonce ∈ s.settled → r.isPending = false

/-- A nonce is created anew only with the same content, no row of a settled nonce is put back to a
    pending state, and `markRetry` with an error to store finds the receipt that it is for. -/
def writesKeep (s : State) (c : Call) (o : Except (Option String) (Ret c)) : Bool :=
  match c, o with
  | .insert r, .ok _ => !s.settled.contains r.receiptNonce && (r.state ≠ .CREATED ||
      s.created.all fun c => c.receiptNonce ≠ r.receiptNonce || content c = content r)
  | .markRetry n, .ok _ => !s.settled.contains n || s.receipts.all fun r => r.receiptNonce ≠ n
  | .getPending _ (.markRetry n (some _)), .ok [r] => r.receiptNonce = n
  | .getPending _ (.markRetry _ (some _)), _ => false
  | _, _ => true

def keepsReceipts : Cond machine where
  op _ _ _ := true
  call _ s c o := writesKeep s c o

/-! ## The table -/

/-- `r` is a receipt that was created, up to what flushes may change. -/
def Genuine (s : State) (r : ReceiptEntity) : Prop := ∃ c ∈ s.created, content c = content r

structure Sourced (s : State) : Prop where
  genuine : ∀ r ∈ s.receipts, Genuine s r
  agree : ∀ c ∈ s.created, ∀ c' ∈ s.created, c.receiptNonce = c'.receiptNonce →
    content c = content c'
  final : ∀ r ∈ s.receipts, r.receiptNonce ∈ s.settled → r.isPending = false

variable {r : ReceiptEntity} {s s' : State} {i : Nat} {c : Call}
    {o : Except (Option String) (Ret c)} {rows : List ReceiptEntity}

theorem nonce_eq_of_content {r' : ReceiptEntity} (h : content r = content r') :
    r.receiptNonce = r'.receiptNonce := by
  have hn := congrArg ReceiptEntity.receiptNonce h
  exact hn

theorem Sourced.intact (h : Sourced s) : Intact s := by
  refine ⟨fun r hr c hc hn => ?_, h.final⟩
  obtain ⟨c0, hc0, he⟩ := h.genuine r hr
  rw [← he]
  exact h.agree c0 hc0 c hc ((nonce_eq_of_content he).trans hn.symm)

theorem sourced_empty (t : Int) : Sourced (State.empty t) :=
  ⟨by simp [State.empty], by simp [State.empty], by simp [State.empty]⟩

section Statements
variable {s : State}

variable {r : ReceiptEntity} {i : Nat} {c : Call} {o : Except (Option String) (Ret c)}

theorem Genuine.mono {s' : State} (h : Genuine s r) (hsub : s.created ⊆ s'.created) :
    Genuine s' r := by
  obtain ⟨c, hc, he⟩ := h
  exact ⟨c, hsub hc, he⟩

theorem created_subset_insert (r : ReceiptEntity) : s.created ⊆ (s.insert r).created := by
  intro c hc
  unfold State.insert
  split
  · exact mem_append_left _ hc
  · exact hc

theorem Sourced.insert (h : Sourced s) (hr : r.state = .CREATED ∨ Genuine s r)
    (hc : writesKeep s (.insert r) (.ok ()) = true) : Sourced (s.insert r) := by
  simp only [writesKeep, and_eq_true, or_eq_true, decide_eq_true_eq, all_eq_true] at hc
  obtain ⟨hns, hnew⟩ := hc
  have hns' : r.receiptNonce ∉ s.settled := by simpa using hns
  refine ⟨fun x hx => ?_, ?_, fun x hx hset => ?_⟩
  · rcases mem_replace.1 hx with ⟨hx, -⟩ | rfl
    · exact (h.genuine x hx).mono (created_subset_insert r)
    rcases hr with hr | hr
    · exact ⟨x, by simp [State.insert, hr], rfl⟩
    · exact hr.mono (created_subset_insert x)
  · unfold State.insert
    split
    · rename_i hst
      have hold : ∀ c ∈ s.created, c.receiptNonce = r.receiptNonce → content c = content r := by
        intro c hc hn
        rcases hnew with hne | hall
        · exact absurd hst hne
        · exact (hall c hc).resolve_left (by simpa using hn)
      intro c hc c' hc' hn
      rcases mem_append.1 hc with hold1 | hnew1 <;> rcases mem_append.1 hc' with hold2 | hnew2
      · exact h.agree c hold1 c' hold2 hn
      · rw [mem_singleton.1 hnew2] at hn ⊢
        exact hold c hold1 hn
      · rw [mem_singleton.1 hnew1] at hn ⊢
        exact (hold c' hold2 hn.symm).symm
      · rw [mem_singleton.1 hnew1, mem_singleton.1 hnew2]
    · exact h.agree
  · rcases mem_replace.1 hx with ⟨hx, -⟩ | rfl
    · exact h.final x hx hset
    · exact absurd hset hns'

/-- An update that sets the rows that it matches to a final state. -/
theorem Sourced.settleRows (h : Sourced s) (matching : Bytes → Bool)
    {f : ReceiptEntity → ReceiptEntity} (hf : ∀ r, content (f r) = content r)
    (hp : ∀ r, (f r).isPending = false) :
    Sourced ((s.settle matching).updateRows matching f) := by
  refine ⟨fun r hr => ?_, h.agree, fun r hr hset => ?_⟩
  · obtain ⟨r0, hr0, rfl⟩ := mem_updateWhere.1 hr
    split
    · obtain ⟨c, hc, he⟩ := h.genuine r0 hr0
      exact ⟨c, hc, he.trans (hf r0).symm⟩
    · exact h.genuine r0 hr0
  obtain ⟨r0, hr0, rfl⟩ := mem_updateWhere.1 hr
  split
  · exact hp r0
  rename_i hm
  rw [if_neg hm] at hset
  rcases mem_append.1 hset with hset | hset
  · exact h.final r0 hr0 hset
  · exact absurd (mem_filter.1 hset).2 hm

theorem Sourced.markRetry (h : Sourced s) {n : Bytes}
    (hc : writesKeep s (.markRetry n) (.ok ()) = true) : Sourced (s.markRetry n) := by
  simp only [writesKeep, or_eq_true, all_eq_true, decide_eq_true_eq] at hc
  refine ⟨fun r hr => ?_, h.agree, fun r hr hset => ?_⟩
  · obtain ⟨r0, hr0, rfl⟩ := mem_updateWhere.1 hr
    obtain ⟨c, hc, he⟩ := h.genuine r0 hr0
    split
    · exact ⟨c, hc, he⟩
    · exact ⟨c, hc, he⟩
  obtain ⟨r0, hr0, rfl⟩ := mem_updateWhere.1 hr
  split
  · rename_i hm
    rw [if_pos hm] at hset
    have hn : r0.receiptNonce = n := of_decide_eq_true hm
    rcases hc with hc | hc
    · have hset' : n ∈ s.settled := hn ▸ hset
      simp [hset'] at hc
    · exact absurd hn (hc r0 hr0)
  · rename_i hm
    rw [if_neg hm] at hset
    exact h.final r0 hr0 hset

theorem Sourced.deleteOldAccepted (h : Sourced s) (before : Int) :
    Sourced (s.deleteOldAccepted before) :=
  ⟨fun r hr => h.genuine r (mem_filter.1 hr).1, h.agree, fun r hr => h.final r (mem_filter.1 hr).1⟩

theorem Sourced.effect (h : Sourced s)
    (hpre : ∀ r, c = .insert r → r.state = .CREATED ∨ Genuine s r) (hc : writesKeep s c o = true) :
    Sourced (effect i c o s) := by
  cases c with
  | submitBatch receipts =>
    simp only [ReceiptStore.effect, State.answerSubmit]
    split
    · exact ⟨h.genuine, h.agree, h.final⟩
    · exact h
  | getPending limit purpose =>
    cases o with
    | error message => exact h
    | ok rows =>
      cases purpose with
      | flush => exact ⟨h.genuine, h.agree, h.final⟩
      | markRetry n error => exact h
  | insert r =>
    cases o with
    | error message => exact h
    | ok u => exact h.insert (hpre r rfl) hc
  | markAccepted nonces =>
    cases o with
    | error message => exact h
    | ok u =>
      exact h.settleRows _ (fun _ => rfl) fun _ => rfl
  | markRejected n reason =>
    cases o with
    | error message => exact h
    | ok u =>
      exact h.settleRows (fun n' => n' = n) (fun _ => rfl) fun _ => rfl
  | markRetry n =>
    cases o with
    | error message => exact h
    | ok u => exact h.markRetry hc
  | deleteOldAccepted before =>
    cases o with
    | error message => exact h
    | ok u => exact h.deleteOldAccepted before

theorem created_subset_effect : s.created ⊆ (effect i c o s).created := by
  cases c with
  | submitBatch receipts =>
    simp only [effect, State.answerSubmit]
    split <;> exact List.Subset.refl _
  | insert r =>
    cases o with
    | error message => exact List.Subset.refl _
    | ok u => exact created_subset_insert r
  | getPending limit purpose => cases o <;> cases purpose <;> exact List.Subset.refl _
  | _ => cases o <;> exact List.Subset.refl _

end Statements

/-- A performed call does what its outcome says, at the time of the reply. -/
theorem perform_eq_some {r : Reply} (h : perform i c r s = some (s', o)) :
    outcome c r.answer s = some o ∧
      s' = effect i c o { s with currentTimeMillis := r.currentTimeMillis } := by
  unfold perform at h
  rw [Option.map_eq_some_iff] at h
  obtain ⟨x, hx, he⟩ := h
  rw [Prod.mk.injEq] at he
  obtain ⟨rfl, rfl⟩ := he
  exact ⟨hx, rfl⟩

theorem created_subset_of_perform {r : Reply} (h : perform i c r s = some (s', o)) :
    s.created ⊆ s'.created := by
  obtain ⟨-, rfl⟩ := perform_eq_some h
  have hsub := created_subset_effect (s := { s with currentTimeMillis := r.currentTimeMillis })
    (i := i) (o := o)
  exact hsub

/-! ## The programs -/

/-- Only created receipts and copies of stored ones are inserted. -/
def contentOutline : Spec machine where
  Inv := Sourced
  Rely _ s s' := s.created ⊆ s'.created
  OpPre _ _ _ := True
  CallPre _ s c := ∀ r, c = .insert r → r.state = .CREATED ∨ Genuine s r
  Fin _ _ := True

theorem contentOutline_sound : contentOutline.Sound keepsReceipts where
  refl _ _ := List.Subset.refl _
  trans _ _ _ _ h1 h2 := List.Subset.trans h1 h2
  op i s o hi _ _ := by
    cases o with
    | submitting | release =>
      exact ⟨⟨hi.genuine, hi.agree, hi.final⟩, fun _ _ => List.Subset.refl _⟩
  call i s c r s' o hi hpre hp hc := by
    have hsub := created_subset_of_perform hp
    obtain ⟨-, rfl⟩ := perform_eq_some hp
    have hi' : Sourced { s with currentTimeMillis := r.currentTimeMillis } :=
      ⟨hi.genuine, hi.agree, hi.final⟩
    exact ⟨hi'.effect hpre hc, fun _ _ => hsub⟩
  fin _ _ _ _ _ _ := trivial

/-- What a flush knows of the receipts it has read. -/
def AllGenuine (rows : List ReceiptEntity) (s : State) : Prop := ∀ r ∈ rows, Genuine s r

theorem AllGenuine.mono (h : AllGenuine rows s) (hsub : s.created ⊆ s'.created) :
    AllGenuine rows s' := fun r hr => (h r hr).mono hsub

theorem mem_of_mem_oldestPending {limit : Nat} (h : r ∈ oldestPending limit rows) :
    r ∈ rows ∧ r.isPending = true := by
  have hr := (mem_insertionSort _).1 (mem_of_mem_take h)
  exact mem_filter.1 hr

section Programs
variable {i : Nat} {rows : List ReceiptEntity}

variable {c : Call} {s : State}

theorem keeps_dao (hpre : ∀ s, AllGenuine rows s → contentOutline.CallPre i s c) :
    contentOutline.Keeps keepsReceipts i (AllGenuine rows) (dao c) := by
  refine .await (fun s s' h hr _ => h.mono hr) (fun s _ h => hpre s h) ?_
  intro s r s' o _ h hp _
  exact .mono h (created_subset_of_perform hp)

theorem keeps_statement (hc : ∀ r, c ≠ .insert r) :
    contentOutline.Keeps keepsReceipts i (AllGenuine rows) (dao c) :=
  keeps_dao fun _ _ r he => absurd he (hc r)

theorem found_of_writesKeep {limit : Nat} {n : Bytes} {error : String}
    {o : Except (Option String) (List ReceiptEntity)}
    (h : writesKeep s (.getPending limit (.markRetry n (some error))) o = true) :
    ∃ x, o = .ok [x] ∧ x.receiptNonce = n := by
  rcases o with message | found
  · simp [writesKeep] at h
  rcases found with _ | ⟨x, _ | ⟨y, rest⟩⟩
  · simp [writesKeep] at h
  · exact ⟨x, rfl, of_decide_eq_true h⟩
  · simp [writesKeep] at h

theorem wp_getPending (limit : Nat) (purpose : Purpose) (h : AllGenuine rows s) :
    contentOutline.Wp keepsReceipts i (getPending limit purpose) (fun r s' =>
      AllGenuine rows s' ∧ ∀ found, r = .ok found → AllGenuine found s' ∧
        ∀ n error, purpose = .markRetry n (some error) →
          ∃ x, found = [x] ∧ x.receiptNonce = n) s := by
  have hq : contentOutline.Wp keepsReceipts i (dao (.getPending limit purpose)) (fun r s' =>
      AllGenuine rows s' ∧ (∀ found, r = .ok found → AllGenuine found s') ∧
        ∀ n error, purpose = .markRetry n (some error) →
          ∃ x, r = .ok [x] ∧ x.receiptNonce = n) s := by
    refine .await fun s1 hr1 hi1 => ⟨fun r he => absurd he (by simp), ?_⟩
    intro r s2 o hp hc _ s3 hr3 _
    have hsub : s1.created ⊆ s3.created := List.Subset.trans (created_subset_of_perform hp) hr3
    obtain ⟨ho, -⟩ := perform_eq_some hp
    refine ⟨(h.mono hr1).mono hsub, fun found he => ?_, ?_⟩
    · subst he
      cases ha : r.answer with
      | ok =>
        rw [ha] at ho
        cases ho
        intro x hx
        exact (hi1.genuine x (mem_of_mem_oldestPending hx).1).mono hsub
      | throws | http => simp [ha, outcome] at ho
    · rintro n error rfl
      exact found_of_writesKeep hc
  refine .tryCatch hq ?_ ?_
  · rintro found s' _ ⟨h', hgen, hfound⟩
    refine ⟨h', fun found' he => ?_⟩
    obtain rfl : found = found' := by simpa using he
    refine ⟨hgen found rfl, fun n error hp => ?_⟩
    obtain ⟨x, hx, hn⟩ := hfound n error hp
    exact ⟨x, by simpa using hx, hn⟩
  · rintro e s' hi' ⟨h', -, hfound⟩
    refine .pure hi' ⟨h', fun found he => ?_⟩
    obtain rfl : [] = found := by simpa using he
    refine ⟨fun x hx => absurd hx (by simp), fun n error hp => ?_⟩
    obtain ⟨x, hx, -⟩ := hfound n error hp
    simp at hx

theorem keeps_retryOrReject (n : Bytes) (error : Option String) (receipt : Option ReceiptEntity)
    (hr : ∀ e, error = some e → ∃ x ∈ rows, receipt = some x) :
    contentOutline.Keeps keepsReceipts i (AllGenuine rows) (retryOrReject n error receipt) := by
  unfold retryOrReject
  split
  · exact .tryCatch (keeps_statement (by simp)) fun _ => .pure ()
  refine .bind (keeps_statement (by simp)) fun _ => ?_
  cases error with
  | none => exact .pure ()
  | some e =>
    obtain ⟨x, hx, rfl⟩ := hr e rfl
    intro s hi h
    refine .getThen (keeps_dao (fun s' h' y he => ?_) s hi h)
    obtain rfl := Call.insert.inj he
    exact .inr (h' x hx)

theorem keeps_markRetry (n : Bytes) (error : Option String) :
    contentOutline.Keeps keepsReceipts i (AllGenuine rows) (markRetry n error) := by
  refine .tryCatch ?_ fun _ => .pure ()
  intro s hi h
  refine .bind (wp_getPending _ _ h) ?_ fun _ _ _ h' => h'.1
  rintro found s' hi' ⟨h', hfound⟩
  obtain ⟨hgen, hone⟩ := hfound found rfl
  have hall : AllGenuine (found ++ rows) s' := by
    intro x hx
    rcases mem_append.1 hx with hx | hx
    · exact hgen x hx
    · exact h' x hx
  refine .mono (keeps_retryOrReject n error _ (fun e he => ?_) s' hi' hall) ?_
  · subst he
    obtain ⟨x, rfl, hn⟩ := hone n e rfl
    exact ⟨x, by simp, by simp [hn]⟩
  · exact fun _ s'' _ hall' x hx => hall' x (mem_append_right _ hx)

theorem keeps_recordResponse (pending : List ReceiptEntity) (response : SubmitResponse) :
    contentOutline.Keeps keepsReceipts i (AllGenuine rows) (recordResponse pending response) := by
  unfold recordResponse
  split
  · refine .bind ?_ fun _ => ?_
    · exact .tryCatch (keeps_statement (by simp)) fun _ => .pure ()
    · refine .forEach fun n _ => ?_
      exact .tryCatch (keeps_statement (by simp)) fun _ => .pure ()
  · exact .forEach fun r _ => keeps_markRetry r.receiptNonce _

theorem keeps_submitPending :
    contentOutline.Keeps keepsReceipts i (AllGenuine rows) (submitPending rows) := by
  refine .bind (.forEach fun r hr => ?_) fun _ => ?_
  · refine .tryCatch (keeps_dao fun s h x he => ?_) fun _ => .throw _
    obtain rfl := Call.insert.inj he
    exact .inr (h r hr)
  refine .bind (fun s _ h => ?_) fun _ => ?_
  · exact .op fun _ => ⟨trivial, fun _ => h⟩
  refine .tryCatch (.bind (keeps_statement (by simp)) fun response => ?_) ?_
  · exact keeps_recordResponse rows response
  · exact fun _ => .forEach fun r _ => keeps_markRetry r.receiptNonce _

theorem safe_processPendingSubmissions :
    contentOutline.Safe keepsReceipts i processPendingSubmissions.toTask s := by
  have hnil : AllGenuine [] s := fun _ hx => nomatch hx
  have hwp : contentOutline.Wp keepsReceipts i processPendingSubmissions (fun _ _ => True) s := by
    refine .bind (wp_getPending _ _ hnil) ?_ fun _ _ _ _ => trivial
    rintro pending s' hi' ⟨-, hfound⟩
    split
    · exact .pure hi' trivial
    have hsubmit := keeps_submitPending (i := i) s' hi' (hfound pending rfl).1
    refine .settle hsubmit fun r s'' hi'' _ => ?_
    have hrel : contentOutline.Wp keepsReceipts i (exec .release) (fun _ _ => True) s'' :=
      .op fun _ => ⟨trivial, fun _ => trivial⟩
    refine .bind hrel (fun _ s3 hi3 _ => ?_) fun _ _ _ _ => trivial
    cases r with
    | ok a => exact .pure hi3 trivial
    | error e => exact .throw hi3 trivial
  exact hwp.toTask fun _ _ _ _ => trivial

end Programs

theorem safe_prog (c : Cmd) (i : Nat) (hi : Sourced s) :
    contentOutline.Safe keepsReceipts i (prog c) s := by
  have hnil : AllGenuine [] s := fun _ hx => nomatch hx
  cases c with
  | processPendingSubmissions => exact safe_processPendingSubmissions
  | createReceipt q =>
    have hsave : contentOutline.Keeps keepsReceipts i (AllGenuine [])
        (save (newReceipt q s.currentTimeMillis)) := by
      refine .tryCatch (keeps_dao fun _ _ x he => ?_) fun _ => .throw _
      obtain rfl := Call.insert.inj he
      exact .inl rfl
    exact Spec.Wp.toTask (Spec.Wp.getThen (hsave s hi hnil)) fun _ _ _ _ => trivial
  | cleanup =>
    have hrun : contentOutline.Keeps keepsReceipts i (AllGenuine []) cleanup := by
      refine .tryCatch (fun s' hi' h' => .getThen ?_) fun _ => .pure ()
      exact keeps_statement (by simp) s' hi' h'
    exact Spec.Wp.toTask (hrun s hi hnil) fun _ _ _ _ => trivial

/-- An empty database at some time. -/
def IsEmpty (s : State) : Prop := ∃ t, s = State.empty t

/-- The pending call of task `i` is answered at time `t`, and the task goes on. -/
def answered (i : Nat) (t : Int) (a : Answer) : List (Move machine Cmd) :=
  [.perform i ⟨t, a⟩, .resume i]

/-- Task `i` creates a receipt with the nonce `[n]`. -/
def create (i : Nat) (n : UInt8) (t : Int) : List (Move machine Cmd) :=
  .start (.createReceipt { taskId := [7], receiptNonce := [n], signedReceiptData := [n] }) ::
    answered i t .ok

/-- Task `i` submits `k` receipts, gets the answer `a`, and `rest` statements go through after it. -/
def flush (i k : Nat) (t : Int) (a : Answer) (rest : Nat) : List (Move machine Cmd) :=
  List.flatten [[.start .processPendingSubmissions], answered i t .ok,
    (List.replicate k (answered i t .ok)).flatten, answered i t a,
    (List.replicate rest (answered i t .ok)).flatten]

def unavailable : Answer := .http 503 .other none

def initially : Sys machine := Sys.idle (State.empty 1000)

theorem isEmpty_empty : IsEmpty (State.empty 1000) := ⟨1000, rfl⟩

/-- One receipt is submitted in vain, and then accepted. -/
def retriedOnce : List (Move machine Cmd) :=
  List.flatten [create 0 1 1001, flush 1 1 1002 unavailable 3,
    flush 2 1 1003 (.http 200 (.counters (some 1) none) none) 1]

/-- A failed submission of two receipts. -/
def bothFail : List (Move machine Cmd) :=
  List.flatten [create 0 1 1001, create 1 2 1002, flush 2 2 1003 unavailable 6]

end ReceiptStore
