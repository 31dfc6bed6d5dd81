import SovereignMobile.Messaging.Runs
import Mathlib.Data.List.Nodup
import Mathlib.Data.List.Count

/-! # Envelopes that are delivered more than once

`ingestEnvelopesNative` has no memory of the envelopes it has opened. The ratchet refuses to open one
of them again, and the refusal takes the same branch as a text that never could be opened: a
placeholder row, an entry in the buffer and a new handshake. The conversations are right in the runs
in which that branch is not taken for an opened text. -/

namespace Messaging

open EventLoop List
open Envelope (placeholder placeholderId receivedRow)
open Prod (fst)

/-- The received rows of the conversation that were written for `e`. -/
def Store.rowsFor (c : Store) (e : Envelope) : List LocalMessage :=
  (c.messagesByConversation e.senderDid).filter fun m => m.direction == .received && m.origin == e

/-- Every opened text that is no receipt has one row, no placeholder is left of an opened envelope,
    and no recovery was started for an envelope that had been processed before. -/
structure Client.IngestedOnce (c : Client) : Prop where
  rows : ∀ e ∈ c.recv.opened, e.contentType = .text → e.body.marked = false →
    c.store.rowsFor e = [e.receivedRow e.body]
  placeholders : ∀ did, ∀ m ∈ c.store.messagesByConversation did,
    m.contentType = .undecryptable → m.origin ∉ c.recv.opened
  recoveries : c.health.repeatedRecoveries = []

/-- There is a placeholder of `e`. -/
def Store.hasPlaceholder (c : Store) (e : Envelope) : Bool :=
  (c.messagesByConversation e.senderDid).any fun m => m.contentType == .undecryptable && m.origin == e

/-- What is assumed of the native library: it opens nothing twice. -/
def nativeOpensOnce : Cond machine where
  op _ _ _ := true
  call _ s c o :=
    match c, o with
    | .envelopeOpenVerifiedWithSession me _ e _, .ok _ =>
      !(decide (e ∈ (State.client s me).recv.opened))
    | _, _ => true

/-- An opened text is not taken for an unreadable one, a text is opened in turn only if it has no
    placeholder and by a drain only if it has one, a recovery for a known envelope comes within the
    cooldown, and conversations with opened envelopes are not deleted. -/
def opensOnce : Cond machine where
  op _ s o :=
    match o with
    | .client me (.store (.appendUndecryptablePlaceholder e)) =>
      !(decide (e ∈ (State.client s me).recv.opened)) ||
        ((State.client s me).store.messagesByConversation e.senderDid).any
          fun m => m.id == e.placeholderId
    | .client me (.deliver _ msg) => !((State.client s me).store.hasPlaceholder msg.origin)
    | .client me (.recv (.dismiss e)) => !((State.client s me).store.hasPlaceholder e)
    | .client me (.recover did item _) =>
      ((State.client s me).store.messagesByConversation did).any fun m => m.id == item.placeholderId
    | .client me (.health (.attemptRecovery did now repeated)) =>
      !repeated || (State.client s me).health.coolingDown did now
    | .client me (.deleteConversation did) =>
      (State.client s me).recv.opened.all fun e => e.senderDid ≠ did
    | _ => true
  call := nativeOpensOnce.call

/-! ## Received rows -/

def Store.receivedRows (c : Store) (did : Did) : List LocalMessage :=
  (c.messagesByConversation did).filter fun m => m.direction == .received

variable {p : LocalMessage → Bool} {l : List LocalMessage} {f : LocalMessage → LocalMessage}
    {s : State} {me did : Did} {m : LocalMessage} {e e' : Envelope} {c : Store} {i : Nat}

/-- Where `updateFirst` finds something: the first such row is replaced. -/
theorem updateFirst_split (f : LocalMessage → LocalMessage) (h : l.any p = true) :
    ∃ l1 m0 l2, l = l1 ++ m0 :: l2 ∧ p m0 = true ∧ updateFirst p f l = l1 ++ f m0 :: l2 := by
  induction l with
  | nil => simp at h
  | cons a l ih =>
    rw [updateFirst]
    split
    · rename_i ha
      exact ⟨[], a, l, rfl, ha, rfl⟩
    rename_i ha
    rw [any_cons, Bool.or_eq_true] at h
    obtain ⟨l1, m0, l2, hl, hm0, hupdate⟩ := ih (h.resolve_left ha)
    exact ⟨a :: l1, m0, l2, by rw [hl]; rfl, hm0, by rw [hupdate]; rfl⟩

/-- Changes of sent rows cannot be seen among the received ones. -/
theorem filter_updateFirst_sent (hp : ∀ m ∈ l, p m = true → m.direction = .sent)
    (hf : ∀ m, (f m).direction = m.direction) :
    (updateFirst p f l).filter (fun m => m.direction == .received) =
      l.filter fun m => m.direction == .received := by
  induction l with
  | nil => rfl
  | cons a l ih =>
    rw [updateFirst]
    split
    · rename_i ha
      have hsent := hp a mem_cons_self ha
      simp [hf, hsent]
    · rw [filter_cons, filter_cons, ih fun m hm => hp m (mem_cons_of_mem _ hm)]

/-- Changes of received rows can be made among the received ones. -/
theorem filter_updateFirst_received (hp : ∀ m ∈ l, p m = true → m.direction = .received)
    (hf : ∀ m, (f m).direction = .received) :
    (updateFirst p f l).filter (fun m => m.direction == .received) =
      updateFirst p f (l.filter fun m => m.direction == .received) := by
  induction l with
  | nil => rfl
  | cons a l ih =>
    have ih := ih fun m hm => hp m (mem_cons_of_mem _ hm)
    by_cases ha : p a = true
    · have hreceived := hp a mem_cons_self ha
      simp [updateFirst, ha, hf, hreceived]
    · by_cases hd : a.direction = .received
      · simp [updateFirst, ha, hd, ih]
      · simp [updateFirst, ha, hd, ih]

theorem LocalMessage.update_direction (status : MessageStatus) (patch : Option RatchetPatch)
    (m : LocalMessage) : (m.update status patch).direction = m.direction := by
  unfold LocalMessage.update
  split <;> rfl

theorem Store.receivedRows_setMessages (c : Store) (did did' : Did) (rows : List LocalMessage) :
    (c.setMessages did rows).receivedRows did' =
      if did' = did then rows.filter (fun m => m.direction == .received)
      else c.receivedRows did' := by
  simp only [Store.receivedRows, Store.setMessages]
  split
  · rename_i hd
    rw [hd, Function.update_self]
  · rename_i hd
    rw [Function.update_of_ne hd]

theorem Store.receivedRows_appendMessage (c : Store) (did did' : Did) (msg : LocalMessage) :
    (c.appendMessage did msg).receivedRows did' =
      c.receivedRows did' ++ if did' = did ∧ msg.direction = .received then [msg] else [] := by
  unfold Store.receivedRows
  rw [Store.appendMessage_messages]
  by_cases hd : did' = did
  · rw [hd, Function.update_self]
    by_cases hm : msg.direction = .received <;> simp [hm]
  · rw [Function.update_of_ne hd]
    simp [hd]

/-- Apart from placeholders, the operations of the store are about sent rows. -/
theorem StoreOp.receivedRows_apply {o : StoreOp} (hi : s.Inv) (hp : o.Pre s me)
    (ho : ∀ e, o ≠ .appendUndecryptablePlaceholder e) (did : Did) :
    (o.apply (s.client me).store).receivedRows did = (s.client me).store.receivedRows did := by
  cases o with
  | upsertContact did' contact => rfl
  | appendMessage did' msg =>
    obtain ⟨now, random, body, info, status, e, rfl, -⟩ := hp
    simp [StoreOp.apply, Store.receivedRows_appendMessage, sentRow]
  | appendUndecryptablePlaceholder e => exact absurd rfl (ho e)
  | updateMessageStatus did' id status patch =>
    obtain ⟨now, random, rfl⟩ := hp.1
    simp only [StoreOp.apply, Store.receivedRows_setMessages]
    split
    · rename_i hd
      subst hd
      refine filter_updateFirst_sent (fun m hm hid => ?_) (LocalMessage.update_direction _ _)
      exact (((hi me).store did m hm).isSent_of_id (by simpa using hid)).2.1
    · rfl
  | confirmSentMessage did' seq epoch acked =>
    simp only [StoreOp.apply, Store.confirmSentMessage]
    split
    · rfl
    refine (Store.receivedRows_setMessages _ _ _ _).trans ?_
    split
    · rename_i hd
      subst hd
      exact filter_updateFirst_sent (fun m _ hat => (LocalMessage.isSentAt_iff.1 hat).1)
        (LocalMessage.update_direction _ _)
    · rfl

/-- Only received rows have the identifiers of placeholders. -/
theorem LocalMessage.Ok.received_of_id (h : m.Ok did) (hid : m.id = e.placeholderId) :
    m.direction = .received := by
  rcases h with ⟨⟨now, random, hsent⟩, -⟩ | ⟨h | h, -⟩
  · exact absurd (hsent.symm.trans hid) (by simp [placeholderId])
  · rw [h]
    rfl
  · rw [h]
    rfl

theorem Store.receivedRows_removeMessage (c : Store) (did did' : Did) (id : MessageId) :
    (c.replaceMessage did id none).receivedRows did' =
      if did' = did then (c.receivedRows did').filter (fun m => m.id != id)
      else c.receivedRows did' := by
  refine (Store.receivedRows_setMessages _ _ _ _).trans ?_
  split
  · rename_i hd
    subst hd
    rw [Store.receivedRows, filter_filter, filter_filter]
    congr 1
    funext m
    rw [Bool.and_comm]
  · rfl

theorem Store.receivedRows_replaceMessage (h : c.Inv) (did did' : Did) (e : Envelope)
    {next : LocalMessage} (hnext : next.direction = .received) :
    (c.replaceMessage did e.placeholderId (some next)).receivedRows did' = if did' = did
      then updateFirst (fun m => m.id == e.placeholderId) (fun _ => next) (c.receivedRows did')
      else c.receivedRows did' := by
  refine (Store.receivedRows_setMessages _ _ _ _).trans ?_
  split
  · rename_i hd
    subst hd
    refine filter_updateFirst_received (fun m hm hid => ?_) fun _ => hnext
    exact (h did' m hm).received_of_id (by simpa using hid)
  · rfl

/-! ## What holds at every moment -/

/-- What one device has received: every opened text has a row or is being dealt with, and the
    placeholders of a conversation have different identifiers. -/
structure ReceivedRight (rows : Did → List LocalMessage) (opened : List Envelope)
    (unsettled : List (Nat × Envelope)) : Prop where
  nodup : opened.Nodup
  counts : ∀ e : Envelope, e.contentType = .text → e.body.marked = false →
    (rows e.senderDid).count (e.receivedRow e.body) + unsettled.countP (fun x => x.2 == e) =
      opened.count e
  placeholders : ∀ did, ∀ m ∈ rows did, m.contentType = .undecryptable → m.origin ∈ opened →
    ∃ x ∈ unsettled, x.2 = m.origin
  ids : ∀ did (e : Envelope), (rows did).countP (fun m => m.id == e.placeholderId) ≤ 1

/-- Rows of the conversation with `did`, among the received ones. -/
def RowsOk (rows : Did → List LocalMessage) : Prop :=
  ∀ did, ∀ m ∈ rows did, (m = m.origin.placeholder ∨ m = m.origin.receivedRow m.origin.body) ∧
    m.origin.senderDid = did

structure Client.IngestRight (c : Client) : Prop where
  received : ReceivedRight c.store.receivedRows c.recv.opened c.recv.unsettled
  recoveries : c.health.repeatedRecoveries = []

theorem Store.Inv.receivedRows_ok (h : c.Inv) : RowsOk c.receivedRows := by
  intro did m hm
  obtain ⟨hmem, hdir⟩ := mem_filter.1 hm
  have hreceived : m.direction = .received := by simpa using hdir
  rcases h did m hmem with ⟨-, hsent, -⟩ | hok
  · exact nomatch hreceived.symm.trans hsent
  · exact hok

theorem RowsOk.placeholder {rows : Did → List LocalMessage} (h : RowsOk rows) (hm : m ∈ rows did)
    (hu : m.contentType = .undecryptable) :
    m = m.origin.placeholder := by
  rcases (h did m hm).1 with hp | hr
  · exact hp
  · rw [hr] at hu
    simp [receivedRow] at hu

theorem receivedRow_inj (h : e.receivedRow e.body = e'.receivedRow e'.body) : e = e' :=
  congrArg LocalMessage.origin h

theorem countP_settle {l : List (Nat × Envelope)} (hown : ownBy fst i l = [(i, e)])
    (e' : Envelope) :
    l.countP (fun x => x.2 == e') =
      (l.filter fun x => x.1 ≠ i).countP (fun x => x.2 == e') + if e = e' then 1 else 0 := by
  have hsplit := countP_eq_countP_filter_add l (fun x => x.2 == e') fun x => decide (x.1 = i)
  unfold ownBy at hown
  rw [hown] at hsplit
  rw [hsplit, Nat.add_comm]
  by_cases he : e = e' <;> simp

theorem exists_settle {l : List (Nat × Envelope)} (hown : ownBy fst i l = [(i, e)])
    (hne : e' ≠ e) (h : ∃ x ∈ l, x.2 = e') :
    ∃ x ∈ l.filter (fun x => x.1 ≠ i), x.2 = e' := by
  obtain ⟨x, hx, rfl⟩ := h
  refine ⟨x, mem_filter.2 ⟨hx, decide_eq_true fun hi => hne ?_⟩, rfl⟩
  rw [eq_of_ownBy hown hx hi]

namespace ReceivedRight

variable {rows rows' : Did → List LocalMessage} {opened : List Envelope}
  {unsettled : List (Nat × Envelope)} {i : Nat} {e : Envelope}

/-- Task `i` has dealt with `e`: a text has got its row, and no placeholder of `e` is left. -/
theorem settle (h : ReceivedRight rows opened unsettled) (hown : ownBy fst i unsettled = [(i, e)])
    (hcounts : ∀ e' : Envelope, e'.contentType = .text → e'.body.marked = false →
      (rows' e'.senderDid).count (e'.receivedRow e'.body) =
        (rows e'.senderDid).count (e'.receivedRow e'.body) + if e = e' then 1 else 0)
    (hplaceholders : ∀ did, ∀ m ∈ rows' did, m.contentType = .undecryptable →
      m ∈ rows did ∧ m.origin ≠ e)
    (hids : ∀ did (e' : Envelope), (rows' did).countP (fun m => m.id == e'.placeholderId) ≤
      (rows did).countP fun m => m.id == e'.placeholderId) :
    ReceivedRight rows' opened (unsettled.filter fun x => x.1 ≠ i) where
  nodup := h.nodup
  counts e' ht hm := by
    rw [hcounts e' ht hm, ← h.counts e' ht hm, countP_settle hown e']
    omega
  placeholders did m hm hu ho := by
    obtain ⟨hold, hne⟩ := hplaceholders did m hm hu
    exact exists_settle hown hne (h.placeholders did m hold hu ho)
  ids did e' := Nat.le_trans (hids did e') (h.ids did e')

theorem dismiss (h : ReceivedRight rows opened unsettled) (hown : ownBy fst i unsettled = [(i, e)])
    (hmarked : e.contentType = .text → e.body.marked = true)
    (hnone : ∀ did, ∀ m ∈ rows did, m.contentType = .undecryptable → m.origin ≠ e) :
    ReceivedRight rows opened (unsettled.filter fun x => x.1 ≠ i) := by
  refine h.settle hown (fun e' ht hm => ?_) (fun did m hm hu => ⟨hm, hnone did m hm hu⟩)
    fun _ _ => Nat.le_refl _
  rw [if_neg, Nat.add_zero]
  rintro rfl
  exact nomatch (hmarked ht).symm.trans hm

theorem deliver (h : ReceivedRight rows opened unsettled) (hown : ownBy fst i unsettled = [(i, e)])
    (hrows : ∀ did, rows' did =
      rows did ++ if did = e.senderDid then [e.receivedRow e.body] else [])
    (hnone : ∀ did, ∀ m ∈ rows did, m.contentType = .undecryptable → m.origin ≠ e) :
    ReceivedRight rows' opened (unsettled.filter fun x => x.1 ≠ i) := by
  refine h.settle hown (fun e' _ _ => ?_) (fun did m hm hu => ?_) fun did e' => ?_
  · rw [hrows, count_append]
    congr 1
    by_cases he : e = e'
    · subst he
      simp
    rw [if_neg he]
    refine count_eq_zero.2 fun hmem => he ?_
    split at hmem
    · exact (receivedRow_inj (mem_singleton.1 hmem)).symm
    · simp at hmem
  · rw [hrows] at hm
    have hold : m ∈ rows did := by
      rcases mem_append.1 hm with hm | hm
      · exact hm
      split at hm
      · rw [mem_singleton] at hm
        rw [hm] at hu
        simp [receivedRow] at hu
      · simp at hm
    exact ⟨hold, hnone did m hold hu⟩
  · rw [hrows]
    refine Nat.le_of_eq ?_
    split <;> simp [receivedRow, placeholderId]

/-- A receipt that was drained: its placeholder is removed. -/
theorem removePlaceholder (h : ReceivedRight rows opened unsettled) (hok : RowsOk rows)
    (hown : ownBy fst i unsettled = [(i, e)]) (hmarked : e.body.marked = true)
    (hrows : ∀ did, rows' did = if did = e.senderDid
      then (rows did).filter (fun m => m.id != e.placeholderId) else rows did) :
    ReceivedRight rows' opened (unsettled.filter fun x => x.1 ≠ i) := by
  refine h.settle hown (fun e' _ hm => ?_) (fun did m hm hu => ?_) fun did e' => ?_
  · have hne : e ≠ e' := by
      rintro rfl
      exact nomatch hmarked.symm.trans hm
    rw [hrows]
    split
    · exact count_filter (by simp [receivedRow, placeholderId])
    · rfl
  · rw [hrows] at hm
    split at hm
    · obtain ⟨hold, hid⟩ := mem_filter.1 hm
      refine ⟨hold, fun ho => ?_⟩
      have hplaceholder := hok.placeholder hold hu
      rw [ho] at hplaceholder
      rw [hplaceholder] at hid
      simp [placeholder] at hid
    · rename_i hd
      exact ⟨hm, fun ho => hd (by rw [← ho, (hok did m hm).2])⟩
  · rw [hrows]
    split
    · exact filter_sublist.countP_le
    · exact Nat.le_refl _

/-- A text that was drained: its row takes the place of the placeholder. -/
theorem replacePlaceholder (h : ReceivedRight rows opened unsettled) (hok : RowsOk rows)
    (hown : ownBy fst i unsettled = [(i, e)])
    (hfound : (rows e.senderDid).any (fun m => m.id == e.placeholderId) = true)
    (hrows : ∀ did, rows' did = if did = e.senderDid
      then updateFirst (fun m => m.id == e.placeholderId) (fun _ => e.receivedRow e.body) (rows did)
      else rows did) :
    ReceivedRight rows' opened (unsettled.filter fun x => x.1 ≠ i) := by
  obtain ⟨l1, m0, l2, hl, hm0, hupdate⟩ :=
    updateFirst_split (fun _ => e.receivedRow e.body) hfound
  have hself : rows' e.senderDid = l1 ++ e.receivedRow e.body :: l2 := by
    rw [hrows, if_pos rfl, hupdate]
  have hother : ∀ did, did ≠ e.senderDid → rows' did = rows did :=
    fun did hd => by rw [hrows, if_neg hd]
  have hid0 : m0.id = e.placeholderId := by simpa using hm0
  refine h.settle hown (fun e' _ _ => ?_) (fun did m hm hu => ?_) fun did e' => ?_
  · by_cases hd : e'.senderDid = e.senderDid
    · have hne : m0 ≠ e'.receivedRow e'.body := by
        rintro rfl
        simp [receivedRow, placeholderId] at hid0
      rw [hd, hself, hl, count_append, count_append, count_cons_of_ne hne]
      by_cases he : e = e'
      · subst he
        simp
        omega
      · have hne' : e.receivedRow e.body ≠ e'.receivedRow e'.body := fun heq =>
          he (receivedRow_inj heq)
        rw [count_cons_of_ne hne', if_neg he, Nat.add_zero]
    · have hne : e ≠ e' := fun heq => hd (by rw [heq])
      rw [hother _ hd, if_neg hne, Nat.add_zero]
  · by_cases hd : did = e.senderDid
    · subst hd
      rw [hself] at hm
      have hrest : m ∈ l1 ∨ m ∈ l2 := by
        rcases mem_append.1 hm with hm | hm
        · exact .inl hm
        rcases mem_cons.1 hm with hm | hm
        · rw [hm] at hu
          simp [receivedRow] at hu
        · exact .inr hm
      have hold : m ∈ rows e.senderDid := by
        rw [hl]
        rcases hrest with hm | hm
        · exact mem_append_left _ hm
        · exact mem_append_right _ (mem_cons_of_mem _ hm)
      refine ⟨hold, fun ho => ?_⟩
      -- the conversation would have two rows with this identifier
      have hid : m.id = e.placeholderId := by
        rw [hok.placeholder hold hu, ho]
        rfl
      have hone := h.ids e.senderDid e
      rw [hl, countP_append, countP_cons, if_pos hm0] at hone
      rcases hrest with hm | hm
      iterate 2
        · have := countP_pos_iff (p := fun m => m.id == e.placeholderId).2 ⟨m, hm, by simp [hid]⟩
          omega
    · rw [hother did hd] at hm
      exact ⟨hm, fun ho => hd (by rw [← ho, (hok did m hm).2])⟩
  · by_cases hd : did = e.senderDid
    · rw [hd, hself, hl, countP_append, countP_append,
        countP_cons_of_neg (by simp [receivedRow, placeholderId])]
      refine Nat.add_le_add_left ?_ _
      exact List.Sublist.countP_le (sublist_cons_self _ _)
    · exact Nat.le_of_eq (by rw [hother did hd])

theorem appendPlaceholder (h : ReceivedRight rows opened unsettled) (hnew : e ∉ opened)
    (hid : ∀ m ∈ rows e.senderDid, m.id ≠ e.placeholderId)
    (hrows : ∀ did, rows' did = rows did ++ if did = e.senderDid then [e.placeholder] else []) :
    ReceivedRight rows' opened unsettled where
  nodup := h.nodup
  counts e' ht hm := by
    rw [hrows, count_append, ← h.counts e' ht hm]
    have hzero : (if e'.senderDid = e.senderDid then [e.placeholder] else []).count
        (e'.receivedRow e'.body) = 0 := by
      split <;> simp [receivedRow, placeholder]
    rw [hzero, Nat.add_zero]
  placeholders did m hm hu ho := by
    rw [hrows] at hm
    rcases mem_append.1 hm with hm | hm
    · exact h.placeholders did m hm hu ho
    split at hm
    · rw [mem_singleton] at hm
      rw [hm] at ho
      exact absurd ho hnew
    · simp at hm
  ids did e' := by
    rw [hrows, countP_append]
    split
    · rename_i hd
      subst hd
      by_cases he : e.placeholderId = e'.placeholderId
      · have hzero : (rows e.senderDid).countP (fun m => m.id == e'.placeholderId) = 0 :=
          countP_eq_zero.2 fun m hm => by simpa [← he] using hid m hm
        rw [hzero]
        simp [placeholder, he]
      · have hone := h.ids e.senderDid e'
        simpa [placeholder, he] using hone
    · exact h.ids did e'

/-- Task `i` opens what was not opened before. -/
theorem openEnvelope (h : ReceivedRight rows opened unsettled) (hnew : e ∉ opened) (i : Nat) :
    ReceivedRight rows (opened ++ [e]) (unsettled ++ [(i, e)]) where
  nodup := h.nodup.append (nodup_singleton e) (by simpa using hnew)
  counts e' ht hm := by
    have hcounts := h.counts e' ht hm
    rw [countP_append]
    by_cases he : e = e'
    · subst he
      simp
      omega
    · simp [he]
      omega
  placeholders did m hm hu ho := by
    rcases mem_append.1 ho with ho | ho
    · obtain ⟨x, hx, heq⟩ := h.placeholders did m hm hu ho
      exact ⟨x, mem_append_left _ hx, heq⟩
    · exact ⟨(i, e), mem_append_right _ (by simp), (mem_singleton.1 ho).symm⟩
  ids := h.ids

theorem deleteConversation {did : Did} (h : ReceivedRight rows opened unsettled)
    (hnone : ∀ e ∈ opened, e.senderDid ≠ did)
    (hrows : ∀ did', rows' did' = if did' = did then [] else rows did') :
    ReceivedRight rows' opened unsettled where
  nodup := h.nodup
  counts e' ht hm := by
    rw [hrows]
    split
    · rename_i hd
      have hcounts := h.counts e' ht hm
      have hzero : opened.count e' = 0 := count_eq_zero.2 fun ho => hnone e' ho hd
      simp
      omega
    · exact h.counts e' ht hm
  placeholders did' m hm hu ho := by
    rw [hrows] at hm
    split at hm
    · simp at hm
    · exact h.placeholders did' m hm hu ho
  ids did' e' := by
    rw [hrows]
    split
    · simp
    · exact h.ids did' e'

end ReceivedRight

/-! ## Steps -/

theorem Store.Inv.not_hasPlaceholder (h : c.Inv) (hnone : c.hasPlaceholder e = false) :
    ∀ did, ∀ m ∈ c.receivedRows did, m.contentType = .undecryptable → m.origin ≠ e := by
  rintro did m hm hu rfl
  have hdid := (h.receivedRows_ok did m hm).2
  have hmem := (mem_filter.1 hm).1
  rw [← hdid] at hmem
  have := any_eq_false.1 hnone m hmem
  simp [hu] at this

/-- A row with the identifier of a placeholder, among the received ones. -/
theorem Store.Inv.any_receivedRows (h : c.Inv)
    (hany : (c.messagesByConversation did).any (fun m => m.id == e.placeholderId) = true) :
    (c.receivedRows did).any (fun m => m.id == e.placeholderId) = true := by
  obtain ⟨m, hm, hid⟩ := any_eq_true.1 hany
  have hreceived := (h did m hm).received_of_id (by simpa using hid)
  exact any_eq_true.2 ⟨m, mem_filter.2 ⟨hm, by simp [hreceived]⟩, hid⟩

theorem ReceivedRight.appendUndecryptablePlaceholder {opened : List Envelope}
    {unsettled : List (Nat × Envelope)} (h : ReceivedRight c.receivedRows opened unsettled)
    (hnew : e ∉ opened ∨
      (c.messagesByConversation e.senderDid).any (fun m => m.id == e.placeholderId) = true) :
    ReceivedRight (c.appendUndecryptablePlaceholder e).receivedRows opened unsettled := by
  unfold Store.appendUndecryptablePlaceholder
  split
  · exact h
  rename_i hany
  refine h.appendPlaceholder (hnew.resolve_right hany) (fun m hm hid => hany ?_) fun did => ?_
  · exact any_eq_true.2 ⟨m, (mem_filter.1 hm).1, by simp [hid]⟩
  · rw [Store.receivedRows_appendMessage]
    simp [placeholder]

theorem HealthOp.repeatedRecoveries_apply {o : HealthOp} {c : Health}
    (h : ∀ did now, o = .attemptRecovery did now true → c.coolingDown did now = true) :
    (o.apply c).repeatedRecoveries = c.repeatedRecoveries := by
  cases o with
  | attemptRecovery did now repeated =>
    simp only [HealthOp.apply]
    split
    · rfl
    rename_i hcool
    cases repeated with
    | true => exact absurd (h did now rfl) hcool
    | false => rfl
  | _ => rfl

theorem Client.IngestRight.recover {c : Client} {item : PendingDecrypt} (hi : c.store.Inv)
    (h : c.IngestRight) (hown : ownBy fst i c.recv.unsettled = [(i, item.envelope)])
    (hok : item.Ok did)
    (hfound : (c.store.messagesByConversation did).any (fun m => m.id == item.placeholderId) = true)
    :
    (c.recover i did item (if item.envelope.body.marked then none
      else some (item.envelope.receivedRow item.envelope.body))).IngestRight := by
  obtain ⟨hid, rfl, -⟩ := hok
  rw [hid] at hfound
  refine ⟨?_, h.recoveries⟩
  simp only [Client.recover, hid]
  split
  · rename_i hmarked
    exact h.received.removePlaceholder hi.receivedRows_ok hown hmarked fun did =>
      Store.receivedRows_removeMessage _ _ _ _
  · exact h.received.replacePlaceholder hi.receivedRows_ok hown (hi.any_receivedRows hfound)
      fun did => Store.receivedRows_replaceMessage hi _ _ _ rfl

theorem ClientOp.ingestRight_apply {o : ClientOp} (hi : s.Inv) (h : (s.client me).IngestRight)
    (hp : o.Pre i s me) (hc : opensOnce.op i s (.client me o) = true) :
    (o.apply i (s.client me)).IngestRight := by
  have hok := (hi me).store
  cases o with
  | send o | pending o => exact ⟨h.received, h.recoveries⟩
  | recv o =>
    cases o with
    | dismiss e =>
      have hnone := hok.not_hasPlaceholder (by simpa [opensOnce] using hc)
      exact ⟨h.received.dismiss hp.1 hp.2 hnone, h.recoveries⟩
    | setSession | setSerializedSession => exact ⟨h.received, h.recoveries⟩
  | store o =>
    refine ⟨?_, h.recoveries⟩
    by_cases ho : ∃ e, o = .appendUndecryptablePlaceholder e
    · obtain ⟨e, rfl⟩ := ho
      refine h.received.appendUndecryptablePlaceholder ?_
      simpa only [opensOnce, Bool.or_eq_true, Bool.not_eq_true', decide_eq_false_iff_not] using hc
    · have hrows := StoreOp.receivedRows_apply hi hp fun e he => ho ⟨e, he⟩
      simp only [ClientOp.apply, funext hrows]
      exact h.received
  | health o =>
    refine ⟨h.received, ?_⟩
    rw [ClientOp.apply, HealthOp.repeatedRecoveries_apply, h.recoveries]
    rintro did now rfl
    simpa [opensOnce] using hc
  | deliver did msg =>
    obtain ⟨e, hown, -, -, rfl, rfl⟩ := hp
    have hnone := hok.not_hasPlaceholder (by simpa [opensOnce] using hc)
    refine ⟨h.received.deliver hown (fun did => ?_) hnone, h.recoveries⟩
    rw [ClientOp.apply, Store.receivedRows_appendMessage]
    simp [receivedRow]
  | recover did item next =>
    obtain ⟨d, -, -, -, hown, hitem, rfl⟩ := hp
    exact h.recover hok hown hitem hc
  | deleteConversation did =>
    have hnone : ∀ e ∈ (s.client me).recv.opened, e.senderDid ≠ did := by
      simpa [opensOnce] using hc
    refine ⟨h.received.deleteConversation hnone fun did' => ?_, h.recoveries⟩
    exact (Store.receivedRows_setMessages (s.client me).store did did' []).trans rfl

theorem Call.Effect.ingestRight {s' : State} {c : Call} (he : Call.Effect i s c s')
    (h : ∀ me, (s.client me).IngestRight)
    (hnew : ∀ me sid e pk, c = .envelopeOpenVerifiedWithSession me sid e pk →
      e ∉ (s.client me).recv.opened) : ∀ me, (s'.client me).IngestRight := by
  have hsend : ∀ me f, ∀ me', ((s.modifySend me f).client me').IngestRight := fun me f =>
    State.forall_modify h ⟨(h me).received, (h me).recoveries⟩
  have hrecv : ∀ me f, ReceivedRight (s.client me).store.receivedRows (f (s.client me).recv).opened
        (f (s.client me).recv).unsettled →
      ∀ me', ((s.modifyRecv me f).client me').IngestRight := fun me f hf =>
    State.forall_modify h ⟨hf, (h me).recoveries⟩
  cases he with
  | none | relayed => exact h
  | initiated me did remote => exact hsend me _
  | keyExchange me remote gen => exact h
  | text me | restored me | position me => exact hsend me _
  | accepted | rekeyed => exact hrecv _ _ (h _).received
  | opened me sid e pk ses _ _ =>
    exact hrecv me _ ((h me).received.openEnvelope (hnew me sid e pk rfl) i)

/-! ## Runs -/

/-- The app has just been launched on devices whose conversations are right. -/
def LaunchedRight (s : State) : Prop := Launched s ∧ ∀ me, (s.client me).IngestRight

/-- What the invariant says once everything that was opened has been dealt with. -/
theorem Client.IngestRight.ingestedOnce {c : Client} (hi : c.store.Inv) (h : c.IngestRight)
    (hsettled : c.recv.unsettled = []) : c.IngestedOnce := by
  have hplaceholders : ∀ did, ∀ m ∈ c.store.receivedRows did, m.contentType = .undecryptable →
      m.origin ∉ c.recv.opened := by
    intro did m hm hu ho
    obtain ⟨x, hx, -⟩ := h.received.placeholders did m hm hu ho
    rw [hsettled] at hx
    simp at hx
  refine ⟨fun e he ht hmarked => ?_, fun did m hm hu => ?_, h.recoveries⟩
  · have hcount := h.received.counts e ht hmarked
    rw [hsettled, countP_nil, Nat.add_zero, count_eq_one_of_mem h.received.nodup he] at hcount
    have hrow : ∀ m ∈ c.store.receivedRows e.senderDid,
        (m.origin == e) = (m == e.receivedRow e.body) := by
      intro m hm
      rw [Bool.eq_iff_iff, beq_iff_eq, beq_iff_eq]
      refine ⟨?_, fun hm => by rw [hm]; rfl⟩
      rintro rfl
      rcases (hi.receivedRows_ok _ m hm).1 with hp | hr
      · exact absurd he (hplaceholders _ m hm (by rw [hp]; rfl))
      · exact hr
    calc c.store.rowsFor e = (c.store.receivedRows e.senderDid).filter fun m => m.origin == e := by
          rw [Store.receivedRows, filter_filter, Store.rowsFor]
          simp only [Bool.and_comm]
      _ = (c.store.receivedRows e.senderDid).filter fun m => m == e.receivedRow e.body :=
          filter_congr hrow
      _ = [e.receivedRow e.body] := by rw [filter_beq, hcount, replicate_one]
  · refine hplaceholders did m (mem_filter.2 ⟨hm, ?_⟩) hu
    rcases hi did m hm with ⟨-, -, htext, -⟩ | ⟨hp | hr, -⟩
    · exact nomatch htext.symm.trans hu
    · rw [hp]
      rfl
    · rw [hr]
      rfl

/-- **Every opened text has one row.** In every run in which no opened text is taken for an
    unreadable one: when no task is suspended, the conversations hold exactly one row for each text
    that was opened and is no receipt, there is no placeholder of an opened envelope, and no recovery
    was started for an envelope that was delivered again. -/
theorem ingestedOnce_of_opensOnce {w : Sys machine} (h : Reach opensOnce prog LaunchedRight w)
    (ht : w.tasks = []) : ∀ me, (State.client w.state me).IngestedOnce := by
  have hcall : ∀ i s c s' v, State.Inv s → (∀ me, (s.client me).IngestRight) → c.Pre i s →
      Call.Effect i s c s' → opensOnce.call i s c (.ok v) = true →
      ∀ me, (s'.client me).IngestRight := by
    intro i s c s' v _ hj _ he hc
    refine he.ingestRight hj ?_
    rintro me sid e pk rfl
    simpa [opensOnce, nativeOpensOnce] using hc
  obtain ⟨hi, hj, hidle⟩ := invariant_of_reach
    (fun s hs => hs)
    (fun i s me o hi hj hc hp => State.forall_modify hj
      (ClientOp.ingestRight_apply hi (hj me) hp hc))
    (fun s ms hj => hj) hcall h
  intro me
  refine (hj me).ingestedOnce (hi me).store (eq_nil_of_ownBy fst fun i => ?_)
  exact congrArg Local.unsettled (hidle ht i me)

/-! ## A text that is delivered again -/

theorem Client.Launched.ingestRight {c : Client} (h : c.Launched) (hopened : c.recv.opened = [])
    (hrows : ∀ did, c.store.messagesByConversation did = []) : c.IngestRight := by
  refine ⟨?_, h.repeatedRecoveries⟩
  constructor <;> simp [hopened, h.unsettled, Store.receivedRows, hrows]

theorem launchedRight_paired : LaunchedRight State.paired := by
  refine ⟨launched_paired, fun me => (launched_paired me).ingestRight ?_ (messages_paired me)⟩
  simp only [State.paired]
  split
  · rfl
  · split <;> rfl

/-- Bob opens the text, and it is delivered again: the ratchet refuses it. -/
def sameTextTwice : List (Move machine Cmd) :=
  List.flatten
    [firstTextSent, [.start (.ingestEnvelopes bob [firstText])], okTurns 2 8, okTurns 4 2,
     okTurns 3 2, failedTurn 3,
     [.start (.ingestEnvelopes bob [firstText])], okTurns 5 3, failedTurn 5, okTurns 7 1,
     failedTurn 7, okTurns 7 1, okTurns 6 2]

theorem not_ingestedOnce : ¬ ∀ w : Sys machine, Reach nativeOpensOnce prog LaunchedRight w →
    w.tasks = [] → ∀ me, (State.client w.state me).IngestedOnce := by
  intro hall
  have hw : ((Sys.idle State.paired).run nativeOpensOnce prog sameTextTwice).map
      (fun w => (w.tasks.length, (State.client w.state bob).health.repeatedRecoveries)) =
      some (0, [alice]) := by decide
  rw [Option.map_eq_some_iff] at hw
  obtain ⟨w, hrun, hobs⟩ := hw
  simp only [Prod.mk.injEq, length_eq_zero_iff] at hobs
  obtain ⟨htasks, hrepeated⟩ := hobs
  have honce := hall w (.of_run launchedRight_paired hrun) htasks bob
  rw [honce.recoveries] at hrepeated
  simp at hrepeated

/-- The text is delivered again before the `KeyExchange`, and drained once. -/
def sameTextBuffered : List (Move machine Cmd) :=
  List.flatten
    [textBeforeKeyExchange, okTurns 2 3, okTurns 5 1, failedTurn 5, okTurns 5 1, okTurns 4 2,
     [.start (.ingestEnvelopes bob [secondSessionText])], okTurns 6 3, failedTurn 6,
     [.start (.ingestEnvelopes bob [secondSessionKeyExchange])], okTurns 8 6, okTurns 9 3,
     okTurns 13 1, failedTurn 13, okTurns 13 1, okTurns 12 2]

theorem ingestedOnce_sameTextBuffered :
    ∃ w : Sys machine,
      (Sys.idle (M := machine) State.paired).run opensOnce prog sameTextBuffered = some w ∧
      w.tasks = [] ∧ (State.client w.state bob).recv.opened.length = 1 ∧
      (State.client w.state bob).IngestedOnce := by
  have hw : ((Sys.idle State.paired).run opensOnce prog sameTextBuffered).map
      (fun w => (w.tasks.length, (State.client w.state bob).recv.opened.length)) =
      some (0, 1) := by decide
  rw [Option.map_eq_some_iff] at hw
  obtain ⟨w, hrun, hobs⟩ := hw
  simp only [Prod.mk.injEq, length_eq_zero_iff] at hobs
  exact ⟨w, hrun, hobs.1, hobs.2,
    ingestedOnce_of_opensOnce (.of_run launchedRight_paired hrun) hobs.1 bob⟩

end Messaging
