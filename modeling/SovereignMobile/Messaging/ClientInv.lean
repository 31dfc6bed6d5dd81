import SovereignMobile.Messaging.Machine

/-! # Facts about one device that hold in every run

Part by part: an invariant, what a task knows when it runs an operation on the part (`Pre`), and that
the operations and native calls keep the invariant. The entries that a task has in the history lists
say what it is in the middle of; an operation of one task leaves those of the others alone. -/

namespace Messaging

open List
open Function (update update_of_ne update_self)

/-! ## Entries of one task -/

section Own
variable {α : Type} (key : α → Nat) (g : α → α) {i j : Nat}

/-- The entries of task `i`. -/
def ownBy (i : Nat) (l : List α) : List α := l.filter fun a => key a = i

theorem ownBy_append (l l' : List α) : ownBy key i (l ++ l') = ownBy key i l ++ ownBy key i l' := by
  simp [ownBy]

variable {l : List α} {a : α}

/-- No task has an entry. -/
theorem eq_nil_of_ownBy (h : ∀ i, ownBy key i l = []) : l = [] := by
  refine eq_nil_iff_forall_not_mem.2 fun a ha => ?_
  have hown : a ∈ ownBy key (key a) l := mem_filter.2 ⟨ha, by simp⟩
  rw [h] at hown
  simp at hown

theorem ownBy_singleton_self (h : key a = i) : ownBy key i [a] = [a] := by
  simp [ownBy, h]

theorem ownBy_singleton_other (h : key a = i) (hj : j ≠ i) : ownBy key j [a] = [] := by
  simp [ownBy, h, hj.symm]

theorem ownBy_drop_self (l : List α) : ownBy key i (l.filter fun a => key a ≠ i) = [] := by
  simp [ownBy]

theorem ownBy_drop_other (hj : j ≠ i) (l : List α) :
    ownBy key j (l.filter fun a => key a ≠ i) = ownBy key j l := by
  unfold ownBy
  rw [filter_filter]
  refine filter_congr fun a _ => ?_
  by_cases h : key a = j
  · simp [h, hj]
  · simp [h]

theorem ownBy_map_self (hg : ∀ a, key (g a) = key a) (l : List α) :
    ownBy key i (l.map fun a => if key a = i then g a else a) = (ownBy key i l).map g := by
  induction l with
  | nil => rfl
  | cons a l ih =>
    unfold ownBy at ih ⊢
    by_cases h : key a = i
    · simp [h, hg, ih]
    · simp [h, ih]

theorem ownBy_map_other (hg : ∀ a, key (g a) = key a) (hj : j ≠ i) (l : List α) :
    ownBy key j (l.map fun a => if key a = i then g a else a) = ownBy key j l := by
  induction l with
  | nil => rfl
  | cons a l ih =>
    unfold ownBy at ih ⊢
    by_cases h : key a = i
    · simp [h, hg, hj.symm, ih]
    · simp [h, filter_cons, ih]

variable {key}

theorem mem_of_ownBy (h : ownBy key i l = [a]) : a ∈ l := by
  have ha : a ∈ ownBy key i l := by rw [h]; exact mem_singleton.2 rfl
  exact (mem_filter.1 ha).1

theorem key_of_ownBy (h : ownBy key i l = [a]) : key a = i := by
  have ha : a ∈ ownBy key i l := by rw [h]; exact mem_singleton.2 rfl
  exact of_decide_eq_true (mem_filter.1 ha).2

theorem eq_of_ownBy {b : α} (h : ownBy key i l = [a]) (hb : b ∈ l) (hk : key b = i) : b = a := by
  have hm : b ∈ ownBy key i l := mem_filter.2 ⟨hb, by simpa using hk⟩
  rw [h] at hm
  exact mem_singleton.1 hm

end Own

/-! ## Outbound sessions -/

/-- `sid` is an outbound session that was initiated for `did`. -/
def SendSide.HasSession (c : SendSide) (sid : Nat) (did : Did) : Prop :=
  ∃ ses, c.native sid = some ses ∧ ses.gen.peer = did

/-- A session object never goes away, and keeps its generation and its peer. -/
def SendSide.KeepsSessions (c c' : SendSide) : Prop :=
  ∀ sid ses, c.native sid = some ses →
    ∃ ses', c'.native sid = some ses' ∧ ses'.gen = ses.gen ∧ ses'.remoteDid = ses.remoteDid

variable {c c' : SendSide} {sid i j : Nat} {did : Did} {o : SendOp} {ses : Session}
    {p : LocalMessage → Bool} {m : LocalMessage} {e : Envelope}

theorem SendSide.HasSession.mono (h : c.HasSession sid did) (hc : c.KeepsSessions c') :
    c'.HasSession sid did := by
  obtain ⟨ses, hses, hpeer⟩ := h
  obtain ⟨ses', hses', hgen, _⟩ := hc sid ses hses
  exact ⟨ses', hses', by rw [hgen, hpeer]⟩

theorem SendSide.KeepsSessions.of_native (h : c'.native = c.native) : c.KeepsSessions c' :=
  fun _ ses hses => ⟨ses, by rw [h, hses], rfl, rfl⟩

theorem SendSide.KeepsSessions.trans {c1 c2 c3 : SendSide} (h : c1.KeepsSessions c2)
    (h' : c2.KeepsSessions c3) : c1.KeepsSessions c3 := by
  intro sid ses hses
  obtain ⟨ses2, h2, hg2, hr2⟩ := h sid ses hses
  obtain ⟨ses3, h3, hg3, hr3⟩ := h' sid ses2 h2
  exact ⟨ses3, h3, hg3.trans hg2, hr3.trans hr2⟩

/-- Every identifier that can be handed out for a DID names a session made for it. -/
structure SendSide.Inv (c : SendSide) : Prop where
  cached : ∀ did sid, c.sendSessionByDid did = some sid → c.HasSession sid did
  inFlight : ∀ did p, c.sendSessionInitInFlight did = some p → p.did = did
  promised : ∀ p sid, c.promises p = some (.ok sid) → c.HasSession sid p.did
  blobs : ∀ did blob, c.blobs did = some blob → blob.gen.peer = did
  restoring : ∀ r ∈ c.restoring, r.blob.gen.peer = r.did ∧
    ∀ sid, r.sid = some sid → c.HasSession sid r.did
  fresh : ∀ sid, c.nextNative ≤ sid → c.native sid = none

/-- What task `i` knows when it runs an operation on the outbound side. -/
def SendOp.Pre (i : Nat) (c : SendSide) : SendOp → Prop
  | .setSession did sid => c.HasSession sid did
  | .beginRestore did => c.sendSessionByDid did = none ∧ (∃ blob, c.blobs did = some blob) ∧
      ownBy Restore.task i c.restoring = []
  | .restored did sid => ∃ blob, ownBy Restore.task i c.restoring = [⟨i, did, blob, some sid⟩]
  | .restoreFailed => ∃ did blob, ownBy Restore.task i c.restoring = [⟨i, did, blob, none⟩]
  | .setSerializedSession did sid blob => ∃ ses, c.native sid = some ses ∧ blob.gen = ses.gen ∧
      blob.remoteDid = ses.remoteDid ∧ ses.gen.peer = did
  | .resetSendSession _ => True
  | .newPromise => True
  | .setInFlight did p => p.did = did
  | .settle p r => ∀ sid, r = .ok sid → c.HasSession sid p.did
  | .deleteInFlight _ => True

/-- The synchronous operations leave the native sessions and their history alone. -/
theorem SendOp.apply_frame (i : Nat) (o : SendOp) (c : SendSide) :
    (o.apply i c).native = c.native ∧ (o.apply i c).nextNative = c.nextNative ∧
      (o.apply i c).positions = c.positions ∧ (o.apply i c).lastSeal = c.lastSeal := by
  cases o with
  | beginRestore did =>
    simp only [SendOp.apply, SendSide.beginRestore]
    split <;> exact ⟨rfl, rfl, rfl, rfl⟩
  | _ => exact ⟨rfl, rfl, rfl, rfl⟩

theorem SendOp.keepsSessions (i : Nat) (o : SendOp) (c : SendSide) :
    c.KeepsSessions (o.apply i c) :=
  .of_native (SendOp.apply_frame i o c).1

theorem SendOp.own_other (hj : j ≠ i) (o : SendOp) (c : SendSide) :
    ownBy Restore.task j (o.apply i c).restoring = ownBy Restore.task j c.restoring := by
  cases o with
  | beginRestore did =>
    simp only [SendOp.apply, SendSide.beginRestore]
    split
    · rfl
    · rw [ownBy_append, ownBy_singleton_other Restore.task rfl hj, append_nil]
  | restored | restoreFailed => exact ownBy_drop_other Restore.task hj _
  | _ => rfl

/-- The operations by which a task begins and ends a restore. -/
def SendOp.isRestore : SendOp → Bool
  | .beginRestore _ => true
  | .restored _ _ => true
  | .restoreFailed => true
  | _ => false

theorem SendOp.restoring_quiet (h : o.isRestore = false) (c : SendSide) :
    (o.apply i c).restoring = c.restoring := by
  cases o with
  | beginRestore | restored | restoreFailed => simp [SendOp.isRestore] at h
  | _ => rfl

/-- What an operation may write into the maps: the facts of `SendSide.Inv` for the new entries. -/
theorem SendSide.Inv.of_frame (h : c.Inv) (hk : c.KeepsSessions c')
    (hcached : ∀ did sid, c'.sendSessionByDid did = some sid →
      c.sendSessionByDid did = some sid ∨ c'.HasSession sid did)
    (hflight : ∀ did p, c'.sendSessionInitInFlight did = some p →
      c.sendSessionInitInFlight did = some p ∨ p.did = did)
    (hprom : ∀ p sid, c'.promises p = some (.ok sid) →
      c.promises p = some (.ok sid) ∨ c'.HasSession sid p.did)
    (hblobs : ∀ did blob, c'.blobs did = some blob → c.blobs did = some blob ∨ blob.gen.peer = did)
    (hrest : ∀ r ∈ c'.restoring, r ∈ c.restoring ∨ (r.blob.gen.peer = r.did ∧
      ∀ sid, r.sid = some sid → c'.HasSession sid r.did))
    (hfresh : ∀ sid, c'.nextNative ≤ sid → c'.native sid = none) : c'.Inv where
  cached did sid hd := (hcached did sid hd).elim (fun h' => (h.cached did sid h').mono hk) id
  inFlight did p hd := (hflight did p hd).elim (h.inFlight did p) id
  promised p sid hp := (hprom p sid hp).elim (fun h' => (h.promised p sid h').mono hk) id
  blobs did blob hb := (hblobs did blob hb).elim (h.blobs did blob) id
  restoring r hr := by
    rcases hrest r hr with h' | h'
    · obtain ⟨h1, h2⟩ := h.restoring r h'
      exact ⟨h1, fun sid hs => (h2 sid hs).mono hk⟩
    · exact h'
  fresh := hfresh

theorem update_some {α β : Type} [DecidableEq α] {f : α → Option β} {a a' : α} {v : Option β}
    {b : β} (h : update f a v a' = some b) : f a' = some b ∨ (a' = a ∧ v = some b) := by
  by_cases ha : a' = a
  · rw [ha, update_self] at h
    exact .inr ⟨ha, h⟩
  · rw [update_of_ne ha] at h
    exact .inl h

theorem SendOp.inv_apply (h : c.Inv) (hp : o.Pre i c) : (o.apply i c).Inv := by
  obtain ⟨hn, hnn, -, -⟩ := SendOp.apply_frame i o c
  have hk := SendOp.keepsSessions i o c
  have hfresh : ∀ sid, (o.apply i c).nextNative ≤ sid → (o.apply i c).native sid = none := by
    rw [hn, hnn]
    exact h.fresh
  cases o with
  | setSession did sid =>
    refine h.of_frame hk ?_ (fun _ _ => .inl) (fun _ _ => .inl) (fun _ _ => .inl)
      (fun _ => .inl) hfresh
    intro did' sid' hd
    rcases update_some hd with hd | ⟨rfl, hsid⟩
    · exact .inl hd
    · rw [Option.some.injEq] at hsid
      exact .inr (hsid ▸ hp.mono hk)
  | beginRestore did =>
    obtain ⟨-, ⟨blob, hb⟩, -⟩ := hp
    simp only [SendOp.apply, SendSide.beginRestore, hb] at hk hfresh ⊢
    refine h.of_frame hk (fun _ _ => .inl) (fun _ _ => .inl) (fun _ _ => .inl)
      (fun _ _ => .inl) ?_ hfresh
    intro r hr
    rcases mem_append.1 hr with hr | hr
    · exact .inl hr
    rw [mem_singleton] at hr
    subst hr
    exact .inr ⟨h.blobs did blob hb, fun sid hs => nomatch hs⟩
  | restored did sid =>
    obtain ⟨blob, hown⟩ := hp
    refine h.of_frame hk ?_ (fun _ _ => .inl) (fun _ _ => .inl) (fun _ _ => .inl)
      (fun r hr => .inl (mem_filter.1 hr).1) hfresh
    intro did' sid' hd
    rcases update_some hd with hd | ⟨rfl, hsid⟩
    · exact .inl hd
    rw [Option.some.injEq] at hsid
    have hs := (h.restoring _ (mem_of_ownBy hown)).2 sid rfl
    exact .inr (hsid ▸ hs.mono hk)
  | restoreFailed =>
    exact h.of_frame hk (fun _ _ => .inl) (fun _ _ => .inl) (fun _ _ => .inl)
      (fun _ _ => .inl) (fun r hr => .inl (mem_filter.1 hr).1) hfresh
  | setSerializedSession did sid blob =>
    obtain ⟨ses, -, hgen, -, hpeer⟩ := hp
    refine h.of_frame hk (fun _ _ => .inl) (fun _ _ => .inl) (fun _ _ => .inl) ?_
      (fun _ => .inl) hfresh
    intro did' blob' hd
    rcases update_some hd with hd | ⟨rfl, hblob⟩
    · exact .inl hd
    · rw [Option.some.injEq] at hblob
      exact .inr (by rw [← hblob, hgen, hpeer])
  | resetSendSession did =>
    refine h.of_frame hk ?_ (fun _ _ => .inl) (fun _ _ => .inl) ?_ (fun _ => .inl) hfresh
    · intro did' sid' hd
      rcases update_some hd with hd | ⟨_, hsid⟩
      · exact .inl hd
      · simp at hsid
    · intro did' blob' hd
      rcases update_some hd with hd | ⟨_, hblob⟩
      · exact .inl hd
      · simp at hblob
  | newPromise =>
    exact h.of_frame hk (fun _ _ => .inl) (fun _ _ => .inl) (fun _ _ => .inl)
      (fun _ _ => .inl) (fun _ => .inl) hfresh
  | setInFlight did p =>
    refine h.of_frame hk (fun _ _ => .inl) ?_ (fun _ _ => .inl) (fun _ _ => .inl)
      (fun _ => .inl) hfresh
    intro did' p' hd
    rcases update_some hd with hd | ⟨rfl, hpp⟩
    · exact .inl hd
    · rw [Option.some.injEq] at hpp
      exact .inr (hpp ▸ hp)
  | settle p r =>
    refine h.of_frame hk (fun _ _ => .inl) (fun _ _ => .inl) ?_ (fun _ _ => .inl)
      (fun _ => .inl) hfresh
    intro p' sid hd
    rcases update_some hd with hd | ⟨rfl, hr⟩
    · exact .inl hd
    · rw [Option.some.injEq] at hr
      exact .inr ((hp sid hr).mono hk)
  | deleteInFlight did =>
    refine h.of_frame hk (fun _ _ => .inl) ?_ (fun _ _ => .inl) (fun _ _ => .inl)
      (fun _ => .inl) hfresh
    intro did' p' hd
    rcases update_some hd with hd | ⟨_, hpp⟩
    · exact .inl hd
    · simp at hpp

/-! ### Native calls -/

theorem SendSide.Inv.keeps_addNative (h : c.Inv) (ses : Session) :
    c.KeepsSessions (c.addNative ses) := by
  intro sid ses' hses
  have hne : sid ≠ c.nextNative := by
    intro he
    have := h.fresh sid (he ▸ Nat.le_refl _)
    rw [hses] at this
    simp at this
  exact ⟨ses', by simp [SendSide.addNative, hne, hses], rfl, rfl⟩

theorem SendSide.Inv.fresh_addNative (h : c.Inv) (ses : Session) (sid : Nat)
    (hle : c.nextNative + 1 ≤ sid) : (c.addNative ses).native sid = none := by
  have hne : sid ≠ c.nextNative := by omega
  simp [SendSide.addNative, hne, h.fresh sid (by omega)]

theorem SendSide.Inv.addNative (h : c.Inv) (ses : Session) : (c.addNative ses).Inv :=
  h.of_frame (h.keeps_addNative ses) (fun _ _ => .inl) (fun _ _ => .inl) (fun _ _ => .inl)
    (fun _ _ => .inl) (fun _ => .inl) (h.fresh_addNative ses)

theorem SendSide.hasSession_addNative (c : SendSide) (ses : Session) :
    (c.addNative ses).HasSession c.nextNative ses.gen.peer :=
  ⟨ses, by simp [SendSide.addNative], rfl⟩

/-- The only entry of task `i` is the restore of `blob`. -/
def SendSide.Restoring (i : Nat) (blob : Session) (c : SendSide) : Prop :=
  ∃ did, ownBy Restore.task i c.restoring = [⟨i, did, blob, none⟩]

theorem SendSide.Inv.deserialize {blob : Session} (h : c.Inv) (hr : c.Restoring i blob) :
    (c.deserialize i blob).Inv := by
  obtain ⟨did, hown⟩ := hr
  refine h.of_frame (h.keeps_addNative blob) (fun _ _ => .inl) (fun _ _ => .inl)
    (fun _ _ => .inl) (fun _ _ => .inl) ?_ (h.fresh_addNative blob)
  intro r hr
  obtain ⟨r0, hr0, rfl⟩ := mem_map.1 hr
  split
  · rename_i hi
    have he := eq_of_ownBy hown hr0 hi
    obtain ⟨hpeer, -⟩ := h.restoring r0 hr0
    refine .inr ⟨hpeer, fun sid hs => ?_⟩
    cases hs
    rw [he] at hpeer ⊢
    exact ⟨blob, by simp [SendSide.deserialize, SendSide.addNative], hpeer⟩
  · exact .inl hr0

theorem SendSide.keeps_seal (e : Envelope) (hses : c.native sid = some ses) :
    c.KeepsSessions (c.seal sid ses e) := by
  intro sid' ses' hses'
  by_cases hs : sid' = sid
  · subst hs
    rw [hses, Option.some.injEq] at hses'
    exact ⟨{ ses with counter := ses.counter + 1 }, by simp [SendSide.seal], by rw [← hses'],
      by rw [← hses']⟩
  · exact ⟨ses', by simp [SendSide.seal, hs, hses'], rfl, rfl⟩

theorem SendSide.Inv.seal (h : c.Inv) (e : Envelope) (hses : c.native sid = some ses) :
    (c.seal sid ses e).Inv := by
  refine h.of_frame (SendSide.keeps_seal e hses) (fun _ _ => .inl) (fun _ _ => .inl)
    (fun _ _ => .inl) (fun _ _ => .inl) (fun _ => .inl) ?_
  intro sid' hle
  have hne : sid' ≠ sid := by
    intro he
    have := h.fresh sid' hle
    rw [he, hses] at this
    simp at this
  simp only [SendSide.seal, update_of_ne hne]
  exact h.fresh sid' hle

theorem SendSide.Inv.recordPosition (h : c.Inv) (e : Envelope) (info : SessionInfo) :
    (c.recordPosition e info).Inv :=
  h.of_frame (.of_native rfl) (fun _ _ => .inl) (fun _ _ => .inl) (fun _ _ => .inl)
    (fun _ _ => .inl) (fun _ => .inl) h.fresh

/-! ## Rows -/

/-- The rows that `sendTextMessageNative` appends, and what `resendMessage` makes of them. -/
def LocalMessage.IsSent (m : LocalMessage) : Prop :=
  (∃ now random, m.id = .sentLocally now random) ∧ m.direction = .sent ∧ m.contentType = .text ∧
    m.body.marked = false

/-- A row of the conversation with `did`: sent, a placeholder or received. -/
def LocalMessage.Ok (did : Did) (m : LocalMessage) : Prop :=
  m.IsSent ∨ ((m = m.origin.placeholder ∨ m = m.origin.receivedRow m.origin.body) ∧
    m.origin.senderDid = did)

def Store.Inv (c : Store) : Prop :=
  ∀ did, ∀ m ∈ c.messagesByConversation did, m.Ok did

theorem mem_updateFirst {f : LocalMessage → LocalMessage} {l : List LocalMessage}
    (h : m ∈ updateFirst p f l) :
    m ∈ l ∨ ∃ m0 ∈ l, p m0 = true ∧ m = f m0 := by
  induction l with
  | nil => simp [updateFirst] at h
  | cons a l ih =>
    rw [updateFirst] at h
    split at h
    · rename_i hp
      rcases mem_cons.1 h with rfl | h
      · exact .inr ⟨a, mem_cons_self, hp, rfl⟩
      · exact .inl (mem_cons_of_mem _ h)
    · rcases mem_cons.1 h with rfl | h
      · exact .inl mem_cons_self
      rcases ih h with h | ⟨m0, hm0, h'⟩
      · exact .inl (mem_cons_of_mem _ h)
      · exact .inr ⟨m0, mem_cons_of_mem _ hm0, h'⟩

theorem LocalMessage.IsSent.update (h : m.IsSent) (status : MessageStatus)
    (patch : Option RatchetPatch) : (m.update status patch).IsSent := by
  unfold LocalMessage.update
  split <;> exact h

/-- Rows whose identifier was given by `sendTextMessageNative` are sent rows. -/
theorem LocalMessage.Ok.isSent_of_id (h : m.Ok did) {now random : Nat}
    (hid : m.id = .sentLocally now random) : m.IsSent := by
  rcases h with h | ⟨h | h, _⟩
  · exact h
  · rw [h] at hid
    simp [Envelope.placeholder, Envelope.placeholderId] at hid
  · rw [h] at hid
    simp [Envelope.receivedRow] at hid

theorem LocalMessage.Ok.isSent_of_direction (h : m.Ok did) (hd : m.direction = .sent) :
    m.IsSent := by
  rcases h with h | ⟨h | h, _⟩
  · exact h
  · rw [h] at hd
    simp [Envelope.placeholder] at hd
  · rw [h] at hd
    simp [Envelope.receivedRow] at hd

theorem LocalMessage.isSentAt_iff {seq epoch : Nat} :
    m.isSentAt seq epoch = true ↔ m.direction = .sent ∧ m.sequence = seq ∧ m.epoch = epoch := by
  simp [LocalMessage.isSentAt, and_assoc]

theorem Store.Inv.setMessages {c : Store} {rows : List LocalMessage} (h : c.Inv)
    (hrows : ∀ m ∈ rows, m ∈ c.messagesByConversation did ∨ m.Ok did) :
    (c.setMessages did rows).Inv := by
  intro did' m hm
  simp only [Store.setMessages] at hm
  by_cases hd : did' = did
  · subst hd
    rw [update_self] at hm
    exact (hrows m hm).elim (h did' m) id
  · rw [update_of_ne hd] at hm
    exact h did' m hm

@[simp] theorem Store.appendMessage_messages (c : Store) (did : Did) (msg : LocalMessage) :
    (c.appendMessage did msg).messagesByConversation =
      update c.messagesByConversation did (c.messagesByConversation did ++ [msg]) := by
  unfold Store.appendMessage
  cases msg.direction <;> rfl

theorem Store.Inv.appendMessage {c : Store} {msg : LocalMessage} (h : c.Inv) (hm : msg.Ok did) :
    (c.appendMessage did msg).Inv := by
  have h' : (c.setMessages did (c.messagesByConversation did ++ [msg])).Inv := by
    refine h.setMessages fun m hmem => ?_
    rcases mem_append.1 hmem with hmem | hmem
    · exact .inl hmem
    · exact .inr (mem_singleton.1 hmem ▸ hm)
  intro did' m hmem
  rw [Store.appendMessage_messages] at hmem
  exact h' did' m hmem

theorem Envelope.placeholder_ok (e : Envelope) : e.placeholder.Ok e.senderDid :=
  .inr ⟨.inl rfl, rfl⟩

theorem Envelope.receivedRow_ok (e : Envelope) : (e.receivedRow e.body).Ok e.senderDid :=
  .inr ⟨.inr rfl, rfl⟩

theorem Store.Inv.replaceMessage {c : Store} {oldId : MessageId} {next : Option LocalMessage}
    (h : c.Inv) (hn : ∀ m, next = some m → m.Ok did) :
    (c.replaceMessage did oldId next).Inv := by
  unfold Store.replaceMessage
  split
  · rename_i m
    refine h.setMessages fun m' hm' => ?_
    rcases mem_updateFirst hm' with hm' | ⟨_, _, _, rfl⟩
    · exact .inl hm'
    · exact .inr (hn _ rfl)
  · exact h.setMessages fun m' hm' => .inl (mem_filter.1 hm').1

theorem Store.Inv.updateFirst {c : Store} {status : MessageStatus} {patch : Option RatchetPatch}
    (h : c.Inv) (hp : ∀ m ∈ c.messagesByConversation did, p m = true → m.IsSent) :
    (c.setMessages did (updateFirst p (LocalMessage.update status patch)
      (c.messagesByConversation did))).Inv := by
  refine h.setMessages fun m' hm' => ?_
  rcases mem_updateFirst hm' with hm' | ⟨m0, hm0, hpm, rfl⟩
  · exact .inl hm'
  · exact .inr (.inl ((hp m0 hm0 hpm).update status patch))

theorem Store.Inv.confirmSentMessage {c : Store} (h : c.Inv) (did : Did) (seq epoch acked : Nat) :
    (c.confirmSentMessage did seq epoch acked).Inv := by
  unfold Store.confirmSentMessage
  split
  · exact h
  have hsent : ∀ m ∈ c.messagesByConversation did, m.isSentAt seq epoch = true → m.IsSent :=
    fun m hm hp => (h did m hm).isSent_of_direction (LocalMessage.isSentAt_iff.1 hp).1
  exact h.updateFirst hsent

/-- The conditions of `Store.Inv` on what an operation writes. -/
def StoreOp.RowsOk : StoreOp → Prop
  | .appendMessage did msg => msg.Ok did
  | .updateMessageStatus _ id _ _ => ∃ now random, id = .sentLocally now random
  | _ => True

theorem StoreOp.inv_apply {o : StoreOp} {c : Store} (h : c.Inv) (hp : o.RowsOk) :
    (o.apply c).Inv := by
  cases o with
  | upsertContact did contact => exact h
  | appendMessage did msg => exact h.appendMessage hp
  | appendUndecryptablePlaceholder e =>
    simp only [StoreOp.apply, Store.appendUndecryptablePlaceholder]
    split
    · exact h
    · exact h.appendMessage e.placeholder_ok
  | updateMessageStatus did id status patch =>
    obtain ⟨now, random, rfl⟩ := hp
    refine h.updateFirst fun m hm hid => ?_
    exact (h did m hm).isSent_of_id (by simpa using hid)
  | confirmSentMessage did seq epoch acked => exact h.confirmSentMessage did seq epoch acked

/-! ## The pending-decrypt buffer -/

/-- An entry of a buffer of `did`. -/
def PendingDecrypt.Ok (did : Did) (p : PendingDecrypt) : Prop :=
  p.placeholderId = p.envelope.placeholderId ∧ p.envelope.senderDid = did ∧
    p.envelope.contentType = .text

structure PendingSide.Inv (c : PendingSide) : Prop where
  refs : ∀ did ref, c.pendingDecryptByDid did = some ref → ref.did = did
  items : ∀ ref, ∀ p ∈ c.heap ref, p.Ok ref.did
  short : ∀ ref, (c.heap ref).length ≤ PENDING_DECRYPT_LIMIT_PER_PEER

/-- What task `i` knows when it runs an operation on the buffers. -/
def PendingOp.Pre (i : Nat) (c : PendingSide) : PendingOp → Prop
  | .bufferUndecryptable e => e.contentType = .text
  | .startDrain did ref => c.pendingDecryptByDid did = some ref ∧ ownBy Drain.task i c.drains = []
  | .takeNext => ∃ d, ownBy Drain.task i c.drains = [d] ∧ d.current = none
  | .keep => ∃ d item, ownBy Drain.task i c.drains = [d] ∧ d.current = some item
  | .endDrain => ∃ did ref, ownBy Drain.task i c.drains = [⟨i, did, ref, 0, [], none⟩]
  | .setPending did remaining => ∃ ref taken,
      ownBy Drain.task i c.drains = [⟨i, did, ref, taken, remaining, none⟩] ∧
      (c.heap ref).length ≤ taken ∧ remaining.length ≤ PENDING_DECRYPT_LIMIT_PER_PEER ∧
      ∀ p ∈ remaining, p.Ok did

theorem PendingSide.Inv.setArray {c : PendingSide} {buf : List PendingDecrypt} (h : c.Inv)
    (ref : ArrayRef) (hok : ∀ p ∈ buf, p.Ok ref.did)
    (hlen : buf.length ≤ PENDING_DECRYPT_LIMIT_PER_PEER) : (c.setArray ref.did ref buf).Inv where
  refs did ref' hd := by
    rcases update_some hd with hd | ⟨rfl, hr⟩
    · exact h.refs did ref' hd
    · rw [Option.some.injEq] at hr
      rw [← hr]
  items ref' p hp := by
    simp only [PendingSide.setArray] at hp
    by_cases hr : ref' = ref
    · rw [hr, update_self] at hp
      exact hr ▸ hok p hp
    · rw [update_of_ne hr] at hp
      exact h.items ref' p hp
  short ref' := by
    simp only [PendingSide.setArray]
    by_cases hr : ref' = ref
    · rw [hr, update_self]
      exact hlen
    · rw [update_of_ne hr]
      exact h.short ref'

theorem PendingSide.Inv.buffer_ok {c : PendingSide} (h : c.Inv) (did : Did) :
    ∀ p ∈ c.buffer did, p.Ok did := by
  intro p hp
  unfold PendingSide.buffer at hp
  split at hp
  · simp at hp
  · rename_i ref href
    exact h.refs did ref href ▸ h.items ref p hp

/-- The array that a push for `did` goes to. -/
def PendingSide.pushRef (c : PendingSide) (did : Did) : ArrayRef :=
  (c.pendingDecryptByDid did).getD ⟨did, c.nextRef⟩

theorem PendingSide.Inv.pushRef_did {c : PendingSide} (h : c.Inv) (did : Did) :
    (c.pushRef did).did = did := by
  unfold PendingSide.pushRef
  cases hd : c.pendingDecryptByDid did with
  | none => rfl
  | some ref => exact h.refs did ref hd

theorem PendingSide.newItem_ok {c : PendingSide} (ht : e.contentType = .text) :
    (c.newItem e).Ok e.senderDid :=
  ⟨rfl, rfl, ht⟩

theorem PendingSide.Inv.bufferUndecryptable {c : PendingSide} (h : c.Inv)
    (ht : e.contentType = .text) : (c.bufferUndecryptable e).Inv := by
  unfold PendingSide.bufferUndecryptable
  simp only
  split
  · exact h
  have hdid : (c.pushRef e.senderDid).did = e.senderDid := h.pushRef_did e.senderDid
  have hset : ∀ buf : List PendingDecrypt, (∀ p ∈ buf, p.Ok e.senderDid) →
      buf.length ≤ PENDING_DECRYPT_LIMIT_PER_PEER →
      (c.setArray e.senderDid (c.pushRef e.senderDid) buf).Inv := by
    intro buf hok hlen
    have hok' : ∀ p ∈ buf, p.Ok (c.pushRef e.senderDid).did := by rwa [hdid]
    have := h.setArray (c.pushRef e.senderDid) hok' hlen
    rwa [hdid] at this
  have hok : ∀ p ∈ c.buffer e.senderDid ++ [c.newItem e], p.Ok e.senderDid := by
    intro p hp
    rcases mem_append.1 hp with hp | hp
    · exact h.buffer_ok e.senderDid p hp
    · rw [mem_singleton] at hp
      exact hp ▸ newItem_ok ht
  have hinv := hset ((c.buffer e.senderDid ++ [c.newItem e]).drop
    ((c.buffer e.senderDid ++ [c.newItem e]).length - PENDING_DECRYPT_LIMIT_PER_PEER))
    (fun p hp => hok p (mem_of_mem_drop hp)) (by rw [length_drop]; omega)
  exact ⟨hinv.refs, hinv.items, hinv.short⟩

theorem PendingSide.Inv.setPending {c : PendingSide} {remaining : List PendingDecrypt} (h : c.Inv)
    (hok : ∀ p ∈ remaining, p.Ok did) (hlen : remaining.length ≤ PENDING_DECRYPT_LIMIT_PER_PEER) :
    (c.setPending did remaining).Inv := by
  unfold PendingSide.setPending
  split
  · refine ⟨fun did' ref hd => ?_, h.items, h.short⟩
    rcases update_some hd with hd | ⟨_, hr⟩
    · exact h.refs did' ref hd
    · simp at hr
  · exact h.setArray ⟨did, c.nextRef⟩ hok hlen

theorem PendingSide.Inv.of_eq {c c' : PendingSide} (h : c.Inv)
    (h1 : c'.pendingDecryptByDid = c.pendingDecryptByDid) (h2 : c'.heap = c.heap) : c'.Inv :=
  ⟨h1 ▸ h.refs, h2 ▸ h.items, h2 ▸ h.short⟩

theorem PendingOp.inv_apply {o : PendingOp} {c : PendingSide} (h : c.Inv) (hp : o.Pre i c) :
    (o.apply i c).Inv := by
  cases o with
  | bufferUndecryptable e => exact h.bufferUndecryptable hp
  | startDrain | takeNext | keep | endDrain => exact h.of_eq rfl rfl
  | setPending did remaining =>
    obtain ⟨ref, taken, -, -, hlen, hok⟩ := hp
    have h' : (c.endDrain i).Inv := h.of_eq rfl rfl
    exact h'.setPending hok hlen

theorem PendingSide.bufferUndecryptable_drains (c : PendingSide) (e : Envelope) :
    (c.bufferUndecryptable e).drains = c.drains := by
  unfold PendingSide.bufferUndecryptable
  simp only
  split <;> rfl

theorem PendingSide.setPending_drains (c : PendingSide) (did : Did)
    (remaining : List PendingDecrypt) : (c.setPending did remaining).drains = c.drains := by
  unfold PendingSide.setPending
  split <;> rfl

theorem PendingOp.own_other (hj : j ≠ i) (o : PendingOp) (c : PendingSide) :
    ownBy Drain.task j (o.apply i c).drains = ownBy Drain.task j c.drains := by
  cases o with
  | bufferUndecryptable e =>
    exact congrArg (ownBy Drain.task j) (c.bufferUndecryptable_drains e)
  | startDrain did ref =>
    simp only [PendingOp.apply]
    rw [ownBy_append, ownBy_singleton_other Drain.task rfl hj, append_nil]
  | takeNext => exact ownBy_map_other Drain.task (Drain.takeNext c.heap) (fun _ => rfl) hj _
  | keep => exact ownBy_map_other Drain.task Drain.keep (fun _ => rfl) hj _
  | endDrain => exact ownBy_drop_other Drain.task hj _
  | setPending did remaining =>
    simp only [PendingOp.apply, PendingSide.setPending_drains]
    exact ownBy_drop_other Drain.task hj _

end Messaging
