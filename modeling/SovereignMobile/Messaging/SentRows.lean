import SovereignMobile.Messaging.Runs

/-! # The position that a sent row records

`sendTextMessageNative` and `resendMessage` read the position of a row from the session, after the
envelope has been shipped: `sequence = info.counter - 1`. By then others may have sealed with the
same session. The rows are right in the runs in which nobody does so in between. -/

namespace Messaging

open EventLoop List Option

/-- The row has the position of the envelope that was sealed for it. -/
def LocalMessage.RecordsOrigin (m : LocalMessage) : Prop :=
  m.direction = .sent → m.sequence = m.origin.sequence ∧ m.epoch = m.origin.epoch

/-- Every sent row of every device has the position of its envelope. -/
def SentRowsRecordOrigin (s : State) : Prop :=
  ∀ me did, ∀ m ∈ (s.client me).store.messagesByConversation did, m.RecordsOrigin

/-- When the position of `e` is read, `e` is what was sealed last with the session. -/
def readsOwnPosition : Cond machine where
  op _ _ _ := true
  call _ s c _ :=
    match c with
    | .getSessionInfo me .send sid (some e) => decide ((State.client s me).send.lastSeal sid = some e)
    | _ => true

/-- What makes a position right: a session stands just after the envelope sealed last with it. -/
structure SendSide.PositionsRight (c : SendSide) : Prop where
  lastSeal : ∀ sid e, c.lastSeal sid = some e →
    ∃ ses, c.native sid = some ses ∧ ses.counter = e.sequence + 1 ∧ ses.epoch = e.epoch
  positions : ∀ p ∈ c.positions, p.info.counter = p.origin.sequence + 1 ∧
    p.info.epoch = p.origin.epoch

def Store.RowsRight (c : Store) : Prop :=
  ∀ did, ∀ m ∈ c.messagesByConversation did, m.RecordsOrigin

def PositionsRight (s : State) : Prop :=
  ∀ me, (s.client me).send.PositionsRight ∧ (s.client me).store.RowsRight

/-! ## Rows -/

variable {i sid : Nat} {s : State} {me : Did} {o : ClientOp} {c : SendSide} {ses : Session}
    {e : Envelope}

/-- A row that is written from a right position is right. -/
theorem ClientOp.rowsRight_apply (hpos : (s.client me).send.PositionsRight)
    (h : (s.client me).store.RowsRight) (hp : o.Pre i s me) :
    (o.apply i (s.client me)).store.RowsRight := by
  refine ClientOp.everySent_apply
    (fun _ _ _ hm => hm) (fun did msg ho => ?_) (fun did id status p ho m => ?_) h hp
  · subst ho
    obtain ⟨now, random, body, info, status, e, rfl, -, hread, -⟩ := hp
    obtain ⟨hc, he⟩ := hpos.positions _ hread
    simp only [sentRow] at hc ⊢
    exact ⟨by omega, he⟩
  · subst ho
    obtain ⟨info, hread, hepoch, hseq, -⟩ := hp.2 p rfl
    obtain ⟨hc, he⟩ := hpos.positions _ hread
    simp only [LocalMessage.update] at hc ⊢
    exact ⟨by omega, hepoch.trans he⟩

/-! ## Positions -/

theorem SendSide.PositionsRight.of_frame {c' : SendSide} (h : c.PositionsRight)
    (hnative : ∀ sid ses, c.native sid = some ses → c'.native sid = some ses)
    (hlast : c'.lastSeal = c.lastSeal) (hpos : c'.positions = c.positions) :
    c'.PositionsRight where
  lastSeal sid e he := by
    rw [hlast] at he
    obtain ⟨ses, hses, hc⟩ := h.lastSeal sid e he
    exact ⟨ses, hnative sid ses hses, hc⟩
  positions p hp := h.positions p (hpos ▸ hp)

theorem SendSide.Inv.native_addNative (h : c.Inv) (ses : Session) (sid : Nat) (ses' : Session)
    (hs : c.native sid = some ses') :
    (c.addNative ses).native sid = some ses' := by
  have hne : sid ≠ c.nextNative := by
    intro he
    have := h.fresh sid (he ▸ Nat.le_refl _)
    rw [hs] at this
    simp at this
  simp [SendSide.addNative, hne, hs]

/-- After a seal the session stands just after the new envelope. -/
theorem SendSide.PositionsRight.seal (h : c.PositionsRight) (hseq : e.sequence = ses.counter)
    (hepoch : e.epoch = ses.epoch) :
    (c.seal sid ses e).PositionsRight where
  lastSeal sid' e' he' := by
    simp only [SendSide.seal] at he' ⊢
    by_cases hs : sid' = sid
    · subst hs
      rw [Function.update_self, some.injEq] at he'
      rw [Function.update_self]
      exact ⟨_, rfl, by rw [← he', hseq], by rw [← he', hepoch]⟩
    · rw [Function.update_of_ne hs] at he' ⊢
      exact h.lastSeal sid' e' he'
  positions := h.positions

theorem SendSide.PositionsRight.recordPosition (h : c.PositionsRight)
    (hses : c.native sid = some ses) (hlast : c.lastSeal sid = some e) :
    (c.recordPosition e ⟨ses.counter, ses.epoch⟩).PositionsRight where
  lastSeal := h.lastSeal
  positions p hp := by
    rcases mem_append.1 hp with hp | hp
    · exact h.positions p hp
    rw [mem_singleton] at hp
    subst hp
    obtain ⟨ses', hses', hc, he⟩ := h.lastSeal sid e hlast
    rw [hses, some.injEq] at hses'
    subst hses'
    exact ⟨hc, he⟩

/-! ## Steps -/

theorem ClientOp.positionsRight_apply
    (h : (s.client me).send.PositionsRight ∧ (s.client me).store.RowsRight) (hp : o.Pre i s me) :
    (o.apply i (s.client me)).send.PositionsRight ∧ (o.apply i (s.client me)).store.RowsRight := by
  have hsend : ∀ o : SendOp, (o.apply i (s.client me).send).PositionsRight := by
    intro o
    obtain ⟨hn, -, hpos, hlast⟩ := SendOp.apply_frame i o (s.client me).send
    exact h.1.of_frame (fun sid ses hs => by rw [hn, hs]) hlast hpos
  refine ⟨?_, ClientOp.rowsRight_apply h.1 h.2 hp⟩
  cases o with
  | send o => exact hsend o
  | deleteConversation did => exact hsend (.resetSendSession did)
  | _ => exact h.1

theorem PositionsRight.modifySend {f : SendSide → SendSide} (h : PositionsRight s)
    (hf : (f (s.client me).send).PositionsRight) :
    PositionsRight (s.modifySend me f) :=
  State.forall_modify (P := fun _ c => c.send.PositionsRight ∧ c.store.RowsRight) h ⟨hf, (h me).2⟩

theorem PositionsRight.modifyRecv {f : RecvSide → RecvSide} (h : PositionsRight s) :
    PositionsRight (s.modifyRecv me f) :=
  State.forall_modify (P := fun _ c => c.send.PositionsRight ∧ c.store.RowsRight) h (h me)

theorem Call.Effect.positionsRight {s' : State} {c : Call} {v : Ret c} (hi : s.Inv)
    (h : PositionsRight s) (he : Call.Effect i s c s')
    (hc : readsOwnPosition.call i s c (.ok v) = true) : PositionsRight s' := by
  cases he with
  | none | relayed => exact h
  | initiated me did remote | restored me blob =>
    exact h.modifySend ((h me).1.of_frame ((hi me).send.native_addNative _) rfl rfl)
  | keyExchange me remote gen => exact h
  | text me sid body ses t hses => exact h.modifySend ((h me).1.seal rfl rfl)
  | position me sid e ses hses =>
    exact h.modifySend ((h me).1.recordPosition hses (of_decide_eq_true hc))
  | accepted | rekeyed | opened => exact h.modifyRecv

/-- The app was launched with rows that record the positions of their envelopes. -/
def RowsInit (s : State) : Prop := Launched s ∧ SentRowsRecordOrigin s

theorem RowsInit.positionsRight (h : RowsInit s) : PositionsRight s := by
  intro me
  refine ⟨⟨fun sid e he => ?_, fun p hp => ?_⟩, h.2 me⟩
  · rw [(h.1 me).lastSeal] at he
    simp at he
  · rw [(h.1 me).positions] at hp
    simp at hp

/-- **Sent rows record what was sealed.** In every run in which the position of an envelope is read
    before anything else is sealed with its session, every sent row has the sequence and the epoch of
    the envelope that was sealed for it. -/
theorem sentRowsRecordOrigin_of_readsOwnPosition {w : Sys machine}
    (h : Reach readsOwnPosition prog RowsInit w) : SentRowsRecordOrigin w.state := by
  obtain ⟨-, hinv, -⟩ := invariant_of_reach (fun s hs => ⟨hs.1, hs.positionsRight⟩)
    (fun i s me o _ hj _ hp =>
      State.forall_modify (P := fun _ c => c.send.PositionsRight ∧ c.store.RowsRight) hj
        (ClientOp.positionsRight_apply (hj me) hp))
    (fun s ms hj => hj)
    (fun i s c s' v hi hj _ he hc => he.positionsRight hi hj hc) h
  exact fun me => (hinv me).2

/-! ## Two sends that overlap -/

theorem rowsInit_paired : RowsInit State.paired :=
  ⟨launched_paired, fun me did m hm => absurd hm (by simp [messages_paired])⟩

/-- Both messages are sealed before the position of the first one is read. -/
def overlappingSends : List (Move machine Cmd) :=
  [.start (.sendTextMessage alice bob "one" 1), .start (.sendTextMessage alice bob "two" 2),
   .perform 1 .ok, .resume 1, .perform 1 .ok, .resume 1,
   .perform 0 .ok, .resume 0, .perform 0 .ok, .resume 0,
   .perform 2 .ok, .resume 2, .perform 2 .ok, .resume 2,
   .perform 0 (.stamped 1), .resume 0, .perform 2 (.stamped 1), .resume 2,
   .perform 0 (.relayed .delivered), .resume 0, .perform 0 .ok, .resume 0,
   .perform 0 .ok, .resume 0, .perform 0 .ok, .resume 0]

theorem not_sentRowsRecordOrigin :
    ¬ ∀ w : Sys machine, Reach Cond.any prog RowsInit w → SentRowsRecordOrigin w.state := by
  intro hall
  have hw : ((Sys.idle State.paired).run Cond.any prog overlappingSends).map
      (fun w => ((State.client w.state alice).store.messagesByConversation bob).map fun m =>
        (m.direction, m.sequence, m.origin.sequence)) = some [(.sent, 1, 0)] := by decide
  rw [map_eq_some_iff] at hw
  obtain ⟨w, hrun, hobs⟩ := hw
  obtain ⟨m, hrows, hm⟩ := map_eq_singleton_iff.1 hobs
  simp only [Prod.mk.injEq] at hm
  obtain ⟨hdir, hseq, horigin⟩ := hm
  -- the row says 1, its envelope was sealed with 0
  have hright := hall w (.of_run rowsInit_paired hrun) alice bob m (by rw [hrows]; simp)
  have := (hright hdir).1
  omega

/-- The second message is sealed when the first one has its row. -/
def sendsInTurn : List (Move machine Cmd) :=
  [.start (.sendTextMessage alice bob "one" 1),
   .perform 1 .ok, .resume 1, .perform 1 .ok, .resume 1, .perform 0 .ok, .resume 0,
   .perform 0 .ok, .resume 0, .perform 0 (.stamped 1), .resume 0,
   .perform 0 (.relayed .delivered), .resume 0, .perform 0 .ok, .resume 0,
   .perform 0 .ok, .resume 0, .perform 0 .ok, .resume 0,
   .start (.sendTextMessage alice bob "two" 2), .perform 2 .ok, .resume 2,
   .perform 2 (.stamped 2), .resume 2, .perform 2 (.relayed .queued), .resume 2,
   .perform 2 .ok, .resume 2, .perform 2 .ok, .resume 2, .perform 2 .ok, .resume 2]

theorem sentRowsRecordOrigin_sendsInTurn :
    ∃ w : Sys machine,
      (Sys.idle (M := machine) State.paired).run readsOwnPosition prog sendsInTurn = some w ∧
      ((State.client w.state alice).store.messagesByConversation bob).map
        (fun m => (m.direction, m.sequence)) = [(.sent, 0), (.sent, 1)] ∧
      SentRowsRecordOrigin w.state := by
  have hw : ((Sys.idle State.paired).run readsOwnPosition prog sendsInTurn).map
      (fun w => ((State.client w.state alice).store.messagesByConversation bob).map fun m =>
        (m.direction, m.sequence)) = some [(.sent, 0), (.sent, 1)] := by decide
  rw [map_eq_some_iff] at hw
  obtain ⟨w, hrun, hobs⟩ := hw
  exact ⟨w, hrun, hobs,
    sentRowsRecordOrigin_of_readsOwnPosition (.of_run rowsInit_paired hrun)⟩

end Messaging
