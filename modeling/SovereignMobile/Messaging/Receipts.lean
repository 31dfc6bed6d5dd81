import SovereignMobile.Messaging.SentRows

/-! # Read receipts and the rows they confirm

A receipt says `(seq, epoch)`, and `confirmSentMessage` marks the first sent row with that position.
Each handshake starts again at `(0, 0)`, and the rows of all generations are in one list. A receipt
confirms its own row in the runs in which no position is used twice for the same peer. -/

namespace Messaging

open EventLoop List Option

/-- Every row that was confirmed is the one whose envelope the receipt acknowledges. -/
def ReceiptsConfirmTheirs (s : State) : Prop :=
  ∀ me, ∀ x ∈ (s.client me).store.confirmed, x.1.origin.uid = x.2

/-- A text other than a receipt went from `me` to `remote` at the position of `ses`. -/
def State.positionUsed (me : Did) (ses : Session) (s : State) : Bool :=
  s.sealed.any fun e => !e.body.marked && e.senderDid == me && e.recipientDid == ses.remoteDid &&
    e.epoch == ses.epoch && e.sequence == ses.counter

/-- Positions are read in time, texts are sealed at positions that are new for the peer, and the relay
    resolves a conversation to the DID that it is with. -/
def freshPositions : Cond machine where
  op _ _ _ := true
  call i s c o := readsOwnPosition.call i s c o &&
    match c, o with
    | .sealTextSigned me sid body, .ok _ =>
      match (State.client s me).send.native sid with
      | some ses => body.marked || !(State.positionUsed me ses s)
      | none => true
    | .initiateSession _ did remote, .ok _ => remote == did
    | _, _ => true

/-! ## What holds at every moment -/

/-- `a` is the text that the receipt `r` acknowledges. -/
structure Envelope.Acks (r a : Envelope) (seq epoch acked : Nat) : Prop where
  uid : a.uid = acked
  sender : a.senderDid = r.recipientDid
  recipient : a.recipientDid = r.senderDid
  sequence : a.sequence = seq
  epoch : a.epoch = epoch
  unmarked : a.body.marked = false

structure Envelope.SamePosition (e e' : Envelope) : Prop where
  sender : e.senderDid = e'.senderDid
  recipient : e.recipientDid = e'.recipientDid
  epoch : e.epoch = e'.epoch
  sequence : e.sequence = e'.sequence

/-- Among what was sealed: every receipt acknowledges a text, and no two texts have the same
    position. -/
structure SealedRight (sealed : List Envelope) : Prop where
  text : ∀ e ∈ sealed, e.contentType = .text
  peer : ∀ e ∈ sealed, e.recipientDid = e.gen.peer
  acks : ∀ r ∈ sealed, r.body.marked = true → ∀ seq epoch acked,
    r.body.payload = .receipt seq epoch acked → ∃ a ∈ sealed, r.Acks a seq epoch acked
  distinct : ∀ e ∈ sealed, ∀ e' ∈ sealed, e.body.marked = false → e'.body.marked = false →
    e.SamePosition e' → e = e'

/-- The sent row belongs to a text for the conversation. -/
def LocalMessage.SealedFor (me : Did) (sealed : List Envelope) (did : Did) (m : LocalMessage) :
    Prop :=
  m.origin ∈ sealed ∧ m.origin.senderDid = me ∧ m.origin.recipientDid = did ∧
    m.origin.body.marked = false

structure Client.ReceiptsRight (me : Did) (sealed : List Envelope) (c : Client) : Prop where
  sessions : c.send.EverySession fun g remote => remote = g.peer
  rows : c.store.EverySent (LocalMessage.SealedFor me sealed)
  opened : ∀ e ∈ c.recv.opened, e ∈ sealed ∧ e.recipientDid = me
  confirmed : ∀ x ∈ c.store.confirmed, x.1.origin.uid = x.2

structure ReceiptsRight (s : State) : Prop where
  positions : PositionsRight s
  sealed : SealedRight s.sealed
  client : ∀ me, (s.client me).ReceiptsRight me s.sealed

/-! ## Operations -/

theorem ClientOp.opened_apply (i : Nat) (o : ClientOp) (c : Client) :
    (o.apply i c).recv.opened = c.recv.opened := by
  cases o with
  | recv o => exact RecvOp.opened_apply i o c.recv
  | _ => rfl

variable {i t : Nat} {o : ClientOp} {c : Client} {s : State} {me did : Did} {e : Envelope}
    {sealed : List Envelope} {ses : Session} {body : Body}

/-- Rows are confirmed by `confirmSentMessage` only. -/
theorem ClientOp.confirmed_apply {x : LocalMessage × Nat} (hx : x ∈ (o.apply i c).store.confirmed) :
    x ∈ c.store.confirmed ∨
      ∃ did seq epoch acked m, o = .store (.confirmSentMessage did seq epoch acked) ∧
        m ∈ c.store.messagesByConversation did ∧ m.isSentAt seq epoch = true ∧ x = (m, acked) := by
  have happend : ∀ did msg, (c.store.appendMessage did msg).confirmed = c.store.confirmed := by
    intro did msg
    unfold Store.appendMessage
    cases msg.direction <;> rfl
  cases o with
  | store o =>
    cases o with
    | appendMessage did msg => exact .inl (happend did msg ▸ hx)
    | appendUndecryptablePlaceholder e =>
      simp only [ClientOp.apply, StoreOp.apply, Store.appendUndecryptablePlaceholder] at hx
      split at hx
      · exact .inl hx
      · exact .inl (happend _ _ ▸ hx)
    | confirmSentMessage did seq epoch acked =>
      simp only [ClientOp.apply, StoreOp.apply, Store.confirmSentMessage] at hx
      split at hx
      · exact .inl hx
      rename_i m hm
      rcases mem_append.1 hx with hx | hx
      · exact .inl hx
      · exact .inr ⟨did, seq, epoch, acked, m, rfl, mem_of_find?_eq_some hm,
          find?_some hm, mem_singleton.1 hx⟩
    | _ => exact .inl hx
  | deliver did msg => exact .inl (happend did msg ▸ hx)
  | recover did item next =>
    cases next <;> exact .inl hx
  | _ => exact .inl hx

/-- The row that a receipt is looked up with is the one of the text it acknowledges: both are texts
    to the same peer at the same position. -/
theorem ReceiptsRight.confirms {seq epoch acked : Nat} {m : LocalMessage} (h : ReceiptsRight s)
    (hr : s.ReceiptOpened me did seq epoch acked)
    (hm : m ∈ (s.client me).store.messagesByConversation did) (hat : m.isSentAt seq epoch = true) :
    m.origin.uid = acked := by
  obtain ⟨r, hopened, hsender, hpayload, hmarked⟩ := hr
  obtain ⟨hsealed, hrecipient⟩ := (h.client me).opened r hopened
  obtain ⟨a, ha, hacks⟩ := h.sealed.acks r hsealed (hmarked (h.sealed.text r hsealed)) _ _ _ hpayload
  obtain ⟨hsent, hseq, hepoch⟩ := LocalMessage.isSentAt_iff.1 hat
  obtain ⟨horigin, hme, hdid, hunmarked⟩ := (h.client me).rows did m hm hsent
  obtain ⟨hoseq, hoepoch⟩ := (h.positions me).2 did m hm hsent
  have hsame : m.origin.SamePosition a :=
    { sender := by rw [hme, hacks.sender, hrecipient]
      recipient := by rw [hdid, hacks.recipient, hsender]
      epoch := by rw [← hoepoch, hepoch, hacks.epoch]
      sequence := by rw [← hoseq, hseq, hacks.sequence] }
  rw [h.sealed.distinct _ horigin a ha hunmarked hacks.unmarked hsame, hacks.uid]

theorem State.Sealed.sealedFor (h : s.Sealed me did e) (hs : SealedRight s.sealed) :
    e ∈ s.sealed ∧ e.senderDid = me ∧ e.recipientDid = did ∧ e.body.marked = false :=
  ⟨h.mem, h.sender, by rw [hs.peer e h.mem, h.peer], h.unmarked⟩

theorem ClientOp.receiptsRight_apply (h : ReceiptsRight s) (hp : o.Pre i s me) :
    (o.apply i (s.client me)).ReceiptsRight me s.sealed where
  sessions := ClientOp.everySession_apply (h.client me).sessions hp
  rows := by
    refine ClientOp.everySent_apply (fun _ _ _ hm => hm) (fun did msg ho => ?_)
      (fun did id status p ho m => ?_) (h.client me).rows hp
    · subst ho
      obtain ⟨now, random, body, info, status, e, rfl, -, -, hsealed⟩ := hp
      exact hsealed.sealedFor h.sealed
    · subst ho
      obtain ⟨info, -, -, -, hsealed⟩ := hp.2 p rfl
      exact hsealed.sealedFor h.sealed
  opened e he := by
    rw [ClientOp.opened_apply] at he
    exact (h.client me).opened e he
  confirmed x hx := by
    rcases ClientOp.confirmed_apply hx with hx | ⟨did, seq, epoch, acked, m, rfl, hm, hat, rfl⟩
    · exact (h.client me).confirmed x hx
    · exact h.confirms hp hm hat

/-! ## Calls -/

theorem Client.ReceiptsRight.mono {sealed' : List Envelope} (h : c.ReceiptsRight me sealed)
    (hsub : sealed ⊆ sealed') : c.ReceiptsRight me sealed' where
  sessions := h.sessions
  rows did m hm hs := by
    obtain ⟨horigin, hrest⟩ := h.rows did m hm hs
    exact ⟨hsub horigin, hrest⟩
  opened e he := ⟨hsub (h.opened e he).1, (h.opened e he).2⟩
  confirmed := h.confirmed

/-- A change of the outbound side that leaves its sessions with the peers they are for. -/
theorem ReceiptsRight.modifySend {f : SendSide → SendSide} (h : ReceiptsRight s)
    (hpos : PositionsRight (s.modifySend me f))
    (hf : (f (s.client me).send).EverySession fun g remote => remote = g.peer) :
    ReceiptsRight (s.modifySend me f) where
  positions := hpos
  sealed := h.sealed
  client := State.forall_modify h.client
    ⟨hf, (h.client me).rows, (h.client me).opened, (h.client me).confirmed⟩

theorem ReceiptsRight.modifyRecv {f : RecvSide → RecvSide} (h : ReceiptsRight s)
    (hf : ∀ e ∈ (f (s.client me).recv).opened, e ∈ s.sealed ∧ e.recipientDid = me) :
    ReceiptsRight (s.modifyRecv me f) where
  positions := h.positions.modifyRecv
  sealed := h.sealed
  client := State.forall_modify h.client
    ⟨(h.client me).sessions, (h.client me).rows, hf, (h.client me).confirmed⟩

/-- A new envelope: a receipt for something that was opened, or a text at a new position. -/
theorem SealedRight.append (h : SealedRight sealed) (htext : e.contentType = .text)
    (hpeer : e.recipientDid = e.gen.peer)
    (hacks : e.body.marked = true → ∀ seq epoch acked, e.body.payload = .receipt seq epoch acked →
      ∃ a ∈ sealed, e.Acks a seq epoch acked)
    (hnew : e.body.marked = false → ∀ e' ∈ sealed, e'.body.marked = false → ¬ e'.SamePosition e) :
    SealedRight (sealed ++ [e]) where
  text e' he' := by
    rcases mem_append.1 he' with he' | he'
    · exact h.text e' he'
    · exact mem_singleton.1 he' ▸ htext
  peer e' he' := by
    rcases mem_append.1 he' with he' | he'
    · exact h.peer e' he'
    · exact mem_singleton.1 he' ▸ hpeer
  acks r hr hmarked seq epoch acked hpayload := by
    have hack : ∃ a ∈ sealed, r.Acks a seq epoch acked := by
      rcases mem_append.1 hr with hr | hr
      · exact h.acks r hr hmarked seq epoch acked hpayload
      rw [mem_singleton] at hr
      subst hr
      exact hacks hmarked seq epoch acked hpayload
    obtain ⟨a, ha, hack⟩ := hack
    exact ⟨a, mem_append_left _ ha, hack⟩
  distinct e1 h1 e2 h2 hm1 hm2 hsame := by
    rcases mem_append.1 h1 with hold1 | hnew1
    · rcases mem_append.1 h2 with hold2 | hnew2
      · exact h.distinct e1 hold1 e2 hold2 hm1 hm2 hsame
      · obtain rfl := mem_singleton.1 hnew2
        exact absurd hsame (hnew hm2 e1 hold1 hm1)
    obtain rfl := mem_singleton.1 hnew1
    rcases mem_append.1 h2 with hold2 | hnew2
    · have hsame' : e2.SamePosition e1 :=
        ⟨hsame.sender.symm, hsame.recipient.symm, hsame.epoch.symm, hsame.sequence.symm⟩
      exact absurd hsame' (hnew hm1 e2 hold2 hm2)
    · exact (mem_singleton.1 hnew2).symm

theorem not_samePosition (h : s.positionUsed me ses = false) (he : e ∈ s.sealed)
    (hm : e.body.marked = false) : ¬ e.SamePosition (s.textEnvelope me ses body t) := by
  intro hsame
  have hfalse := any_eq_false.1 h e he
  refine hfalse ?_
  simp only [hm, hsame.sender, hsame.recipient, hsame.epoch, hsame.sequence, State.textEnvelope,
    beq_self_eq_true, Bool.not_false, Bool.and_self]

theorem ReceiptsRight.sealText {sid : Nat} (h : ReceiptsRight s)
    (hses : (s.client me).send.native sid = some ses)
    (hreceipt : body.marked = true → ∃ seq epoch acked, body.payload = .receipt seq epoch acked ∧
      s.Opened me ses.gen.peer seq epoch acked)
    (hfresh : body.marked = true ∨ s.positionUsed me ses = false)
    (hpos : PositionsRight (s.modifySend me (SendSide.seal sid ses (s.textEnvelope me ses body t))))
    :
    ReceiptsRight (s.sealText me sid ses (s.textEnvelope me ses body t)) := by
  have hpeer : ses.remoteDid = ses.gen.peer := (h.client me).sessions.native sid ses hses
  have hsend := h.modifySend hpos ((h.client me).sessions.seal hses)
  refine ⟨hsend.positions, h.sealed.append rfl hpeer ?_ ?_, fun me' =>
    (hsend.client me').mono fun e he => mem_append_left _ he⟩
  · intro hmarked seq epoch acked hpayload
    obtain ⟨seq', epoch', acked', hpayload', a, ha, huid, hsender, hseq, hepoch, hunmarked⟩ :=
      hreceipt hmarked
    have heq : Payload.receipt seq' epoch' acked' = .receipt seq epoch acked :=
      hpayload'.symm.trans hpayload
    cases heq
    obtain ⟨hsealed, hrecipient⟩ := (h.client me).opened a ha
    exact ⟨a, hsealed, huid, hsender.trans hpeer.symm, hrecipient, hseq, hepoch, hunmarked⟩
  · intro hunmarked e he hm
    rcases hfresh with hmarked | hfresh
    · exact nomatch hmarked.symm.trans hunmarked
    · exact not_samePosition hfresh he hm

theorem State.canOpen_iff :
    s.canOpen me ses e = true ↔ e ∈ s.sealed ∧ e.recipientDid = me ∧ e.gen = ses.gen ∧
      (e.epoch, e.sequence) ∉ ses.opened := by
  simp [State.canOpen, and_assoc]

theorem Call.Effect.receiptsRight {s' : State} {c : Call} {v : Ret c} (hi : s.Inv)
    (h : ReceiptsRight s) (hp : c.Pre i s) (he : Call.Effect i s c s')
    (hc : freshPositions.call i s c (.ok v) = true) : ReceiptsRight s' := by
  simp only [freshPositions, Bool.and_eq_true] at hc
  obtain ⟨hread, hc⟩ := hc
  have hpos := he.positionsRight hi h.positions hread
  cases he with
  | none => exact h
  | relayed e | keyExchange me remote gen => exact ⟨h.positions, h.sealed, h.client⟩
  | initiated me did remote =>
    have hremote : remote = did := by simpa using hc
    have hsend := h.modifySend hpos ((h.client me).sessions.addNative hremote)
    exact ⟨hsend.positions, hsend.sealed, hsend.client⟩
  | text me sid body ses t hses =>
    obtain ⟨did, ⟨ses', hses', rfl⟩, hreceipt⟩ := hp
    obtain rfl := some.inj (hses.symm.trans hses')
    refine h.sealText hses hreceipt ?_ hpos
    simpa [hses] using hc
  | restored me blob => exact h.modifySend hpos ((h.client me).sessions.deserialize hp)
  | position me sid e ses _ =>
    obtain ⟨hblobs, hnative, hrestoring⟩ := (h.client me).sessions
    exact h.modifySend hpos ⟨hblobs, hnative, hrestoring⟩
  | accepted | rekeyed => exact h.modifyRecv (h.client _).opened
  | opened me sid e pk ses _ hopen =>
    refine h.modifyRecv fun e' he' => ?_
    rcases mem_append.1 he' with he' | he'
    · exact (h.client me).opened e' he'
    rw [mem_singleton] at he'
    subst he'
    obtain ⟨hsealed, hrecipient, -⟩ := State.canOpen_iff.1 hopen
    exact ⟨hsealed, hrecipient⟩

/-! ## Runs -/

/-- The app was launched with what such runs leave behind. -/
def ReceiptsInit (s : State) : Prop := Launched s ∧ ReceiptsRight s

/-- **A receipt confirms the message it acknowledges.** In every run in which positions are read in
    time, no text is sealed at a position that an earlier text to the same peer has, and the relay
    resolves conversations rightly, every confirmed row is the row of the envelope whose opening
    produced the receipt. -/
theorem receiptsConfirmTheirs_of_freshPositions {w : Sys machine}
    (h : Reach freshPositions prog ReceiptsInit w) : ReceiptsConfirmTheirs w.state := by
  obtain ⟨-, hj, -⟩ := invariant_of_reach (fun s hs => hs)
    (fun i s me o _ hj _ hp =>
      { positions :=
          State.forall_modify (P := fun _ c => c.send.PositionsRight ∧ c.store.RowsRight)
            hj.positions (ClientOp.positionsRight_apply (hj.positions me) hp)
        sealed := hj.sealed
        client := State.forall_modify hj.client
          (ClientOp.receiptsRight_apply hj hp) })
    (fun s ms hj => ⟨hj.positions, hj.sealed, hj.client⟩)
    (fun i s c s' v hi hj hp he hc => he.receiptsRight hi hj hp hc) h
  exact fun me => (hj.client me).confirmed

/-! ## A message before and a message after a handshake -/

theorem receiptsInit_paired : ReceiptsInit State.paired := by
  refine ⟨launched_paired, rowsInit_paired.positionsRight, ?_, fun me => ?_⟩
  · constructor <;> simp [State.paired]
  have hconfirmed : (State.paired.client me).store.confirmed = [] ∧
      (State.paired.client me).recv.opened = [] := by
    simp only [State.paired]
    split
    · exact ⟨rfl, rfl⟩
    · split <;> exact ⟨rfl, rfl⟩
  refine ⟨(launched_paired me).everySession fun did blob hb => ?_, fun did m hm => ?_, ?_, ?_⟩
  · rcases sendBlobs_paired hb with ⟨-, -, rfl⟩ | ⟨-, -, rfl⟩ <;> rfl
  · simp [messages_paired] at hm
  · simp [hconfirmed.2]
  · simp [hconfirmed.1]

/-- What Alice ships after her second handshake. -/
def secondKeyExchange : Envelope :=
  ⟨3, alice, bob, .keyExchange, 2, 0, 0, ⟨alice, bob, 2⟩, ⟨false, .text ""⟩⟩

def secondText : Envelope :=
  ⟨4, alice, bob, .text, 3, 0, 0, ⟨alice, bob, 2⟩, ⟨false, .text "two"⟩⟩

/-- What Bob ships: the handshake that he answers with, and the receipt. -/
def answeringKeyExchange : Envelope :=
  ⟨5, bob, alice, .keyExchange, 4, 0, 0, ⟨bob, alice, 3⟩, ⟨false, .text ""⟩⟩

def secondReceipt : Envelope :=
  ⟨6, bob, alice, .text, 4, 0, 0, ⟨bob, alice, 3⟩, ⟨true, .receipt 0 0 4⟩⟩

/-- Alice sends a message, reconnects and sends another one. Bob gets only the second one, and his
    receipt reaches Alice. -/
def messageBeforeAndAfter : List (Move machine Cmd) :=
  List.flatten
    [firstTextSent,
     [.start (.reconnectSession alice bob)], okTurns 3 1,
     [.perform 3 (.response ⟨bob, "", "pk"⟩), .resume 3], okTurns 3 2,
     [.perform 3 (.stamped 2), .resume 3, .perform 3 (.relayed .delivered), .resume 3], okTurns 3 2,
     okTurns 2 2,
     [.start (.sendTextMessage alice bob "two" 2)], okTurns 4 1,
     [.perform 4 (.stamped 3), .resume 4, .perform 4 (.relayed .delivered), .resume 4], okTurns 4 3,
     [.start (.ingestEnvelopes bob [secondKeyExchange, secondText])], okTurns 5 8,
     okTurns 9 1, okTurns 5 1, [.perform 9 (.response ⟨alice, "", "pk"⟩), .resume 9],
     okTurns 5 1, okTurns 9 1, okTurns 5 1, okTurns 9 1, okTurns 5 1,
     [.perform 9 (.stamped 4), .resume 9], okTurns 10 1,
     [.perform 9 (.relayed .delivered), .resume 9, .perform 10 (.stamped 4), .resume 10,
      .perform 10 (.relayed .delivered), .resume 10],
     [.start (.ingestEnvelopes alice [answeringKeyExchange, secondReceipt])], okTurns 11 12]

theorem not_receiptsConfirmTheirs :
    ¬ ∀ w : Sys machine, Reach .any prog ReceiptsInit w → ReceiptsConfirmTheirs w.state := by
  intro hall
  have hw : ((Sys.idle State.paired).run Cond.any prog messageBeforeAndAfter).map
      (fun w => (State.client w.state alice).store.confirmed.map fun x => (x.1.origin.uid, x.2)) =
        some [(2, 4)] := by decide
  rw [map_eq_some_iff] at hw
  obtain ⟨w, hrun, hobs⟩ := hw
  obtain ⟨x, hx, heq⟩ := map_eq_singleton_iff.1 hobs
  -- the receipt for the second message confirms the row of the first one
  have huid := hall w (.of_run receiptsInit_paired hrun) alice x (by rw [hx]; simp)
  simp only [Prod.mk.injEq] at heq
  omega

/-- The receipt for Alice's first text. -/
def firstReceipt : Envelope :=
  ⟨3, bob, alice, .text, 2, 0, 0, ⟨bob, alice, 1⟩, ⟨true, .receipt 0 0 2⟩⟩

def messageAndReceipt : List (Move machine Cmd) :=
  List.flatten
    [firstTextSent,
     [.start (.ingestEnvelopes bob [firstText])], okTurns 2 8, okTurns 4 2, okTurns 3 2,
     [.perform 3 (.stamped 2), .resume 3, .perform 3 (.relayed .delivered), .resume 3],
     [.start (.ingestEnvelopes alice [firstReceipt])], okTurns 5 8]

theorem receiptsConfirmTheirs_messageAndReceipt :
    ∃ w : Sys machine,
      (Sys.idle (M := machine) State.paired).run freshPositions prog messageAndReceipt = some w ∧
      ((State.client w.state alice).store.confirmed.map fun x => (x.1.origin.uid, x.2)) = [(2, 2)] ∧
      ReceiptsConfirmTheirs w.state := by
  have hw : ((Sys.idle State.paired).run freshPositions prog messageAndReceipt).map
      (fun w => (State.client w.state alice).store.confirmed.map fun x => (x.1.origin.uid, x.2)) =
        some [(2, 2)] := by decide
  rw [map_eq_some_iff] at hw
  obtain ⟨w, hrun, hobs⟩ := hw
  exact ⟨w, hrun, hobs,
    receiptsConfirmTheirs_of_freshPositions (.of_run receiptsInit_paired hrun)⟩

end Messaging
