import SovereignMobile.EventLoop.Basic
import SovereignMobile.Messaging.Client

/-! # What the messaging service runs against

Any number of devices, the relay and the native library. The REST endpoints and the native calls are
the calls of an event-loop machine: each of them may fail at any time, and what it does when it
succeeds is what the service relies on. In particular a seal uses the counter of its own session
object and advances it by one, a restored session starts from the counter in its blob, and opening
succeeds only for an envelope that was sealed, with a session of the same generation that has not
opened its position before. -/

namespace Messaging

open Option

/-- The devices, the clock, the next generation and envelope number. History: the `Text`s sealed so
    far and the envelopes that the relay has accepted. -/
structure State where
  client : Did → Client
  now : Nat
  nextGen : Nat
  nextUid : Nat
  sealed : List Envelope
  accepted : List Envelope

def State.modify (me : Did) (f : Client → Client) (s : State) : State :=
  { s with client := Function.update s.client me (f (s.client me)) }

inductive Op where
  | client (me : Did) (o : ClientOp)
  | advance (ms : Nat)

def Op.apply (i : Nat) (o : Op) (s : State) : State :=
  match o with
  | .client me o => s.modify me (o.apply i)
  | .advance ms => { s with now := s.now + ms }

/-- The awaited calls. `tick` is the turn between the end of an awaited function and the
    continuation of its caller. History arguments: the DID that `initiateSession` is made for, and the
    envelope whose position `getSessionInfo` is asked for. -/
inductive Call where
  | tick
  | promise (me : Did) (p : PromiseId)
  | sessionInit (recipient : String)
  | fetchIdentityRecord (did : Did)
  | sendEnvelope (e : Envelope)
  | initiateSession (me did remote : Did)
  | sealKeyExchangeSigned (me remote : Did) (gen : Gen)
  | sealTextSigned (me : Did) (sid : Nat) (body : Body)
  | serializeSession (me : Did) (dir : SessionDir) (sid : Nat)
  | deserializeSession (me : Did) (dir : SessionDir) (blob : Session)
  | getSessionInfo (me : Did) (dir : SessionDir) (sid : Nat) (origin : Option Envelope)
  | acceptEnvelopeWithIdentity (me : Did) (e : Envelope)
  | acceptRekeyEnvelopeWithIdentity (me : Did) (sid : Nat) (e : Envelope)
  | envelopeOpenVerifiedWithSession (me : Did) (sid : Nat) (e : Envelope) (peerPk : String)
  | envelopeFromHex (e : Envelope)
  | envelopeDescribe (e : Envelope)

structure InitResult where
  sessionId : Nat
  gen : Gen

abbrev Ret : Call → Type
  | .tick => Unit
  | .promise _ _ => Nat
  | .sessionInit _ => SessionInitResponse
  | .fetchIdentityRecord _ => Option String
  | .sendEnvelope _ => SendStatus
  | .initiateSession _ _ _ => InitResult
  | .sealKeyExchangeSigned _ _ _ => Envelope
  | .sealTextSigned _ _ _ => Envelope
  | .serializeSession _ _ _ => Session
  | .deserializeSession _ _ _ => Nat
  | .getSessionInfo _ _ _ _ => SessionInfo
  | .acceptEnvelopeWithIdentity _ _ => Nat
  | .acceptRekeyEnvelopeWithIdentity _ _ _ => Unit
  | .envelopeOpenVerifiedWithSession _ _ _ _ => Body
  | .envelopeFromHex _ => Unit
  | .envelopeDescribe _ => Unit

/-- What the outside world decides: that a call fails, and the contents of its answer. -/
inductive Reply where
  | ok
  | fail (e : Err)
  | response (r : SessionInitResponse)
  | record (username : Option String)
  | relayed (status : SendStatus)
  | stamped (timestamp : Nat)

/-! ## Native calls -/

def State.modifySend (me : Did) (f : SendSide → SendSide) (s : State) : State :=
  s.modify me fun c => { c with send := f c.send }

def State.modifyRecv (me : Did) (f : RecvSide → RecvSide) (s : State) : State :=
  s.modify me fun c => { c with recv := f c.recv }

/-- A new outbound session object, whose identifier is `nextNative`. -/
def SendSide.addNative (ses : Session) (c : SendSide) : SendSide :=
  { c with
    native := Function.update c.native c.nextNative (some ses),
    nextNative := c.nextNative + 1 }

/-- Task `i` has made a session object of the blob it restores. -/
def SendSide.deserialize (i : Nat) (blob : Session) (c : SendSide) : SendSide :=
  { c.addNative blob with
    restoring := c.restoring.map fun r =>
      if r.task = i then { r with sid := some c.nextNative } else r }

/-- `e` was sealed with the session `sid`. -/
def SendSide.seal (sid : Nat) (ses : Session) (e : Envelope) (c : SendSide) : SendSide :=
  { c with
    native := Function.update c.native sid (some { ses with counter := ses.counter + 1 }),
    lastSeal := Function.update c.lastSeal sid (some e) }

def SendSide.recordPosition (e : Envelope) (info : SessionInfo) (c : SendSide) : SendSide :=
  { c with positions := c.positions ++ [⟨e, info⟩] }

def RecvSide.addNative (ses : Session) (c : RecvSide) : RecvSide :=
  { c with
    native := Function.update c.native c.nextNative (some ses),
    nextNative := c.nextNative + 1 }

def RecvSide.setNative (sid : Nat) (ses : Session) (c : RecvSide) : RecvSide :=
  { c with native := Function.update c.native sid (some ses) }

/-- Task `i` opens `e` with the session `sid`. -/
def RecvSide.openEnvelope (i sid : Nat) (ses : Session) (e : Envelope) (c : RecvSide) : RecvSide :=
  { c.setNative sid { ses with opened := ses.opened ++ [(e.epoch, e.sequence)] } with
    opened := c.opened ++ [e],
    unsettled := c.unsettled ++ [(i, e)] }

/-- The native sessions of one direction. -/
def Client.native (c : Client) : SessionDir → Nat → Option Session
  | .send => c.send.native
  | .recv => c.recv.native

/-- `initiateSession` starts a new generation. -/
def State.initiateSession (me did remote : Did) (s : State) : State :=
  { s.modifySend me (SendSide.addNative ⟨remote, ⟨me, did, s.nextGen⟩, 0, 0, []⟩) with
    nextGen := s.nextGen + 1 }

def State.keyExchangeEnvelope (me remote : Did) (gen : Gen) (timestamp : Nat) (s : State) :
    Envelope where
  uid := s.nextUid
  senderDid := me
  recipientDid := remote
  contentType := .keyExchange
  timestamp := timestamp
  epoch := 0
  sequence := 0
  gen := gen
  body := ⟨false, .text ""⟩

/-- The envelope that sealing `body` with `ses` gives. -/
def State.textEnvelope (me : Did) (ses : Session) (body : Body) (timestamp : Nat) (s : State) :
    Envelope where
  uid := s.nextUid
  senderDid := me
  recipientDid := ses.remoteDid
  contentType := .text
  timestamp := timestamp
  epoch := ses.epoch
  sequence := ses.counter
  gen := ses.gen
  body := body

def State.sealText (me : Did) (sid : Nat) (ses : Session) (e : Envelope) (s : State) : State :=
  { s.modifySend me (SendSide.seal sid ses e) with
    nextUid := s.nextUid + 1,
    sealed := s.sealed ++ [e] }

/-- `ses` can open `e` on the device `me`. -/
def State.canOpen (me : Did) (ses : Session) (e : Envelope) (s : State) : Bool :=
  decide (e ∈ s.sealed) && e.recipientDid == me && e.gen == ses.gen &&
    !(decide ((e.epoch, e.sequence) ∈ ses.opened))

/-- `getSessionInfo` changes nothing; that it was asked for `origin` is remembered. -/
def State.recordPosition (me : Did) (dir : SessionDir) (origin : Option Envelope)
    (info : SessionInfo) (s : State) : State :=
  match dir, origin with
  | .send, some e => s.modifySend me (SendSide.recordPosition e info)
  | _, _ => s

/-! ## Outcomes of calls -/

/-- A call that succeeds. -/
def Call.succeed (i : Nat) (c : Call) (r : Reply) (s : State) : Option (State × Ret c) :=
  match c with
  | .tick => none
  | .promise _ _ => none
  | .fetchIdentityRecord _ => none
  | .sessionInit _ =>
    match r with
    | .response x => some (s, x)
    | _ => none
  | .sendEnvelope e =>
    match r with
    | .relayed status => some ({ s with accepted := s.accepted ++ [e] }, status)
    | _ => none
  | .initiateSession me did remote =>
    some (s.initiateSession me did remote,
      ⟨(s.client me).send.nextNative, ⟨me, did, s.nextGen⟩⟩)
  | .sealKeyExchangeSigned me remote gen =>
    match r with
    | .stamped t => some ({ s with nextUid := s.nextUid + 1 }, s.keyExchangeEnvelope me remote gen t)
    | _ => none
  | .sealTextSigned me sid body =>
    match r, (s.client me).send.native sid with
    | .stamped t, some ses =>
      some (s.sealText me sid ses (s.textEnvelope me ses body t), s.textEnvelope me ses body t)
    | _, _ => none
  | .serializeSession me dir sid => ((s.client me).native dir sid).map fun ses => (s, ses)
  | .deserializeSession me dir blob =>
    match dir with
    | .send => some (s.modifySend me (SendSide.deserialize i blob), (s.client me).send.nextNative)
    | .recv => some (s.modifyRecv me (RecvSide.addNative blob), (s.client me).recv.nextNative)
  | .getSessionInfo me dir sid origin =>
    ((s.client me).native dir sid).map fun ses =>
      (s.recordPosition me dir origin ⟨ses.counter, ses.epoch⟩, ⟨ses.counter, ses.epoch⟩)
  | .acceptEnvelopeWithIdentity me e =>
    if e.contentType = .keyExchange ∧ e.recipientDid = me then
      some (s.modifyRecv me (RecvSide.addNative ⟨e.senderDid, e.gen, 0, 0, []⟩),
        (s.client me).recv.nextNative)
    else none
  | .acceptRekeyEnvelopeWithIdentity me sid e =>
    match (s.client me).recv.native sid with
    | none => none
    | some ses =>
      if e.contentType = .keyRatchet ∧ e.recipientDid = me then
        some (s.modifyRecv me
          (RecvSide.setNative sid { ses with epoch := ses.epoch + 1, counter := 0 }), ())
      else none
  | .envelopeOpenVerifiedWithSession me sid e _ =>
    match (s.client me).recv.native sid with
    | none => none
    | some ses =>
      if s.canOpen me ses e then
        some (s.modifyRecv me (RecvSide.openEnvelope i sid ses e), e.body)
      else none
  | .envelopeFromHex _ => some (s, ())
  | .envelopeDescribe _ => some (s, ())

/-- Every call may fail, except for the turns of the event loop and `fetchIdentityRecord`, which
    catches its own errors. -/
def Call.perform (i : Nat) (c : Call) (r : Reply) (s : State) :
    Option (State × Except Err (Ret c)) :=
  match c, r with
  | .tick, _ => some (s, .ok ())
  | .promise me p, _ => ((s.client me).send.promises p).map fun x => (s, x)
  | .fetchIdentityRecord _, .record username => some (s, .ok username)
  | .fetchIdentityRecord _, _ => none
  | _, .fail e => some (s, .error e)
  | c, r => (c.succeed i r s).map fun x => (x.1, .ok x.2)

/-! ## A fresh installation -/

/-- A device on which nothing has happened yet. -/
def Client.fresh : Client where
  send :=
    { sendSessionByDid := fun _ => none, sendSessionInitInFlight := fun _ => none,
      promises := fun _ => none, nextPromise := 0, blobs := fun _ => none, native := fun _ => none,
      nextNative := 0, restoring := [], lastSeal := fun _ => none, positions := [] }
  recv :=
    { recvSessionByDid := fun _ => none, blobs := fun _ => none, native := fun _ => none,
      nextNative := 0, opened := [], unsettled := [] }
  store :=
    { contactsByDid := fun _ => none, messagesByConversation := fun _ => [],
      unreadByDid := fun _ => 0, confirmed := [] }
  pending :=
    { pendingDecryptByDid := fun _ => none, heap := fun _ => [], nextRef := 0, pushed := [],
      evicted := [], recovered := [], drains := [] }
  health :=
    { recoveryAttemptAt := fun _ => none, desyncedDids := fun _ => false, seen := [],
      repeatedRecoveries := [] }

def State.fresh (now : Nat) : State where
  client _ := Client.fresh
  now := now
  nextGen := 0
  nextUid := 0
  sealed := []
  accepted := []

/-! ## The machine as a whole -/

def machine : EventLoop.Machine where
  State := State
  Op := Op
  Call := Call
  Ret := Ret
  Err := Err
  Reply := Reply
  apply := Op.apply
  perform := Call.perform

/-! ## What a call can do -/

/-- The states a performed call can lead to. -/
inductive Call.Effect (i : Nat) (s : State) : Call → State → Prop
  | none (c : Call) : Call.Effect i s c s
  | relayed (e : Envelope) :
      Call.Effect i s (.sendEnvelope e) { s with accepted := s.accepted ++ [e] }
  | initiated (me did remote : Did) :
      Call.Effect i s (.initiateSession me did remote) (s.initiateSession me did remote)
  | keyExchange (me remote : Did) (gen : Gen) :
      Call.Effect i s (.sealKeyExchangeSigned me remote gen) { s with nextUid := s.nextUid + 1 }
  | text (me : Did) (sid : Nat) (body : Body) (ses : Session) (t : Nat) :
      (s.client me).send.native sid = some ses →
      Call.Effect i s (.sealTextSigned me sid body)
        (s.sealText me sid ses (s.textEnvelope me ses body t))
  | restored (me : Did) (blob : Session) :
      Call.Effect i s (.deserializeSession me .send blob)
        (s.modifySend me (SendSide.deserialize i blob))
  | position (me : Did) (sid : Nat) (e : Envelope) (ses : Session) :
      (s.client me).send.native sid = some ses →
      Call.Effect i s (.getSessionInfo me .send sid (some e))
        (s.modifySend me (SendSide.recordPosition e ⟨ses.counter, ses.epoch⟩))
  | accepted (c : Call) (me : Did) (ses : Session) :
      Call.Effect i s c (s.modifyRecv me (RecvSide.addNative ses))
  | rekeyed (c : Call) (me : Did) (sid : Nat) (ses : Session) :
      Call.Effect i s c (s.modifyRecv me (RecvSide.setNative sid ses))
  | opened (me : Did) (sid : Nat) (e : Envelope) (pk : String) (ses : Session) :
      (s.client me).recv.native sid = some ses → s.canOpen me ses e = true →
      Call.Effect i s (.envelopeOpenVerifiedWithSession me sid e pk)
        (s.modifyRecv me (RecvSide.openEnvelope i sid ses e))

variable {i : Nat} {c : Call} {r : Reply} {s s' : State} {v : Ret c} {o : Except Err (Ret c)}

theorem Call.effect_succeed (h : c.succeed i r s = some (s', v)) : Call.Effect i s c s' := by
  cases c with
  | tick | promise | fetchIdentityRecord => simp [Call.succeed] at h
  | sessionInit recipient =>
    simp only [Call.succeed] at h
    split at h
    · simp only [some.injEq, Prod.mk.injEq] at h
      exact h.1 ▸ .none _
    · simp at h
  | sendEnvelope e =>
    simp only [Call.succeed] at h
    split at h
    · simp only [some.injEq, Prod.mk.injEq] at h
      exact h.1 ▸ .relayed e
    · simp at h
  | initiateSession me did remote =>
    simp only [Call.succeed, some.injEq, Prod.mk.injEq] at h
    exact h.1 ▸ .initiated me did remote
  | sealKeyExchangeSigned me remote gen =>
    simp only [Call.succeed] at h
    split at h
    · simp only [some.injEq, Prod.mk.injEq] at h
      exact h.1 ▸ .keyExchange me remote gen
    · simp at h
  | sealTextSigned me sid body =>
    simp only [Call.succeed] at h
    split at h
    · rename_i t ses hses
      simp only [some.injEq, Prod.mk.injEq] at h
      exact h.1 ▸ .text me sid body ses t hses
    · simp at h
  | serializeSession me dir sid =>
    simp only [Call.succeed, map_eq_some_iff] at h
    obtain ⟨ses, _, rfl, _⟩ := h
    exact .none _
  | deserializeSession me dir blob =>
    cases dir with
    | send =>
      simp only [Call.succeed, some.injEq, Prod.mk.injEq] at h
      exact h.1 ▸ .restored me blob
    | recv =>
      simp only [Call.succeed, some.injEq, Prod.mk.injEq] at h
      exact h.1 ▸ .accepted _ me blob
  | getSessionInfo me dir sid origin =>
    simp only [Call.succeed, map_eq_some_iff] at h
    obtain ⟨ses, hses, rfl, _⟩ := h
    unfold State.recordPosition
    split
    · exact .position me sid _ ses hses
    · exact .none _
  | acceptEnvelopeWithIdentity me e =>
    simp only [Call.succeed] at h
    split at h
    · simp only [some.injEq, Prod.mk.injEq] at h
      exact h.1 ▸ .accepted _ me _
    · simp at h
  | acceptRekeyEnvelopeWithIdentity me sid e =>
    simp only [Call.succeed] at h
    split at h
    · simp at h
    split at h
    · simp only [some.injEq, Prod.mk.injEq] at h
      exact h.1 ▸ .rekeyed _ me sid _
    · simp at h
  | envelopeOpenVerifiedWithSession me sid e pk =>
    simp only [Call.succeed] at h
    split at h
    · simp at h
    rename_i ses hses
    split at h
    · rename_i hc
      simp only [some.injEq, Prod.mk.injEq] at h
      exact h.1 ▸ .opened me sid e pk ses hses hc
    · simp at h
  | envelopeFromHex e | envelopeDescribe e =>
    simp only [Call.succeed, some.injEq, Prod.mk.injEq] at h
    exact h.1 ▸ .none _

/-- The calls that have no effect and are not answered by `Call.succeed`. -/
def Call.isTurn : Call → Bool
  | .tick => true
  | .promise _ _ => true
  | .fetchIdentityRecord _ => true
  | _ => false

/-- A performed call is a turn of the event loop, has failed, or has succeeded. -/
theorem Call.perform_cases (h : Call.perform i c r s = some (s', o)) :
    (c.isTurn = true ∧ s' = s) ∨ (∃ e, o = .error e ∧ s' = s) ∨
      ∃ v, o = .ok v ∧ c.succeed i r s = some (s', v) := by
  unfold Call.perform at h
  split at h
  · simp only [some.injEq, Prod.mk.injEq] at h
    exact .inl ⟨rfl, h.1.symm⟩
  · simp only [map_eq_some_iff] at h
    obtain ⟨x, _, rfl, _⟩ := h
    exact .inl ⟨rfl, rfl⟩
  · simp only [some.injEq, Prod.mk.injEq] at h
    exact .inl ⟨rfl, h.1.symm⟩
  · simp at h
  · simp only [some.injEq, Prod.mk.injEq] at h
    exact .inr (.inl ⟨_, h.2.symm, h.1.symm⟩)
  · simp only [map_eq_some_iff] at h
    obtain ⟨⟨s1, v⟩, hv, rfl, rfl⟩ := h
    exact .inr (.inr ⟨v, rfl, hv⟩)

theorem Call.succeed_of_ok (hc : c.isTurn = false) (h : Call.perform i c r s = some (s', .ok v)) :
    c.succeed i r s = some (s', v) := by
  rcases Call.perform_cases h with ⟨ht, _⟩ | ⟨e, he, _⟩ | ⟨v', hv, hs⟩
  · exact nomatch ht.symm.trans hc
  · simp at he
  · simp only [Except.ok.injEq] at hv
    exact hv ▸ hs

theorem Call.perform_promise {me : Did} {p : PromiseId} {o : Except Err Nat}
    (h : Call.perform i (.promise me p) r s = some (s', o)) :
    s' = s ∧ (s.client me).send.promises p = some o := by
  simp only [Call.perform, map_eq_some_iff] at h
  obtain ⟨x, hx, rfl, rfl⟩ := h
  exact ⟨rfl, hx⟩

theorem Call.effect (h : Call.perform i c r s = some (s', o)) : Call.Effect i s c s' := by
  rcases Call.perform_cases h with ⟨_, rfl⟩ | ⟨_, _, rfl⟩ | ⟨v, _, hv⟩
  · exact .none c
  · exact .none c
  · exact Call.effect_succeed hv

end Messaging
