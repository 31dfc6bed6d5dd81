import SovereignMobile.Messaging.Service

/-! # What the functions of the service are made of

`Follows Ok K me did` says of a judgement about program fragments that it is closed under the ways to
put fragments together, that it holds of the operations and calls a function makes for the peer `did`
on the device `me` with the sessions that `K` knows, and that it holds of what looks after the outbound
session: `tryRestoreSession`, `getOrInitSendSession`, `recoverMissingSession` and `reconnectSession`.
Such a judgement holds of every function for that peer. The theorems follow `Service.lean`. `Composed`
is the case where nothing is known of a session. -/

namespace Messaging

open EventLoop List

/-- A judgement about program fragments and what is known of the value they return. -/
abbrev Judgement := (α : Type) → (α → Prop) → Prog α → Prop

/-- Nothing is known of the value. -/
abbrev any {α : Type} : α → Prop := fun _ => True

/-- The operations on the device that a function makes for the peer `did`, apart from those of the
    handshake and its recovery. -/
def ClientOp.Routine (did : Did) : ClientOp → Prop
  | .send (.beginRestore _) => False
  | .send (.restored _ _) => False
  | .send (.setSerializedSession d _ _) => d = did
  | .send _ => False
  | .recv (.setSession d _) => d = did
  | .recv (.setSerializedSession d _) => d = did
  | .recv (.dismiss _) => True
  | .store _ => True
  | .pending (.bufferUndecryptable e) => e.senderDid = did
  | .pending (.setPending d _) => d = did
  | .pending _ => True
  | .health (.setDesynced _ _) => True
  | .health (.see _) => True
  | .health _ => False
  | .deliver _ _ => True
  | .recover _ _ _ => True
  | .deleteConversation _ => False

/-- The calls apart from those of the handshake and of sending. -/
def Call.Routine : Call → Prop
  | .promise _ _ => False
  | .sendEnvelope _ => False
  | .initiateSession _ _ _ => False
  | .sealKeyExchangeSigned _ _ _ => False
  | .deserializeSession _ dir _ => dir = .recv
  | _ => True

/-- The operations and calls that use no session the function has found. -/
def ClientOp.Plain (did : Did) : ClientOp → Prop
  | .recv (.setSession _ _) => False
  | o => o.Routine did

def Call.Plain : Call → Prop
  | .sealTextSigned _ _ _ | .envelopeOpenVerifiedWithSession _ _ _ _ => False
  | c => c.Routine

/-- Closed under the ways to put fragments one after the other, with the calls in `Awaits`. -/
structure Judgement.Sequential (Ok : Judgement) (Awaits : Call → Prop) : Prop where
  pure : ∀ {α : Type} {φ : α → Prop} (a : α), φ a → Ok α φ (Pure.pure a)
  throw : ∀ {α : Type} {φ : α → Prop} (e : Err), Ok α φ (Async.throw (M := machine) e)
  mono : ∀ {α : Type} {φ φ' : α → Prop} {m : Prog α}, Ok α φ m → (∀ a, φ a → φ' a) → Ok α φ' m
  bind : ∀ {α β : Type} {φ : α → Prop} {ψ : β → Prop} {m : Prog α} {f : α → Prog β},
    Ok α φ m → (∀ a, φ a → Ok β ψ (f a)) → Ok β ψ (m >>= f)
  settle : ∀ {α β : Type} {φ : α → Prop} {ψ : β → Prop} {m : Prog α}
    {f : Except Err α → Prog β}, Ok α φ m → (∀ r, (∀ a, r = .ok a → φ a) → Ok β ψ (f r)) →
    Ok β ψ (Async.settle m f)
  tryCatch : ∀ {α : Type} {φ : α → Prop} {m : Prog α} {f : Err → Prog α},
    Ok α φ m → (∀ e, Ok α φ (f e)) → Ok α φ (Async.tryCatch m f)
  await : ∀ c : Call, Awaits c → Ok (Ret c) any (Async.await (M := machine) c)

/-- Closed under all ways to put fragments together. -/
structure Judgement.Closed (Ok : Judgement) : Prop extends Ok.Sequential Call.Routine where
  spawn : ∀ {α : Type} {m : Prog α}, Ok α any m → Ok Unit any (Async.spawn m)
  dateNow : Ok Nat any dateNow
  /-- What is known of a sealed text is enough to ship it. -/
  text : ∃ T : Envelope → Prop,
    (∀ me sid body, Ok Envelope T (NativeMessaging.sealTextSigned me sid body)) ∧
      ∀ e, T e → Ok SendStatus any (sendEnvelope e)

/-- Holds of what a function does for `did` on `me`. -/
structure Judgement.Composed (Ok : Judgement) (me did : Did) : Prop extends Ok.Closed where
  self : Ok Client any (self me)
  exec : ∀ o : ClientOp, o.Routine did → Ok Unit any (exec me o)
  restoreSend : Ok (Option Nat) any (tryRestoreSession me did .send)
  getOrInit : ∀ recipient, Ok Nat any (getOrInitSendSession me did recipient)
  recover : ∀ again, Ok Unit any (recoverMissingSession me did again)
  reconnect : Ok Unit any (reconnectSession me did)

/-- What is known of the maps a function reads and of the sessions it finds. -/
structure Knowledge where
  maps : Client → Prop
  send : Nat → Prop
  recv : Nat → Prop
  cached : ∀ c did sid, maps c → c.recv.recvSessionByDid did = some sid → recv sid

def Knowledge.nothing : Knowledge := ⟨any, any, any, fun _ _ _ _ _ => trivial⟩

/-- Holds of what a function does for `did` on `me` with the sessions that `K` knows. -/
structure Judgement.Follows (Ok : Judgement) (K : Knowledge) (me did : Did) : Prop
    extends Ok.Sequential Call.Plain where
  spawn : ∀ {α : Type} {m : Prog α}, Ok α any m → Ok Unit any (Async.spawn m)
  dateNow : Ok Nat any dateNow
  text : ∃ T : Envelope → Prop,
    (∀ me sid body, K.send sid → Ok Envelope T (NativeMessaging.sealTextSigned me sid body)) ∧
      ∀ e, T e → Ok SendStatus any (sendEnvelope e)
  opens : ∀ sid e pk, K.recv sid →
    Ok Body any (Async.await (M := machine) (.envelopeOpenVerifiedWithSession me sid e pk))
  accepts : ∀ e, Ok Nat K.recv (Async.await (M := machine) (.acceptEnvelopeWithIdentity me e))
  deserializes : ∀ blob, Ok Nat K.recv (Async.await (M := machine) (.deserializeSession me .recv blob))
  self : Ok Client K.maps (self me)
  setSession : ∀ sid, K.recv sid → Ok Unit any (exec me (.recv (.setSession did sid)))
  exec : ∀ o : ClientOp, o.Plain did → Ok Unit any (exec me o)
  restoreSend : Ok (Option Nat) any (tryRestoreSession me did .send)
  getOrInit : ∀ recipient, Ok Nat K.send (getOrInitSendSession me did recipient)
  recover : ∀ again, Ok Unit any (recoverMissingSession me did again)
  reconnect : Ok Unit any (reconnectSession me did)

theorem Call.Plain.routine {c : Call} (h : c.Plain) : c.Routine := by
  cases c <;> first | exact h | exact trivial

theorem ClientOp.Plain.routine {did : Did} {o : ClientOp} (h : o.Plain did) : o.Routine did := by
  cases o with
  | recv o => cases o <;> first | exact h | exact h.elim
  | _ => exact h

theorem Judgement.Sequential.plain {Ok : Judgement} (h : Ok.Sequential Call.Routine) :
    Ok.Sequential Call.Plain :=
  { h with await := fun c hc => h.await c hc.routine }

theorem Judgement.Composed.follows {Ok : Judgement} {me did : Did} (h : Ok.Composed me did) :
    Ok.Follows .nothing me did where
  toSequential := h.toSequential.plain
  spawn := h.spawn
  dateNow := h.dateNow
  text := h.text.imp fun _ ht => ⟨fun me sid body _ => ht.1 me sid body, ht.2⟩
  opens sid e pk _ := h.await (.envelopeOpenVerifiedWithSession me sid e pk) trivial
  accepts e := h.await (.acceptEnvelopeWithIdentity me e) trivial
  deserializes blob := h.await (.deserializeSession me .recv blob) rfl
  self := h.self
  setSession sid _ := h.exec (.recv (.setSession did sid)) rfl
  exec o ho := h.exec o ho.routine
  restoreSend := h.restoreSend
  getOrInit := h.getOrInit
  recover := h.recover
  reconnect := h.reconnect

/-! ## Calls and sessions -/

section Functions
variable {Ok : Judgement} {K : Knowledge} {me did : Did}

theorem Judgement.Sequential.awaitFn (h : Ok.Sequential Call.Plain) {α : Type} {φ : α → Prop} {m : Prog α}
    (hm : Ok α φ m) : Ok α φ (awaitFn m) := by
  refine h.settle hm fun r hr => h.bind (h.await .tick trivial) fun _ _ => ?_
  cases r with
  | ok a => exact h.pure a (hr a rfl)
  | error e => exact h.throw e

theorem Judgement.Sequential.sessionInitByDid (h : Ok.Sequential Call.Plain) :
    Ok SessionInitResponse any (sessionInitByDid did) := by
  refine h.tryCatch (h.await (.sessionInit did) trivial) fun e => ?_
  split
  · refine h.bind (h.await (.fetchIdentityRecord did) trivial) fun username _ => ?_
    unfold sessionInitByHandle
    split
    · exact h.throw _
    · rename_i handle _
      exact h.await (.sessionInit ("@" ++ handle)) trivial
  · exact h.throw _

theorem Judgement.Sequential.sessionInitFor (h : Ok.Sequential Call.Plain) (recipient : String) :
    Ok SessionInitResponse any (sessionInitFor recipient) := by
  unfold Messaging.sessionInitFor
  split
  · exact h.awaitFn h.sessionInitByDid
  · exact h.await (.sessionInit recipient) trivial

theorem Judgement.Sequential.persistSession (h : Ok.Sequential Call.Plain)
    (hexec : ∀ o : ClientOp, o.Plain did → Ok Unit any (Messaging.exec me o)) (dir : SessionDir)
    (sid : Nat) : Ok Unit any (persistSession me did dir sid) := by
  refine h.tryCatch ?_ fun _ => h.pure () trivial
  refine h.bind (h.await (.serializeSession me dir sid) trivial) fun blob _ => ?_
  cases dir with
  | send | recv => exact hexec _ rfl

variable (h : Ok.Follows K me did)
include h

theorem Judgement.Follows.persist (dir : SessionDir) (sid : Nat) :
    Ok Unit any (awaitFn (persistSession me did dir sid)) :=
  h.awaitFn (h.persistSession h.exec dir sid)

theorem Judgement.Follows.restoreRecv :
    Ok (Option Nat) (fun o => ∀ sid, o = some sid → K.recv sid) (tryRestoreSession me did .recv) := by
  refine h.bind h.self fun c _ => ?_
  dsimp only
  split
  · exact h.pure _ fun _ ho => by cases ho
  rename_i blob _
  refine h.settle (h.deserializes blob) fun r hr => ?_
  cases r with
  | ok sid =>
    refine h.bind (h.setSession sid (hr sid rfl)) fun _ _ => h.pure _ fun sid' ho => ?_
    exact Option.some.inj ho ▸ hr sid rfl
  | error e => exact h.pure _ fun _ ho => by cases ho

theorem Judgement.Follows.completeHandshake (hadPriorInbound again : Bool) :
    Ok Unit any (completeHandshake me did hadPriorInbound again) := by
  unfold Messaging.completeHandshake
  split
  · exact h.spawn (h.recover again)
  refine h.bind h.self fun c _ => ?_
  split
  · exact h.pure () trivial
  refine h.bind (h.awaitFn h.restoreSend) fun restored _ => ?_
  split
  · exact h.pure () trivial
  · refine h.tryCatch ?_ fun _ => h.pure () trivial
    exact h.bind (h.awaitFn (h.getOrInit did)) fun _ _ => h.pure () trivial

/-! ## Sending -/

theorem Judgement.Follows.sendTextMessageNative (text : String) (random : Nat) :
    Ok Unit any (sendTextMessageNative me did text random) := by
  obtain ⟨T, hseal, hship⟩ := h.text
  refine h.bind h.self fun c _ => h.bind (h.awaitFn (h.getOrInit _)) fun sid hs => ?_
  refine h.bind (hseal me sid _ hs) fun e he => ?_
  refine h.bind (φ := any) (h.settle (hship e he) fun r _ => ?_) fun status _ => ?_
  · cases r with
    | ok | error => exact h.pure _ trivial
  refine h.bind (h.await (.getSessionInfo me .send sid (some e)) trivial) fun info _ => ?_
  refine h.bind (h.persist .send sid) fun _ _ => ?_
  exact h.bind h.dateNow fun now _ => h.exec _ trivial

theorem Judgement.Follows.shipReadReceipt (seq epoch acked : Nat) :
    Ok Unit any (shipReadReceipt me did seq epoch acked) := by
  obtain ⟨T, hseal, hship⟩ := h.text
  refine h.tryCatch ?_ fun _ => h.pure () trivial
  refine h.bind (h.awaitFn (h.getOrInit did)) fun sid hs => ?_
  refine h.bind (hseal me sid _ hs) fun e he => ?_
  exact h.bind (hship e he) fun _ _ => h.persist .send sid

theorem Judgement.Follows.resendBody (id : MessageId) (recipient : String) (body : Body) :
    Ok Unit any (resendBody me did id recipient body) := by
  obtain ⟨T, hseal, hship⟩ := h.text
  refine h.bind (h.awaitFn (h.getOrInit recipient)) fun sid hs => ?_
  refine h.bind (hseal me sid body hs) fun e he => ?_
  refine h.bind (φ := any) (h.settle (hship e he) fun r _ => ?_) fun status _ => ?_
  · cases r with
    | ok r => exact h.pure _ trivial
    | error err => exact h.bind (h.exec _ trivial) fun _ _ => h.throw err
  refine h.bind (h.await (.getSessionInfo me .send sid (some e)) trivial) fun info _ => ?_
  exact h.bind (h.persist .send sid) fun _ _ => h.exec _ trivial

theorem Judgement.Follows.resendMessage (id : MessageId) :
    Ok Unit any (resendMessage me did id) := by
  refine h.bind h.self fun c _ => ?_
  split
  · exact h.throw _
  split
  · exact h.throw _
  split
  · exact h.throw _
  refine h.bind (h.exec _ trivial) fun _ _ => ?_
  refine h.tryCatch (h.resendBody id _ _) fun err => ?_
  exact h.bind (h.exec _ trivial) fun _ _ => h.throw err

/-! ## The pending-decrypt buffer -/

theorem Judgement.Follows.confirmReceipt (payload : Payload) :
    Ok Unit any (confirmReceipt me did payload) := by
  cases payload with
  | text s => exact h.pure () trivial
  | receipt seq epoch acked => exact h.exec _ trivial

theorem Judgement.Follows.drainOpened (sid : Nat) (item : PendingDecrypt) (body : Body) :
    Ok Unit any (drainOpened me did sid item body) := by
  unfold Messaging.drainOpened
  split
  · refine h.bind (h.confirmReceipt _) fun _ _ => h.bind (h.exec _ trivial) fun _ _ => ?_
    exact h.bind (h.exec _ trivial) fun _ _ => h.persist .recv sid
  · refine h.bind (h.exec _ trivial) fun _ _ => h.bind (h.exec _ trivial) fun _ _ => ?_
    exact h.bind (h.persist .recv sid) fun _ _ => h.spawn (h.shipReadReceipt _ _ _)

theorem Judgement.Follows.drainLoop {sid : Nat} (hs : K.recv sid) (pk : String) (ref : ArrayRef)
    (fuel : Nat) : ∀ taken remaining, Ok Unit any (drainLoop me did sid pk ref fuel taken remaining) := by
  induction fuel with
  | zero => exact fun _ _ => h.exec _ rfl
  | succ fuel ih =>
    intro taken remaining
    refine h.bind h.self fun c _ => ?_
    split
    · exact h.exec _ rfl
    rename_i item _
    refine h.bind (h.exec _ trivial) fun _ _ => ?_
    refine h.settle (h.opens sid item.envelope pk hs) fun r _ => ?_
    cases r with
    | ok body => exact h.bind (h.drainOpened sid item body) fun _ _ => ih _ _
    | error e => exact h.bind (h.exec _ trivial) fun _ _ => ih _ _

theorem Judgement.Follows.recvSession :
    Ok (Option Nat) (fun o => ∀ sid, o = some sid → K.recv sid) (recvSession me did) := by
  refine h.bind h.self fun c hc => ?_
  split
  · rename_i sid hsid
    exact h.pure _ fun sid' ho => Option.some.inj ho ▸ K.cached c did sid hc hsid
  · exact h.awaitFn h.restoreRecv

theorem Judgement.Follows.drainPendingDecrypt : Ok Unit any (drainPendingDecrypt me did) := by
  refine h.bind h.self fun c _ => ?_
  split
  · exact h.pure () trivial
  split
  · exact h.pure () trivial
  refine h.bind (h.exec _ trivial) fun _ _ => h.bind h.recvSession fun sid hs => ?_
  refine h.bind h.self fun c _ => ?_
  split
  · exact h.drainLoop (hs _ rfl) _ _ _ _ _
  · exact h.exec _ trivial

/-! ## Ingest -/

theorem Judgement.Follows.ensureContactCached : Ok Bool any (ensureContactCached me did) := by
  refine h.bind h.self fun c _ => ?_
  split
  · exact h.pure _ trivial
  refine h.tryCatch ?_ fun _ => h.pure _ trivial
  refine h.bind (h.awaitFn h.sessionInitByDid) fun r _ => ?_
  exact h.bind (h.exec _ trivial) fun _ _ => h.pure _ trivial

theorem Judgement.Follows.cachedPeerPk : Ok (Option String) any (cachedPeerPk me did) := by
  refine h.bind h.self fun c _ => ?_
  split
  · exact h.pure _ trivial
  · refine h.bind (h.awaitFn h.ensureContactCached) fun _ _ => ?_
    exact h.bind h.self fun c _ => h.pure _ trivial

end Functions

section Ingest
variable {Ok : Judgement} {K : Knowledge} {me : Did} {e : Envelope} (h : Ok.Follows K me e.senderDid)
include h

theorem Judgement.Follows.undecryptable (again : Bool) :
    Ok Unit any (undecryptable me e again) := by
  refine h.bind (h.exec _ trivial) fun _ _ => h.bind (h.exec _ trivial) fun _ _ => ?_
  exact h.bind (h.exec (.pending (.bufferUndecryptable e)) rfl) fun _ _ => h.spawn (h.recover again)

theorem Judgement.Follows.ingestKeyExchange (again : Bool) :
    Ok Unit any (ingestKeyExchange me e again) := by
  refine h.bind (h.awaitFn h.ensureContactCached) fun _ _ => h.bind h.self fun c _ => ?_
  refine h.tryCatch ?_ fun _ => h.pure () trivial
  refine h.bind (h.accepts e) fun sid hs => h.bind (h.setSession sid hs) fun _ _ => ?_
  refine h.bind (h.persist .recv sid) fun _ _ => h.bind (h.spawn h.drainPendingDecrypt) fun _ _ => ?_
  exact h.spawn (h.completeHandshake _ _)

theorem Judgement.Follows.ingestKeyRatchet : Ok Unit any (ingestKeyRatchet me e) := by
  refine h.bind h.recvSession fun sid _ => ?_
  cases sid with
  | none => exact h.pure () trivial
  | some sid =>
    refine h.tryCatch ?_ fun _ => h.pure () trivial
    refine h.bind (h.await (.acceptRekeyEnvelopeWithIdentity me sid e) trivial) fun _ _ => ?_
    exact h.bind (h.persist .recv sid) fun _ _ => h.spawn h.drainPendingDecrypt

theorem Judgement.Follows.openReadReceipt {sid : Nat} (hs : K.recv sid) (pk : String) :
    Ok Unit any (openReadReceipt me e sid pk) := by
  refine h.bind (h.opens sid e pk hs) fun body _ => ?_
  refine h.bind (h.exec _ trivial) fun _ _ => h.bind (h.persist .recv sid) fun _ _ => ?_
  split
  · exact h.pure () trivial
  · exact h.confirmReceipt _

theorem Judgement.Follows.ingestReadReceipt : Ok Unit any (ingestReadReceipt me e) := by
  refine h.bind h.recvSession fun sid hs => ?_
  split
  · exact h.pure () trivial
  refine h.bind h.cachedPeerPk fun pk _ => ?_
  split
  · exact h.pure () trivial
  · exact h.tryCatch (h.openReadReceipt (hs _ rfl) _) fun _ => h.pure () trivial

theorem Judgement.Follows.textOpened (sid : Nat) (body : Body) :
    Ok Unit any (textOpened me e sid body) := by
  refine h.bind (h.exec _ trivial) fun _ _ => ?_
  split
  · refine h.bind (h.exec _ trivial) fun _ _ => ?_
    exact h.bind (h.persist .recv sid) fun _ _ => h.confirmReceipt _
  · refine h.bind (h.exec _ trivial) fun _ _ => ?_
    exact h.bind (h.persist .recv sid) fun _ _ => h.spawn (h.shipReadReceipt _ _ _)

theorem Judgement.Follows.openText {sid : Nat} (hs : K.recv sid) (pk : String) (again : Bool) :
    Ok Unit any (openText me e sid pk again) := by
  refine h.settle (h.await (.getSessionInfo me .recv sid none) trivial) fun r _ => ?_
  cases r with
  | error err => exact h.pure () trivial
  | ok info =>
    refine h.settle (h.opens sid e pk hs) fun r _ => ?_
    cases r with
    | error err => exact h.undecryptable again
    | ok body => exact h.textOpened sid body

theorem Judgement.Follows.ingestText (again : Bool) : Ok Unit any (ingestText me e again) := by
  refine h.bind h.recvSession fun sid hs => ?_
  split
  · exact h.undecryptable again
  refine h.bind h.cachedPeerPk fun pk _ => ?_
  split
  · exact h.pure () trivial
  · exact h.openText (hs _ rfl) _ again

theorem Judgement.Follows.ingestEnvelope : Ok Unit any (ingestEnvelope me e) := by
  refine h.bind h.self fun c _ => h.bind (h.exec _ trivial) fun _ _ => ?_
  split
  · exact h.ingestKeyExchange _
  · exact h.ingestKeyRatchet
  · exact h.ingestReadReceipt
  · exact h.ingestText _
  · exact h.pure () trivial

end Ingest

/-! ## Batches -/

section Batches
variable {Ok : Judgement} {K : Knowledge} {me : Did}

/-- What is kept of a batch was in it. -/
theorem Judgement.Sequential.prepareAll (h : Ok.Sequential Call.Plain) (es : List Envelope) :
    Ok (List Envelope) (fun kept => ∀ e ∈ kept, e ∈ es) (prepareAll es) := by
  induction es with
  | nil => exact h.pure [] fun e he => he
  | cons e es ih =>
    have hone : Ok Bool any (prepareEnvelope e) := by
      refine h.tryCatch ?_ fun _ => h.pure _ trivial
      refine h.bind (h.await (.envelopeFromHex e) trivial) fun _ _ => ?_
      exact h.bind (h.await (.envelopeDescribe e) trivial) fun _ _ => h.pure _ trivial
    refine h.bind hone fun kept _ => h.bind ih fun rest hrest => h.pure _ fun e' he' => ?_
    split at he'
    · rcases mem_cons.1 he' with rfl | he'
      · exact mem_cons_self
      · exact mem_cons_of_mem _ (hrest e' he')
    · exact mem_cons_of_mem _ (hrest e' he')

theorem Judgement.Sequential.ingestAll (h : Ok.Sequential Call.Plain) (es : List Envelope)
    (hes : ∀ e ∈ es, Ok.Follows K me e.senderDid) : Ok Unit any (ingestAll me es) := by
  induction es with
  | nil => exact h.pure () trivial
  | cons e es ih =>
    refine h.bind (hes e mem_cons_self).ingestEnvelope fun _ _ => ?_
    exact ih fun e' he' => hes e' (mem_cons_of_mem e he')

theorem Judgement.Sequential.ingestEnvelopesNative (h : Ok.Sequential Call.Plain) (batch : List Envelope)
    (hbatch : ∀ e ∈ batch, Ok.Follows K me e.senderDid) :
    Ok Unit any (ingestEnvelopesNative me batch) := by
  refine h.bind (h.prepareAll batch) fun kept hkept => h.ingestAll _ fun e he => hbatch e (hkept e ?_)
  rcases mem_append.1 he with he | he
  · exact (mem_filter.1 he).1
  · exact (mem_filter.1 he).1

end Batches

end Messaging
