import SovereignMobile.Messaging.Machine

/-! # The asynchronous functions of the messaging service

`MessagingService.ts` on its native path, function by function, for the device `me`. Arguments
called `again` and `acked` are history: whether the envelope behind a recovery had been processed
before, and which envelope a receipt acknowledges. -/

namespace Messaging

open EventLoop

abbrev Prog := Async machine

/-- Run one synchronous function on the own device. -/
def exec (me : Did) (o : ClientOp) : Prog Unit := Async.op (M := machine) (.client me o)

/-- Read the own device. -/
def self (me : Did) : Prog Client := ⟨fun k => .read fun s => k (.ok (State.client s me))⟩

/-- `Date.now()` -/
def dateNow : Prog Nat := ⟨fun k => .read fun s => k (.ok (State.now s))⟩

def ofExcept {α : Type} : Except Err α → Prog α
  | .ok a => pure a
  | .error e => Async.throw (M := machine) e

def tick : Prog Unit := Async.await (M := machine) .tick

/-- `await f(…)` for an asynchronous function `f` -/
def awaitFn {α : Type} (m : Prog α) : Prog α :=
  Async.settle m fun r => do
    tick
    ofExcept r

def awaitPromise (me : Did) (p : PromiseId) : Prog Nat := Async.await (M := machine) (.promise me p)

def sessionInit (recipient : String) : Prog SessionInitResponse :=
  Async.await (M := machine) (.sessionInit recipient)

def fetchIdentityRecord (did : Did) : Prog (Option String) :=
  Async.await (M := machine) (.fetchIdentityRecord did)

def sendEnvelope (e : Envelope) : Prog SendStatus := Async.await (M := machine) (.sendEnvelope e)

namespace NativeMessaging

def initiateSession (me did remote : Did) : Prog InitResult :=
  Async.await (M := machine) (.initiateSession me did remote)

def sealKeyExchangeSigned (me remote : Did) (gen : Gen) : Prog Envelope :=
  Async.await (M := machine) (.sealKeyExchangeSigned me remote gen)

def sealTextSigned (me : Did) (sid : Nat) (body : Body) : Prog Envelope :=
  Async.await (M := machine) (.sealTextSigned me sid body)

def serializeSession (me : Did) (dir : SessionDir) (sid : Nat) : Prog Session :=
  Async.await (M := machine) (.serializeSession me dir sid)

def deserializeSession (me : Did) (dir : SessionDir) (blob : Session) : Prog Nat :=
  Async.await (M := machine) (.deserializeSession me dir blob)

def getSessionInfo (me : Did) (dir : SessionDir) (sid : Nat) (origin : Option Envelope) :
    Prog SessionInfo :=
  Async.await (M := machine) (.getSessionInfo me dir sid origin)

def acceptEnvelopeWithIdentity (me : Did) (e : Envelope) : Prog Nat :=
  Async.await (M := machine) (.acceptEnvelopeWithIdentity me e)

def acceptRekeyEnvelopeWithIdentity (me : Did) (sid : Nat) (e : Envelope) : Prog Unit :=
  Async.await (M := machine) (.acceptRekeyEnvelopeWithIdentity me sid e)

def envelopeOpenVerifiedWithSession (me : Did) (sid : Nat) (e : Envelope) (peerPk : String) :
    Prog Body :=
  Async.await (M := machine) (.envelopeOpenVerifiedWithSession me sid e peerPk)

def envelopeFromHex (e : Envelope) : Prog Unit := Async.await (M := machine) (.envelopeFromHex e)

def envelopeDescribe (e : Envelope) : Prog Unit := Async.await (M := machine) (.envelopeDescribe e)

end NativeMessaging

/-! ## Names -/

/-- `username.replace(/^@+/, '')` -/
def stripAt (username : String) : String :=
  String.ofList (username.toList.dropWhile fun c => c == '@')

/-- `recipient.startsWith('did:zhtp:')` -/
def isBareDid (recipient : String) : Bool :=
  "did:zhtp:".toList.isPrefixOf recipient.toList

/-- The handle of the contact if it has one, else the DID. -/
def recipientOf (c : Client) (did : Did) : String :=
  match c.store.contactsByDid did with
  | none => did
  | some contact => if contact.username = "" then did else "@" ++ stripAt contact.username

/-- `getContact(did)?.dilithium_pk`, where the empty string counts as none -/
def peerPk (c : Client) (did : Did) : Option String :=
  match c.store.contactsByDid did with
  | none => none
  | some contact => if contact.dilithiumPk = "" then none else some contact.dilithiumPk

def Err.status : Err → Option Nat
  | .http status => status
  | .error _ => none

/-- `record?.username?.replace(/^@+/, '')`, where the empty string counts as none -/
def handleOf (username : Option String) : Option String :=
  match username with
  | none => none
  | some u => if stripAt u = "" then none else some (stripAt u)

/-! ## Outbound sessions -/

/-- Resolve a handle that was found in the identity registry. -/
def sessionInitByHandle (did : Did) (username : Option String) : Prog SessionInitResponse :=
  match handleOf username with
  | none => Async.throw (M := machine) (.error ("no username registered for " ++ did))
  | some handle => sessionInit ("@" ++ handle)

def sessionInitByDid (did : Did) : Prog SessionInitResponse :=
  Async.tryCatch (sessionInit did) fun e => do
    if e.status = some 404 then
      let username ← fetchIdentityRecord did
      sessionInitByHandle did username
    else
      Async.throw (M := machine) e

/-- `setSerializedSession(sessionStoreKey(did, dir), blob)` -/
def setSerializedSession (me did : Did) (dir : SessionDir) (sid : Nat) (blob : Session) :
    Prog Unit :=
  match dir with
  | .send => exec me (.send (.setSerializedSession did sid blob))
  | .recv => exec me (.recv (.setSerializedSession did blob))

def persistSession (me did : Did) (dir : SessionDir) (sid : Nat) : Prog Unit :=
  Async.tryCatch (do
    let blob ← NativeMessaging.serializeSession me dir sid
    setSerializedSession me did dir sid blob) fun _ => pure ()

/-- `tryRestoreSession(did, 'send')` for the blob it has read -/
def restoreSend (me did : Did) (blob : Session) : Prog (Option Nat) := do
  exec me (.send (.beginRestore did))
  Async.settle (NativeMessaging.deserializeSession me .send blob) fun
    | .ok sid => do
      exec me (.send (.restored did sid))
      pure (some sid)
    | .error _ => do
      exec me (.send .restoreFailed)
      pure none

/-- `tryRestoreSession(did, 'recv')` for the blob it has read -/
def restoreRecv (me did : Did) (blob : Session) : Prog (Option Nat) :=
  Async.settle (NativeMessaging.deserializeSession me .recv blob) fun
    | .ok sid => do
      exec me (.recv (.setSession did sid))
      pure (some sid)
    | .error _ => pure none

def tryRestoreSession (me did : Did) (dir : SessionDir) : Prog (Option Nat) := do
  let c ← self me
  match dir with
  | .send =>
    match c.send.blobs did with
    | none => pure none
    | some blob => restoreSend me did blob
  | .recv =>
    match c.recv.blobs did with
    | none => pure none
    | some blob => restoreRecv me did blob

/-- A bare DID goes through the registry, a handle resolves directly. -/
def sessionInitFor (recipient : String) : Prog SessionInitResponse :=
  if isBareDid recipient then awaitFn (sessionInitByDid recipient) else sessionInit recipient

/-- The first-contact handshake: the cache is written before the `KeyExchange` is shipped. -/
def firstContact (me did : Did) (recipient : String) : Prog Nat := do
  let init ← sessionInitFor recipient
  exec me (.store (.upsertContact init.recipientDid
    ⟨init.recipientUsername, init.dilithiumPublicKey⟩))
  let r ← NativeMessaging.initiateSession me did init.recipientDid
  exec me (.send (.setSession did r.sessionId))
  let keyExchange ← NativeMessaging.sealKeyExchangeSigned me init.recipientDid r.gen
  let _ ← sendEnvelope keyExchange
  awaitFn (persistSession me did .send r.sessionId)
  pure r.sessionId

def initSendSession (me did : Did) (recipient : String) : Prog Nat := do
  let restored ← awaitFn (tryRestoreSession me did .send)
  match restored with
  | some sid => pure sid
  | none => firstContact me did recipient

/-- Start the handshake and register its promise before the first suspension. -/
def startInit (me did : Did) (recipient : String) (p : PromiseId) : Prog Nat := do
  exec me (.send .newPromise)
  Async.spawn (Async.settle (initSendSession me did recipient) fun r => exec me (.send (.settle p r)))
  exec me (.send (.setInFlight did p))
  Async.settle (awaitPromise me p) fun r => do
    exec me (.send (.deleteInFlight did))
    ofExcept r

def getOrInitSendSession (me did : Did) (recipient : String) : Prog Nat := do
  let c ← self me
  match c.send.sendSessionByDid did with
  | some cached => pure cached
  | none =>
    match c.send.sendSessionInitInFlight did with
    | some inFlight => awaitPromise me inFlight
    | none => startInit me did recipient ⟨did, c.send.nextPromise⟩

/-- `resetSendSession(did); await getOrInitSendSession(did, did)` -/
def rehandshake (me did : Did) : Prog Unit := do
  exec me (.send (.resetSendSession did))
  let _ ← awaitFn (getOrInitSendSession me did did)
  pure ()

def recoverMissingSession (me senderDid : Did) (again : Bool) : Prog Unit := do
  let now ← dateNow
  let c ← self me
  exec me (.health (.attemptRecovery senderDid now again))
  if c.health.coolingDown senderDid now then pure ()
  else Async.tryCatch (rehandshake me senderDid) fun _ => pure ()

/-- The first-contact branch of `completeHandshake`. -/
def reciprocate (me peerDid : Did) : Prog Unit := do
  let c ← self me
  match c.send.sendSessionByDid peerDid with
  | some _ => pure ()
  | none => do
    let restored ← awaitFn (tryRestoreSession me peerDid .send)
    match restored with
    | some _ => pure ()
    | none => Async.tryCatch (do
        let _ ← awaitFn (getOrInitSendSession me peerDid peerDid)
        pure ()) fun _ => pure ()

def completeHandshake (me peerDid : Did) (hadPriorInbound again : Bool) : Prog Unit :=
  if hadPriorInbound then Async.spawn (recoverMissingSession me peerDid again)
  else reciprocate me peerDid

def reconnectSession (me did : Did) : Prog Unit := do
  let now ← dateNow
  exec me (.health (.setRecoveryAttempt did now))
  rehandshake me did

/-! ## Sending -/

def localStatus : SendStatus → MessageStatus
  | .delivered => .delivered
  | .queued => .pending
  | .relayed => .sent

/-- The row that `sendTextMessageNative` appends. -/
def sentRow (now random : Nat) (body : Body) (info : SessionInfo) (status : MessageStatus)
    (e : Envelope) : LocalMessage where
  id := .sentLocally now random
  direction := .sent
  contentType := .text
  body := body
  timestamp := now / 1000
  epoch := info.epoch
  sequence := info.counter - 1
  status := status
  origin := e

def sendTextMessageNative (me remoteDid : Did) (text : String) (random : Nat) : Prog Unit := do
  let c ← self me
  let sid ← awaitFn (getOrInitSendSession me remoteDid (recipientOf c remoteDid))
  let e ← NativeMessaging.sealTextSigned me sid ⟨false, .text text⟩
  let status ← Async.settle (sendEnvelope e) fun
    | .ok r => pure (localStatus r)
    | .error _ => pure .failed
  let info ← NativeMessaging.getSessionInfo me .send sid (some e)
  awaitFn (persistSession me remoteDid .send sid)
  let now ← dateNow
  exec me (.store (.appendMessage remoteDid
    (sentRow now random ⟨false, .text text⟩ info status e)))

def shipReadReceipt (me toDid : Did) (seq epoch acked : Nat) : Prog Unit :=
  Async.tryCatch (do
    let sid ← awaitFn (getOrInitSendSession me toDid toDid)
    let e ← NativeMessaging.sealTextSigned me sid ⟨true, .receipt seq epoch acked⟩
    let _ ← sendEnvelope e
    awaitFn (persistSession me toDid .send sid)) fun _ => pure ()

/-- The part of `resendMessage` inside its outer `try`. -/
def resendBody (me did : Did) (id : MessageId) (recipient : String) (body : Body) : Prog Unit := do
  let sid ← awaitFn (getOrInitSendSession me did recipient)
  let e ← NativeMessaging.sealTextSigned me sid body
  let nextStatus ← Async.settle (sendEnvelope e) fun
    | .ok r => pure (localStatus r)
    | .error err => do
      exec me (.store (.updateMessageStatus did id .failed none))
      Async.throw (M := machine) err
  let info ← NativeMessaging.getSessionInfo me .send sid (some e)
  awaitFn (persistSession me did .send sid)
  exec me (.store (.updateMessageStatus did id nextStatus
    (some ⟨info.epoch, info.counter - 1, e⟩)))

def resendMessage (me did : Did) (id : MessageId) : Prog Unit := do
  let c ← self me
  match (c.store.messagesByConversation did).find? fun m => m.id == id with
  | none => Async.throw (M := machine) (.error "resend: message not found")
  | some msg =>
    if msg.direction ≠ .sent then
      Async.throw (M := machine) (.error "resend: not a sent message")
    else if msg.contentType ≠ .text then
      Async.throw (M := machine) (.error "resend: only text messages can be resent")
    else do
      exec me (.store (.updateMessageStatus did id .pending none))
      Async.tryCatch (resendBody me did id (recipientOf c did) msg.body) fun err => do
        exec me (.store (.updateMessageStatus did id .failed none))
        Async.throw (M := machine) err

/-! ## The pending-decrypt buffer -/

/-- `confirmSentMessage` for a body that is a receipt. -/
def confirmReceipt (me did : Did) (payload : Payload) : Prog Unit :=
  match payload with
  | .receipt seq epoch acked => exec me (.store (.confirmSentMessage did seq epoch acked))
  | .text _ => pure ()

/-- One buffered entry has been opened. -/
def drainOpened (me did : Did) (sid : Nat) (item : PendingDecrypt) (body : Body) : Prog Unit := do
  if body.marked then
    confirmReceipt me did body.payload
    exec me (.recover did item none)
    exec me (.health (.setDesynced did false))
    awaitFn (persistSession me did .recv sid)
  else
    exec me (.recover did item (some (item.envelope.receivedRow body)))
    exec me (.health (.setDesynced did false))
    awaitFn (persistSession me did .recv sid)
    Async.spawn (shipReadReceipt me did item.envelope.sequence item.envelope.epoch item.envelope.uid)

/-- `for (const item of buf)`, over the array as it is when each entry is reached. An array never
    holds more than 64 entries, so that many rounds are enough. -/
def drainLoop (me did : Did) (sid : Nat) (pk : String) (ref : ArrayRef) :
    Nat → Nat → List PendingDecrypt → Prog Unit
  | 0, _, remaining => exec me (.pending (.setPending did remaining))
  | fuel + 1, taken, remaining => do
    let c ← self me
    match (c.pending.heap ref)[taken]? with
    | none => exec me (.pending (.setPending did remaining))
    | some item => do
      exec me (.pending .takeNext)
      Async.settle (NativeMessaging.envelopeOpenVerifiedWithSession me sid item.envelope pk) fun
        | .error _ => do
          exec me (.pending .keep)
          drainLoop me did sid pk ref fuel (taken + 1) (remaining ++ [item])
        | .ok body => do
          drainOpened me did sid item body
          drainLoop me did sid pk ref fuel (taken + 1) remaining

/-- `recvSessionByDid.get(did) ?? (await tryRestoreSession(did, 'recv'))` -/
def recvSession (me did : Did) : Prog (Option Nat) := do
  let c ← self me
  match c.recv.recvSessionByDid did with
  | some sid => pure (some sid)
  | none => awaitFn (tryRestoreSession me did .recv)

/-- The part of `drainPendingDecrypt` after the session has been looked up. -/
def drainWith (me did : Did) (ref : ArrayRef) (sid : Option Nat) : Prog Unit := do
  let c ← self me
  match sid, peerPk c did with
  | some sid, some pk => drainLoop me did sid pk ref PENDING_DECRYPT_LIMIT_PER_PEER 0 []
  | _, _ => exec me (.pending .endDrain)

def drainPendingDecrypt (me did : Did) : Prog Unit := do
  let c ← self me
  match c.pending.pendingDecryptByDid did with
  | none => pure ()
  | some ref =>
    if (c.pending.heap ref).isEmpty then pure ()
    else do
      exec me (.pending (.startDrain did ref))
      let sid ← recvSession me did
      drainWith me did ref sid

/-! ## Ingest -/

def ensureContactCached (me did : Did) : Prog Bool := do
  let c ← self me
  match peerPk c did with
  | some _ => pure true
  | none => Async.tryCatch (do
      let r ← awaitFn (sessionInitByDid did)
      exec me (.store (.upsertContact r.recipientDid ⟨r.recipientUsername, r.dilithiumPublicKey⟩))
      pure true) fun _ => pure false

/-- The key to verify `did` with, fetched if it is not known yet. -/
def cachedPeerPk (me did : Did) : Prog (Option String) := do
  let c ← self me
  match peerPk c did with
  | some pk => pure (some pk)
  | none => do
    let _ ← awaitFn (ensureContactCached me did)
    let c ← self me
    pure (peerPk c did)

/-- A `Text` that cannot be opened: placeholder, buffer, re-handshake. -/
def undecryptable (me : Did) (e : Envelope) (again : Bool) : Prog Unit := do
  exec me (.health (.setDesynced e.senderDid true))
  exec me (.store (.appendUndecryptablePlaceholder e))
  exec me (.pending (.bufferUndecryptable e))
  Async.spawn (recoverMissingSession me e.senderDid again)

def acceptKeyExchange (me : Did) (e : Envelope) (hadPriorInbound again : Bool) : Prog Unit := do
  let sid ← NativeMessaging.acceptEnvelopeWithIdentity me e
  exec me (.recv (.setSession e.senderDid sid))
  awaitFn (persistSession me e.senderDid .recv sid)
  Async.spawn (drainPendingDecrypt me e.senderDid)
  Async.spawn (completeHandshake me e.senderDid hadPriorInbound again)

def ingestKeyExchange (me : Did) (e : Envelope) (again : Bool) : Prog Unit := do
  let _ ← awaitFn (ensureContactCached me e.senderDid)
  let c ← self me
  let hadPriorInbound := (c.recv.recvSessionByDid e.senderDid).isSome ||
    (c.recv.blobs e.senderDid).isSome
  Async.tryCatch (acceptKeyExchange me e hadPriorInbound again) fun _ => pure ()

def ingestKeyRatchet (me : Did) (e : Envelope) : Prog Unit := do
  let sid ← recvSession me e.senderDid
  match sid with
  | none => pure ()
  | some sid => Async.tryCatch (do
      NativeMessaging.acceptRekeyEnvelopeWithIdentity me sid e
      awaitFn (persistSession me e.senderDid .recv sid)
      Async.spawn (drainPendingDecrypt me e.senderDid)) fun _ => pure ()

/-- A `ReadReceipt` envelope carries the JSON without the marker. -/
def openReadReceipt (me : Did) (e : Envelope) (sid : Nat) (pk : String) : Prog Unit := do
  let body ← NativeMessaging.envelopeOpenVerifiedWithSession me sid e pk
  exec me (.recv (.dismiss e))
  awaitFn (persistSession me e.senderDid .recv sid)
  if body.marked then pure () else confirmReceipt me e.senderDid body.payload

def ingestReadReceipt (me : Did) (e : Envelope) : Prog Unit := do
  let sid ← recvSession me e.senderDid
  match sid with
  | none => pure ()
  | some sid => do
    let pk ← cachedPeerPk me e.senderDid
    match pk with
    | none => pure ()
    | some pk => Async.tryCatch (openReadReceipt me e sid pk) fun _ => pure ()

/-- A `Text` has been opened. -/
def textOpened (me : Did) (e : Envelope) (sid : Nat) (body : Body) : Prog Unit := do
  exec me (.health (.setDesynced e.senderDid false))
  if body.marked then
    exec me (.recv (.dismiss e))
    awaitFn (persistSession me e.senderDid .recv sid)
    confirmReceipt me e.senderDid body.payload
  else
    exec me (.deliver e.senderDid (e.receivedRow body))
    awaitFn (persistSession me e.senderDid .recv sid)
    Async.spawn (shipReadReceipt me e.senderDid e.sequence e.epoch e.uid)

def openText (me : Did) (e : Envelope) (sid : Nat) (pk : String) (again : Bool) : Prog Unit :=
  Async.settle (NativeMessaging.getSessionInfo me .recv sid none) fun
    | .error _ => pure ()
    | .ok _ => Async.settle (NativeMessaging.envelopeOpenVerifiedWithSession me sid e pk) fun
      | .error _ => undecryptable me e again
      | .ok body => textOpened me e sid body

def ingestText (me : Did) (e : Envelope) (again : Bool) : Prog Unit := do
  let sid ← recvSession me e.senderDid
  match sid with
  | none => undecryptable me e again
  | some sid => do
    let pk ← cachedPeerPk me e.senderDid
    match pk with
    | none => pure ()
    | some pk => openText me e sid pk again

def ingestEnvelope (me : Did) (e : Envelope) : Prog Unit := do
  let c ← self me
  exec me (.health (.see e))
  match e.contentType with
  | .keyExchange => ingestKeyExchange me e (decide (e ∈ c.health.seen))
  | .keyRatchet => ingestKeyRatchet me e
  | .readReceipt => ingestReadReceipt me e
  | .text => ingestText me e (decide (e ∈ c.health.seen))
  | _ => pure ()

/-- Decode and describe; what fails is dropped. -/
def prepareEnvelope (e : Envelope) : Prog Bool :=
  Async.tryCatch (do
    NativeMessaging.envelopeFromHex e
    NativeMessaging.envelopeDescribe e
    pure true) fun _ => pure false

def prepareAll : List Envelope → Prog (List Envelope)
  | [] => pure []
  | e :: es => do
    let kept ← prepareEnvelope e
    let rest ← prepareAll es
    pure (if kept then e :: rest else rest)

/-- The stable sort: handshakes first. -/
def handshakesFirst (es : List Envelope) : List Envelope :=
  es.filter Envelope.isHandshake ++ es.filter fun e => !e.isHandshake

def ingestAll (me : Did) : List Envelope → Prog Unit
  | [] => pure ()
  | e :: es => do
    ingestEnvelope me e
    ingestAll me es

def ingestEnvelopesNative (me : Did) (envelopes : List Envelope) : Prog Unit := do
  let prepared ← prepareAll envelopes
  ingestAll me (handshakesFirst prepared)

/-! ## What the app asks for -/

/-- The calls from outside, on any device and at any time. -/
inductive Cmd where
  | upsertContact (me did : Did) (contact : Contact)
  | sendTextMessage (me did : Did) (text : String) (random : Nat)
  | resendMessage (me did : Did) (id : MessageId)
  | reconnectSession (me did : Did)
  | deleteConversation (me did : Did)
  | ingestEnvelopes (me : Did) (batch : List Envelope)
  | advance (ms : Nat)

def program : Cmd → Prog Unit
  | .upsertContact me did contact => exec me (.store (.upsertContact did contact))
  | .sendTextMessage me did text random => sendTextMessageNative me did text random
  | .resendMessage me did id => resendMessage me did id
  | .reconnectSession me did => reconnectSession me did
  | .deleteConversation me did => exec me (.deleteConversation did)
  | .ingestEnvelopes me batch => ingestEnvelopesNative me batch
  | .advance ms => Async.op (M := machine) (.advance ms)

def prog (c : Cmd) : Task machine := (program c).toTask

end Messaging
