import SovereignMobile.Messaging.MockData
import SovereignMobile.Messaging.Service

/-! # One phone, several identities

The app lets its user switch between identities. The store follows the live DID: `setSelfDid` clears it
and loads the new DID's blob. The module variables of `MessagingService.ts` and the native sessions stay,
and so do the operations that are suspended. Here the programs of the service run on one phone: whatever
DID an operation was started under, it works on the same `Client`, and what is live when it issues a call
is what `getSelfDid()` returns. -/

namespace Identities

open Messaging EventLoop
open MessagingMockData (serviceFor nextDid)

def FALLBACK_SELF_DID : Did :=
  "did:zhtp:0000000000000000000000000000000000000000000000000000000000000001"

/-- `getSelfDid()` -/
def selfDid (liveSelfDid : Option Did) : Did := liveSelfDid.getD FALLBACK_SELF_DID

/-- `MessagingStateBlob`; `did` and `makers` are history: whose snapshot it is, and under which DIDs the
    operations were started that wrote what it holds. -/
structure Blob where
  contacts : Did → Option Contact
  messages : Did → List LocalMessage
  unread : Did → Nat
  sendSessions : Did → Option Session
  recvSessions : Did → Option Session
  did : Did
  makers : List (Option Did)

/-- History: a seal or an open, with what was live when it was issued and when it was performed, and the
    same of the call that its session came from. -/
structure SessionUse where
  during : List (Option Did)
  obtained : List (Option Did)
deriving DecidableEq

/-- The next native session of each direction and the next promise. -/
structure Floor where
  send : Nat
  recv : Nat
  promise : Nat

/-- History: the tasks of the service that have not ended, each with the DID it was started under; the
    `Floor` at the last switch; the peers for which a module variable of the service was written; where
    the sessions came from and where they were used; the DIDs under which the operations were started that
    wrote what the store has, and those that wrote cooldowns, desync marks and pending buffers since these
    were last empty at a switch; the snapshots that were saved; and the DIDs that were live. -/
structure State where
  liveSelfDid : Option Did
  client : Client
  now : Nat
  nextGen : Nat
  nextUid : Nat
  sealed : List Envelope
  accepted : List Envelope
  saveEnabled : Bool
  saveTimer : Option Did
  keychain : String → Option Blob
  running : List (Nat × Option Did)
  floor : Floor
  peers : List Did
  obtained : SessionDir → Nat → List (Option Did)
  uses : List SessionUse
  contents : List (Option Did)
  markers : List (Option Did)
  saved : List (Did × List (Option Did))
  signedIn : List Did

/-- The app on a new phone. -/
def State.fresh (now : Nat) : State where
  liveSelfDid := none
  client := Client.fresh
  now := now
  nextGen := 0
  nextUid := 0
  sealed := []
  accepted := []
  saveEnabled := false
  saveTimer := none
  keychain := fun _ => none
  running := []
  floor := ⟨0, 0, 0⟩
  peers := []
  obtained := fun _ _ => []
  uses := []
  contents := []
  markers := []
  saved := []
  signedIn := []

/-! ## The store -/

/-- `snapshot()`, taken for `did` -/
def State.snapshot (did : Did) (s : State) : Blob where
  contacts := s.client.store.contactsByDid
  messages := s.client.store.messagesByConversation
  unread := s.client.store.unreadByDid
  sendSessions := s.client.send.blobs
  recvSessions := s.client.recv.blobs
  did := did
  makers := s.contents

/-- `clearAll()`: the module variables of the service are not among what it clears. -/
def clearAll (c : Client) : Client :=
  { c with
    send := { c.send with blobs := fun _ => none },
    recv := { c.recv with blobs := fun _ => none },
    store := Client.fresh.store }

/-- `hydrateFromBlob(blob)`; an empty array and a count of zero are as good as no entry. -/
def hydrateFromBlob (blob : Blob) (c : Client) : Client :=
  { c with
    send := { c.send with blobs := fun did => (blob.sendSessions did).or (c.send.blobs did) },
    recv := { c.recv with blobs := fun did => (blob.recvSessions did).or (c.recv.blobs did) },
    store := { c.store with
      contactsByDid := fun did => (blob.contacts did).or (c.store.contactsByDid did),
      messagesByConversation := fun did =>
        if (blob.messages did).isEmpty then c.store.messagesByConversation did
        else blob.messages did,
      unreadByDid := fun did =>
        if blob.unread did = 0 then c.store.unreadByDid did else blob.unread did } }

def State.scheduleSave (s : State) : State :=
  if s.saveEnabled then
    match s.liveSelfDid with
    | none => s
    | some did => { s with saveTimer := some did }
  else s

def Client.floor (c : Client) : Floor := ⟨c.send.nextNative, c.recv.nextNative, c.send.nextPromise⟩

/-- No cooldown, desync mark or pending envelope of the peer. -/
def unmarked (c : Client) (did : Did) : Bool :=
  c.health.recoveryAttemptAt did = none && !c.health.desyncedDids did &&
    c.pending.pendingDecryptByDid did = none

/-- No entry of the peer in any of the module variables of the service. -/
def quiet (c : Client) (did : Did) : Bool :=
  c.send.sendSessionByDid did = none && c.send.sendSessionInitInFlight did = none &&
    c.recv.recvSessionByDid did = none && unmarked c did

/-- `setSelfDid(did)` for a DID that is not live yet, up to the load -/
def State.setSelfDid (did : Option Did) (s : State) : State :=
  { s with
    saveEnabled := false, saveTimer := none, liveSelfDid := nextDid did,
    client := clearAll s.client, floor := Client.floor s.client, contents := [],
    markers := if s.peers.all (unmarked s.client) then [] else s.markers,
    signedIn := s.signedIn ++ (nextDid did).toList }

/-- The callback of the load -/
def State.hydrate (next : Did) (blob : Option Blob) (s : State) : State :=
  -- bail if the active DID has changed during the load
  if s.liveSelfDid = some next then
    match blob with
    | none => { s with saveEnabled := true }
    | some blob =>
      { State.scheduleSave { s with
          client := hydrateFromBlob blob s.client, contents := s.contents ++ blob.makers } with
        saveEnabled := true }
  else s

/-! ## Operations of the service -/

/-- The peer whose entry in a module variable of the service is written. -/
def peerOf : ClientOp → Option Did
  | .send (.setSession did _) => some did
  | .send (.restored did _) => some did
  | .send (.resetSendSession did) => some did
  | .send (.setInFlight did _) => some did
  | .send (.deleteInFlight did) => some did
  | .recv (.setSession did _) => some did
  | .pending (.bufferUndecryptable e) => some e.senderDid
  | .pending (.setPending did _) => some did
  | .health (.attemptRecovery did _ _) => some did
  | .health (.setRecoveryAttempt did _) => some did
  | .health (.setDesynced did _) => some did
  | .deleteConversation did => some did
  | _ => none

/-- The operation writes a cooldown, a desync mark or a pending buffer. -/
def marks : ClientOp → Bool
  | .pending (.bufferUndecryptable _) => true
  | .pending (.setPending _ _) => true
  | .health (.attemptRecovery _ _ _) => true
  | .health (.setRecoveryAttempt _ _) => true
  | .health (.setDesynced _ _) => true
  | .deleteConversation _ => true
  | _ => false

/-- The operation changes the store, so that it calls `notify()`. -/
def notifies (c : Client) : ClientOp → Bool
  | .send (.setSerializedSession _ _ _) => true
  | .send (.resetSendSession did) => (c.send.blobs did).isSome
  | .recv (.setSerializedSession _ _) => true
  | .store (.upsertContact _ _) => true
  | .store (.appendMessage _ _) => true
  | .store (.appendUndecryptablePlaceholder e) =>
    !(c.store.messagesByConversation e.senderDid).any fun m => m.id == e.placeholderId
  | .store (.updateMessageStatus did id _ _) =>
    (c.store.messagesByConversation did).any fun m => m.id == id
  | .store (.confirmSentMessage did seq epoch _) =>
    (c.store.messagesByConversation did).any (LocalMessage.isSentAt seq epoch)
  | .deliver _ _ => true
  | .recover did item _ =>
    (c.store.messagesByConversation did).any fun m => m.id == item.placeholderId
  | .deleteConversation _ => true
  | _ => false

/-- What it writes is more than a removal. -/
def produces : ClientOp → Bool
  | .send (.resetSendSession _) => false
  | .recover _ _ none => false
  | .deleteConversation _ => false
  | _ => true

/-- An operation on the client by task `i`, which was started under `owner`. -/
def State.exec (i : Nat) (owner : Option Did) (o : ClientOp) (s : State) : State :=
  let s' := { s with
    client := o.apply i s.client,
    peers := s.peers ++ (peerOf o).toList,
    contents := if notifies s.client o && produces o then s.contents ++ [owner] else s.contents,
    markers := if marks o then s.markers ++ [owner] else s.markers }
  if notifies s.client o then s'.scheduleSave else s'

inductive Op where
  | enter (owner : Option Did)
  | leave
  | service (owner : Option Did) (o : Messaging.Op)
  | setSelfDid (did : Option Did)
  | hydrate (next : Did) (blob : Option Blob)
  | clearTimer
  | sealedElsewhere (e : Envelope)

def Op.apply (i : Nat) (o : Op) (s : State) : State :=
  match o with
  | .enter owner => { s with running := s.running ++ [(i, owner)] }
  | .leave => { s with running := s.running.filter fun x => x.1 ≠ i }
  | .service owner (.client _ o) => s.exec i owner o
  | .service _ (.advance ms) => { s with now := s.now + ms }
  | .setSelfDid did => s.setSelfDid did
  | .hydrate next blob => s.hydrate next blob
  | .clearTimer => { s with saveTimer := none }
  | .sealedElsewhere e => { s with sealed := s.sealed ++ [e] }

/-! ## Calls -/

/-- `issued` is what was live when the call was issued. -/
inductive Call where
  | service (owner issued : Option Did) (c : Messaging.Call)
  | loadMessagingState (did : Did)
  | saveMessagingState (did : Did) (blob : Blob)

abbrev Ret : Call → Type
  | .service _ _ c => Messaging.Ret c
  | .loadMessagingState _ => Option Blob
  | .saveMessagingState _ _ => Unit

/-- The phone as every DID sees it. -/
def State.view (s : State) : Messaging.State where
  client _ := s.client
  now := s.now
  nextGen := s.nextGen
  nextUid := s.nextUid
  sealed := s.sealed
  accepted := s.accepted

/-- The call as it is made by `self`; a `KeyExchange` is sealed by whoever initiated the session. -/
def callAs (self : Did) : Messaging.Call → Messaging.Call
  | .promise _ p => .promise self p
  | .initiateSession _ did remote => .initiateSession self did remote
  | .sealKeyExchangeSigned _ remote gen => .sealKeyExchangeSigned gen.owner remote gen
  | .sealTextSigned _ sid body => .sealTextSigned self sid body
  | .serializeSession _ dir sid => .serializeSession self dir sid
  | .deserializeSession _ dir blob => .deserializeSession self dir blob
  | .getSessionInfo _ dir sid origin => .getSessionInfo self dir sid origin
  | .acceptEnvelopeWithIdentity _ e => .acceptEnvelopeWithIdentity self e
  | .acceptRekeyEnvelopeWithIdentity _ sid e => .acceptRekeyEnvelopeWithIdentity self sid e
  | .envelopeOpenVerifiedWithSession _ sid e pk => .envelopeOpenVerifiedWithSession self sid e pk
  | c => c

theorem ret_callAs (self : Did) (c : Messaging.Call) :
    Messaging.Ret (callAs self c) = Messaging.Ret c := by
  cases c <;> rfl

def nextNative (c : Client) : SessionDir → Nat
  | .send => c.send.nextNative
  | .recv => c.recv.nextNative

/-- The session that a seal or an open uses. -/
def usedSession : Messaging.Call → Option (SessionDir × Nat)
  | .sealTextSigned _ sid _ => some (.send, sid)
  | .envelopeOpenVerifiedWithSession _ sid _ _ => some (.recv, sid)
  | _ => none

/-- A call of the service has led to `s'`. -/
def State.afterCall (issued : Option Did) (c : Messaging.Call) (s' : Messaging.State) (s : State) :
    State :=
  let client := s'.client (selfDid issued)
  { s with
    client := client, now := s'.now, nextGen := s'.nextGen, nextUid := s'.nextUid,
    sealed := s'.sealed, accepted := s'.accepted,
    obtained := fun dir sid =>
      if nextNative s.client dir ≤ sid ∧ sid < nextNative client dir then [issued, s.liveSelfDid]
      else s.obtained dir sid,
    uses := s.uses ++ (usedSession c).toList.map fun x =>
      ⟨[issued, s.liveSelfDid], s.obtained x.1 x.2⟩ }

/-- What the keychain returns or stores; the functions of `MessagingStorage.ts` catch its errors. -/
def Call.perform (i : Nat) (c : Call) (r : Reply) (s : State) :
    Option (State × Except Err (Ret c)) :=
  match c with
  | .service _ issued c =>
    (Messaging.Call.perform i (callAs (selfDid issued) c) r s.view).map fun x =>
      (s.afterCall issued c x.1, Except.map (cast (ret_callAs (selfDid issued) c)) x.2)
  | .loadMessagingState did =>
    match r with
    | .fail _ => some (s, .ok none)
    | _ => some (s, .ok (s.keychain (serviceFor did)))
  | .saveMessagingState did blob =>
    match r with
    | .fail _ => some (s, .ok ())
    | _ => some ({ s with
        keychain := Function.update s.keychain (serviceFor did) (some blob),
        saved := s.saved ++ [(did, blob.makers)] }, .ok ())

def machine : Machine where
  State := State
  Op := Op
  Call := Call
  Ret := Ret
  Err := Err
  Reply := Reply
  apply := Op.apply
  perform := Call.perform

/-! ## Programs -/

/-- A task of the service, started under `owner`; the tasks it forks belong to the same operation. -/
def lift (owner : Option Did) : Task Messaging.machine → Task machine
  | .done => .op (M := machine) .leave .done
  | .read k => .read (M := machine) fun s => lift owner (k (State.view s))
  | .op o k => .op (M := machine) (.service owner o) (lift owner k)
  -- `getSelfDid()` is asked again for each call
  | .await c k => .read (M := machine) fun s =>
    .await (M := machine) (.service owner (State.liveSelfDid s) c) fun r => lift owner (k r)
  | .fork child k =>
    .fork (.op (M := machine) (.enter owner) (lift owner child)) (lift owner k)

abbrev Prog := Async machine

def exec (o : Op) : Prog Unit := Async.op (M := machine) o

def get : Prog State := Async.get (M := machine)

def loadMessagingState (did : Did) : Prog (Option Blob) :=
  Async.await (M := machine) (.loadMessagingState did)

def saveMessagingState (did : Did) (blob : Blob) : Prog Unit :=
  Async.await (M := machine) (.saveMessagingState did blob)

def hydrateWhenLoaded (next : Did) : Prog Unit := do
  let blob ← loadMessagingState next
  exec (.hydrate next blob)

def setSelfDid (did : Option Did) : Prog Unit := do
  let s ← get
  if nextDid did = s.liveSelfDid then pure ()
  else do
    exec (.setSelfDid did)
    match nextDid did with
    | none => pure ()
    | some next => Async.spawn (hydrateWhenLoaded next)

/-- The callback of `setTimeout` -/
def timerFires : Prog Unit := do
  let s ← get
  match s.saveTimer with
  | none => pure ()
  | some did => do
    exec .clearTimer
    saveMessagingState did (s.snapshot did)

/-- The DID that a command of the service names is not looked at: what is live is. -/
inductive Cmd where
  | service (c : Messaging.Cmd)
  | setSelfDid (did : Option Did)
  | timerFires
  | sealedElsewhere (e : Envelope)

def prog : Cmd → Task machine
  | .service c => .read (M := machine) fun s =>
    .op (M := machine) (.enter (State.liveSelfDid s))
      (lift (State.liveSelfDid s) (Messaging.prog c))
  | .setSelfDid did => (setSelfDid did).toTask
  | .timerFires => timerFires.toTask
  | .sealedElsewhere e => (exec (.sealedElsewhere e)).toTask

end Identities
