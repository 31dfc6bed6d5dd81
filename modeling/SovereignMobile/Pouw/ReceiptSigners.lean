import SovereignMobile.Identity.HandleStore
import SovereignMobile.Pouw.IosReceipts
import SovereignMobile.Pouw.ReceiptStore

/-! # Who signs a receipt

A receipt names the identity of the module or controller that made it, and is kept until a flush of a later
launch, which signs it with the identity that it finds. The receipt modules of both platforms together with
the identity stores that they read (`RCTPoUW.swift` over `IdentityHandleStore.swift`, `PoUWModule.kt` over
`IdentityStore.kt`), and on iOS with the sessions of `NativeQuicModule.swift` that carry a batch. On
Android, `nativeRequest` of `lib.rs` refuses authenticated requests, so no session carries one. -/

namespace ReceiptSigners

open NativeIdentityProvisioning (Did LibClient removeDidPrefix startsWithDid didPrefix)

/-- A receipt in a batch: the DID that it names, and the DID of the key that signed it. -/
structure Signed where
  client_did : Did
  signer : Did
deriving DecidableEq

structure Batch where
  client_did : Did
  receipts : List Signed
deriving DecidableEq

variable {Identity Json : Type}

/-! ## iOS -/

namespace Ios

open NativeIdentityProvisioning.Ios (trim)

/-- How far `loadIdentityFromProvisioning` is, which runs once: the background queue reads the latest
    identity, and the main queue sets `clientDid`. -/
inductive Loading where
  | started
  | read (did : Option Did)
  | done

/-- The store and the module. `underWay` has the batches that no session has taken up, with the id and the
    header of their requests; `sessions` the open sessions, each with the identity id that it was opened for
    and the DID that proved itself. History: the batches, and those that a session has carried. -/
structure Device (Identity Json : Type) where
  store : NativeIdentityProvisioning.Ios.State Identity Json
  pouw : RCTPoUW.State
  loading : Loading
  underWay : List (Nat × String × Batch)
  sessions : List (String × Did)
  issued : List Batch
  carried : List (Batch × Did)

inductive Event (Identity : Type) where
  | identity (c : NativeIdentityProvisioning.Call Identity)
  | readIdentity
  | identityLoaded
  | setNodeUrl
  | getChallengeDone (taskId challengeNonce : String)
  | verifyContent (q : RCTPoUW.VerifyCall)
  | flush (serializes : Bool)
  | handshake (identityId : String) (ok : Bool)
  | carry (request session : Nat)
  | closeSession (session : Nat)
  | respond (id : Nat) (c : RCTPoUW.Completion)
  | relaunch

variable (C : LibClient Identity Json) (sign : Identity → RCTPoUW.PoUWReceipt → Option String)
  (P : RCTPoUW.Platform)

def normalizeIdentityId (identityId : String) : String := removeDidPrefix (trim identityId)

/-- The item of the Keychain that a handshake is made with. -/
def serialized (store : NativeIdentityProvisioning.Ios.State Identity Json) (identityId : String) :
    Option Identity :=
  if trim identityId = "" then none else store.restore C (trim identityId)

/-- `loadIdentityForHandshake` stores what it finds, and so makes it the latest identity. -/
def loadIdentityForHandshake (store : NativeIdentityProvisioning.Ios.State Identity Json)
    (identityId : String) : NativeIdentityProvisioning.Ios.State Identity Json :=
  match serialized C store identityId with
  | some identity => store.store C identity none
  | none => store

/-- Whose materials `performLegacyHandshake` uses. -/
def materials (store : NativeIdentityProvisioning.Ios.State Identity Json) (identityId : String) :
    Option Identity :=
  serialized C store identityId <|>
    (if startsWithDid identityId then [identityId] else [identityId, didPrefix ++ identityId]).findSome?
      store.identities

namespace Device

/-- The app is installed, and there may be identities in the Keychain. -/
def installed (store : NativeIdentityProvisioning.Ios.State Identity Json) : Device Identity Json where
  store
  pouw := RCTPoUW.launch store.currentIdentityId []
  loading := .started
  underWay := []
  sessions := []
  issued := []
  carried := []

variable (s : Device Identity Json)

def flush (serializes : Bool) : Device Identity Json :=
  let latest := s.store.getLatestIdentity C
  let r := RCTPoUW.flush ⟨fun receipt => latest.1.bind fun i => sign i receipt, serializes⟩ s.pouw
  -- no receipt is signed before the guards
  let store :=
    if s.pouw.dropIneligible.pendingReceipts.isEmpty || s.pouw.identityId.isNone then s.store else latest.2
  match r.2 with
  | .error _ => { s with store, pouw := r.1 }
  | .ok request =>
    let batch : Batch :=
      ⟨request.clientDid, request.receipts.map fun x =>
        ⟨x.receipt.clientDid, (latest.1.map C.did).getD ""⟩⟩
    { s with
      store
      pouw := r.1
      underWay := s.underWay ++ [(s.pouw.nextRequest, request.identityHeader, batch)]
      issued := batch :: s.issued }

def handshake (identityId : String) (ok : Bool) : Device Identity Json :=
  { s with
    store := loadIdentityForHandshake C s.store identityId
    sessions := s.sessions ++
      if ok then (materials C s.store identityId).toList.map fun i => (identityId, C.did i) else [] }

/-- The next request of the queue goes over the session that was opened for its identity id. -/
def carry (request session : Nat) : Device Identity Json :=
  match s.underWay[request]?, s.sessions[session]? with
  | some (_, header, batch), some (identityId, did) =>
    if normalizeIdentityId header = identityId ∧ identityId ≠ "" then
      { s with underWay := s.underWay.eraseIdx request, carried := (batch, did) :: s.carried }
    else s
  | _, _ => s

/-- What the next process finds in the store. -/
def relaunchedStore : NativeIdentityProvisioning.Ios.State Identity Json :=
  { s.store with identities := fun _ => none, latestIdentity := none, cachedIdentities := fun _ => none }

def step (s : Device Identity Json) : Event Identity → Device Identity Json
  | .identity c => { s with store := s.store.step C c }
  | .readIdentity =>
    match s.loading with
    | .started =>
      { s with
        store := (s.store.getLatestIdentity C).2
        loading := .read ((s.store.getLatestIdentity C).1.map C.did) }
    | _ => s
  | .identityLoaded =>
    match s.loading with
    | .read (some did) =>
      { s with pouw := RCTPoUW.step P s.pouw (.identityLoaded did), loading := .done }
    | .read none => { s with loading := .done }
    | _ => s
  | .setNodeUrl => { s with pouw := RCTPoUW.step P s.pouw .setNodeUrl }
  | .getChallengeDone taskId challengeNonce =>
    { s with pouw := RCTPoUW.step P s.pouw (.getChallengeDone taskId challengeNonce) }
  | .verifyContent q => { s with pouw := RCTPoUW.step P s.pouw (.verifyContent q) }
  | .flush serializes => s.flush C sign serializes
  | .handshake identityId ok => s.handshake C identityId ok
  | .carry request session => s.carry request session
  | .closeSession session => { s with sessions := s.sessions.eraseIdx session }
  | .respond id c =>
    { s with
      pouw := RCTPoUW.step P s.pouw (.respond id c)
      underWay := s.underWay.filter fun x => x.1 ≠ id }
  | .relaunch =>
    { s with
      store := s.relaunchedStore
      pouw := RCTPoUW.step P s.pouw (.relaunch s.store.currentIdentityId)
      loading := .started
      underWay := []
      sessions := [] }

end Device

end Ios

/-! ## Android -/

namespace Android

open ReceiptStore (ReceiptEntity NewReceipt Bytes MAX_BATCH_SIZE oldestPending)

/-- What a run of `processPendingSubmissions` works on: its controller, the rows that it has read, and in
    `markRetry` the nonce with the row that was found for it. -/
structure Held where
  controller : Nat
  receipts : List ReceiptEntity
  retrying : Option (Bytes × Option ReceiptEntity)

/-- The store, the table, the identities of the controllers made so far, and the fields `loadedIdentity`
    and `controller` of the module with the identity ids that they were made for. History: the batches, and
    the DID of the last controller. -/
structure Device (Identity Json : Type) where
  store : NativeIdentityProvisioning.Android.State Identity Json
  table : ReceiptStore.State
  controllers : List Identity
  loaded : Option (String × Identity)
  controller : Option (String × Nat)
  held : List Held
  issued : List Batch
  lastDid : Option Did

/-- What a run does with a receipt of its batch. `markRetry` first looks at the one oldest pending row. -/
inductive RowCall where
  | update (receipt : ReceiptEntity)
  | markAccepted (nonce : Bytes)
  | markRejected (nonce : Bytes) (reason : String)
  | lookUp (nonce : Bytes) (ok : Bool)
  | markRetry (nonce : Bytes)
  | insertRetried (error : String)

def Held.has (h : Held) (nonce : Bytes) : Bool := nonce ∈ h.receipts.map ReceiptEntity.receiptNonce

/-- The row that `markRetry` finds. -/
def found (table : ReceiptStore.State) (nonce : Bytes) (ok : Bool) : Option ReceiptEntity :=
  if ok then (oldestPending 1 table.receipts).find? fun r => r.receiptNonce = nonce else none

def row (h : Held) (table : ReceiptStore.State) : RowCall → Held × ReceiptStore.State
  | .update receipt =>
    (h, if receipt ∈ h.receipts then table.insert { receipt with state := .QUEUED } else table)
  | .markAccepted nonce => (h, if h.has nonce then table.markAccepted [nonce] else table)
  | .markRejected nonce reason => (h, if h.has nonce then table.markRejected nonce reason else table)
  | .lookUp nonce ok =>
    (if h.has nonce then { h with retrying := some (nonce, found table nonce ok) } else h, table)
  | .markRetry nonce => (h, if h.has nonce then table.markRetry nonce else table)
  | .insertRetried error =>
    match h.retrying with
    | none => (h, table)
    | some (nonce, receipt) =>
      ({ h with retrying := none },
        table.insert (ReceiptStore.retried receipt nonce error table.currentTimeMillis))

inductive Event (Identity : Type) where
  | identity (c : NativeIdentityProvisioning.Call Identity)
  | ensureController
  | createReceipt (controller : Nat) (q : NewReceipt)
  | getPending (controller : Nat)
  | submitBatch (k : Nat)
  | row (k : Nat) (c : RowCall)
  | done (k : Nat)
  | deleteOldAccepted (before : Int)
  | tick (currentTimeMillis : Int)
  | relaunch

variable (C : LibClient Identity Json)

namespace Device

def installed (store : NativeIdentityProvisioning.Android.State Identity Json) (currentTimeMillis : Int) :
    Device Identity Json where
  store
  table := .empty currentTimeMillis
  controllers := []
  loaded := none
  controller := none
  held := []
  issued := []
  lastDid := none

variable (s : Device Identity Json)

/-- `loadedIdentity` and its id after the check of `ensureController`. -/
def load (identityId : String) : Option (String × Identity) :=
  match s.loaded.filter fun l => l.1 = identityId with
  | some l => some l
  | none => (s.store.loadIdentity C identityId).map fun i => (identityId, i)

/-- The identity of the controller that `ensureController` makes, unless there is one for the id. -/
def newController : Option (String × Identity) :=
  s.store.currentIdentityId.bind fun currentIdentityId =>
    (s.load C (NativeIdentityProvisioning.Android.normalizeIdentityId currentIdentityId)).filter fun l =>
      s.controller.all fun c => c.1 ≠ l.1

def ensureController : Device Identity Json :=
  match s.store.currentIdentityId with
  | none => s
  | some currentIdentityId =>
    let loaded := s.load C (NativeIdentityProvisioning.Android.normalizeIdentityId currentIdentityId)
    match s.newController C with
    | none => { s with loaded }
    | some (identityId, identity) =>
      { s with
        loaded
        controllers := s.controllers ++ [identity]
        controller := some (identityId, s.controllers.length)
        lastDid := some (C.did identity) }

/-- `buildBatchPayload` -/
def batch (identity : Identity) (receipts : List ReceiptEntity) : Batch where
  client_did := (receipts.head?.bind fun r => r.clientDid).getD ""
  receipts := receipts.map fun r => ⟨r.clientDid.getD "", C.did identity⟩

def step (s : Device Identity Json) : Event Identity → Device Identity Json
  | .identity c => { s with store := s.store.step C c }
  | .ensureController => s.ensureController C
  | .createReceipt n q =>
    match s.controllers[n]? with
    | none => s
    | some identity =>
      { s with
        table := s.table.insert (ReceiptStore.newReceipt { q with clientDid := some (C.did identity) }
          s.table.currentTimeMillis) }
  | .getPending n =>
    match s.controllers[n]? with
    | none => s
    | some _ => { s with held := s.held ++ [⟨n, oldestPending MAX_BATCH_SIZE s.table.receipts, none⟩] }
  | .submitBatch k =>
    match s.held[k]? with
    | none => s
    | some h =>
      match s.controllers[h.controller]? with
      | none => s
      | some identity =>
        if h.receipts.isEmpty then s else { s with issued := batch C identity h.receipts :: s.issued }
  | .row k c =>
    match s.held[k]? with
    | none => s
    | some h => { s with held := s.held.set k (row h s.table c).1, table := (row h s.table c).2 }
  | .done k => { s with held := s.held.eraseIdx k }
  | .deleteOldAccepted before => { s with table := s.table.deleteOldAccepted before }
  | .tick currentTimeMillis => { s with table := { s.table with currentTimeMillis } }
  | .relaunch =>
    { s with
      store := { s.store with cachedIdentities := .empty }
      controllers := []
      loaded := none
      controller := none
      held := [] }

end Device

end Android

end ReceiptSigners
