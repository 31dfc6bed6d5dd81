import SovereignMobile.Auth.Types
import SovereignMobile.Stateful.Interruptible

/-! # Keys behind an identity

The three functions of `RealAuthService.ts` that report a new identity, with `IdentityCleanup.ts`, over what
the native module of the platform keeps (`NativeIdentityProvisioning.kt`, `NativeIdentityProvisioning.swift`).
What lib-client, the node and the storage of the device answer are inputs, and any call may be the last one:
the promise stays pending, or the app is ended. Requests may also make a stored identity the latest one, which
changes neither the stored keys nor the cache; chain bindings and the mnemonic of a wallet are no keys. -/

namespace ProvisionedKeys

open NativeIdentityProvisioning (LibClient)
open Stateful.Interruptible Auth

variable {Key Json : Type}

/-! ## The native module -/

inductive Store (Key Json : Type) where
  | ios (s : NativeIdentityProvisioning.Ios.State Key Json)
  | android (s : NativeIdentityProvisioning.Android.State Key Json)

namespace Store

variable (C : LibClient Key Json)

def isAndroid : Store Key Json → Bool
  | .ios _ => false
  | .android _ => true

/-- The keys that are stored under an id. -/
def keys (identityId : String) : Store Key Json → Option Key
  | .ios s => s.restore C identityId
  | .android s => s.loadIdentity C identityId

def cached (did : Did) : Store Key Json → Option Key
  | .ios s => s.cachedIdentities did
  | .android s => s.cachedIdentities.get did

/-- `provisionIdentity` and `restoreIdentityFromPhrase` keep what lib-client has made. -/
def cache (key : Key) : Store Key Json → Store Key Json
  | .ios s => .ios (s.cacheNew C (some key))
  | .android s => .android (s.cacheNew C (some key))

/-- Whether the Keychain adds the item, or the preferences can be written. These throw before the write. -/
def storeProvisionedIdentity (identityId : String) (did : Did) (writes : Bool) :
    Store Key Json → Store Key Json
  | .ios s => .ios (s.storeProvisionedIdentity C identityId did writes)
  | .android s => .android (if writes then s.storeProvisionedIdentity C identityId did else s)

def restoreIdentityToHandleStore (identityId : String) : Store Key Json → Store Key Json
  | .ios s => .ios (s.restoreIdentityToHandleStore C identityId)
  | .android s => .android (s.restoreIdentityToHandleStore C identityId)

/-- On iOS the method has no promise, and the items stay where the Keychain does not delete them. -/
def cleanKeystoreDirectory (r : Except String Unit) : Store Key Json → Except String Unit × Store Key Json
  | .ios s => (.ok (), .ios (s.cleanKeystoreDirectory r.isOk))
  | .android s => (r, .android (if r.isOk then s.cleanKeystoreDirectory else s))

end Store

/-- The native store, and the flag of the recovery service. -/
structure Device (Key Json : Type) where
  store : Store Key Json
  lastSeedRecoveryNotFound : Bool

abbrev Service (Key Json : Type) := Prog String (Device Key Json)

variable (C : LibClient Key Json)

/-- `provisionIdentity` or `restoreIdentityFromPhrase`, with the keys that lib-client makes. -/
def newKey (made : Outcome String Key) : Service Key Json Key := do
  let key ← answer made
  perform (fun d => (.ok key, { d with store := d.store.cache C key })) true

def storeProvisionedIdentity (identityId : String) (did : Did) (writes : Outcome String Unit) :
    Service Key Json Unit :=
  perform (fun d =>
    (if ((d.store.cached did).bind C.serialize).isNone then .error "Cached identity not found"
      else writes.getD (.ok ()),
      { d with store := d.store.storeProvisionedIdentity C identityId did (writes.any Except.isOk) }))
    writes.isSome

/-- `reads` is `some false` where the status is `skipped`. -/
def restoreIdentityToHandleStore (identityId : String) (reads : Option Bool) : Service Key Json Unit :=
  perform (fun d =>
    (.ok (), if reads = some true then
      { d with store := d.store.restoreIdentityToHandleStore C identityId } else d))
    reads.isSome

def cleanKeystoreDirectory (deletes : Outcome String Unit) : Service Key Json Unit :=
  perform (fun d =>
    let (r, store) := d.store.cleanKeystoreDirectory (deletes.getD (.ok ()))
    (r, { d with store })) deletes.isSome

def setLastSeedRecoveryNotFound (b : Bool) : Service Key Json Unit :=
  perform (fun d => (.ok (), { d with lastSeedRecoveryNotFound := b })) true

/-! ## The service -/

/-- What the node answers; `json` is what `JSON.parse(body)` gives. -/
structure Response (γ : Type) where
  ok : Bool
  status : Int
  body : String
  json : Except String γ

/-- `deviceId` and the time of creation, as the native module gives them with new keys. -/
structure KeyInfo where
  deviceId : String
  createdAt : Int

def storeIdentity (identity : Identity) (storeMasterSeedPhrase : Outcome String Unit) :
    Service Key Json Unit :=
  ignoring (match truthy identity.masterSeedPhrase, truthy identity.identityId with
    | some _, some _ => answer storeMasterSeedPhrase
    | _, _ => pure ())

/-! ### `createIdentity` -/

structure CreateIdentityData where
  display_name : String
  password : Password

structure RegistrationResponse where
  identity_id : Option String
  did : Option Did

structure CreateOutcome (Key : Type) where
  provisionIdentity : Outcome String Key
  info : KeyInfo
  createRegistrationProof : Outcome String Unit
  register : Outcome String (Response RegistrationResponse)
  storeProvisionedIdentity : Outcome String Unit
  getSeedPhraseForBackup : Outcome String String
  restoreIdentityToHandleStore : Option Bool
  storeMasterSeedPhrase : Outcome String Unit

/-- The id of the new identity, and its DID if the server gives one. -/
def registeredAs (did : Did) (response : Response RegistrationResponse) : Except String (String × Did) :=
  if response.ok then
    response.json.map fun json => (json.identity_id.getD "", (truthy json.did).getD did)
  else if response.status = 409 ∧ includes response.body "Identity already registered" then
    .ok (stripDidPrefix did, did)
  else .error ("HTTP " ++ toString response.status ++ ": " ++ response.body)

/-- `catch (e) { throw new Error(text + e.message) }` -/
def onFailure {α : Type} (text : String) (m : Service Key Json α) : Service Key Json α :=
  tryCatch m fun message => throw (text ++ message)

/-- The part up to the server's answer: the new keys, and the id and the DID of the identity. -/
def registerNewKey (o : CreateOutcome Key) : Service Key Json (Key × String × Did) := do
  let generated ← onFailure "Device-based key generation failed: " (newKey C o.provisionIdentity)
  onFailure "Failed to create registration proof: " (answer o.createRegistrationProof)
  let (identityId, did) ← onFailure "Server registration failed: " (do
    let registerResponse ← answer o.register
    answer (some (registeredAs (C.did generated) registerResponse)))
  pure (generated, identityId, did)

def createIdentityDevice (data : CreateIdentityData) (o : CreateOutcome Key) : Service Key Json Identity := do
  let (_, identityId, did) ← registerNewKey C o
  ignoring (storeProvisionedIdentity C identityId did o.storeProvisionedIdentity)
  let masterSeedPhrase ← tryCatch (answer o.getSeedPhraseForBackup) fun _ => pure ""
  ignoring (restoreIdentityToHandleStore C identityId o.restoreIdentityToHandleStore)
  let identity : Identity :=
    { did
      displayName := data.display_name
      identityId := some identityId
      identityType := .human
      deviceId := some o.info.deviceId
      createdAt := some (.number o.info.createdAt)
      masterSeedPhrase := truthy (some masterSeedPhrase) }
  storeIdentity identity o.storeMasterSeedPhrase
  pure identity

def createIdentity (data : CreateIdentityData) (o : CreateOutcome Key) : Service Key Json Identity :=
  if utf16Length data.display_name < 2 then throw "Display name must be at least 2 characters"
  else if utf16Length data.password < 8 then throw "Password must be at least 8 characters"
  else createIdentityDevice C data o

/-! ### `recoverWithSeed` -/

structure ServerIdentity where
  identity_id : Option String := none
  did : Option Did := none
  display_name : Option String := none

structure RecoverPayload where
  session_token : Option String := none
  message : Option String := none
  error : Option String := none
  identity : Option ServerIdentity := none

structure RecoverOutcome (Key : Type) where
  recover : Outcome String (Response RecoverPayload)
  setSessionToken : Outcome String Unit
  restoreIdentityFromPhrase : Outcome String Key
  info : KeyInfo
  storeProvisionedIdentity : Outcome String Unit
  restoreIdentityToHandleStore : Option Bool
  storeMasterSeedPhrase : Outcome String Unit

/-- `toLowerCase().trim().split(/\s+/).filter(Boolean)` -/
def normalized (seedPhrase : String) : List String := words (toLowerCase seedPhrase)

structure Recovered where
  payload : RecoverPayload := {}
  responseOk : Bool := false
  responseStatus : Int := 0

def readRecoverResponse (response : Response RecoverPayload) : Recovered where
  payload := match response.json with
    | .ok payload => payload
    | .error _ => { message := truthy (some response.body) }
  responseOk := response.ok
  responseStatus := response.status

/-- A request that fails counts as no answer. -/
def callServerSeedRecover (o : RecoverOutcome Key) : Service Key Json Recovered :=
  tryCatch (do
    let response ← answer o.recover
    pure (readRecoverResponse response)) fun _ => pure {}

def isRecoverNotFound (payload : RecoverPayload) (status : Int) : Bool :=
  status = 404 || includes (toLowerCase (payload.message.getD "")) "not found" ||
    includes (toLowerCase (payload.error.getD "")) "not found"

def reactToRecoverResponse (r : Recovered) (o : RecoverOutcome Key) : Service Key Json Unit :=
  if r.responseOk && (truthy r.payload.session_token).isSome then ignoring (answer o.setSessionToken)
  else if r.responseStatus = 0 || r.responseOk then pure ()
  else if isRecoverNotFound r.payload r.responseStatus then do
    setLastSeedRecoveryNotFound true
    throw "MIGRATION_REQUIRED"
  else throw ((truthy r.payload.message).getD ("HTTP " ++ toString r.responseStatus ++ ": Recovery failed"))

/-- The DID of the keys, or else that of the server. -/
def recoveredDid (restored : Did) (server : Option ServerIdentity) : Option Did :=
  truthy (some restored) <|> server.bind fun i => i.did

/-- `stripDidPrefix(identityDid) ?? serverIdentityId` -/
def recoveredId (identityDid : Option Did) (server : Option ServerIdentity) : Option String :=
  truthy ((truthy identityDid).map stripDidPrefix <|> server.bind fun i => i.identity_id)

/-- The part up to the keys of the phrase, with what the server says of the identity. -/
def restoreKey (seedPhrase : String) (o : RecoverOutcome Key) :
    Service Key Json (Key × Option ServerIdentity) := do
  setLastSeedRecoveryNotFound false
  if (normalized seedPhrase).length ≠ 24 then throw "Recovery phrase must be 24 words"
  else do
    let recovered ← callServerSeedRecover o
    reactToRecoverResponse recovered o
    let restored ← newKey C o.restoreIdentityFromPhrase
    pure (restored, if recovered.responseOk then recovered.payload.identity else none)

/-- The part after an id is found. A DID that is missing is an empty one to the native module. -/
def keepRecovered (seedPhrase : String) (identityDid : Option Did) (server : Option ServerIdentity)
    (o : RecoverOutcome Key) (identityId : String) : Service Key Json Identity := do
  ignoring (storeProvisionedIdentity C identityId (identityDid.getD "") o.storeProvisionedIdentity)
  ignoring (restoreIdentityToHandleStore C identityId o.restoreIdentityToHandleStore)
  let identity : Identity :=
    { did := identityDid.getD ""
      displayName := (truthy (server.bind fun i => i.display_name)).getD "Recovered Identity"
      identityId := some identityId
      identityType := .human
      deviceId := some o.info.deviceId
      createdAt := some (.number o.info.createdAt)
      masterSeedPhrase := some (" ".intercalate (normalized seedPhrase)) }
  storeIdentity identity o.storeMasterSeedPhrase
  pure identity

def recoverWithSeed (seedPhrase : String) (o : RecoverOutcome Key) : Service Key Json Identity := do
  let (restored, server) ← restoreKey C seedPhrase o
  let identityDid := recoveredDid (C.did restored) server
  match recoveredId identityDid server with
  | none => throw "Recovery failed: missing identity id"
  | some identityId => keepRecovered C seedPhrase identityDid server o identityId

/-! ### `migrateIdentityFromSeed` -/

structure MigratePayload where
  status : Option String := none
  status_message : Option String := none
  message : Option String := none
  new_did : Option Did := none
  did : Option Did := none

structure MigrateOutcome (Key : Type) where
  restoreIdentityFromPhrase : Outcome String Key
  publicDilithium : String
  info : KeyInfo
  signMessageFromSeed : Outcome String Unit
  migrate : Outcome String (Response MigratePayload)
  cleanKeystoreDirectory : Outcome String Unit
  removeItem : Outcome String Unit
  clearIdentity : Outcome String Unit
  clearLoginCredentials : Outcome String Unit
  clearSeedPhrase : Outcome String Unit
  restoreAfterCleanup : Outcome String Key
  storeProvisionedIdentity : Outcome String Unit
  restoreIdentityToHandleStore : Option Bool

structure MigrationResult where
  identity : Identity
  newSeedPhrase : List String

/-- What the migration has come to when the server has answered. -/
structure Migration where
  serverDid : Did
  alreadyMigrated : Bool
deriving DecidableEq

def Migration.newIdentityId (m : Migration) : String := stripDidPrefix m.serverDid

def readMigrateResponse (restoredDid : Did) (response : Response MigratePayload) : Except String Migration :=
  let payload := match response.json with
    | .ok payload => payload
    | .error _ => { message := truthy (some response.body) }
  let statusMessage := toLowerCase ((truthy payload.status_message <|> payload.message).getD "")
  let alreadyMigrated := toLowerCase (payload.status.getD "") = "conflict" ||
    includes statusMessage "already registered"
  if !response.ok && !alreadyMigrated then
    .error ((truthy payload.message).getD ("HTTP " ++ toString response.status ++ ": Migration failed"))
  else
    .ok { serverDid := if alreadyMigrated then restoredDid
            else (truthy payload.new_did <|> truthy payload.did).getD restoredDid
          alreadyMigrated }

/-- The part up to the server's answer. -/
def requestMigration (displayName seedPhrase : String) (o : MigrateOutcome Key) :
    Service Key Json Migration := do
  if trim displayName = "" then throw "Display name is required"
  else if (normalized seedPhrase).length ≠ 24 then throw "Recovery phrase must be 24 words"
  else do
    let restored ← newKey C o.restoreIdentityFromPhrase
    if C.did restored = "" then throw "Failed to restore identity from seed"
    else if o.publicDilithium = "" then throw "Missing public key from restored identity"
    else do
      answer o.signMessageFromSeed
      let migrateResponse ← answer o.migrate
      answer (some (readMigrateResponse (C.did restored) migrateResponse))

def cleanAllIdentities (o : MigrateOutcome Key) : Service Key Json Unit := do
  cleanKeystoreDirectory o.cleanKeystoreDirectory
  answer o.removeItem
  ignoring (answer o.clearIdentity)
  ignoring (answer o.clearLoginCredentials)

def wipeUnless (alreadyMigrated : Bool) (o : MigrateOutcome Key) : Service Key Json Unit :=
  if alreadyMigrated then pure ()
  else do
    cleanAllIdentities o
    answer o.clearSeedPhrase

def storeMigrated (m : Migration) (o : MigrateOutcome Key) : Service Key Json Unit :=
  if m.alreadyMigrated then
    storeProvisionedIdentity C m.newIdentityId m.serverDid o.storeProvisionedIdentity
  else do
    let restoredAfterCleanup ← newKey C o.restoreAfterCleanup
    storeProvisionedIdentity C m.newIdentityId (orElse (C.did restoredAfterCleanup) m.serverDid)
      o.storeProvisionedIdentity

def migrateIdentityFromSeed (displayName seedPhrase : String) (o : MigrateOutcome Key) :
    Service Key Json MigrationResult := do
  let m ← requestMigration C displayName seedPhrase o
  wipeUnless m.alreadyMigrated o
  ignoring (storeMigrated C m o)
  ignoring (restoreIdentityToHandleStore C m.newIdentityId o.restoreIdentityToHandleStore)
  let identity : Identity :=
    { did := m.serverDid
      identityId := some m.newIdentityId
      displayName
      identityType := .human
      deviceId := some o.info.deviceId
      createdAt := some (.number o.info.createdAt)
      masterSeedPhrase := some (" ".intercalate (normalized seedPhrase)) }
  pure { identity, newSeedPhrase := normalized seedPhrase }

end ProvisionedKeys
