import SovereignMobile.Auth.Storage

/-! # The authentication service

`RealAuthService.ts`, on a device. A recovery is one call: what it asks the server and the native module
on the way changes none of the stores that are modelled here. So is the part of a migration up to the
server's answer. The chain binding that a registration saves, without failing for it, is left out. -/

namespace Auth

open EventLoop

structure SignInCredentials where
  identityId : String
  password : Password

structure CreateIdentityData where
  displayName : String
  password : Password
  identityType : String

namespace RealAuthService

def storeIdentity (identity : Identity) : Prog Unit :=
  ignoring (match truthy identity.masterSeedPhrase, truthy identity.identityId with
    | some phrase, some identityId => await (.storeMasterSeedPhrase phrase identityId)
    | _, _ => pure ())

def signIn (credentials : SignInCredentials) : Prog Identity := do
  match ← await (.getLocalIdentity credentials.identityId) with
  | none => fail "Identity not found on this device"
  | some found =>
    if found.identityId = "" || found.did = "" then fail "Identity not found on this device"
    else
      match ← SecureIdentityStorage.getLoginCredentials with
      | none => fail "No credentials stored — please recover your identity first"
      | some stored =>
        if stored.2 ≠ credentials.password then fail "Invalid password"
        else
          match ← await (.restoreIdentityToHandleStore found.identityId) with
          | .restored => do
            let identity : Identity :=
              { did := found.did
                identityId := some found.identityId
                displayName := found.did
                identityType := found.identityType.getD .human
                createdAt := found.createdAt
                deviceId := found.deviceId }
            storeIdentity identity
            pure identity
          | _ => fail "Failed to restore identity for signing"

/-- The id under which the new identity is stored, and its DID as the server has it. -/
def registeredAs (did : Did) : Registration → String × Did
  | .registered identityId serverDid => (identityId, (truthy serverDid).getD did)
  | .alreadyRegistered => (stripDidPrefix did, did)

def provisionedIdentity (data : CreateIdentityData) (generated : GeneratedIdentity)
    (identityId : String) (did : Did) (masterSeedPhrase : String) : Identity where
  did := did
  identityId := some identityId
  displayName := data.displayName
  identityType := .human
  deviceId := some generated.deviceId
  createdAt := some (.number generated.timestamp)
  masterSeedPhrase := truthy (some masterSeedPhrase)

def createIdentityDevice (data : CreateIdentityData) : Prog Identity := do
  let generated ← onFailure "Device-based key generation failed: "
    (await (.provisionIdentity data.displayName))
  onFailure "Failed to create registration proof: "
    (await (.createRegistrationProof data.displayName generated.did))
  let registration ← onFailure "Server registration failed: "
    (await (.register data.displayName generated.did))
  let (identityId, did) := registeredAs generated.did registration
  ignoring (await (.storeProvisionedIdentity identityId did))
  let masterSeedPhrase ← rescue (await (.getSeedPhraseForBackup did)) fun _ => pure ""
  restoreToHandleStore identityId
  let identity := provisionedIdentity data generated identityId did masterSeedPhrase
  storeIdentity identity
  pure identity
where
  /-- `catch (e) { throw new Error(text + e.message) }` -/
  onFailure {α : Type} (text : String) (m : Prog α) : Prog α :=
    rescue m fun message => fail (text ++ message)
  restoreToHandleStore (identityId : String) : Prog Unit :=
    ignoring (do let _ ← await (.restoreIdentityToHandleStore identityId))

def createIdentity (data : CreateIdentityData) : Prog Identity :=
  if utf16Length data.displayName < 2 then fail "Display name must be at least 2 characters"
  else if utf16Length data.password < 8 then fail "Password must be at least 8 characters"
  else createIdentityDevice data

def recoverWithSeed (seedPhrase : String) : Prog Identity := do
  op (.setLastSeedRecoveryNotFound false)
  let identity ← await (.recoverWithSeed seedPhrase)
  storeIdentity identity
  pure identity

def recoverWithBackup (fileContent : String) (password : Option Password) : Prog Identity := do
  let identity ← await (.recoverWithBackup fileContent password)
  storeIdentity identity
  pure identity

def recoverWithSocial (guardianIds : String) : Prog Identity := do
  let identity ← await (.recoverWithSocial guardianIds)
  storeIdentity identity
  pure identity

/-- What a migration does before it stores its identity, unless the server knows it already. -/
def wipeUnless (alreadyMigrated : Bool) : Prog Unit :=
  if alreadyMigrated then pure ()
  else do
    IdentityCleanup.cleanAllIdentities
    await .clearSeedPhrase

def migrateIdentityFromSeed (displayName seedPhrase : String) : Prog (Identity × List String) :=
  if trim displayName = "" then fail "Display name is required"
  else do
    let migration ← await (.migrate displayName seedPhrase)
    let serverDid := if migration.alreadyMigrated then migration.restoredDid
      else (truthy migration.serverDid).getD migration.restoredDid
    let newIdentityId := stripDidPrefix serverDid
    wipeUnless migration.alreadyMigrated
    ignoring (await (.storeProvisionedIdentity newIdentityId serverDid))
    ignoring (do let _ ← await (.restoreIdentityToHandleStore newIdentityId))
    let identity : Identity :=
      { did := serverDid
        identityId := some newIdentityId
        displayName := displayName
        identityType := .human
        deviceId := migration.deviceId
        createdAt := migration.createdAt
        masterSeedPhrase := some (" ".intercalate migration.words) }
    pure (identity, migration.words)

end RealAuthService

/-- `fetchIdentityRecord`, which does not fail. -/
def fetchIdentityRecord (did : Did) : Prog (Option IdentityRecord) :=
  if did = "" then pure none
  else rescue (do let record ← await (.fetchIdentityRecord did); pure (some record))
    fun _ => pure none

end Auth
