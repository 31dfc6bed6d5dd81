import SovereignMobile.Auth.Machine

/-! # The storage services

`SecureIdentityStorage.ts`, `LobbySessionStore.ts` and `IdentityCleanup.ts`. The access control that
a Keychain entry is written with is left out. -/

namespace Auth

open EventLoop

namespace SecureIdentityStorage

def setIdentity (identity : Identity) : Prog Unit :=
  if identity.did = "" then fail "Invalid identity: missing required fields"
  else
    rescue (do
      let identityData := identity.stringify
      write (.keychain (some identityData))
      write (.backup (some identityData))
      write (.cachedDid (some identity.did)))
    fun _ => fail "Failed to store identity in secure storage"

def restoreFromBackup : Prog (Option Identity) :=
  rescue (do
    let backup ← await .readBackup
    pure (backup.map StoredIdentity.parse))
  fun _ => pure none

/-- The messages with which the Keychain says that it cannot decrypt any more. -/
def decryptionFailed (message : String) : Bool :=
  includes message "Decryption failed" ||
    includes message "Authentication tag verification failed" ||
    includes message "Signature/MAC verification failed"

/-- The Keychain was reset: the backup is read, and stored again for the next time. -/
def restoreAfterReset : Prog (Option Identity) := do
  match ← restoreFromBackup with
  | some backup => do
    ignoring (setIdentity backup)
    pure (some backup)
  | none => pure none

def getIdentity : Prog (Option Identity) :=
  rescue (do
    match ← await .readKeychain with
    | none => restoreFromBackup
    | some credentials => pure (some credentials.parse))
  fun message =>
    if includes message "cancelled" then pure none
    else if decryptionFailed message then restoreAfterReset
    else pure none

def clearIdentity : Prog Unit := do
  write (.keychain none)
  write (.backup none)
  write (.cachedDid none)

def getCachedDidOnly : Prog (Option Did) :=
  rescue (await .readCachedDid) fun _ => pure none

def getIdentityId : Prog (Option Did) := do
  let cachedDid ← getCachedDidOnly
  pure (cachedDid.filter fun did => did ≠ "")

/-- `getIdentityIfAvailable(suppressBiometric)` -/
def getIdentityIfAvailable (suppressBiometric : Bool) : Prog (Option Identity) :=
  if suppressBiometric then restoreFromBackup else getIdentity

def syncBackup (identity : Identity) : Prog Unit :=
  ignoring (write (.backup (some identity.stringify)))

def saveLoginCredentials (did : Did) (password : Password) : Prog Unit :=
  rescue (write (.credentials (some (did, password))))
    fun _ => fail "Failed to save login credentials"

def getLoginCredentials : Prog (Option (Did × Password)) :=
  rescue (await .readCredentials) fun _ => pure none

def clearLoginCredentials : Prog Unit := ignoring (write (.credentials none))

end SecureIdentityStorage

/-! ## The OPAQUE session -/

def loadLobbySession : Prog (Option LobbySession) :=
  rescue (do
    let session ← await .readLobbySession
    pure (session.filter fun x => x.sessionToken ≠ "" && x.sessionKeyB64 ≠ ""))
  fun _ => pure none

def saveLobbySession (session : LobbySession) : Prog Unit := write (.lobbySession (some session))

def clearLobbySession : Prog Unit := ignoring (write (.lobbySession none))

/-! ## Cleanup -/

namespace IdentityCleanup

def cleanAllIdentities : Prog Unit := do
  await .cleanKeystoreDirectory
  write (.cachedDid none)
  ignoring SecureIdentityStorage.clearIdentity
  SecureIdentityStorage.clearLoginCredentials

def cleanSpecificIdentity (identityId : String) : Prog Unit :=
  if identityId = "" then fail "Identity ID is required"
  else do
    await (.cleanKeystoreDirectoryForId identityId)
    match ← await .readCachedDid with
    | some did => if includes did identityId then write (.cachedDid none) else pure ()
    | none => pure ()

end IdentityCleanup

end Auth
