import SovereignMobile.Auth.Service

/-! # The operations of the auth context

`AuthContext.tsx` over the real service. Left out: the publication of the Kyber key, which nobody waits
for and which touches none of this, and the effects of React that follow `currentIdentity`. A callback
reads `currentIdentity` as it is when it is called. -/

namespace Auth

open EventLoop
open SecureIdentityStorage (setIdentity)

/-! ## What the operations share -/

/-- `setRestoreWarning` after the lib-client handle was restored. -/
def warnAbout : HandleStatus → Prog Unit
  | .restored => op (.setRestoreWarning none)
  | .skipped reason error =>
    let detail := match truthy error with
      | some text => s!" ({text})"
      | none => ""
    op (.setRestoreWarning (some s!"Handle store restore skipped: {reason}{detail}"))
  | .other => pure ()

def restoreHandle (identity : Identity) : Prog Unit :=
  match truthy identity.identityId with
  | none => pure ()
  | some identityId =>
    rescue (do
      let result ← await (.restoreIdentityToHandleStore identityId)
      warnAbout result)
    fun _ => op (.setRestoreWarning (some "Handle store restore failed"))

/-- The same where a failure is only logged. -/
def reloadHandle (identity : Identity) : Prog Unit :=
  match truthy identity.identityId with
  | none => pure ()
  | some identityId => ignoring (do let _ ← await (.restoreIdentityToHandleStore identityId))

/-- The names of the chain's record: a display name replaces the local one if it is not empty, the
    username does in any case. -/
def Identity.named (identity : Identity) (record : IdentityRecord) : Identity :=
  { identity with
    displayName := (truthy record.displayName).getD identity.displayName
    username := record.username }

def hydrateIdentityFromChain (identity : Identity) : Prog Identity :=
  if identity.did = "" then pure identity
  else do
    match ← fetchIdentityRecord identity.did with
    | none => pure identity
    | some record =>
      let next := identity.named record
      if next = identity then pure identity
      else do
        ignoring (SecureIdentityStorage.setIdentity next)
        pure next

/-- Hydrate `identity`, and show the result if it is another one. -/
def applyHydration (identity : Identity) : Prog Identity := do
  let hydrated ← hydrateIdentityFromChain identity
  if hydrated = identity then pure identity
  else do
    op (.setHydrated identity hydrated)
    pure hydrated

def setMigrationRequiredFlag (reason : String) : Prog Unit := do
  op (.setMigrationRequired true)
  write (.migrationRequired (some "1"))
  if reason = "" then pure () else write (.migrationReason (some reason))

def clearMigrationRequiredFlag : Prog Unit := do
  op (.setMigrationRequired false)
  write (.migrationRequired none)
  write (.migrationReason none)

/-- `setError(null); setIsLoading(true); try { m } catch (e) { setError(e.message || text); throw e }
    finally { setIsLoading(false) }` -/
def loading {α : Type} (text : String) (m : Prog α) : Prog α := do
  op (.setError none)
  op (.setIsLoading true)
  finallyDo (onError m fun message => op (.setError (some (orElse message text))))
    (op (.setIsLoading false))

/-! ## Bootstrap -/

def restoreLobbySession : Prog Unit := do
  match ← loadLobbySession with
  | some lobby => op (.setLobbySession (some lobby))
  | none => pure ()

/-- The restored identity is shown, unless its DID is malformed; the chain's names follow, and nobody
    waits for them. -/
def showRestored (identity : Identity) : Prog Unit :=
  if !isValidDid identity.did then do
    ignoring SecureIdentityStorage.clearIdentity
    op (.setCurrentIdentity none)
  else do
    op (.setCurrentIdentity (some identity))
    reloadHandle identity
    Async.spawn (M := machine) (applyHydration identity)

def restoreIdentity : Prog Unit :=
  finallyDo (rescue (do
    match truthy (← await .readMigrationRequired) with
    | some _ => do
      op (.setMigrationRequired true)
      IdentityCleanup.cleanAllIdentities
      op (.setCurrentIdentity none)
    | none => do
      restoreLobbySession
      match ← SecureIdentityStorage.getIdentityIfAvailable true with
      | none => pure ()
      | some identity => showRestored identity)
    fun _ => pure ())
  (op (.setIsBootstrapping false))

/-! ## Sign-in, creation, recovery -/

/-- Somebody who is let through is at the auth service from here on. -/
def signIn (identityId : String) (password : Password) : Prog Identity := do
  op (.setError none)
  op (.setIsLoading true)
  finallyDo
    (onError (do
      let normalizedIdentityId := trim identityId
      let s ← getState
      let rateLimitStatus := (RateLimiter.isBlocked s.now (s.attempts normalizedIdentityId)).1
      op (.isBlocked normalizedIdentityId)
      if rateLimitStatus.blocked then do
        let errorMessage := rateLimitStatus.reason.getD "Too many login attempts. Please try again later."
        op (.setError (some errorMessage))
        fail errorMessage
      else do
        let identity ← RealAuthService.signIn ⟨normalizedIdentityId, password⟩
        op (.clearAttempts normalizedIdentityId)
        SecureIdentityStorage.setIdentity identity
        op (.setCurrentIdentity (some identity))
        restoreHandle identity
        applyHydration identity)
    fun message => do
      op (.recordAttempt (trim identityId))
      op (.setError (some (orElse message "Sign in failed"))))
    (op (.setIsLoading false))

def createIdentity (data : CreateIdentityData) : Prog Identity :=
  loading "Identity creation failed" do
    let identity ← RealAuthService.createIdentity data
    op (.stashPassword identity.did data.password)
    pure identity

/-- The service of the recovery method. -/
def recoverBy (method data : String) : Prog Identity :=
  if method = "seed" then RealAuthService.recoverWithSeed data
  else if method = "backup" then
    let parts := data.splitOn "|||"
    RealAuthService.recoverWithBackup (parts.headD "") parts[1]?
  else if method = "social" then RealAuthService.recoverWithSocial data
  else fail "Unknown recovery method"

def recoverIdentity (method data : String) : Prog Identity := do
  op (.setError none)
  op (.setIsLoading true)
  finallyDo
    (onError (do
      let identity ← recoverBy method data
      let s ← getState
      if method = "seed" && s.lastSeedRecoveryNotFound then do
        setMigrationRequiredFlag "seed_recovery_not_found"
        op (.setCurrentIdentity none)
        fail "MIGRATION_REQUIRED"
      else do
        SecureIdentityStorage.setIdentity identity
        op (.setCurrentIdentity (some identity))
        restoreHandle identity
        applyHydration identity)
    fun message =>
      let message := orElse message "Identity recovery failed"
      if includes message "MIGRATION_REQUIRED" then do
        setMigrationRequiredFlag "seed_recovery_not_found"
        op (.setCurrentIdentity none)
        op (.setError none)
      else op (.setError (some message)))
    (op (.setIsLoading false))

/-- The password of `pendingPasswordRef` is saved for `did`, and forgotten. -/
def savePendingPassword (did : Did) : Prog Unit := do
  let s ← getState
  match truthy s.pendingPassword with
  | none => pure ()
  | some password =>
    if isLoginDid did then do
      op (.saveLoginCredentials did)
      SecureIdentityStorage.saveLoginCredentials did password
      op .clearPendingPassword
    else pure ()

def setIdentity (identity : Identity) : Prog Unit :=
  onError (do
    SecureIdentityStorage.setIdentity identity
    savePendingPassword identity.did
    op (.setCurrentIdentity (some identity))
    restoreHandle identity
    let _ ← applyHydration identity
    pure ())
  fun message => op (.setError (some (orElse message "Failed to set identity")))

def migrateIdentityFromSeed (displayName seedPhrase : String) : Prog (Identity × List String) :=
  loading "Migration failed" do
    let result ← RealAuthService.migrateIdentityFromSeed displayName seedPhrase
    SecureIdentityStorage.setIdentity result.1
    clearMigrationRequiredFlag
    pure result

/-! ## The current identity -/

def updateProfile (displayName : String) (avatar : Option String) : Prog Unit := do
  let s ← getState
  match s.currentIdentity with
  | none => op (.setError (some "No identity to update"))
  | some currentIdentity =>
    loading "Failed to update profile" do
      let updatedIdentity :=
        { currentIdentity with
          displayName := displayName
          avatar := truthy avatar <|> currentIdentity.avatar }
      SecureIdentityStorage.setIdentity updatedIdentity
      op (.setCurrentIdentity (some updatedIdentity))

/-- Nothing is done with the passphrase. -/
def updatePassphrase (_newPassphrase : String) : Prog Unit := do
  let s ← getState
  match s.currentIdentity with
  | none => op (.setError (some "No identity to update"))
  | some currentIdentity =>
    loading "Failed to update passphrase" do
      write (.zhtpIdentity (some currentIdentity.stringify))
      op (.setCurrentIdentity (some currentIdentity))

/-- The identity is stored again; what differs is the access control of its Keychain entry. -/
def updateBiometric (_enabled : Bool) : Prog Unit := do
  let s ← getState
  match s.currentIdentity with
  | none => op (.setError (some "No identity to update"))
  | some currentIdentity =>
    loading "Failed to update biometric setting" do
      SecureIdentityStorage.setIdentity currentIdentity
      op (.setCurrentIdentity (some currentIdentity))

def claimUsername (username : String) : Prog Unit := do
  let s ← getState
  match s.currentIdentity with
  | none => fail "No signed-in identity"
  | some identity => do
    let result ← await (.claimUsername username)
    let next := { identity with username := some result, displayName := result }
    ignoring (SecureIdentityStorage.setIdentity next)
    op (.setCurrentIdentity (some next))

def signOut : Prog Unit := do
  op (.setError none)
  op (.setRestoreWarning none)
  op (.setIsLoading true)
  finallyDo
    (onError (do
      SecureIdentityStorage.clearIdentity
      op (.setCurrentIdentity none)
      clearLobbySession
      op (.setLobbySession none))
    fun message => op (.setError (some (orElse message "Sign out failed"))))
    (op (.setIsLoading false))

def forceCleanupAndSignOut (reason : Option String) : Prog Unit := do
  op (.setError none)
  op (.setRestoreWarning none)
  op (.setIsLoading true)
  finallyDo
    (onError (do
      setMigrationRequiredFlag (reason.getD "")
      IdentityCleanup.cleanAllIdentities
      op (.setCurrentIdentity none))
    fun message => op (.setError (some (orElse message "Cleanup failed"))))
    (op (.setIsLoading false))

/-! ## OPAQUE accounts -/

def adoptLobbySession (session : LobbySession) : Prog Unit := do
  saveLobbySession session
  op (.setLobbySession (some session))

def loadLocalWallet (did : Did) (username : String) : Prog (Option Identity) := do
  match ← rescue (await (.getLocalIdentity did)) fun _ => pure none with
  | none => pure none
  | some found =>
    if found.identityId = "" || found.did = "" then pure none
    else
      pure (some
        { did := found.did
          identityId := some found.identityId
          displayName := username
          identityType := found.identityType.getD .human
          createdAt := found.createdAt
          deviceId := found.deviceId })

/-- Undo what a registration has done, if `createIdentity` ran. -/
def rollBack : Option Identity → Prog Unit
  | none => pure ()
  | some createdIdentity => do
    op (.bindQuicIdentity none)
    ignoring SecureIdentityStorage.clearIdentity
    ignoring SecureIdentityStorage.clearLoginCredentials
    match truthy createdIdentity.identityId with
    | some identityId => ignoring (IdentityCleanup.cleanSpecificIdentity identityId)
    | none => pure ()

/-- The catch block of a registration. -/
def registrationFailed {α : Type} (handle : RegisterHandle) (createdIdentity : Option Identity)
    (message : String) : Prog α := do
  ignoring (await (.opaqueRegisterCancel handle))
  rollBack createdIdentity
  op (.setError (some (orElse message "Registration failed")))
  fail message

/-- What a registration does once the wallet identity is there. -/
def registerWallet (handle : RegisterHandle) (username : String) (password : Password)
    (identity : Identity) : Prog Unit := do
  SecureIdentityStorage.setIdentity identity
  op (.bindQuicIdentity (some identity.did))
  reloadHandle identity
  await (.opaqueRegisterComplete handle password identity.did)
  let session ← await (.opaqueLogin username password)
  adoptLobbySession session
  ignoring (do let _ ← await (.claimUsername username))

/-- The name that a registration reserves. -/
def registeredUsername (displayName : String) : String :=
  String.ofList (underscoreSpaces false (toLowerCase (trim displayName)).toList)

def registerAccount (displayName : String) (password : Password) (identityType : String) :
    Prog (Identity × List String) := do
  op (.setError none)
  op (.setIsLoading true)
  let username := registeredUsername displayName
  let handle ← await (.opaqueRegisterBegin username password)
  finallyDo
    (Async.settle (createIdentity ⟨trim displayName, password, identityType⟩) fun
      | .error message => registrationFailed handle none message
      | .ok identity =>
        rescue (do
          registerWallet handle username password identity
          pure (identity, words (identity.masterSeedPhrase.getD "")))
        fun message => registrationFailed handle (some identity) message)
    (op (.setIsLoading false))

/-- Sign in normally, once the username and the password are known to be right. -/
def opaqueSignIn (normalized : String) (password : Password) : Prog (Option Identity) := do
  let session ← await (.opaqueLogin normalized password)
  adoptLobbySession session
  match ← loadLocalWallet session.did session.username with
  | none => pure none
  | some identity => do
    setIdentity identity
    pure (some identity)

def passwordSignIn (username : String) (password : Password) : Prog (Option Identity) :=
  loading "Sign-in failed" (opaqueSignIn (toLowerCase (trim username)) password)

def upgradeLegacyAccount (username : String) (password : Password) : Prog (Option Identity) :=
  loading "Account upgrade failed" do
    match ← SecureIdentityStorage.getIdentityId with
    | none => fail "Restore your wallet on this device before upgrading this account."
    | some did => do
      let normalized := toLowerCase (trim username)
      let handle ← await (.opaqueRegisterBegin normalized password)
      onError (await (.opaqueRegisterComplete handle password did))
        fun _ => ignoring (await (.opaqueRegisterCancel handle))
      opaqueSignIn normalized password

/-! ## The operations -/

inductive Command where
  | bootstrap
  | signIn (identityId : String) (password : Password)
  | createIdentity (data : CreateIdentityData)
  | recoverIdentity (method data : String)
  | setIdentity (identity : Identity)
  | migrateIdentityFromSeed (displayName seedPhrase : String)
  | updateProfile (displayName : String) (avatar : Option String)
  | claimUsername (username : String)
  | signOut
  | registerAccount (displayName : String) (password : Password) (identityType : String)
  | passwordSignIn (username : String) (password : Password)
  | upgradeLegacyAccount (username : String) (password : Password)
  | wait (ms : Nat)

/-- Run `m`, and note how it ends. -/
def noting {α : Type} (m : Prog α) (ended : α → Outcome) : Prog Unit :=
  Async.settle m fun r => op (.settled (match r with
    | .ok a => ended a
    | .error message => .rejected message))

def signedInAs : Option Identity → Outcome
  | some identity => .signedIn identity.did
  | none => .returned

def Command.body : Command → Prog Unit
  | .bootstrap => noting restoreIdentity fun _ => .returned
  | .signIn identityId password => noting (Auth.signIn identityId password) fun i => .signedIn i.did
  | .createIdentity data => noting (Auth.createIdentity data) fun _ => .returned
  | .recoverIdentity method data =>
    noting (Auth.recoverIdentity method data) fun i => .signedIn i.did
  | .setIdentity identity => noting (Auth.setIdentity identity) fun _ => .signedIn identity.did
  | .migrateIdentityFromSeed displayName seedPhrase =>
    noting (Auth.migrateIdentityFromSeed displayName seedPhrase) fun _ => .returned
  | .updateProfile displayName avatar =>
    noting (Auth.updateProfile displayName avatar) fun _ => .returned
  | .claimUsername username => noting (Auth.claimUsername username) fun _ => .returned
  | .signOut => noting Auth.signOut fun _ => .signedOut
  | .registerAccount displayName password identityType =>
    noting (Auth.registerAccount displayName password identityType) fun _ => .returned
  | .passwordSignIn username password => noting (Auth.passwordSignIn username password) signedInAs
  | .upgradeLegacyAccount username password =>
    noting (Auth.upgradeLegacyAccount username password) signedInAs
  | .wait ms => op (.advance ms)

def program (c : Command) : Task machine := c.body.toTask

end Auth
