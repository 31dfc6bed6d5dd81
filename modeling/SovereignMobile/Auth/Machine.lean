import SovereignMobile.Auth.RateLimiter
import SovereignMobile.EventLoop.Basic

/-! # What the identity services run against

The device (Keychain, AsyncStorage and the native wallets), the state of the auth context, and the
calls that its programs wait for. Each Keychain, AsyncStorage, native or server call is awaited, may
fail, and then leaves the stores as they were. -/

namespace Auth

open EventLoop

inductive Platform where
  | android | ios
  deriving DecidableEq

/-! ## The device -/

/-- What survives a restart. `keychain` is the entry of `SecureIdentityStorage`, `backup` and
    `cachedDid` are its two AsyncStorage keys, `wallets` the ids under which the native module has
    stored an identity. `zhtpIdentity` is a key that is only ever written. -/
structure Device where
  platform : Platform := .android
  keychain : Option StoredIdentity := none
  backup : Option StoredIdentity := none
  cachedDid : Option Did := none
  credentials : Option (Did × Password) := none
  lobbySession : Option LobbySession := none
  migrationRequired : Option String := none
  migrationReason : Option String := none
  zhtpIdentity : Option StoredIdentity := none
  wallets : List String := []

/-- A key that is set, or removed. -/
inductive Write where
  | keychain (data : Option StoredIdentity)
  | backup (data : Option StoredIdentity)
  | cachedDid (did : Option Did)
  | credentials (c : Option (Did × Password))
  | lobbySession (session : Option LobbySession)
  | migrationRequired (flag : Option String)
  | migrationReason (reason : Option String)
  | zhtpIdentity (data : Option StoredIdentity)
  deriving DecidableEq

def Write.apply (d : Device) : Write → Device
  | .keychain data => { d with keychain := data }
  | .backup data => { d with backup := data }
  | .cachedDid did => { d with cachedDid := did }
  | .credentials c => { d with credentials := c }
  | .lobbySession session => { d with lobbySession := session }
  | .migrationRequired flag => { d with migrationRequired := flag }
  | .migrationReason reason => { d with migrationReason := reason }
  | .zhtpIdentity data => { d with zhtpIdentity := data }

/-! ## Calls -/

/-- `NativeIdentityProvisioning.getLocalIdentity`, where the identity is found. -/
structure LocalIdentity where
  identityId : String
  did : Did
  identityType : Option IdentityType := none
  deviceId : Option String := none
  createdAt : Option CreatedAt := none

inductive HandleStatus where
  | restored
  | skipped (reason : String) (error : Option String)
  | other

structure GeneratedIdentity where
  did : Did
  deviceId : String
  timestamp : Int

/-- `/api/v1/identity/register`: the new identity, or 409 for one that is registered already. -/
inductive Registration where
  | registered (identityId : String) (did : Option Did)
  | alreadyRegistered

structure IdentityRecord where
  displayName : Option String := none
  username : Option String := none

structure RegisterHandle where
  stateId : String
  requestId : String
  serverMsg2B64 : String
  deriving DecidableEq

/-- The identity that a migration restored from the seed, with the server's DID, unless the server
    had migrated it before. -/
structure Migration where
  restoredDid : Did
  serverDid : Option Did := none
  alreadyMigrated : Bool := false
  deviceId : Option String := none
  createdAt : Option CreatedAt := none
  words : List String := []

inductive Call where
  | write (w : Write)
  | readKeychain
  | readBackup
  | readCachedDid
  | readCredentials
  | readLobbySession
  | readMigrationRequired
  | getLocalIdentity (identityIdOrDid : String)
  | restoreIdentityToHandleStore (identityId : String)
  | provisionIdentity (displayName : String)
  | createRegistrationProof (displayName : String) (did : Did)
  | storeProvisionedIdentity (identityId : String) (did : Did)
  | getSeedPhraseForBackup (did : Did)
  | storeMasterSeedPhrase (phrase identityId : String)
  | clearSeedPhrase
  | cleanKeystoreDirectory
  | cleanKeystoreDirectoryForId (identityId : String)
  | register (displayName : String) (did : Did)
  | fetchIdentityRecord (did : Did)
  | claimUsername (username : String)
  | opaqueRegisterBegin (username : String) (password : Password)
  | opaqueRegisterComplete (handle : RegisterHandle) (password : Password) (did : Did)
  | opaqueRegisterCancel (handle : RegisterHandle)
  | opaqueLogin (username : String) (password : Password)
  | recoverWithSeed (seedPhrase : String)
  | recoverWithBackup (fileContent : String) (password : Option Password)
  | recoverWithSocial (guardianIds : String)
  | migrate (displayName seedPhrase : String)
  deriving DecidableEq

abbrev Ret : Call → Type
  | .readKeychain | .readBackup => Option StoredIdentity
  | .readCachedDid | .readMigrationRequired => Option String
  | .readCredentials => Option (Did × Password)
  | .readLobbySession => Option LobbySession
  | .getLocalIdentity _ => Option LocalIdentity
  | .restoreIdentityToHandleStore _ => HandleStatus
  | .provisionIdentity _ => GeneratedIdentity
  | .getSeedPhraseForBackup _ => String
  | .register _ _ => Registration
  | .fetchIdentityRecord _ => IdentityRecord
  | .claimUsername _ => String
  | .opaqueRegisterBegin _ _ => RegisterHandle
  | .opaqueLogin _ _ => LobbySession
  | .recoverWithSeed _ | .recoverWithBackup _ _ | .recoverWithSocial _ => Identity
  | .migrate _ _ => Migration
  | _ => Unit

/-- What the outside world answers: a failure, or a value of the type that the call returns. -/
structure Reply where
  fails : Option String := none
  localIdentity : Option LocalIdentity := none
  handleStatus : HandleStatus := .restored
  generated : GeneratedIdentity := ⟨"", "", 0⟩
  registration : Registration := .alreadyRegistered
  text : String := ""
  record : IdentityRecord := {}
  handle : RegisterHandle := ⟨"", "", ""⟩
  session : LobbySession := ⟨"", "", "", "", "", 0⟩
  identity : Identity := { did := "", displayName := "" }
  migration : Migration := { restoredDid := "" }

/-! ## The state -/

/-- How an operation of the context ended. -/
inductive Outcome where
  | signedOut
  | signedIn (did : Did)
  | returned
  | rejected (message : String)
  deriving DecidableEq

/-- What the limiter is asked to count, and what it is meant to bound. -/
inductive SignInEvent where
  | failed (identifier : String) (time : Nat)
  | succeeded (identifier : String) (time : Nat)
  | rejectionCounted (identifier : String) (time : Nat)
  deriving DecidableEq

/-- The device, the React state of the context, its refs and the module state of the services.

    History: how each operation ended; the passwords with which identities were created, and those
    for which `saveLoginCredentials` was called; for each hydration that was applied, the identity
    that was current and the one that replaced it; the sign-ins at the auth service and what came
    of them. -/
structure State where
  device : Device := {}
  currentIdentity : Option Identity := none
  lobbySession : Option LobbySession := none
  isLoading : Bool := false
  isBootstrapping : Bool := true
  migrationRequired : Bool := false
  error : Option String := none
  restoreWarning : Option String := none
  pendingPassword : Option Password := none
  boundDid : Option Did := none
  attempts : String → Option AttemptRecord := fun _ => none
  lastSeedRecoveryNotFound : Bool := false
  now : Nat := 0
  outcomes : List (Nat × Outcome) := []
  created : List (Did × Password) := []
  saved : List (Did × Password) := []
  hydrations : List (Option Identity × Identity) := []
  atService : List (Nat × String) := []
  signIns : List SignInEvent := []

inductive Op where
  | setCurrentIdentity (identity : Option Identity)
  | setHydrated (snapshot hydrated : Identity)
  | setLobbySession (session : Option LobbySession)
  | setIsLoading (b : Bool)
  | setIsBootstrapping (b : Bool)
  | setMigrationRequired (b : Bool)
  | setError (message : Option String)
  | setRestoreWarning (message : Option String)
  | stashPassword (did : Did) (password : Password)
  | saveLoginCredentials (did : Did)
  | clearPendingPassword
  | bindQuicIdentity (did : Option Did)
  | isBlocked (identifier : String)
  | recordAttempt (identifier : String)
  | clearAttempts (identifier : String)
  | setLastSeedRecoveryNotFound (b : Bool)
  | advance (ms : Nat)
  | settled (o : Outcome)

/-- `bindIdentity` of the QUIC session manager, up to the sessions it closes. -/
def boundTo (did : Option Did) : Option Did := did.filter fun d => d ≠ ""

/-- The limiter is asked; who is let through is at the auth service. -/
def State.isBlocked (s : State) (i : Nat) (identifier : String) : State :=
  let (status, record) := RateLimiter.isBlocked s.now (s.attempts identifier)
  { s with
    attempts := Function.update s.attempts identifier record
    atService := if status.blocked then s.atService else (i, identifier) :: s.atService }

/-- An attempt is counted: one that failed at the auth service or after it, or one that never got
    there. -/
def State.recordAttempt (s : State) (i : Nat) (identifier : String) : State :=
  { s with
    attempts := Function.update s.attempts identifier
      (some (RateLimiter.recordAttempt s.now (s.attempts identifier)))
    atService := s.atService.erase (i, identifier)
    signIns := s.signIns ++
      [if (i, identifier) ∈ s.atService then .failed identifier s.now
       else .rejectionCounted identifier s.now] }

def State.clearAttempts (s : State) (identifier : String) : State :=
  { s with
    attempts := Function.update s.attempts identifier none
    signIns := s.signIns ++ [.succeeded identifier s.now] }

def apply (i : Nat) (o : Op) (s : State) : State :=
  match o with
  | .setCurrentIdentity identity => { s with currentIdentity := identity }
  | .setHydrated _ hydrated =>
    { s with
      currentIdentity := some hydrated
      hydrations := s.hydrations ++ [(s.currentIdentity, hydrated)] }
  | .setLobbySession session => { s with lobbySession := session }
  | .setIsLoading b => { s with isLoading := b }
  | .setIsBootstrapping b => { s with isBootstrapping := b }
  | .setMigrationRequired b => { s with migrationRequired := b }
  | .setError message => { s with error := message }
  | .setRestoreWarning message => { s with restoreWarning := message }
  | .stashPassword did password =>
    { s with pendingPassword := some password, created := s.created ++ [(did, password)] }
  | .saveLoginCredentials did =>
    { s with saved := s.saved ++ (s.pendingPassword.map fun password => (did, password)).toList }
  | .clearPendingPassword => { s with pendingPassword := none }
  | .bindQuicIdentity did => { s with boundDid := boundTo did }
  | .isBlocked identifier => s.isBlocked i identifier
  | .recordAttempt identifier => s.recordAttempt i identifier
  | .clearAttempts identifier => s.clearAttempts identifier
  | .setLastSeedRecoveryNotFound b => { s with lastSeedRecoveryNotFound := b }
  | .advance ms => { s with now := s.now + ms }
  | .settled o =>
    { s with
      outcomes := s.outcomes ++ [(i, o)]
      atService := s.atService.filter fun e => e.1 ≠ i }

/-- The device after a call that did not fail. -/
def Call.effect (d : Device) : Call → Device
  | .write w => w.apply d
  | .storeProvisionedIdentity identityId _ => { d with wallets := identityId :: d.wallets }
  | .cleanKeystoreDirectory => { d with wallets := [] }
  | .cleanKeystoreDirectoryForId identityId =>
    { d with wallets := d.wallets.filter fun w => w ≠ identityId }
  | _ => d

def Call.answer (d : Device) (r : Reply) : (c : Call) → Ret c
  | .readKeychain => d.keychain
  | .readBackup => d.backup
  | .readCachedDid => d.cachedDid
  | .readMigrationRequired => d.migrationRequired
  | .readCredentials => d.credentials
  | .readLobbySession => d.lobbySession
  | .getLocalIdentity _ => r.localIdentity
  | .restoreIdentityToHandleStore _ => r.handleStatus
  | .provisionIdentity _ => r.generated
  | .getSeedPhraseForBackup _ => r.text
  | .register _ _ => r.registration
  | .fetchIdentityRecord _ => r.record
  | .claimUsername _ => r.text
  | .opaqueRegisterBegin _ _ => r.handle
  | .opaqueLogin _ _ => r.session
  | .recoverWithSeed _ | .recoverWithBackup _ _ | .recoverWithSocial _ => r.identity
  | .migrate _ _ => r.migration
  | .write _ | .createRegistrationProof _ _ | .storeProvisionedIdentity _ _
  | .storeMasterSeedPhrase _ _ | .clearSeedPhrase | .cleanKeystoreDirectory
  | .cleanKeystoreDirectoryForId _ | .opaqueRegisterComplete _ _ _ | .opaqueRegisterCancel _ => ()

/-- The iOS module has no `cleanKeystoreDirectoryForId`. -/
def Call.missing (p : Platform) : Call → Option String
  | .cleanKeystoreDirectoryForId _ =>
    if p = .ios then some "cleanKeystoreDirectoryForId is not a function" else none
  | _ => none

/-- Why the call fails, if it does. -/
def Call.failure (p : Platform) (r : Reply) (c : Call) : Option String :=
  c.missing p <|> r.fails

/-- `recoverWithSeed` remembers that the server did not know the identity. -/
def Call.failed (s : State) (message : String) : Call → State
  | .recoverWithSeed _ =>
    { s with
      lastSeedRecoveryNotFound := s.lastSeedRecoveryNotFound || message = "MIGRATION_REQUIRED" }
  | _ => s

def perform (_ : Nat) (c : Call) (r : Reply) (s : State) : Option (State × Except String (Ret c)) :=
  match c.failure s.device.platform r with
  | some message => some (c.failed s message, .error message)
  | none => some ({ s with device := c.effect s.device }, .ok (c.answer s.device r))

variable {i : Nat} {c : Call} {r : Reply} {s s' : State} {o : Except String (Ret c)}

theorem perform_cases (h : perform i c r s = some (s', o)) :
    (∃ message, c.failure s.device.platform r = some message ∧ o = .error message ∧
      s' = c.failed s message) ∨
    (c.failure s.device.platform r = none ∧ o = .ok (c.answer s.device r) ∧
      s' = { s with device := c.effect s.device }) := by
  unfold perform at h
  split at h
  · rename_i message hfails
    simp only [Option.some.injEq, Prod.mk.injEq] at h
    exact .inl ⟨message, hfails, h.2.symm, h.1.symm⟩
  · rename_i hfails
    simp only [Option.some.injEq, Prod.mk.injEq] at h
    exact .inr ⟨hfails, h.2.symm, h.1.symm⟩

theorem Call.failed_eq (c : Call) (s : State) (message : String) :
    ∃ b, c.failed s message = { s with lastSeedRecoveryNotFound := b } := by
  cases c with
  | recoverWithSeed phrase => exact ⟨_, rfl⟩
  | _ => exact ⟨s.lastSeedRecoveryNotFound, rfl⟩

/-- Whether or not it fails, a call touches the device and the flag of the recovery service only. -/
theorem perform_state (h : perform i c r s = some (s', o)) :
    ∃ device b, s' = { s with device := device, lastSeedRecoveryNotFound := b } := by
  rcases perform_cases h with ⟨message, _, _, rfl⟩ | ⟨_, _, rfl⟩
  · obtain ⟨b, hb⟩ := c.failed_eq s message
    exact ⟨s.device, b, hb⟩
  · exact ⟨_, s.lastSeedRecoveryNotFound, rfl⟩

def machine : Machine where
  State := State
  Op := Op
  Call := Call
  Ret := Ret
  Err := String
  Reply := Reply
  apply := apply
  perform := perform

instance : DecidableEq machine.Call := inferInstanceAs (DecidableEq Call)

abbrev Prog (α : Type) := Async machine α

def await (c : Call) : Prog (Ret c) := Async.await (M := machine) c

def op (o : Op) : Prog Unit := Async.op (M := machine) o

def getState : Prog State := Async.get (M := machine)

def fail {α : Type} (message : String) : Prog α := Async.throw (M := machine) message

def write (w : Write) : Prog Unit := await (.write w)

/-- `try { m } catch (e) { handle }` -/
def rescue {α : Type} (m : Prog α) (handle : String → Prog α) : Prog α :=
  Async.tryCatch (M := machine) m handle

/-- `await m.catch(() => {})` -/
def ignoring (m : Prog Unit) : Prog Unit := rescue m fun _ => pure ()

/-- `try { m } catch (e) { handle; throw e }` -/
def onError {α : Type} (m : Prog α) (handle : String → Prog Unit) : Prog α :=
  rescue m fun message => do
    handle message
    fail message

/-- `try { m } finally { f }`, where `f` does not fail. -/
def finallyDo {α : Type} (m : Prog α) (f : Prog Unit) : Prog α :=
  Async.settle m fun r => do
    f
    match r with
    | .ok a => pure a
    | .error message => fail message

end Auth
