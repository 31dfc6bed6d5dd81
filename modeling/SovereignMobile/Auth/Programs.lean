import SovereignMobile.Auth.Context

/-! # What the operations of the context are made of

`Composed Ok D` says of a judgement about program fragments that it is closed under the ways to put
fragments together, that it holds of the operations and calls that leave the identity alone, and that
it holds of what stores, shows and hydrates an identity whose DID is in `D`. Such a judgement holds of
the operations that are for such an identity, and with what else touches the identity (`Unrestricted`)
of all of them. The theorems follow `Storage.lean`, `Service.lean` and `Context.lean`. -/

namespace Auth

open EventLoop

/-- A judgement about program fragments. -/
abbrev Judgement := (α : Type) → Prog α → Prop

/-- The operations that touch neither the identity nor the limiter, and end nothing. -/
def Op.Routine : Op → Prop
  | .setCurrentIdentity _ | .setHydrated _ _ => False
  | .isBlocked _ | .recordAttempt _ | .clearAttempts _ | .settled _ => False
  | _ => True

/-- The routine operations that leave the loading flag alone. -/
def Op.Steady : Op → Prop
  | .setIsLoading _ => False
  | o => o.Routine

/-- The calls that do not touch the stores of the identity. -/
def Call.Routine : Call → Prop
  | .write (.keychain _) | .write (.backup _) | .write (.cachedDid _) => False
  | _ => True

/-- Closed under the ways to put fragments together, with the operations in `Ops`. -/
structure Judgement.Sequential (Ok : Judgement) (Ops : Op → Prop) : Prop where
  pure : ∀ {α : Type} (a : α), Ok α (Pure.pure a)
  throw : ∀ {α : Type} (e : String), Ok α (Async.throw (M := machine) e)
  bind : ∀ {α β : Type} {m : Prog α} {f : α → Prog β}, Ok α m → (∀ a, Ok β (f a)) → Ok β (m >>= f)
  settle : ∀ {α β : Type} {m : Prog α} {f : Except String α → Prog β}, Ok α m → (∀ r, Ok β (f r)) →
    Ok β (Async.settle m f)
  tryCatch : ∀ {α : Type} {m : Prog α} {f : String → Prog α}, Ok α m → (∀ e, Ok α (f e)) →
    Ok α (Async.tryCatch m f)
  read : ∀ {β : Type} {f : State → Prog β}, (∀ s, Ok β (f s)) → Ok β (getState >>= f)
  op : ∀ o : Op, Ops o → Ok Unit (op o)
  await : ∀ c : Call, c.Routine → Ok (Ret c) (await c)

/-- Holds of what is done with an identity whose DID is in `D`. -/
structure Judgement.Composed (Ok : Judgement) (D : Did → Prop) : Prop extends Ok.Sequential Op.Routine where
  present : ∀ i : Identity, D i.did → Ok Unit (Auth.op (.setCurrentIdentity (some i)))
  store : ∀ i : Identity, D i.did → Ok Unit (SecureIdentityStorage.setIdentity i)
  hydrate : ∀ i : Identity, D i.did → Ok Identity (applyHydration i)

/-- Holds of what is done with any identity, and of what removes it. -/
structure Judgement.Unrestricted (Ok : Judgement) : Prop extends Ok.Composed fun _ => True where
  hide : Ok Unit (Auth.op (.setCurrentIdentity none))
  clear : Ok Unit SecureIdentityStorage.clearIdentity
  uncache : Ok Unit (write (.cachedDid none))
  spawn : ∀ {α : Type} {m : Prog α}, Ok α m → Ok Unit (Async.spawn m)

/-! ## Ways to put fragments together -/

section Steady
variable {Ok : Judgement} {α : Type}

namespace Judgement.Sequential

variable (h : Ok.Sequential Op.Steady)
include h

variable {m : Prog α} {identity : Identity}

theorem rescue {handle : String → Prog α} (hm : Ok α m) (hh : ∀ e, Ok α (handle e)) :
    Ok α (Auth.rescue m handle) := h.tryCatch hm hh

theorem ignoring {m : Prog Unit} (hm : Ok Unit m) : Ok Unit (Auth.ignoring m) :=
  h.rescue hm fun _ => h.pure ()

theorem onError {handle : String → Prog Unit} (hm : Ok α m) (hh : ∀ e, Ok Unit (handle e)) :
    Ok α (Auth.onError m handle) :=
  h.rescue hm fun e => h.bind (hh e) fun _ => h.throw e

theorem finallyDo {f : Prog Unit} (hm : Ok α m) (hf : Ok Unit f) : Ok α (Auth.finallyDo m f) := by
  refine h.settle hm fun r => h.bind hf fun _ => ?_
  cases r with
  | ok a => exact h.pure a
  | error e => exact h.throw e

theorem quiet {c : Call} (hc : c.Routine) :
    Ok Unit (Auth.ignoring (do let _ ← Auth.await c; Pure.pure ())) :=
  h.ignoring (h.bind (h.await c hc) fun _ => h.pure ())

/-! ## Storage -/

theorem storeOf
    (hwrite : ∀ w ∈ [Write.keychain (some identity.stringify), .backup (some identity.stringify),
      .cachedDid (some identity.did)], Ok Unit (write w)) :
    Ok Unit (SecureIdentityStorage.setIdentity identity) := by
  unfold SecureIdentityStorage.setIdentity
  split
  · exact h.throw _
  · exact h.rescue (h.bind (hwrite _ (by simp)) fun _ => h.bind (hwrite _ (by simp)) fun _ =>
      hwrite _ (by simp)) fun _ => h.throw _

theorem clearOf (hwrite : ∀ w ∈ [Write.keychain none, .backup none, .cachedDid none],
    Ok Unit (write w)) : Ok Unit SecureIdentityStorage.clearIdentity :=
  h.bind (hwrite _ (by simp)) fun _ => h.bind (hwrite _ (by simp)) fun _ => hwrite _ (by simp)

theorem restoreFromBackup : Ok _ SecureIdentityStorage.restoreFromBackup :=
  h.rescue (h.bind (h.await .readBackup trivial) fun _ => h.pure _) fun _ => h.pure _

theorem getIdentityId : Ok _ SecureIdentityStorage.getIdentityId :=
  h.bind (h.rescue (h.await .readCachedDid trivial) fun _ => h.pure _) fun _ => h.pure _

theorem restoreHandle (identity : Identity) : Ok Unit (Auth.restoreHandle identity) := by
  unfold Auth.restoreHandle
  split
  · exact h.pure ()
  rename_i identityId _
  refine h.rescue
    (h.bind (h.await (.restoreIdentityToHandleStore identityId) trivial) fun result => ?_)
    fun _ => h.op _ trivial
  cases result with
  | restored | skipped => exact h.op _ trivial
  | other => exact h.pure ()

theorem reloadHandle (identity : Identity) : Ok Unit (Auth.reloadHandle identity) := by
  unfold Auth.reloadHandle
  split
  · exact h.pure ()
  · rename_i identityId _
    exact h.quiet trivial

theorem fetchIdentityRecord (did : Did) : Ok _ (Auth.fetchIdentityRecord did) := by
  unfold Auth.fetchIdentityRecord
  split
  · exact h.pure _
  · exact h.rescue (h.bind (h.await (.fetchIdentityRecord did) trivial) fun _ => h.pure _)
      fun _ => h.pure _

/-- A hydration, if it does not matter which identity is stored and shown. -/
theorem applyHydration (hstore : ∀ i, Ok Unit (SecureIdentityStorage.setIdentity i))
    (happly : ∀ snapshot hydrated, Ok Unit (Auth.op (.setHydrated snapshot hydrated)))
    (identity : Identity) : Ok _ (Auth.applyHydration identity) := by
  refine h.bind ?_ fun hydrated => ?_
  · unfold hydrateIdentityFromChain
    split
    · exact h.pure _
    refine h.bind (h.fetchIdentityRecord _) fun record => ?_
    cases record with
    | none => exact h.pure _
    | some record =>
      dsimp only
      split
      · exact h.pure _
      · exact h.bind (h.ignoring (hstore _)) fun _ => h.pure _
  · split
    · exact h.pure _
    · exact h.bind (happly _ _) fun _ => h.pure _

theorem setMigrationRequiredFlag (reason : String) : Ok Unit (Auth.setMigrationRequiredFlag reason) := by
  refine h.bind (h.op _ trivial) fun _ => ?_
  refine h.bind (h.await (.write (.migrationRequired _)) trivial) fun _ => ?_
  split
  · exact h.pure ()
  · exact h.await (.write (.migrationReason _)) trivial

theorem adoptLobbySession (session : LobbySession) : Ok Unit (Auth.adoptLobbySession session) :=
  h.bind (h.await (.write (.lobbySession _)) trivial) fun _ => h.op _ trivial

/-! ## The service -/

theorem storeIdentity (identity : Identity) : Ok Unit (RealAuthService.storeIdentity identity) := by
  refine h.ignoring ?_
  split
  · rename_i phrase identityId _ _
    exact h.await (.storeMasterSeedPhrase phrase identityId) trivial
  · exact h.pure ()

theorem serviceSignIn (credentials : SignInCredentials) : Ok _ (RealAuthService.signIn credentials) := by
  refine h.bind (h.await (.getLocalIdentity _) trivial) fun found => ?_
  cases found with
  | none => exact h.throw _
  | some found =>
    dsimp only
    split
    · exact h.throw _
    refine h.bind (h.rescue (h.await .readCredentials trivial) fun _ => h.pure _) fun stored => ?_
    cases stored with
    | none => exact h.throw _
    | some stored =>
      dsimp only
      split
      · exact h.throw _
      refine h.bind (h.await (.restoreIdentityToHandleStore _) trivial) fun status => ?_
      cases status with
      | restored => exact h.bind (h.storeIdentity _) fun _ => h.pure _
      | skipped | other => exact h.throw _

theorem createIdentityDevice (data : CreateIdentityData) :
    Ok _ (RealAuthService.createIdentityDevice data) := by
  have honFailure : ∀ {α : Type} text m, Ok α m →
      Ok α (RealAuthService.createIdentityDevice.onFailure text m) :=
    fun _ _ hm => h.rescue hm fun _ => h.throw _
  refine h.bind (honFailure _ _ (h.await (.provisionIdentity _) trivial)) fun generated => ?_
  refine h.bind (honFailure _ _ (h.await (.createRegistrationProof _ _) trivial)) fun _ => ?_
  refine h.bind (honFailure _ _ (h.await (.register _ _) trivial)) fun registration => ?_
  dsimp only
  refine h.bind (h.ignoring (h.await (.storeProvisionedIdentity _ _) trivial)) fun _ => ?_
  refine h.bind (h.rescue (h.await (.getSeedPhraseForBackup _) trivial) fun _ => h.pure _)
    fun phrase => ?_
  refine h.bind (h.quiet trivial) fun _ => ?_
  exact h.bind (h.storeIdentity _) fun _ => h.pure _

theorem serviceCreateIdentity (data : CreateIdentityData) :
    Ok _ (RealAuthService.createIdentity data) := by
  unfold RealAuthService.createIdentity
  split
  · exact h.throw _
  split
  · exact h.throw _
  · exact h.createIdentityDevice data

theorem created (data : CreateIdentityData) : Ok Identity (do
    let identity ← RealAuthService.createIdentity data
    Auth.op (.stashPassword identity.did data.password)
    Pure.pure identity) :=
  h.bind (h.serviceCreateIdentity data) fun _ => h.bind (h.op _ trivial) fun _ => h.pure _

theorem recoverBy (method data : String) : Ok _ (Auth.recoverBy method data) := by
  have hstore : ∀ c : Prog Identity, Ok _ c → Ok _ (do
      let identity ← c
      RealAuthService.storeIdentity identity
      Pure.pure identity) :=
    fun c hc => h.bind hc fun identity => h.bind (h.storeIdentity identity) fun _ => h.pure _
  unfold Auth.recoverBy
  split
  · exact h.bind (h.op _ trivial) fun _ => hstore _ (h.await (.recoverWithSeed _) trivial)
  split
  · exact hstore _ (h.await (.recoverWithBackup _ _) trivial)
  split
  · exact hstore _ (h.await (.recoverWithSocial _) trivial)
  · exact h.throw _

theorem loadLocalWallet (did : Did) (username : String) : Ok _ (Auth.loadLocalWallet did username) := by
  refine h.bind (h.rescue (h.await (.getLocalIdentity did) trivial) fun _ => h.pure _) fun found => ?_
  cases found with
  | none => exact h.pure _
  | some found =>
    dsimp only
    split <;> exact h.pure _

theorem savePendingPassword (did : Did) : Ok Unit (Auth.savePendingPassword did) := by
  refine h.read fun s => ?_
  split
  · exact h.pure ()
  split
  · refine h.bind (h.op _ trivial) fun _ => h.bind ?_ fun _ => h.op _ trivial
    exact h.rescue (h.await (.write (.credentials _)) trivial) fun _ => h.throw _
  · exact h.pure ()

/-! ## What is done with the identity -/

theorem adopt (hstore : Ok Unit (SecureIdentityStorage.setIdentity identity))
    (hpresent : Ok Unit (Auth.op (.setCurrentIdentity (some identity))))
    (hhydrate : Ok Identity (Auth.applyHydration identity)) : Ok Identity (do
      SecureIdentityStorage.setIdentity identity
      Auth.op (.setCurrentIdentity (some identity))
      Auth.restoreHandle identity
      Auth.applyHydration identity) :=
  h.bind hstore fun _ => h.bind hpresent fun _ => h.bind (h.restoreHandle identity) fun _ => hhydrate

theorem setIdentity (hstore : Ok Unit (SecureIdentityStorage.setIdentity identity))
    (hpresent : Ok Unit (Auth.op (.setCurrentIdentity (some identity))))
    (hhydrate : Ok Identity (Auth.applyHydration identity)) :
    Ok Unit (Auth.setIdentity identity) := by
  refine h.onError ?_ fun _ => h.op _ trivial
  refine h.bind hstore fun _ => h.bind (h.savePendingPassword identity.did) fun _ => ?_
  refine h.bind hpresent fun _ => h.bind (h.restoreHandle identity) fun _ => ?_
  exact h.bind hhydrate fun _ => h.pure ()

theorem cleanAllIdentities (hclear : Ok Unit SecureIdentityStorage.clearIdentity)
    (huncache : Ok Unit (write (.cachedDid none))) : Ok Unit IdentityCleanup.cleanAllIdentities :=
  h.bind (h.await .cleanKeystoreDirectory trivial) fun _ => h.bind huncache fun _ =>
    h.bind (h.ignoring hclear) fun _ => h.ignoring (h.await (.write (.credentials _)) trivial)

theorem serviceMigrate (hclean : Ok Unit IdentityCleanup.cleanAllIdentities)
    (displayName seedPhrase : String) :
    Ok _ (RealAuthService.migrateIdentityFromSeed displayName seedPhrase) := by
  have hwipe : ∀ b, Ok Unit (RealAuthService.wipeUnless b) := by
    intro b
    cases b with
    | true => exact h.pure ()
    | false => exact h.bind hclean fun _ => h.await .clearSeedPhrase trivial
  unfold RealAuthService.migrateIdentityFromSeed
  split
  · exact h.throw _
  refine h.bind (h.await (.migrate _ _) trivial) fun migration => h.bind (hwipe _) fun _ => ?_
  refine h.bind (h.ignoring (h.await (.storeProvisionedIdentity _ _) trivial)) fun _ => ?_
  exact h.bind (h.quiet trivial) fun _ => h.pure _

theorem migrated (hclean : Ok Unit IdentityCleanup.cleanAllIdentities)
    (hstore : ∀ i, Ok Unit (SecureIdentityStorage.setIdentity i)) (displayName seedPhrase : String) :
    Ok (Identity × List String) (do
      let result ← RealAuthService.migrateIdentityFromSeed displayName seedPhrase
      SecureIdentityStorage.setIdentity result.1
      clearMigrationRequiredFlag
      Pure.pure result) := by
  refine h.bind (h.serviceMigrate hclean displayName seedPhrase) fun result => ?_
  refine h.bind (hstore _) fun _ => h.bind ?_ fun _ => h.pure _
  exact h.bind (h.op _ trivial) fun _ => h.bind (h.await (.write (.migrationRequired _)) trivial)
    fun _ => h.await (.write (.migrationReason _)) trivial

theorem signedOut (hclear : Ok Unit SecureIdentityStorage.clearIdentity)
    (hhide : Ok Unit (Auth.op (.setCurrentIdentity none))) : Ok Unit (do
      SecureIdentityStorage.clearIdentity
      Auth.op (.setCurrentIdentity none)
      clearLobbySession
      .op (.setLobbySession none)) :=
  h.bind hclear fun _ => h.bind hhide fun _ =>
    h.bind (h.ignoring (h.await (.write (.lobbySession _)) trivial)) fun _ => h.op _ trivial

theorem opaqueSignIn (hset : ∀ i, Ok Unit (Auth.setIdentity i)) (normalized : String)
    (password : Password) : Ok _ (Auth.opaqueSignIn normalized password) := by
  refine h.bind (h.await (.opaqueLogin _ _) trivial) fun session => ?_
  refine h.bind (h.adoptLobbySession session) fun _ =>
    h.bind (h.loadLocalWallet _ _) fun identity => ?_
  cases identity with
  | none => exact h.pure _
  | some identity => exact h.bind (hset identity) fun _ => h.pure _

theorem upgraded (hset : ∀ i, Ok Unit (Auth.setIdentity i)) (username : String) (password : Password) :
    Ok (Option Identity) (do
      match ← SecureIdentityStorage.getIdentityId with
      | none => fail "Restore your wallet on this device before upgrading this account."
      | some did => do
        let normalized := toLowerCase (trim username)
        let handle ← Auth.await (.opaqueRegisterBegin normalized password)
        Auth.onError (Auth.await (.opaqueRegisterComplete handle password did))
          fun _ => Auth.ignoring (Auth.await (.opaqueRegisterCancel handle))
        Auth.opaqueSignIn normalized password) := by
  refine h.bind h.getIdentityId fun did => ?_
  cases did with
  | none => exact h.throw _
  | some did =>
    refine h.bind (h.await (.opaqueRegisterBegin _ _) trivial) fun handle => h.bind ?_ fun _ =>
      h.opaqueSignIn hset _ _
    exact h.onError (h.await (.opaqueRegisterComplete _ _ _) trivial)
      fun _ => h.ignoring (h.await (.opaqueRegisterCancel _) trivial)

/-- The body of a recovery: the identity is adopted, or the identity is not there to recover. -/
theorem recovered (hhide : Ok Unit (Auth.op (.setCurrentIdentity none)))
    (hadopt : ∀ identity, Ok Identity (do
      SecureIdentityStorage.setIdentity identity
      Auth.op (.setCurrentIdentity (some identity))
      Auth.restoreHandle identity
      Auth.applyHydration identity)) (method data : String) : Ok Identity (do
      let identity ← Auth.recoverBy method data
      let s ← getState
      if method = "seed" && s.lastSeedRecoveryNotFound then do
        Auth.setMigrationRequiredFlag "seed_recovery_not_found"
        Auth.op (.setCurrentIdentity none)
        fail "MIGRATION_REQUIRED"
      else do
        SecureIdentityStorage.setIdentity identity
        Auth.op (.setCurrentIdentity (some identity))
        Auth.restoreHandle identity
        Auth.applyHydration identity) := by
  refine h.bind (h.recoverBy method data) fun identity => h.read fun s => ?_
  split
  · exact h.bind (h.setMigrationRequiredFlag _) fun _ => h.bind hhide fun _ => h.throw _
  · exact hadopt identity

theorem recoveryFailed (hhide : Ok Unit (Auth.op (.setCurrentIdentity none))) (message : String) :
    Ok Unit ( let message := orElse message "Identity recovery failed"
      if includes message "MIGRATION_REQUIRED" then do
        Auth.setMigrationRequiredFlag "seed_recovery_not_found"
        Auth.op (.setCurrentIdentity none)
        Auth.op (.setError none)
      else .op (.setError (some message))) := by
  dsimp only
  split
  · exact h.bind (h.setMigrationRequiredFlag _) fun _ => h.bind hhide fun _ => h.op _ trivial
  · exact h.op _ trivial

end Judgement.Sequential

end Steady

/-! ## With the loading flag -/

section Sequential
variable {Ok : Judgement} {α : Type}

namespace Judgement.Sequential

variable (h : Ok.Sequential Op.Routine)
include h

theorem steady : Ok.Sequential Op.Steady :=
  { h with
    op := fun o ho => h.op o (by cases o <;> first | exact ho | trivial) }

theorem loading {text : String} {m : Prog α} (hm : Ok α m) : Ok α (Auth.loading text m) := by
  refine h.bind (h.op _ trivial) fun _ => h.bind (h.op _ trivial) fun _ => ?_
  exact h.steady.finallyDo (h.steady.onError hm fun _ => h.op _ trivial) (h.op _ trivial)

theorem createIdentity (data : CreateIdentityData) : Ok _ (Auth.createIdentity data) :=
  h.loading (h.steady.created data)

end Judgement.Sequential

end Sequential


/-! ## For one identity -/

section Composed
variable {Ok : Judgement} {D : Did → Prop}

namespace Judgement.Composed

variable (h : Ok.Composed D)
include h

theorem adopt (identity : Identity) (hd : D identity.did) : Ok Identity (do
    SecureIdentityStorage.setIdentity identity
    Auth.op (.setCurrentIdentity (some identity))
    Auth.restoreHandle identity
    applyHydration identity) :=
  h.steady.adopt (h.store identity hd) (h.present identity hd) (h.hydrate identity hd)

variable {identity : Identity}

theorem setIdentity (hd : D identity.did) : Ok Unit (Auth.setIdentity identity) :=
  h.steady.setIdentity (h.store identity hd) (h.present identity hd) (h.hydrate identity hd)

theorem updated (hd : D identity.did) (displayName : String) (avatar : Option String) :
    Ok Unit (loading "Failed to update profile" do
      let updatedIdentity :=
        { identity with
          displayName := displayName
          avatar := truthy avatar <|> identity.avatar }
      SecureIdentityStorage.setIdentity updatedIdentity
      .op (.setCurrentIdentity (some updatedIdentity))) :=
  h.loading (h.bind (h.store _ hd) fun _ => h.present _ hd)

theorem claimed (hd : D identity.did) (username : String) : Ok Unit (do
    let result ← Auth.await (.claimUsername username)
    let next := { identity with username := some result, displayName := result }
    Auth.ignoring (SecureIdentityStorage.setIdentity next)
    .op (.setCurrentIdentity (some next))) :=
  h.bind (h.await (.claimUsername username) trivial) fun _ =>
    h.bind (h.steady.ignoring (h.store _ hd)) fun _ => h.present _ hd

end Judgement.Composed

end Composed

/-! ## For any identity -/

section Unrestricted
variable {Ok : Judgement}

namespace Judgement.Unrestricted

variable (h : Ok.Unrestricted)
include h

theorem cleanAllIdentities : Ok Unit IdentityCleanup.cleanAllIdentities :=
  h.steady.cleanAllIdentities h.clear h.uncache

theorem cleanSpecificIdentity (identityId : String) :
    Ok Unit (IdentityCleanup.cleanSpecificIdentity identityId) := by
  unfold IdentityCleanup.cleanSpecificIdentity
  split
  · exact h.throw _
  refine h.bind (h.await (.cleanKeystoreDirectoryForId _) trivial) fun _ =>
    h.bind (h.await .readCachedDid trivial) fun did => ?_
  cases did with
  | none => exact h.pure ()
  | some did =>
    dsimp only
    split
    · exact h.uncache
    · exact h.pure ()

theorem showRestored (identity : Identity) : Ok Unit (Auth.showRestored identity) := by
  unfold Auth.showRestored
  split
  · exact h.bind (h.steady.ignoring h.clear) fun _ => h.hide
  · exact h.bind (h.present identity trivial) fun _ => h.bind (h.steady.reloadHandle identity) fun _ =>
      h.spawn (h.hydrate identity trivial)

theorem restoreIdentity : Ok Unit Auth.restoreIdentity := by
  refine h.steady.finallyDo (h.steady.rescue (h.bind (h.await .readMigrationRequired trivial) fun flag => ?_)
    fun _ => h.pure ()) (h.op _ trivial)
  split
  · exact h.bind (h.op _ trivial) fun _ => h.bind h.cleanAllIdentities fun _ => h.hide
  refine h.bind (h.bind ?_ fun lobby => ?_) fun _ => h.bind h.steady.restoreFromBackup fun identity => ?_
  · exact h.steady.rescue (h.bind (h.await .readLobbySession trivial) fun _ => h.pure _) fun _ => h.pure _
  · cases lobby with
    | none => exact h.pure ()
    | some lobby => exact h.op _ trivial
  · cases identity with
    | none => exact h.pure ()
    | some identity => exact h.showRestored identity

theorem recoverIdentity (method data : String) : Ok _ (Auth.recoverIdentity method data) := by
  refine h.bind (h.op _ trivial) fun _ => h.bind (h.op _ trivial) fun _ => ?_
  refine h.steady.finallyDo (h.steady.onError ?_ fun message => ?_) (h.op _ trivial)
  · exact h.steady.recovered h.hide (fun identity => h.adopt identity trivial) method data
  · exact h.steady.recoveryFailed h.hide message

theorem migrateIdentityFromSeed (displayName seedPhrase : String) :
    Ok _ (Auth.migrateIdentityFromSeed displayName seedPhrase) :=
  h.loading (h.steady.migrated h.cleanAllIdentities (fun i => h.store i trivial) displayName seedPhrase)

theorem updateProfile (displayName : String) (avatar : Option String) :
    Ok Unit (Auth.updateProfile displayName avatar) := by
  refine h.read fun s => ?_
  split
  · exact h.op _ trivial
  · exact h.updated trivial displayName avatar

theorem claimUsername (username : String) : Ok Unit (Auth.claimUsername username) := by
  refine h.read fun s => ?_
  split
  · exact h.throw _
  · exact h.claimed trivial username

theorem signOut : Ok Unit Auth.signOut := by
  refine h.bind (h.op _ trivial) fun _ => h.bind (h.op _ trivial) fun _ => h.bind (h.op _ trivial)
    fun _ => h.steady.finallyDo (h.steady.onError ?_ fun _ => h.op _ trivial) (h.op _ trivial)
  exact h.steady.signedOut h.clear h.hide

theorem rollBack (createdIdentity : Option Identity) : Ok Unit (Auth.rollBack createdIdentity) := by
  cases createdIdentity with
  | none => exact h.pure ()
  | some identity =>
    refine h.bind (h.op _ trivial) fun _ => h.bind (h.steady.ignoring h.clear) fun _ => ?_
    refine h.bind (h.steady.ignoring (h.steady.ignoring (h.await (.write (.credentials _)) trivial))) fun _ => ?_
    split
    · exact h.steady.ignoring (h.cleanSpecificIdentity _)
    · exact h.pure ()

theorem registrationFailed {α : Type} (handle : RegisterHandle) (createdIdentity : Option Identity)
    (message : String) : Ok α (Auth.registrationFailed handle createdIdentity message) :=
  h.bind (h.steady.ignoring (h.await (.opaqueRegisterCancel handle) trivial)) fun _ =>
    h.bind (h.rollBack createdIdentity) fun _ => h.bind (h.op _ trivial) fun _ => h.throw _

theorem registerWallet (handle : RegisterHandle) (username : String) (password : Password)
    (identity : Identity) : Ok Unit (Auth.registerWallet handle username password identity) := by
  refine h.bind (h.store identity trivial) fun _ => h.bind (h.op _ trivial) fun _ => ?_
  refine h.bind (h.steady.reloadHandle identity) fun _ =>
    h.bind (h.await (.opaqueRegisterComplete _ _ _) trivial) fun _ => ?_
  refine h.bind (h.await (.opaqueLogin _ _) trivial) fun session => ?_
  exact h.bind (h.steady.adoptLobbySession session) fun _ => h.steady.quiet trivial

theorem registerAccount (displayName : String) (password : Password) (identityType : String) :
    Ok _ (Auth.registerAccount displayName password identityType) := by
  refine h.bind (h.op _ trivial) fun _ => h.bind (h.op _ trivial) fun _ =>
    h.bind (h.await (.opaqueRegisterBegin _ _) trivial) fun handle => h.steady.finallyDo ?_ (h.op _ trivial)
  refine h.settle (h.createIdentity _) fun r => ?_
  cases r with
  | error message => exact h.registrationFailed handle none message
  | ok identity =>
    exact h.steady.rescue (h.bind (h.registerWallet _ _ _ identity) fun _ => h.pure _)
      fun _ => h.registrationFailed _ _ _

theorem opaqueSignIn (normalized : String) (password : Password) :
    Ok _ (Auth.opaqueSignIn normalized password) :=
  h.steady.opaqueSignIn (fun _ => h.setIdentity trivial) normalized password

theorem upgradeLegacyAccount (username : String) (password : Password) :
    Ok _ (Auth.upgradeLegacyAccount username password) :=
  h.loading (h.steady.upgraded (fun _ => h.setIdentity trivial) username password)

/-- Sign-in, if the judgement holds of what the limiter is asked. -/
theorem signIn (hlimiter : ∀ x, Ok Unit (Auth.op (.isBlocked x)) ∧
      Ok Unit (Auth.op (.recordAttempt x)) ∧ Ok Unit (Auth.op (.clearAttempts x)))
    (identityId : String) (password : Password) : Ok _ (Auth.signIn identityId password) := by
  refine h.bind (h.op _ trivial) fun _ => h.bind (h.op _ trivial) fun _ => ?_
  refine h.steady.finallyDo (h.steady.onError (h.read fun s => ?_) fun message => ?_) (h.op _ trivial)
  · refine h.bind (hlimiter _).1 fun _ => ?_
    split
    · exact h.bind (h.op _ trivial) fun _ => h.throw _
    · refine h.bind (h.steady.serviceSignIn _) fun identity => h.bind (hlimiter _).2.2 fun _ => ?_
      exact h.adopt _ trivial
  · exact h.bind (hlimiter _).2.1 fun _ => h.op _ trivial

/-- Every operation of the context, with the note of how it ended. -/
theorem command (hlimiter : ∀ x, Ok Unit (Auth.op (.isBlocked x)) ∧
      Ok Unit (Auth.op (.recordAttempt x)) ∧ Ok Unit (Auth.op (.clearAttempts x)))
    (hsettled : ∀ o, Ok Unit (.op (.settled o))) (c : Command) : Ok Unit c.body := by
  have hnoting : ∀ {α : Type} {m : Prog α}, Ok α m → ∀ ended : α → Outcome, Ok Unit (noting m ended) :=
    fun hm _ => h.settle hm fun _ => hsettled _
  cases c with
  | bootstrap => exact hnoting h.restoreIdentity _
  | signIn identityId password => exact hnoting (h.signIn hlimiter _ _) _
  | createIdentity data => exact hnoting (h.createIdentity data) _
  | recoverIdentity method data => exact hnoting (h.recoverIdentity method data) _
  | setIdentity identity => exact hnoting (h.setIdentity trivial) _
  | migrateIdentityFromSeed displayName seedPhrase =>
    exact hnoting (h.migrateIdentityFromSeed displayName seedPhrase) _
  | updateProfile displayName avatar => exact hnoting (h.updateProfile displayName avatar) _
  | claimUsername username => exact hnoting (h.claimUsername username) _
  | signOut => exact hnoting h.signOut _
  | registerAccount displayName password identityType =>
    exact hnoting (h.registerAccount displayName password identityType) _
  | passwordSignIn username password => exact hnoting (h.loading (h.opaqueSignIn _ _)) _
  | upgradeLegacyAccount username password =>
    exact hnoting (h.upgradeLegacyAccount username password) _
  | wait ms => exact h.op _ trivial

end Judgement.Unrestricted

end Unrestricted

end Auth
