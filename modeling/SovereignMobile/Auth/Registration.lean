import SovereignMobile.Auth.Context
import SovereignMobile.Auth.Stores

/-! # A registration that fails

`registerAccount` runs alone, on any device, with any of its calls failing. What its catch block undoes is
what the call has done only if there was nothing before: it clears the stores and unbinds the session, it
does not restore them. -/

namespace Auth

open EventLoop Option

/-! ## The property -/

/-- What a registration may leave a trace in. -/
structure NoTrace (s s' : State) : Prop where
  keychain : s'.device.keychain = s.device.keychain
  backup : s'.device.backup = s.device.backup
  cachedDid : s'.device.cachedDid = s.device.cachedDid
  credentials : s'.device.credentials = s.device.credentials
  storedSession : s'.device.lobbySession = s.device.lobbySession
  lobbySession : s'.lobbySession = s.lobbySession
  boundDid : s'.boundDid = s.boundDid
  isLoading : s'.isLoading = s.isLoading
  wallets : ∀ w ∈ s'.device.wallets, w ∈ s.device.wallets

/-! ## The condition -/

def reply (a : Answers machine) (n : Call → Nat) (c : Call) : Reply := a c (n c)

def fails (a : Answers machine) (n : Call → Nat) (c : Call) : Bool := (failure a n c).isSome

variable {a : Answers machine} {n n' : Call → Nat} {c : Call} {α : Type} {s : State}

theorem reply_congr (h : n c = n' c) : reply a n c = reply a n' c := congrArg (a c) h

theorem fails_congr (h : n c = n' c) : fails a n c = fails a n' c := by
  unfold fails failure
  rw [h]

/-- The identity that `createIdentity` returns, if nothing it depends on fails. -/
def createdIdentity (a : Answers machine) (n : Call → Nat) (data : CreateIdentityData) :
    Option Identity :=
  let generated := (reply a n (.provisionIdentity data.displayName)).generated
  let (identityId, did) := RealAuthService.registeredAs generated.did
    (reply a n (.register data.displayName generated.did)).registration
  if utf16Length data.displayName < 2 || utf16Length data.password < 8 ||
      fails a n (.provisionIdentity data.displayName) ||
      fails a n (.createRegistrationProof data.displayName generated.did) ||
      fails a n (.register data.displayName generated.did) then none
  else
    some (RealAuthService.provisionedIdentity data generated identityId did
      (if fails a n (.getSeedPhraseForBackup did) then ""
        else (reply a n (.getSeedPhraseForBackup did)).text))

/-- A store is as it was `before`, after `written` was written to it, if anything was, and it was
    removed, if it was. -/
def Kept {α : Type} (before written : Option α) (removed : Bool) : Prop :=
  if removed then before = none else ∀ x, written = some x → before = some x

/-- The writes of `setIdentity` that take effect. -/
def written (a : Answers machine) (n : Call → Nat) (identity : Identity) : List Write :=
  if identity.did = "" then []
  else effective (writeFails a n) (SecureIdentityStorage.identityWrites identity)

/-- The removals of `clearIdentity` that take effect. -/
def removed (a : Answers machine) : List Write :=
  effective (writeFails a unmade) SecureIdentityStorage.clearWrites

section Condition
variable (a : Answers machine) (d : Device) (identity : Identity)

/-- The wallet that was stored for the identity is deleted again. -/
def cleans : Bool :=
  let identityId := identity.identityId.getD ""
  identityId ≠ "" && d.platform ≠ .ios && !fails a unmade (.cleanKeystoreDirectoryForId identityId)

/-- The cleanup after that removes a cached DID that contains the id of the wallet. It may be the second
    removal of the cached DID. -/
def cleanupRemoves (cached : Option Did) : Bool :=
  cleans a d identity && !fails a unmade .readCachedDid &&
    cached.any (fun did => includes did (identity.identityId.getD "")) &&
    (a (.write (.cachedDid none)) (if .backup none ∈ removed a then 1 else 0) : Reply).fails.isNone

/-- What `setIdentity` leaves of the cached DID. -/
def cachedThen : Option Did :=
  if .cachedDid (some identity.did) ∈ written a unmade identity then some identity.did else d.cachedDid

/-- What the catch block does takes back what was done, and nothing else. -/
structure RollsBack (s : State) : Prop where
  keychain : Kept s.device.keychain
    (if .keychain (some identity.stringify) ∈ written a unmade identity then some identity.stringify
      else none) (.keychain none ∈ removed a)
  backup : Kept s.device.backup
    (if .backup (some identity.stringify) ∈ written a unmade identity then some identity.stringify
      else none) (.backup none ∈ removed a)
  cachedDid : Kept s.device.cachedDid
    (if .cachedDid (some identity.did) ∈ written a unmade identity then some identity.did else none)
    (.cachedDid none ∈ removed a ||
      cleanupRemoves a s.device identity (cachedThen a s.device identity))
  credentials : s.device.credentials = none ∨ fails a unmade (.write (.credentials none)) = true
  boundDid : s.boundDid = none
  wallet : fails a unmade (.storeProvisionedIdentity (identity.identityId.getD "") identity.did) =
      true ∨ identity.identityId.getD "" ∈ s.device.wallets ∨ cleans a s.device identity = true

end Condition

/-- Where the first call fails, the flag was set before; otherwise it was not, and if an identity was
    created, the catch block takes back what was done. -/
def LeavesNoTrace (a : Answers machine) (s : State) (displayName : String) (password : Password)
    (identityType : String) : Prop :=
  if fails a unmade (.opaqueRegisterBegin (registeredUsername displayName) password) then
    s.isLoading = true
  else
    s.isLoading = false ∧ ∀ identity, createdIdentity a unmade
      ⟨trim displayName, password, identityType⟩ = some identity → RollsBack a identity s

/-! ## The parts of a registration -/

/-- The calls of `rollBack`. -/
def Call.isRollback : Call → Bool
  | .readCachedDid | .cleanKeystoreDirectoryForId _
  | .write (.keychain none) | .write (.backup none) | .write (.cachedDid none)
  | .write (.credentials none) => true
  | _ => false

/-- The calls of `createIdentity`. -/
def Call.creates : Call → Bool
  | .provisionIdentity _ | .createRegistrationProof _ _ | .register _ _
  | .storeProvisionedIdentity _ _ | .getSeedPhraseForBackup _ | .restoreIdentityToHandleStore _
  | .storeMasterSeedPhrase _ _ => true
  | _ => false

/-- What a registration may leave a trace in is the same, up to the flag. -/
structure SameTraces (s s' : State) : Prop where
  device : s'.device = s.device
  lobbySession : s'.lobbySession = s.lobbySession
  boundDid : s'.boundDid = s.boundDid

section Parts
variable {a : Answers machine} {i : Nat} {n : Call → Nat} {s : State}

variable {c c' : Call} {e text identityId : String} {α : Type} {m : Prog α} {r : Except String α}
    {n' : Call → Nat} {s' : State} {identity : Identity}

theorem returns_missing (hmissing : c.missing s.device.platform = some e)
    (hsame : ∀ m, c.failed s m = s) : (await c).Returns a i n s (.error e) (bump n c) s := by
  refine .await ?_
  have hp : c.failure s.device.platform (a c (n c)) = some e := by
    simp only [Call.failure, hmissing]
    rfl
  simp only [machine, perform, hp, hsame]

/-- Every platform has the call, and it leaves the device as it is. -/
structure Call.Plain (c : Call) : Prop where
  missing : ∀ p, c.missing p = none := by exact fun _ => rfl
  same : ∀ s m, c.failed s m = s := by exact fun _ _ => rfl
  effect : ∀ d, c.effect d = d := by exact fun _ => rfl

theorem returns_plain_ok (hc : c.Plain) (h : failure a n c = none) :
    (await c).Returns a i n s (.ok (c.answer s.device (reply a n c))) (bump n c) s := by
  have hret := returns_ok (i := i) (s := s) (hc.missing _) h
  rwa [hc.effect] at hret

theorem returns_plain_fails (hc : c.Plain) (h : failure a n c = some e) :
    (await c).Returns a i n s (.error e) (bump n c) s :=
  returns_fails (hc.missing _) (hc.same s) h

/-- A call that stores nothing answers or fails. -/
theorem returns_await (hc : c.Plain) : ∃ r, (await c).Returns a i n s r (bump n c) s := by
  cases hf : failure a n c with
  | some e => exact ⟨_, returns_plain_fails hc hf⟩
  | none => exact ⟨_, returns_plain_ok hc hf⟩

/-- A call that stores nothing, and whose outcome does not matter. -/
theorem returns_quiet (hc : c.Plain) :
    (ignoring (do let _ ← await c; pure ())).Returns a i n s (.ok ()) (bump n c) s := by
  obtain ⟨r, hret⟩ := returns_await hc
  cases r with
  | error e => exact returns_ignoring (.bind_error hret)
  | ok x => exact returns_ignoring (.bind hret (.pure ()))

theorem Call.ne_of_creates (hc : c.creates = false) (hc' : c'.creates = true) : c ≠ c' := by
  rintro rfl
  exact nomatch hc.symm.trans hc'

theorem returns_storeIdentity (identity : Identity) : ∃ n',
    (RealAuthService.storeIdentity identity).Returns a i n s (.ok ()) n' s ∧
    ∀ c, c.creates = false → n' c = n c := by
  unfold RealAuthService.storeIdentity
  split
  · rename_i phrase identityId _ _
    refine ⟨bump n (.storeMasterSeedPhrase phrase identityId), ?_, fun c hc => ?_⟩
    · obtain ⟨_, hret⟩ := returns_await (c := .storeMasterSeedPhrase phrase identityId) {}
      exact returns_ignoring hret
    · exact bump_of_ne (Call.ne_of_creates hc rfl)
  · exact ⟨n, returns_ignoring (.pure ()), fun _ _ => rfl⟩

theorem returns_reloadHandle (identity : Identity) : ∃ n',
    (reloadHandle identity).Returns a i n s (.ok ()) n' s ∧
    ∀ c, c.creates = false → n' c = n c := by
  unfold reloadHandle
  split
  · exact ⟨n, .pure (), fun _ _ => rfl⟩
  rename_i identityId _
  exact ⟨_, returns_quiet {}, fun c hc => bump_of_ne (Call.ne_of_creates hc rfl)⟩

theorem returns_onFailure_ok (hc : c.Plain) (h : failure a n c = none) :
    (RealAuthService.createIdentityDevice.onFailure text (await c)).Returns a i n s
      (.ok (c.answer s.device (reply a n c))) (bump n c) s := .tryCatch (returns_plain_ok hc h)

theorem returns_onFailure_fails (hc : c.Plain) (h : failure a n c = some e) :
    (RealAuthService.createIdentityDevice.onFailure text (await c)).Returns a i n s
      (.error (text ++ e)) (bump n c) s :=
  .tryCatch_error (returns_plain_fails hc h) (.throw _)

/-- The wallets after the new identity was stored, or could not be. -/
def walletsAfter (a : Answers machine) (n : Call → Nat) (d : Device) (identity : Identity) :
    List String :=
  let identityId := identity.identityId.getD ""
  if fails a n (.storeProvisionedIdentity identityId identity.did) then d.wallets
  else identityId :: d.wallets

def State.setWallets (s : State) (wallets : List String) : State :=
  { s with device := { s.device with wallets } }

/-- The wallets after a wallet was stored, or could not be. -/
def storedWallets (a : Answers machine) (n : Call → Nat) (d : Device) (identityId : String) (did : Did) :
    List String :=
  if fails a n (.storeProvisionedIdentity identityId did) then d.wallets else identityId :: d.wallets

theorem returns_stored (identityId : String) (did : Did) :
    (ignoring (await (.storeProvisionedIdentity identityId did))).Returns a i n s (.ok ())
      (bump n (.storeProvisionedIdentity identityId did))
      (s.setWallets (storedWallets a n s.device identityId did)) := by
  unfold storedWallets
  cases hf : failure a n (.storeProvisionedIdentity identityId did) with
  | some e =>
    simp only [fails, hf, isSome_some]
    exact returns_ignoring (returns_fails rfl (fun _ => rfl) hf)
  | none =>
    simp only [fails, hf, Bool.false_eq_true]
    exact returns_ignoring (returns_ok rfl hf)

/-- The phrase of the new identity, if it can be read. -/
def seedPhrase (a : Answers machine) (n : Call → Nat) (did : Did) : String :=
  if fails a n (.getSeedPhraseForBackup did) then "" else (reply a n (.getSeedPhraseForBackup did)).text

theorem returns_seedPhrase (did : Did) :
    (rescue (await (.getSeedPhraseForBackup did)) fun _ => pure "").Returns a i n s
      (.ok (seedPhrase a n did)) (bump n (.getSeedPhraseForBackup did)) s := by
  unfold seedPhrase
  cases hf : failure a n (.getSeedPhraseForBackup did) with
  | some e =>
    simp only [fails, hf, isSome_some]
    exact .tryCatch_error (returns_plain_fails {} hf) (.pure _)
  | none =>
    simp only [fails, hf, Bool.false_eq_true]
    exact .tryCatch (returns_plain_ok {} hf)

/-- Once the server has the identity, nothing can go wrong any more. -/
theorem returns_afterRegister (data : CreateIdentityData) (generated : GeneratedIdentity)
    (identityId : String) (did : Did) (s : State) : ∃ n',
    (do
      ignoring (await (.storeProvisionedIdentity identityId did))
      let masterSeedPhrase ← rescue (await (.getSeedPhraseForBackup did)) fun _ => pure ""
      RealAuthService.createIdentityDevice.restoreToHandleStore identityId
      let identity :=
        RealAuthService.provisionedIdentity data generated identityId did masterSeedPhrase
      RealAuthService.storeIdentity identity
      pure identity : Prog Identity).Returns a i n s
      (.ok (RealAuthService.provisionedIdentity data generated identityId did (seedPhrase a n did))) n'
      (s.setWallets (storedWallets a n s.device identityId did)) ∧
    ∀ c, c.creates = false → n' c = n c := by
  let c₁ : Call := .storeProvisionedIdentity identityId did
  let c₂ : Call := .getSeedPhraseForBackup did
  have hphrase : seedPhrase a (bump n c₁) did = seedPhrase a n did := by
    have hmade : bump n c₁ c₂ = n c₂ := bump_of_ne (by simp [c₁])
    rw [seedPhrase, fails_congr hmade]
    rfl
  obtain ⟨n', hstore, hmade⟩ := returns_storeIdentity
    (RealAuthService.provisionedIdentity data generated identityId did (seedPhrase a n did))
  refine ⟨n', .bind (returns_stored identityId did) (.bind (hphrase ▸ returns_seedPhrase did)
    (.bind (returns_quiet {}) (.bind hstore (.pure _)))), fun c hc => ?_⟩
  rw [hmade c hc, bump_of_ne (Call.ne_of_creates hc rfl), bump_of_ne (Call.ne_of_creates hc rfl),
    bump_of_ne (Call.ne_of_creates hc rfl)]

/-- The device with the wallet of the identity that is created, if one is. -/
def State.withWallet (a : Answers machine) (n : Call → Nat) (s : State)
    (identity : Option Identity) : State :=
  { s with device := { s.device with
      wallets := (identity.map (walletsAfter a n s.device)).getD s.device.wallets } }

theorem withWallet_none : s.withWallet a n none = s := rfl

theorem returns_createIdentityDevice (data : CreateIdentityData)
    (hvalid : (utf16Length data.displayName < 2 || utf16Length data.password < 8) = false) :
    ∃ r n', (RealAuthService.createIdentityDevice data).Returns a i n s r n'
        (s.withWallet a n (createdIdentity a n data)) ∧
      r.toOption = createdIdentity a n data ∧ ∀ c, c.creates = false → n' c = n c := by
  have hnone : ∀ {n' : Call → Nat} {e : String}, createdIdentity a n data = none →
      (RealAuthService.createIdentityDevice data).Returns a i n s (.error e) n' s →
      (∀ c, c.creates = false → n' c = n c) →
      ∃ r n', (RealAuthService.createIdentityDevice data).Returns a i n s r n'
          (s.withWallet a n (createdIdentity a n data)) ∧
        r.toOption = createdIdentity a n data ∧ ∀ c, c.creates = false → n' c = n c := by
    intro n' e hc hret hmade
    rw [hc]
    exact ⟨_, _, hret, rfl, hmade⟩
  let c₁ : Call := .provisionIdentity data.displayName
  cases hf₁ : failure a n c₁ with
  | some e =>
    exact hnone (by simp [createdIdentity, fails, c₁, hf₁]) (.bind_error
      (returns_onFailure_fails {} hf₁))
      fun c hc => bump_of_ne (Call.ne_of_creates hc rfl)
  | none =>
    have h₁ : (RealAuthService.createIdentityDevice.onFailure "Device-based key generation failed: "
        (await c₁)).Returns a i n s (.ok (reply a n c₁).generated) (bump n c₁) s :=
      returns_onFailure_ok {} hf₁
    let generated := (reply a n c₁).generated
    let c₂ : Call := .createRegistrationProof data.displayName generated.did
    have hs₂ : failure a (bump n c₁) c₂ = failure a n c₂ := failure_bump (by simp [c₁])
    cases hf₂ : failure a n c₂ with
    | some e =>
      exact hnone (by simp [createdIdentity, fails, c₂, generated, c₁, hf₂]) (.bind h₁ (.bind_error
          (returns_onFailure_fails {} (hs₂.trans hf₂))))
        fun c hc => by rw [bump_of_ne (Call.ne_of_creates hc rfl),
          bump_of_ne (Call.ne_of_creates hc rfl)]
    | none =>
      have h₂ : (RealAuthService.createIdentityDevice.onFailure "Failed to create registration proof: "
          (await c₂)).Returns a i (bump n c₁) s (.ok ()) (bump (bump n c₁) c₂) s :=
        returns_onFailure_ok {} (hs₂.trans hf₂)
      let c₃ : Call := .register data.displayName generated.did
      have hs₃ : failure a (bump (bump n c₁) c₂) c₃ = failure a n c₃ :=
        (failure_bump (by simp [c₂])).trans (failure_bump (by simp [c₁]))
      cases hf₃ : failure a n c₃ with
      | some e =>
        exact hnone (by simp [createdIdentity, fails, c₃, generated, c₁, hf₃])
          (.bind h₁ (.bind h₂ (.bind_error (returns_onFailure_fails {} (hs₃.trans hf₃)))))
          fun c hc => by rw [bump_of_ne (Call.ne_of_creates hc rfl),
            bump_of_ne (Call.ne_of_creates hc rfl), bump_of_ne (Call.ne_of_creates hc rfl)]
      | none =>
        have hmade₃ : bump (bump n c₁) c₂ c₃ = n c₃ :=
          (bump_of_ne (by simp [c₂])).trans (bump_of_ne (by simp [c₁]))
        have h₃ : (RealAuthService.createIdentityDevice.onFailure "Server registration failed: "
            (await c₃)).Returns a i (bump (bump n c₁) c₂) s (.ok (reply a n c₃).registration)
            (bump (bump (bump n c₁) c₂) c₃) s := by
          rw [← reply_congr hmade₃]
          exact returns_onFailure_ok {} (hs₃.trans hf₃)
        obtain ⟨identityId, did, hreg⟩ : ∃ identityId did, RealAuthService.registeredAs
          generated.did (reply a n c₃).registration = (identityId, did) := ⟨_, _, rfl⟩
        obtain ⟨n', hret, hmade'⟩ := returns_afterRegister data generated identityId did s
        have hrest : ∀ c, c ≠ c₁ → c ≠ c₂ → c ≠ c₃ →
            bump (bump (bump n c₁) c₂) c₃ c = n c := fun c h₁ h₂ h₃ =>
          (bump_of_ne h₃).trans ((bump_of_ne h₂).trans (bump_of_ne h₁))
        have hphrase := hrest (.getSeedPhraseForBackup did) (by simp) (by simp) (by simp)
        rw [storedWallets,
          fails_congr (hrest (.storeProvisionedIdentity identityId did) (by simp) (by simp)
            (by simp))] at hret
        have hid : createdIdentity a n data = some
            (RealAuthService.provisionedIdentity data generated identityId did (seedPhrase a n did)) := by
          have hf : (utf16Length data.displayName < 2 || utf16Length data.password < 8 ||
              fails a n c₁ || fails a n c₂ || fails a n c₃) = false := by
            simp only [fails, hf₁, hf₂, hf₃, isSome_none, Bool.or_false]
            exact hvalid
          simp only [createdIdentity]
          rw [if_neg (by rw [hf]; simp), hreg]
          rfl
        rw [hid]
        refine ⟨.ok _, n', .bind h₁ (.bind h₂ (.bind h₃ ?_)), rfl, fun c hc => ?_⟩
        · rw [hreg]
          exact hret
        · rw [hmade' c hc, hrest c (Call.ne_of_creates hc rfl) (Call.ne_of_creates hc rfl)
            (Call.ne_of_creates hc rfl)]

theorem returns_finallyDo {o : Op} (h : m.Returns a i n s r n' s') :
    (finallyDo m (op o)).Returns a i n s r n' (apply i o s') := by
  refine .settle h (.bind (.op _) ?_)
  cases r with
  | ok x => exact .pure x
  | error e => exact .throw (M := machine) e

theorem returns_loading (h : m.Returns a i n { s with error := none, isLoading := true } r n' s') :
    ∃ s'', (loading text m).Returns a i n s r n' s'' ∧ SameTraces s' s'' ∧
      s''.isLoading = false := by
  have honError : ∃ s'', (onError m fun message => op (.setError (some (orElse message text)))).Returns
      a i n { s with error := none, isLoading := true } r n' s'' ∧ SameTraces s' s'' := by
    cases r with
    | ok x => exact ⟨s', .tryCatch h, ⟨rfl, rfl, rfl⟩⟩
    | error e =>
      exact ⟨{ s' with error := some (orElse e text) }, .tryCatch_error h
          (.bind (.op _) (.throw (M := machine) e)),
        ⟨rfl, rfl, rfl⟩⟩
  obtain ⟨s'', hret, hsame⟩ := honError
  refine ⟨{ s'' with isLoading := false }, ?_, ⟨hsame.device, hsame.lobbySession, hsame.boundDid⟩, rfl⟩
  exact .bind (.op _) (.bind (.op _) (returns_finallyDo hret))

/-- The identity is created or not, and nothing but its wallet is stored. -/
theorem returns_createIdentity (data : CreateIdentityData) : ∃ r n' s',
    (createIdentity data).Returns a i n s r n' s' ∧
    r.toOption = createdIdentity a n data ∧
    SameTraces (s.withWallet a n (createdIdentity a n data)) s' ∧ s'.isLoading = false ∧
    ∀ c, c.creates = false → n' c = n c := by
  let s₀ : State := { s with error := none, isLoading := true }
  have hservice : ∃ r n', (RealAuthService.createIdentity data).Returns a i n s₀ r n'
        (s₀.withWallet a n (createdIdentity a n data)) ∧
      r.toOption = createdIdentity a n data ∧ ∀ c, c.creates = false → n' c = n c := by
    unfold RealAuthService.createIdentity
    by_cases hname : utf16Length data.displayName < 2
    · have hc : createdIdentity a n data = none := by simp [createdIdentity, hname]
      rw [if_pos hname, hc]
      exact ⟨_, n, .throw _, rfl, fun _ _ => rfl⟩
    rw [if_neg hname]
    by_cases hpassword : utf16Length data.password < 8
    · have hc : createdIdentity a n data = none := by simp [createdIdentity, hpassword]
      rw [if_pos hpassword, hc]
      exact ⟨_, n, .throw _, rfl, fun _ _ => rfl⟩
    · rw [if_neg hpassword]
      exact returns_createIdentityDevice data (by simp [hname, hpassword])
  obtain ⟨r, n', hret, hr, hmade⟩ := hservice
  have hbody : ∃ s', (do
      let identity ← RealAuthService.createIdentity data
      op (.stashPassword identity.did data.password)
      pure identity : Prog Identity).Returns a i n s₀ r n' s' ∧
      SameTraces (s₀.withWallet a n (createdIdentity a n data)) s' := by
    cases r with
    | ok identity =>
      exact ⟨_, .bind hret (.bind (.op _) (.pure identity)), ⟨rfl, rfl, rfl⟩⟩
    | error e => exact ⟨_, .bind_error hret, ⟨rfl, rfl, rfl⟩⟩
  obtain ⟨s', hret', hsame⟩ := hbody
  obtain ⟨s'', hloading, hsame', hflag⟩ := returns_loading hret'
  exact ⟨r, n', s'', hloading, hr, ⟨hsame'.device.trans hsame.device,
    hsame'.lobbySession.trans hsame.lobbySession, hsame'.boundDid.trans hsame.boundDid⟩, hflag, hmade⟩

theorem Call.ne_of_isRollback (hc : c.isRollback = true) (hc' : c'.isRollback = false) :
    c ≠ c' := by
  rintro rfl
  exact nomatch hc.symm.trans hc'

theorem isRollback_bump (h : ∀ c : Call, c.isRollback = true → n' c = n c)
    (hc' : c'.isRollback = false) :
    ∀ c : Call, c.isRollback = true → bump n' c' c = n c :=
  fun c hc => (bump_of_ne (Call.ne_of_isRollback hc hc')).trans (h c hc)

/-- Where the OPAQUE part fails, the lobby session was not touched yet. -/
theorem returns_registerOpaque (handle : RegisterHandle) (username : String) (password : Password)
    (did : Did) : ∃ r n' s',
    (do
      await (.opaqueRegisterComplete handle password did)
      let session ← await (.opaqueLogin username password)
      adoptLobbySession session
      ignoring (do let _ ← await (.claimUsername username)) : Prog Unit).Returns a i n s r n' s' ∧
    (∀ e, r = .error e → s' = s) ∧ ∀ c : Call, c.isRollback = true → n' c = n c := by
  let c₁ : Call := .opaqueRegisterComplete handle password did
  let c₂ : Call := .opaqueLogin username password
  have hf₁ : ∀ c : Call, c.isRollback = true → bump n c₁ c = n c :=
    isRollback_bump (fun _ _ => rfl) rfl
  have hf₂ : ∀ c : Call, c.isRollback = true → bump (bump n c₁) c₂ c = n c :=
    isRollback_bump hf₁ rfl
  obtain ⟨r₁, h₁⟩ := returns_await (c := c₁) {}
  cases r₁ with
  | error e => exact ⟨_, _, _, .bind_error h₁, fun _ _ => rfl, hf₁⟩
  | ok x =>
    obtain ⟨r₂, h₂⟩ := returns_await (c := c₂) {}
    cases r₂ with
    | error e =>
      exact ⟨_, _, _, .bind h₁ (.bind_error h₂), fun _ _ => rfl, hf₂⟩
    | ok session =>
      cases hf : failure a (bump (bump n c₁) c₂) (.write (.lobbySession (some session))) with
      | some e =>
        exact ⟨_, _, _, .bind h₁ (.bind h₂ (.bind_error
          (.bind_error (returns_write_fails hf)))), fun _ _ => rfl,
          isRollback_bump hf₂ rfl⟩
      | none =>
        have hadopt : (adoptLobbySession session).Returns a i _ s _ _ _ :=
          .bind (returns_write hf) (.op _)
        exact ⟨_, _, _, .bind h₁ (.bind h₂ (.bind hadopt (returns_quiet {}))),
          fun e he => absurd he (by simp), isRollback_bump (isRollback_bump hf₂ rfl) rfl⟩

theorem Call.isRollback_of_creates (hc : c.isRollback = true) : c.creates = false := by
  cases c <;> first | rfl | exact nomatch hc

/-- Where the rest of a registration fails, it has stored the identity as far as it could. -/
theorem returns_registerWallet (handle : RegisterHandle) (username : String) (password : Password)
    (identity : Identity) : ∃ r n' s',
    (registerWallet handle username password identity).Returns a i n s r n' s' ∧
    (∀ e, r = .error e → s'.device = applyAll (written a n identity) s.device ∧
      s'.lobbySession = s.lobbySession) ∧
    ∀ c : Call, c.isRollback = true → n' c = n c := by
  unfold registerWallet written
  by_cases hdid : identity.did = ""
  · rw [if_pos hdid]
    exact ⟨_, n, s, .bind_error
      (SecureIdentityStorage.returns_setIdentity_invalid hdid), fun _ _ => ⟨rfl, rfl⟩, fun _ _ => rfl⟩
  rw [if_neg hdid]
  obtain ⟨r, n₁, hset, -, hmade₁⟩ := SecureIdentityStorage.returns_setIdentity hdid
  have hframe : ∀ c : Call, c.isRollback = true → n₁ c = n c := fun c hc => hmade₁ c <| by
    simp only [SecureIdentityStorage.identityWrites, List.forall_mem_cons]
    exact ⟨Call.ne_of_isRollback hc rfl, Call.ne_of_isRollback hc rfl,
      Call.ne_of_isRollback hc rfl, by simp⟩
  cases r with
  | error e => exact ⟨_, n₁, _, .bind_error hset, fun _ _ => ⟨rfl, rfl⟩, hframe⟩
  | ok x =>
    obtain ⟨n₂, hreload, hmade₂⟩ := returns_reloadHandle identity
    obtain ⟨r, n₃, s', hopaque, hs', hmade₃⟩ := returns_registerOpaque handle username password identity.did
    refine ⟨r, n₃, s', .bind hset (.bind (.op _)
      (.bind hreload hopaque)), fun e he => ?_, fun c hc => ?_⟩
    · rw [hs' e he]
      exact ⟨rfl, rfl⟩
    · rw [hmade₃ c hc, hmade₂ c (Call.isRollback_of_creates hc), hframe c hc]

/-- What is left of the stores and the session after the rollback. -/
structure RolledBack (a : Answers machine) (identity : Identity) (s s' : State) : Prop where
  keychain : s'.device.keychain = if .keychain none ∈ removed a then none else s.device.keychain
  backup : s'.device.backup = if .backup none ∈ removed a then none else s.device.backup
  cachedDid : s'.device.cachedDid =
    if .cachedDid none ∈ removed a || cleanupRemoves a s.device identity s.device.cachedDid then none
    else s.device.cachedDid
  credentials : s'.device.credentials =
    if fails a unmade (.write (.credentials none)) then s.device.credentials else none
  storedSession : s'.device.lobbySession = s.device.lobbySession
  lobbySession : s'.lobbySession = s.lobbySession
  boundDid : s'.boundDid = none
  wallets : s'.device.wallets =
    if cleans a s.device identity then
      s.device.wallets.filter fun w => w ≠ identity.identityId.getD ""
    else s.device.wallets

theorem clearIdentity_eq : SecureIdentityStorage.clearIdentity = (do
    writeAll [.keychain none, .backup none]
    write (.cachedDid none)) := by
  simp only [writeAll]
  rfl

/-- The stores are cleared, and the cached DID is written to once if the two writes before succeed. -/
theorem returns_clearIdentity_once (hmade : ∀ c : Call, c.isRollback = true → n c = unmade c) :
    ∃ r n', SecureIdentityStorage.clearIdentity.Returns a i n s r n'
        { s with device := applyAll (removed a) s.device } ∧
      n' (.write (.cachedDid none)) = (if .backup none ∈ removed a then 1 else 0) ∧
      ∀ c, (∀ w ∈ SecureIdentityStorage.clearWrites, c ≠ .write w) → n' c = n c := by
  have hsame : ∀ w ∈ SecureIdentityStorage.clearWrites, writeFails a n w = writeFails a unmade w := by
    intro w hw
    have hw' : (Call.write w).isRollback = true := by
      simp only [SecureIdentityStorage.clearWrites, List.mem_cons, List.not_mem_nil, or_false] at hw
      rcases hw with rfl | rfl | rfl <;> rfl
    unfold writeFails failure
    rw [hmade _ hw']
  obtain ⟨r, n₁, hret, hok, hmade₁⟩ := returns_writeAll (a := a)
    [.keychain none, .backup none] n s (by simp)
  rw [clearIdentity_eq]
  have hmade₂ : ∀ c, (∀ w ∈ SecureIdentityStorage.clearWrites, c ≠ .write w) → n₁ c = n c := by
    intro c hc
    refine hmade₁ c fun w hw => hc w ?_
    exact List.mem_append_left [.cachedDid none] hw
  have hcount : n₁ (.write (.cachedDid none)) = 0 := by
    rw [hmade₁ (Call.write (.cachedDid none)) fun w hw h => ?_]
    · exact hmade _ rfl
    · obtain rfl := Call.write.inj h
      simp at hw
  have hremoved : removed a = effective (writeFails a n) SecureIdentityStorage.clearWrites :=
    (effective_congr hsame).symm
  simp only [List.forall_mem_cons, List.not_mem_nil, IsEmpty.forall_iff, implies_true, and_true] at hok
  rw [hremoved, SecureIdentityStorage.clearWrites]
  cases hk : writeFails a n (.keychain none) with
  | true =>
    cases r with
    | ok x => exact absurd (hok.1 rfl).1 (by simp [hk])
    | error e =>
      simp only [effective, hk] at hret ⊢
      exact ⟨_, n₁, .bind_error hret, hcount, hmade₂⟩
  | false =>
    cases hb : writeFails a n (.backup none) with
    | true =>
      cases r with
      | ok x => exact absurd (hok.1 rfl).2 (by simp [hb])
      | error e =>
        simp only [effective, hk, hb, Bool.false_eq_true] at hret ⊢
        exact ⟨_, n₁, .bind_error hret, hcount, hmade₂⟩
    | false =>
      obtain rfl := hok.2 ⟨hk, hb⟩
      have hlast : failure a n₁ (.write (.cachedDid none)) =
          failure a n (.write (.cachedDid none)) := by
        unfold failure
        rw [hcount, hmade _ rfl]
        rfl
      have hbump : bump n₁ (.write (.cachedDid none)) (.write (.cachedDid none)) = 1 :=
        bump_self.trans (congrArg Nat.succ hcount)
      have hframe : ∀ c, (∀ w ∈ SecureIdentityStorage.clearWrites, c ≠ .write w) →
          bump n₁ (.write (.cachedDid none)) c = n c := fun c hc =>
        (bump_of_ne (hc _ (by simp [SecureIdentityStorage.clearWrites]))).trans (hmade₂ c hc)
      cases hc : failure a n (.write (.cachedDid none)) with
      | some e =>
        have hc' : writeFails a n (.cachedDid none) = true := by simp [writeFails, hc]
        simp only [effective, hk, hb, hc', Bool.false_eq_true] at hret ⊢
        exact ⟨_, _, .bind hret (returns_write_fails (hlast.trans hc)), hbump, hframe⟩
      | none =>
        have hc' : writeFails a n (.cachedDid none) = false := by simp [writeFails, hc]
        simp only [effective, hk, hb, hc', Bool.false_eq_true] at hret ⊢
        exact ⟨_, _, .bind hret (returns_write (hlast.trans hc)), hbump, hframe⟩

theorem cleans_eq (d : Device) (hid : identity.identityId = some identityId) (hne : identityId ≠ "")
    :
    cleans a d identity = (d.platform ≠ .ios &&
      !fails a unmade (.cleanKeystoreDirectoryForId identityId)) := by
  simp [cleans, hid, hne]

/-- The end of the cleanup: the cached DID goes if it can be read, contains the id and can be removed. -/
theorem returns_removeCached (identityId : String) (hread : n .readCachedDid = 0) : ∃ r n', (do
      match ← await .readCachedDid with
      | some did => if includes did identityId then write (.cachedDid none) else pure ()
      | none => pure () : Prog Unit).Returns a i n s r n' { s with device := { s.device with
        cachedDid :=
          if !fails a unmade .readCachedDid &&
              s.device.cachedDid.any (fun did => includes did identityId) &&
              (a (.write (.cachedDid none)) (n (.write (.cachedDid none))) : Reply).fails.isNone
            then none else s.device.cachedDid } } := by
  have hfails : failure a n .readCachedDid = failure a unmade .readCachedDid := by
    unfold failure
    rw [hread]
    rfl
  cases hf : failure a unmade .readCachedDid with
  | some e =>
    simp only [fails, hf, Bool.false_eq_true]
    exact ⟨_, _, .bind_error (returns_fails rfl (fun _ => rfl) (hfails.trans hf))⟩
  | none =>
    have hret : (await .readCachedDid).Returns a i n s (.ok s.device.cachedDid)
        (bump n .readCachedDid) s := returns_ok rfl (hfails.trans hf)
    simp only [fails, hf, isSome_none, Bool.not_false, Bool.true_and]
    cases hd : s.device.cachedDid with
    | none =>
      rw [hd] at hret
      simp only [any_none, Bool.false_and, Bool.false_eq_true]
      rw [← hd]
      exact ⟨_, _, .bind hret (.pure ())⟩
    | some did =>
      rw [hd] at hret
      simp only [any_some]
      by_cases hin : includes did identityId = true
      · have hwrite : failure a (bump n .readCachedDid) (.write (.cachedDid none)) =
          (a (.write (.cachedDid none)) (n (.write (.cachedDid none))) : Reply).fails :=
          failure_bump (by simp)
        by_cases hw : ∃ e, (a (.write (.cachedDid none)) (n (.write (.cachedDid none))) :
            Reply).fails = some e
        · obtain ⟨e, hw⟩ := hw
          simp only [hw, isNone_some, Bool.and_false, Bool.false_eq_true, if_false]
          rw [← hd]
          have hfail := returns_write_fails (i := i) (s := s) (hwrite.trans hw)
          exact ⟨.error e, _, .bind hret (by simpa only [hin, if_true] using hfail)⟩
        have hw : (a (.write (.cachedDid none)) (n (.write (.cachedDid none))) :
            Reply).fails = none := by
          cases hw' : (a (.write (.cachedDid none)) (n (.write (.cachedDid none))) : Reply).fails with
          | none => rfl
          | some e => exact absurd ⟨e, hw'⟩ hw
        simp only [hw, Bool.and_true]
        have hok := returns_write (i := i) (s := s) (hwrite.trans hw)
        refine ⟨.ok (), bump (bump n .readCachedDid) (.write (.cachedDid none)), .bind hret ?_⟩
        simp only [hin]
        exact hok
      · simp only [hin, Bool.false_eq_true]
        rw [← hd]
        refine ⟨.ok (), bump n .readCachedDid, .bind hret ?_⟩
        simp only [hin, Bool.false_eq_true]
        exact .pure ()

/-- The wallet is deleted, and the cached DID if it contains the id of the wallet. -/
theorem returns_cleanSpecificIdentity (hid : identity.identityId = some identityId)
    (hne : identityId ≠ "") (hclean : n (.cleanKeystoreDirectoryForId identityId) = 0)
    (hread : n .readCachedDid = 0)
    (hcount : n (.write (.cachedDid none)) = (if .backup none ∈ removed a then 1 else 0)) :
    ∃ n', (ignoring (IdentityCleanup.cleanSpecificIdentity identityId)).Returns a i n s (.ok ())
      n' { s with device := { s.device with
        wallets := if cleans a s.device identity then s.device.wallets.filter fun w => w ≠ identityId
          else s.device.wallets
        cachedDid := if cleanupRemoves a s.device identity s.device.cachedDid then none
          else s.device.cachedDid } } := by
  unfold IdentityCleanup.cleanSpecificIdentity
  rw [if_neg hne]
  let c₁ : Call := .cleanKeystoreDirectoryForId identityId
  have hcleans := cleans_eq (a := a) s.device hid hne
  have hfails : failure a n c₁ = failure a unmade c₁ := by
    unfold failure
    rw [show n c₁ = unmade c₁ from hclean]
  by_cases hios : s.device.platform = .ios
  · have hc : cleans a s.device identity = false := by rw [hcleans]; simp [hios]
    simp only [cleanupRemoves, hc, Bool.false_eq_true]
    exact ⟨_, returns_ignoring (.bind_error (returns_missing (if_pos hios) fun _ => rfl))⟩
  cases hf₁ : failure a unmade c₁ with
  | some e =>
    have hc : cleans a s.device identity = false := by rw [hcleans]; simp [fails, hf₁, c₁]
    simp only [cleanupRemoves, hc, Bool.false_eq_true]
    exact ⟨_, returns_ignoring (.bind_error
      (returns_fails (if_neg hios) (fun _ => rfl) (hfails.trans hf₁)))⟩
  | none =>
    have hc : cleans a s.device identity = true := by rw [hcleans]; simp [fails, hf₁, c₁, hios]
    have h₁ : (await c₁).Returns a i n s (.ok ()) (bump n c₁) { s with device := { s.device with
        wallets := s.device.wallets.filter fun w => w ≠ identityId } } :=
      returns_ok (if_neg hios) (hfails.trans hf₁)
    obtain ⟨r, n', h₂⟩ := returns_removeCached (n := bump n c₁) identityId
      ((bump_of_ne (by simp)).trans hread)
    rw [bump_of_ne (by simp), hcount] at h₂
    simp only [cleanupRemoves, hc, hid]
    exact ⟨n', returns_ignoring (.bind h₁ h₂)⟩

theorem returns_cleanup (identity : Identity)
    (hclean : ∀ identityId, n (.cleanKeystoreDirectoryForId identityId) = 0)
    (hread : n .readCachedDid = 0)
    (hcount : n (.write (.cachedDid none)) = (if .backup none ∈ removed a then 1 else 0)) :
    ∃ n', (match truthy identity.identityId with
      | some identityId => ignoring (IdentityCleanup.cleanSpecificIdentity identityId)
      | none => pure () : Prog Unit).Returns a i n s (.ok ())
      n' { s with device := { s.device with
        wallets := if cleans a s.device identity then
            s.device.wallets.filter fun w => w ≠ identity.identityId.getD ""
          else s.device.wallets
        cachedDid := if cleanupRemoves a s.device identity s.device.cachedDid then none
          else s.device.cachedDid } } := by
  cases hid : truthy identity.identityId with
  | none =>
    have hnone : identity.identityId.getD "" = "" := by
      cases h : identity.identityId with
      | none => rfl
      | some x => simpa [truthy, h] using hid
    have hc : cleans a s.device identity = false := by simp [cleans, hnone]
    simp only [cleanupRemoves, hc, Bool.false_eq_true]
    exact ⟨n, .pure ()⟩
  | some identityId =>
    obtain ⟨hid', hne⟩ : identity.identityId = some identityId ∧ identityId ≠ "" := by
      simpa [truthy] using hid
    rw [hid']
    exact returns_cleanSpecificIdentity hid' hne (hclean identityId) hread hcount

/-- The stores after three writes, as far as they take effect. -/
theorem applyAll_three (fails : Write → Bool) (keychain backup : Option StoredIdentity)
    (cachedDid : Option Did) (d : Device) :
    let ws := effective fails [.keychain keychain, .backup backup, .cachedDid cachedDid]
    applyAll ws d = { d with
      keychain := if .keychain keychain ∈ ws then keychain else d.keychain
      backup := if .backup backup ∈ ws then backup else d.backup
      cachedDid := if .cachedDid cachedDid ∈ ws then cachedDid else d.cachedDid } := by
  by_cases hk : fails (.keychain keychain) = true
  · simp [effective, hk, applyAll]
  by_cases hb : fails (.backup backup) = true
  · simp [effective, hk, hb, applyAll, Write.apply]
  by_cases hc : fails (.cachedDid cachedDid) = true
  · simp [effective, hk, hb, hc, applyAll, Write.apply]
  · simp [effective, hk, hb, hc, applyAll, Write.apply]

theorem applyAll_removed (d : Device) : applyAll (removed a) d = { d with
    keychain := if .keychain none ∈ removed a then none else d.keychain
    backup := if .backup none ∈ removed a then none else d.backup
    cachedDid := if .cachedDid none ∈ removed a then none else d.cachedDid } :=
  applyAll_three _ none none none d

theorem applyAll_written (identity : Identity) (d : Device) : applyAll (written a n identity) d =
    { d with
      keychain := if .keychain (some identity.stringify) ∈ written a n identity
        then some identity.stringify else d.keychain
      backup := if .backup (some identity.stringify) ∈ written a n identity
        then some identity.stringify else d.backup
      cachedDid := if .cachedDid (some identity.did) ∈ written a n identity
        then some identity.did else d.cachedDid } := by
  unfold written
  split
  · rfl
  · exact applyAll_three _ _ _ _ d

theorem returns_clearLoginCredentials (hmade : n (.write (.credentials none)) = 0) :
    (ignoring SecureIdentityStorage.clearLoginCredentials).Returns a i n s (.ok ())
      (bump n (.write (.credentials none))) { s with device := { s.device with
        credentials := if fails a unmade (.write (.credentials none)) then s.device.credentials
          else none } } := by
  have hfails : failure a n (.write (.credentials none)) =
      failure a unmade (.write (.credentials none)) := by
    unfold failure
    rw [hmade]
    rfl
  cases hf : failure a unmade (.write (.credentials none)) with
  | some e =>
    simp only [fails, hf, isSome_some]
    exact returns_ignoring (returns_ignoring (returns_write_fails (hfails.trans hf)))
  | none =>
    simp only [fails, hf, Bool.false_eq_true]
    exact returns_ignoring (returns_ignoring (returns_write (hfails.trans hf)))

theorem returns_rollBack (identity : Identity)
    (hmade : ∀ c : Call, c.isRollback = true → n c = unmade c) : ∃ n' s',
    (rollBack (some identity)).Returns a i n s (.ok ()) n' s' ∧ RolledBack a identity s s' := by
  obtain ⟨r, n₁, hclear, hcount, hmade₁⟩ := returns_clearIdentity_once hmade
  have hframe : ∀ c : Call, c.isRollback = true →
      (∀ w ∈ SecureIdentityStorage.clearWrites, c ≠ .write w) → n₁ c = 0 :=
    fun c hc hw => (hmade₁ c hw).trans (hmade c hc)
  rw [applyAll_removed] at hclear
  let d : Device := { s.device with
    keychain := if .keychain none ∈ removed a then none else s.device.keychain
    backup := if .backup none ∈ removed a then none else s.device.backup
    cachedDid := if .cachedDid none ∈ removed a then none else s.device.cachedDid }
  have hcreds := returns_clearLoginCredentials (a := a) (i := i)
    (s := { s with boundDid := none, device := d })
    (hframe _ rfl (by simp [SecureIdentityStorage.clearWrites]))
  obtain ⟨n', hclean⟩ := returns_cleanup (n := bump n₁ (.write (.credentials none))) identity
    (fun id => (bump_of_ne (by simp)).trans (hframe _ rfl (by simp)))
    ((bump_of_ne (by simp)).trans (hframe _ rfl (by simp)))
    ((bump_of_ne (by simp)).trans hcount)
  refine ⟨n', _, .bind (.op _) (.bind (returns_ignoring hclear)
    (.bind hcreds hclean)), rfl, rfl, ?_, rfl, rfl, rfl, rfl, rfl⟩
  by_cases hr : .cachedDid none ∈ removed a
  · simp [hr, d]
  · simp [hr, cleanupRemoves, cleans, d]

end Parts

/-! ## A failed registration -/

theorem kept_iff {before : Option α} {x : α} {removed w : Prop} [Decidable removed] [Decidable w] :
    (if removed then none else if w then some x else before) = before ↔
      Kept before (if w then some x else none) removed := by
  unfold Kept
  by_cases hr : removed
  · simp only [hr, decide_true]
    exact eq_comm
  by_cases hw : w
  · simp only [hr, hw, if_true, some.injEq, forall_eq']
    exact eq_comm
  · simp [hr, hw]

theorem createdIdentity_congr {data : CreateIdentityData}
    (h : ∀ c : Call, c.creates = true → n c = n' c) :
    createdIdentity a n data = createdIdentity a n' data := by
  have hf : ∀ c : Call, c.creates = true → fails a n c = fails a n' c :=
    fun c hc => fails_congr (h c hc)
  have hr : ∀ c : Call, c.creates = true → reply a n c = reply a n' c :=
    fun c hc => reply_congr (h c hc)
  simp only [createdIdentity, hf (.provisionIdentity _) rfl, hf (.createRegistrationProof _ _) rfl,
    hf (.register _ _) rfl, hf (.getSeedPhraseForBackup _) rfl, hr (.provisionIdentity _) rfl,
    hr (.register _ _) rfl, hr (.getSeedPhraseForBackup _) rfl]

theorem written_congr {identity : Identity} (h : ∀ w, n (.write w) = n' (.write w)) :
    written a n identity = written a n' identity := by
  unfold written
  rw [effective_congr fun w _ => show writeFails a n w = writeFails a n' w from ?_]
  unfold writeFails failure
  rw [h w]

/-- No wallet is left behind if none was stored, it was there before, or it is deleted. -/
theorem wallets_iff {before : List String} {identityId : String} {failed cleaned : Bool} :
    (∀ w ∈ (if cleaned then (if failed then before else identityId :: before).filter
        (fun w => w ≠ identityId) else if failed then before else identityId :: before), w ∈ before) ↔
      failed = true ∨ identityId ∈ before ∨ cleaned = true := by
  cases failed with
  | true | false =>
    cases cleaned with
    | true => simp +contextual
    | false => simp

section Failed
variable {a : Answers machine} {identity : Identity} {s s₃ s₄ s' : State}

/-- The rollback of a registration that got as far as it could restores what was there before exactly if
    it takes back what was done and nothing else. -/
theorem noTrace_iff_rollsBack (hdevice : s₃.device = applyAll (written a unmade identity)
      { s.device with wallets := walletsAfter a unmade s.device identity })
    (hlobby : s₃.lobbySession = s.lobbySession) (hback : RolledBack a identity s₃ s₄)
    (hdevice' : s'.device = s₄.device) (hlobby' : s'.lobbySession = s₄.lobbySession)
    (hbound' : s'.boundDid = s₄.boundDid) (hloading : s'.isLoading = false) :
    NoTrace s s' ↔ s.isLoading = false ∧ RollsBack a identity s := by
  rw [applyAll_written] at hdevice
  have hk := hback.keychain
  have hb := hback.backup
  have hc := hback.cachedDid
  have hcr := hback.credentials
  have hst := hback.storedSession
  have hw := hback.wallets
  rw [← hdevice', hdevice] at hk hb hc hcr hst hw
  have hkeychain := (Eq.congr_left hk).trans kept_iff
  have hbackup := (Eq.congr_left hb).trans kept_iff
  have hcached : s'.device.cachedDid = s.device.cachedDid ↔ Kept s.device.cachedDid
      (if .cachedDid (some identity.did) ∈ written a unmade identity then some identity.did else none)
      (.cachedDid none ∈ removed a ||
        cleanupRemoves a s.device identity (cachedThen a s.device identity)) :=
    (Eq.congr_left hc).trans (kept_iff.trans (by rw [Bool.decide_eq_true]; rfl))
  have hcredentials : s'.device.credentials = s.device.credentials ↔
      s.device.credentials = none ∨ fails a unmade (.write (.credentials none)) = true := by
    refine (Eq.congr_left hcr).trans ?_
    by_cases hf : fails a unmade (.write (.credentials none)) = true
    · simp [hf]
    · simp only [hf, or_false, Bool.false_eq_true]
      exact eq_comm
  have hwallets : (∀ w ∈ s'.device.wallets, w ∈ s.device.wallets) ↔
      fails a unmade (.storeProvisionedIdentity (identity.identityId.getD "") identity.did) = true ∨
        identity.identityId.getD "" ∈ s.device.wallets ∨ cleans a s.device identity = true := by
    rw [hw]
    exact wallets_iff
  constructor
  · intro h
    exact ⟨h.isLoading.symm.trans hloading, hkeychain.1 h.keychain, hbackup.1 h.backup,
      hcached.1 h.cachedDid, hcredentials.1 h.credentials,
      h.boundDid.symm.trans (hbound'.trans hback.boundDid), hwallets.1 h.wallets⟩
  · rintro ⟨hl, h⟩
    exact ⟨hkeychain.2 h.keychain, hbackup.2 h.backup, hcached.2 h.cachedDid,
      hcredentials.2 h.credentials, hst, hlobby'.trans (hback.lobbySession.trans hlobby),
      (hbound'.trans hback.boundDid).trans h.boundDid.symm, hloading.trans hl.symm,
      hwallets.2 h.wallet⟩

end Failed

/-- The catch block of a registration ends with the error it was given. -/
theorem returns_registrationFailed (handle : RegisterHandle) (identity : Option Identity)
    (message : String) (hmade : ∀ c : Call, c.isRollback = true → n c = unmade c) : ∃ n' s',
    (registrationFailed handle identity message : Prog α).Returns a 0 n s (.error message) n' s' ∧
    (identity = none → s'.device = s.device ∧ s'.lobbySession = s.lobbySession ∧
      s'.boundDid = s.boundDid) ∧
    ∀ i, identity = some i → RolledBack a i s s' := by
  let c : Call := .opaqueRegisterCancel handle
  obtain ⟨_, hcancel⟩ := returns_await (c := c) {}
  have hcancel := returns_ignoring hcancel
  cases identity with
  | none =>
    exact ⟨_, _, .bind hcancel (.bind (.pure ()) (.bind (.op _) (.throw (M := machine) message))),
      fun _ => ⟨rfl, rfl, rfl⟩, fun i hi => nomatch hi⟩
  | some identity =>
    obtain ⟨n', s', hret, hback⟩ := returns_rollBack identity
      (isRollback_bump hmade (show Call.isRollback c = false from rfl))
    refine ⟨n', _, .bind hcancel (.bind hret (.bind (.op _) (.throw (M := machine) message))),
      fun h => absurd h (by simp), fun i hi => ?_⟩
    cases hi
    exact ⟨hback.keychain, hback.backup, hback.cachedDid, hback.credentials, hback.storedSession,
      hback.lobbySession, hback.boundDid, hback.wallets⟩

/-- Where the stores are as they were, so that there can be a trace in the loading flag only. -/
theorem SameTraces.leaves_iff {s' : State} (h : SameTraces s s') :
    NoTrace s s' ↔ s'.isLoading = s.isLoading :=
  ⟨fun htrace => htrace.isLoading, fun hflag =>
    ⟨congrArg _ h.device, congrArg _ h.device, congrArg _ h.device, congrArg _ h.device,
      congrArg _ h.device, h.lobbySession, h.boundDid, hflag, fun w hw => by rwa [h.device] at hw⟩⟩

/-- What is done with an identity that was created, from the state in which the call began but for the
    wallet. -/
theorem returns_registered {s₂ : State} (handle : RegisterHandle) (username : String)
    (password : Password) (identity : Identity)
    (hmade : ∀ c : Call, c.isRollback = true → n c = unmade c)
    (hwritten : written a n identity = written a unmade identity)
    (hdevice : s₂.device = { s.device with wallets := walletsAfter a unmade s.device identity })
    (hlobby : s₂.lobbySession = s.lobbySession) : ∃ r n' s',
    (rescue (do
        registerWallet handle username password identity
        pure (identity, words (identity.masterSeedPhrase.getD "")))
      fun message => registrationFailed handle (some identity) message).Returns a 0 n s₂ r n' s' ∧
    ∀ e, r = .error e →
      (NoTrace s { s' with isLoading := false } ↔ s.isLoading = false ∧ RollsBack a identity s) := by
  obtain ⟨r, n₃, s₃, hret, hdone, hmade₃⟩ := returns_registerWallet
    handle username password identity
  cases r with
  | ok x =>
    exact ⟨.ok _, n₃, s₃, .tryCatch (.bind hret (.pure _)), fun e he => nomatch he⟩
  | error e =>
    obtain ⟨n₄, s₄, hfailed, -, hback⟩ :=
      returns_registrationFailed handle
        (some identity) e fun c hc => (hmade₃ c hc).trans (hmade c hc)
    obtain ⟨hd, hl⟩ := hdone e rfl
    rw [hwritten, hdevice] at hd
    exact ⟨.error e, n₄, s₄, .tryCatch_error (.bind_error hret) hfailed,
      fun _ _ => noTrace_iff_rollsBack hd (hl.trans hlobby) (hback identity rfl) rfl rfl rfl rfl⟩

section Registering
variable {a : Answers machine} {s : State} (displayName : String) (password : Password)
  (identityType : String)

/-- Once the name is reserved, it is the identity and what is done with it that decide. -/
theorem returns_registerAccount_of_begin {created : Except String Identity} {n₂ n' : Call → Nat}
    {s₂ s' : State} {r : Except String (Identity × List String)}
    (hbegin : failure a unmade (.opaqueRegisterBegin (registeredUsername displayName) password) = none)
    (hcreate : (createIdentity ⟨trim displayName, password, identityType⟩).Returns a 0
      (bump unmade (.opaqueRegisterBegin (registeredUsername displayName) password))
      { s with error := none, isLoading := true } created n₂ s₂)
    (hrest : (match created with
      | .error message => registrationFailed
          (reply a unmade (.opaqueRegisterBegin (registeredUsername displayName) password)).handle none
          message
      | .ok identity => rescue (do
          registerWallet
            (reply a unmade (.opaqueRegisterBegin (registeredUsername displayName) password)).handle
            (registeredUsername displayName) password identity
          pure (identity, words (identity.masterSeedPhrase.getD "")))
        fun message => registrationFailed
          (reply a unmade (.opaqueRegisterBegin (registeredUsername displayName) password)).handle
          (some identity) message).Returns a 0 n₂ s₂ r n' s') :
    (registerAccount displayName password identityType).Returns a 0 unmade s r n'
      { s' with isLoading := false } :=
  .bind (.op _) (.bind (.op _) (.bind (returns_ok rfl hbegin)
      (returns_finallyDo (.settle hcreate hrest))))

end Registering

/-- A registration ends, and where it ends with an error, the condition says whether there is a trace. -/
theorem returns_registerAccount (a : Answers machine) (s : State) (displayName : String)
    (password : Password) (identityType : String) : ∃ r n' s',
    (registerAccount displayName password identityType).Returns a 0 unmade s r n' s' ∧
    ∀ e, r = .error e → (NoTrace s s' ↔ LeavesNoTrace a s displayName password identityType) := by
  let c : Call := .opaqueRegisterBegin (registeredUsername displayName) password
  let data : CreateIdentityData := ⟨trim displayName, password, identityType⟩
  let s₁ : State := { s with error := none, isLoading := true }
  cases hf : failure a unmade c with
  | some e =>
    have hbegin : fails a unmade c = true := by simp [fails, hf]
    have hsame : SameTraces s s₁ := ⟨rfl, rfl, rfl⟩
    refine ⟨.error e, _, s₁, .bind (.op _) (.bind
      (.op _) (.bind_error (returns_fails rfl (fun _ => rfl) hf))),
      fun _ _ => ?_⟩
    unfold LeavesNoTrace
    rw [if_pos hbegin]
    exact hsame.leaves_iff.trans eq_comm
  | none =>
    have hbegin : fails a unmade c ≠ true := by simp [fails, hf]
    obtain ⟨r₂, n₂, s₂, hret₂, hr₂, hsame₂, -, hmade₂⟩ := returns_createIdentity (s := s₁) data
    have hc : createdIdentity a (bump unmade c) data = createdIdentity a unmade data :=
      createdIdentity_congr fun c' hc' => bump_of_ne (Call.ne_of_creates rfl hc').symm
    rw [hc] at hr₂ hsame₂
    unfold LeavesNoTrace
    rw [if_neg hbegin]
    -- The calls of a rollback have not been made before.
    have hmade : ∀ c : Call, c.isRollback = true → n₂ c = unmade c := fun c' hc' =>
      (hmade₂ c' (Call.isRollback_of_creates hc')).trans
        (bump_of_ne (Call.ne_of_isRollback hc' rfl))
    cases r₂ with
    | error e =>
      obtain ⟨n₃, s₃, hret₃, hsame₃, -⟩ :=
        returns_registrationFailed (reply a unmade c).handle none e hmade
      obtain ⟨hd, hl, hb⟩ := hsame₃ rfl
      rw [← hr₂, Except.toOption] at hsame₂
      have hsame : SameTraces s { s₃ with isLoading := false } :=
        ⟨hd.trans hsame₂.device, hl.trans hsame₂.lobbySession, hb.trans hsame₂.boundDid⟩
      refine ⟨.error e, n₃, _, returns_registerAccount_of_begin displayName password identityType hf
        hret₂ hret₃, fun _ _ => hsame.leaves_iff.trans ?_⟩
      have hnone : createdIdentity a unmade data = none := hr₂.symm
      constructor
      · exact fun h => ⟨h.symm, fun identity hi => nomatch hnone.symm.trans hi⟩
      · exact fun h => h.1.symm
    | ok identity =>
      have hi : createdIdentity a unmade data = some identity := hr₂.symm
      have hw : written a n₂ identity = written a unmade identity :=
        written_congr fun w => (hmade₂ (.write w) rfl).trans (bump_of_ne (by simp))
      have hwallets : walletsAfter a (bump unmade c) s₁.device identity =
          walletsAfter a unmade s.device identity := by
        have hstore : fails a (bump unmade c) (.storeProvisionedIdentity
            (identity.identityId.getD "") identity.did) = fails a unmade _ :=
          fails_congr (bump_of_ne (by simp))
        simp only [walletsAfter]
        rfl
      rw [hi] at hsame₂
      have hdevice := hsame₂.device
      rw [State.withWallet, map_some, getD_some] at hdevice
      obtain ⟨r₃, n₃, s₃, hret₃, hiff⟩ := returns_registered (s := s) (reply a unmade c).handle
        (registeredUsername displayName) password identity hmade hw hdevice hsame₂.lobbySession
      refine ⟨r₃, n₃, _, returns_registerAccount_of_begin displayName password identityType hf
        hret₂ hret₃, fun e he => ?_⟩
      refine (hiff e he).trans (and_congr_right fun _ => ?_)
      constructor
      · intro h j hj
        obtain rfl := some.inj (hi.symm.trans hj)
        exact h
      · exact fun h => h identity hi

/-- The server creates the identity and reserves the name, and cannot be reached after that. -/
def serverDown : Answers machine := fun (c : Call) _ => match c with
  | .provisionIdentity _ => ({ generated := ⟨"did:zhtp:carol", "phone", 0⟩ } : Reply)
  | .opaqueRegisterComplete _ _ _ => ({ fails := some "timeout" } : Reply)
  | _ => ({} : Reply)

def carol : Identity :=
  { did := "did:zhtp:carol", displayName := "Carol", identityId := some "carol", deviceId := some "phone"
    createdAt := some (.number 0) }

theorem createdIdentity_carol : createdIdentity serverDown unmade ⟨trim "Carol", "hunter22", "human"⟩ =
    some carol := by decide

/-- Bob's password is saved on the device, where Carol registers. -/
def bobsDevice : State :=
  { device := { keychain := some bob.stringify, credentials := some (bob.did, "correct horse") } }

end Auth
