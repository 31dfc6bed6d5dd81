import SovereignMobile.Auth.Programs
import SovereignMobile.EventLoop.Flags

/-! # The loading flag

`isLoading` is raised and lowered by twelve operations of the context, in the same way by eleven of them.
`registerAccount` waits for its first answer outside of its `try` block, and calls `createIdentity`, which
lowers the flag by itself. -/

namespace Auth

open EventLoop

/-- The operations with a loading flag. -/
inductive LoadingCommand where
  | signIn (identityId : String) (password : Password)
  | createIdentity (data : CreateIdentityData)
  | recoverIdentity (method data : String)
  | migrateIdentityFromSeed (displayName seedPhrase : String)
  | updateProfile (displayName : String) (avatar : Option String)
  | updatePassphrase (newPassphrase : String)
  | updateBiometric (enabled : Bool)
  | signOut
  | forceCleanupAndSignOut (reason : Option String)
  | registerAccount (displayName : String) (password : Password) (identityType : String)
  | passwordSignIn (username : String) (password : Password)
  | upgradeLegacyAccount (username : String) (password : Password)

namespace LoadingCommand

def program : LoadingCommand → Task machine
  | .signIn identityId password => (Auth.signIn identityId password).toTask
  | .createIdentity data => (Auth.createIdentity data).toTask
  | .recoverIdentity method data => (Auth.recoverIdentity method data).toTask
  | .migrateIdentityFromSeed displayName seedPhrase =>
    (Auth.migrateIdentityFromSeed displayName seedPhrase).toTask
  | .updateProfile displayName avatar => (Auth.updateProfile displayName avatar).toTask
  | .updatePassphrase newPassphrase => (Auth.updatePassphrase newPassphrase).toTask
  | .updateBiometric enabled => (Auth.updateBiometric enabled).toTask
  | .signOut => Auth.signOut.toTask
  | .forceCleanupAndSignOut reason => (Auth.forceCleanupAndSignOut reason).toTask
  | .registerAccount displayName password identityType =>
    (Auth.registerAccount displayName password identityType).toTask
  | .passwordSignIn username password => (Auth.passwordSignIn username password).toTask
  | .upgradeLegacyAccount username password => (Auth.upgradeLegacyAccount username password).toTask

/-- An update returns at once where there is no identity. -/
def raises : LoadingCommand → State → Bool
  | .updateProfile _ _, s | .updatePassphrase _, s | .updateBiometric _, s => s.currentIdentity.isSome
  | _, _ => true

def isRegistration : LoadingCommand → Bool
  | .registerAccount _ _ _ => true
  | _ => false

end LoadingCommand

/-- The move calls `registerAccount`. -/
def registers : Move machine LoadingCommand → Bool
  | .start c => c.isRegistration
  | _ => false

/-! ## What leaves the flag alone -/

def Op.KeepsLoading : Op → Prop
  | .setIsLoading _ => False
  | _ => True

theorem Op.Steady.keepsLoading {o : Op} (h : o.Steady) : o.KeepsLoading := by
  cases o with
  | setIsLoading b => exact h.elim
  | _ => trivial

theorem isLoading_apply {o : Op} (h : o.KeepsLoading) (i : Nat) (s : State) :
    (apply i o s).isLoading = s.isLoading := by
  cases o with
  | setIsLoading b => exact h.elim
  | _ => rfl

def loadingFlag : Flag machine where
  up := State.isLoading
  raise := Op.setIsLoading true
  lower := Op.setIsLoading false
  Steady := Op.KeepsLoading
  up_raise _ _ := rfl
  up_lower _ _ := rfl
  up_steady i s _ h := isLoading_apply h i s
  up_perform i _ _ _ _ _ h := by
    obtain ⟨device, b, rfl⟩ := perform_state (i := i) h
    rfl

abbrev KeepsFlag {α : Type} (m : Prog α) : Prop := loadingFlag.Quiet m

namespace KeepsFlag

variable {α : Type}

theorem op {o : Op} (h : o.KeepsLoading) : KeepsFlag (Auth.op o) := Flag.Quiet.op h

theorem await (c : Call) : KeepsFlag (Auth.await c) := Flag.Quiet.await (M := machine) c

theorem steady : Judgement.Sequential (fun _ m => KeepsFlag m) Op.Steady where
  pure a := Flag.Quiet.pure a
  throw e := Flag.Quiet.throw (M := machine) e
  bind hm hf := Flag.Quiet.bind hm hf
  settle hm hf := Flag.Quiet.settle hm hf
  tryCatch hm hf := Flag.Quiet.tryCatch hm hf
  read hf := Flag.Quiet.getThen hf
  op _ ho := op ho.keepsLoading
  await c _ := await c

theorem setError (message : Option String) : KeepsFlag (Auth.op (.setError message)) := op trivial

theorem present (identity : Option Identity) : KeepsFlag (Auth.op (.setCurrentIdentity identity)) := op trivial

theorem write (w : Write) : KeepsFlag (Auth.write w) := await _

theorem store (identity : Identity) : KeepsFlag (SecureIdentityStorage.setIdentity identity) :=
  Judgement.Sequential.storeOf steady fun w _ => write w

theorem clear : KeepsFlag SecureIdentityStorage.clearIdentity :=
  Judgement.Sequential.clearOf steady fun w _ => write w

theorem cleanAll : KeepsFlag IdentityCleanup.cleanAllIdentities :=
  Judgement.Sequential.cleanAllIdentities steady clear (write _)

theorem hydrate (identity : Identity) : KeepsFlag (applyHydration identity) :=
  Judgement.Sequential.applyHydration steady store (fun _ _ => op trivial) identity

theorem adopt (identity : Identity) : KeepsFlag (do
    SecureIdentityStorage.setIdentity identity
    Auth.op (.setCurrentIdentity (some identity))
    Auth.restoreHandle identity
    applyHydration identity) :=
  Judgement.Sequential.adopt steady (store identity) (present _) (hydrate identity)

theorem setIdentity (identity : Identity) : KeepsFlag (Auth.setIdentity identity) :=
  Judgement.Sequential.setIdentity steady (store identity) (present _) (hydrate identity)

end KeepsFlag

/-! ## What raises and lowers it -/

/-- `m` is started by task `i` in state `s`. -/
abbrev Starts {α : Type} (raises : Bool) (i : Nat) (m : Prog α) (s : State) : Prop :=
  loadingFlag.Starts raises i m.toTask s

variable {α : Type} {m : Prog α} {handle : String → Prog Unit} {text : String}

/-- The `finally` block lowers the flag, whatever happens before. -/
theorem lowers_finallyDo (hm : KeepsFlag m) :
    loadingFlag.Lowers (finallyDo m (op (.setIsLoading false))).toTask := by
  refine hm _ fun r => ?_
  cases r with
  | ok | error => exact .last

theorem starts_raised (hm : KeepsFlag m) (hh : ∀ message, KeepsFlag (handle message)) (i : Nat)
    (s : State) :
    Starts true i (do
      op (.setError none)
      op (.setIsLoading true)
      finallyDo (onError m handle) (op (.setIsLoading false))) s :=
  .inl ⟨trivial, .inr ⟨rfl, rfl, lowers_finallyDo (KeepsFlag.steady.onError hm hh)⟩⟩

theorem starts_loading (hm : KeepsFlag m) (i : Nat) (s : State) :
    Starts true i (loading text m) s :=
  starts_raised hm (fun _ => .setError _) i s

/-- A sign-out also takes the warning back. -/
theorem starts_signOut {m : Prog Unit} (hm : KeepsFlag m)
    (hh : ∀ message, KeepsFlag (handle message)) (i : Nat) (s : State) :
    Starts true i (do
      op (.setError none)
      op (.setRestoreWarning none)
      op (.setIsLoading true)
      finallyDo (onError m handle) (op (.setIsLoading false))) s :=
  .inl ⟨trivial, .inl ⟨trivial, .inr ⟨rfl, rfl, lowers_finallyDo (KeepsFlag.steady.onError hm hh)⟩⟩⟩

/-- An update of the current identity, if there is one. -/
theorem starts_update {update : Identity → Prog Unit} (hm : ∀ identity, KeepsFlag (update identity))
    (i : Nat) (s : State) :
    Starts s.currentIdentity.isSome i (do
      let s ← getState
      match s.currentIdentity with
      | none => op (.setError (some "No identity to update"))
      | some currentIdentity => loading text (update currentIdentity)) s := by
  change loadingFlag.Starts _ i (Async.run (match s.currentIdentity with
    | none => op (.setError (some "No identity to update"))
    | some currentIdentity => loading text (update currentIdentity)) fun _ => .done) s
  cases s.currentIdentity with
  | none => exact .inl ⟨trivial, rfl⟩
  | some identity => exact starts_loading (hm identity) i s

theorem signIn_starts (identityId : String) (password : Password) (i : Nat) (s : State) :
    Starts true i (signIn identityId password) s := by
  refine starts_raised (KeepsFlag.steady.read fun s => ?_) (fun message => ?_) i s
  · refine KeepsFlag.steady.bind (KeepsFlag.op trivial) fun _ => ?_
    split
    · exact KeepsFlag.steady.bind (KeepsFlag.setError _) fun _ => KeepsFlag.steady.throw _
    · refine KeepsFlag.steady.bind (KeepsFlag.steady.serviceSignIn _) fun identity => ?_
      exact KeepsFlag.steady.bind (KeepsFlag.op trivial) fun _ => KeepsFlag.adopt identity
  · exact KeepsFlag.steady.bind (KeepsFlag.op trivial) fun _ => KeepsFlag.setError _

theorem forceCleanupAndSignOut_starts (reason : Option String) (i : Nat) (s : State) :
    Starts true i (forceCleanupAndSignOut reason) s := by
  refine starts_signOut ?_ (fun _ => .setError _) i s
  exact KeepsFlag.steady.bind (KeepsFlag.steady.setMigrationRequiredFlag _) fun _ =>
    KeepsFlag.steady.bind KeepsFlag.cleanAll fun _ => KeepsFlag.present none

/-- All but a registration raise the flag before they first wait, and lower it at their end. -/
theorem LoadingCommand.starts {c : LoadingCommand} (hc : c.isRegistration = false) (i : Nat) (s : State) :
    loadingFlag.Starts (c.raises s) i c.program s := by
  cases c with
  | signIn identityId password => exact signIn_starts identityId password i s
  | createIdentity data => exact starts_loading (KeepsFlag.steady.created data) i s
  | recoverIdentity method data =>
    exact starts_raised (KeepsFlag.steady.recovered (KeepsFlag.present none) KeepsFlag.adopt method data)
      (KeepsFlag.steady.recoveryFailed (KeepsFlag.present none)) i s
  | migrateIdentityFromSeed displayName seedPhrase =>
    exact starts_loading (KeepsFlag.steady.migrated KeepsFlag.cleanAll KeepsFlag.store displayName seedPhrase) i s
  | updateProfile displayName avatar | updateBiometric enabled =>
    exact starts_update (fun _ => KeepsFlag.steady.bind (KeepsFlag.store _) fun _ => KeepsFlag.present _) i s
  | updatePassphrase newPassphrase =>
    exact starts_update (fun _ => KeepsFlag.steady.bind (KeepsFlag.write _) fun _ => KeepsFlag.present _) i s
  | signOut =>
    exact starts_signOut (KeepsFlag.steady.signedOut KeepsFlag.clear (KeepsFlag.present none))
      (fun _ => .setError _) i s
  | forceCleanupAndSignOut reason => exact forceCleanupAndSignOut_starts reason i s
  | registerAccount displayName password identityType => simp [isRegistration] at hc
  | passwordSignIn username password =>
    exact starts_loading (KeepsFlag.steady.opaqueSignIn KeepsFlag.setIdentity _ _) i s
  | upgradeLegacyAccount username password =>
    exact starts_loading (KeepsFlag.steady.upgraded KeepsFlag.setIdentity username password) i s

/-! ## Every run -/

/-- The loading flag is up exactly while an operation is in progress. -/
def LoadingShows (w : Sys machine) : Prop := State.isLoading w.state = true ↔ w.tasks ≠ []

/-- A move; one that is impossible changes nothing. -/
abbrev move (w : Sys machine) (m : Move machine LoadingCommand) : Sys machine :=
  Flag.move LoadingCommand.program w m

/-- An operation that the move brings to its end, and that has raised the flag, is the only one in
    progress. -/
abbrev settlesAlone (w : Sys machine) (m : Move machine LoadingCommand) : Bool :=
  Flag.settlesAlone LoadingCommand.raises LoadingCommand.program w m

/-- Where no account is registered, the flag is right throughout a run exactly if no operation settles
    while another one is in progress. -/
theorem loading_shows_iff (s : State) (hs : s.isLoading = false) (moves : List (Move machine LoadingCommand))
    (hno : ∀ m ∈ moves, registers m = false) :
    HoldsThroughout move LoadingShows (Sys.idle s) moves ↔
      StepsMeet move (fun w m => settlesAlone w m = true) (Sys.idle s) moves := by
  have hpool : loadingFlag.Pool (Sys.idle s) :=
    ⟨fun _ ht => absurd ht (by simp [Sys.idle]), fun _ ht => absurd ht (by simp [Sys.idle])⟩
  have hshows : loadingFlag.Shows (Sys.idle s) := by
    simp [Flag.Shows, Sys.idle, loadingFlag, hs]
  have hstarts : ∀ m, registers m = false → ∀ w : Sys machine,
      loadingFlag.StartsWell LoadingCommand.raises LoadingCommand.program w m := by
    intro m hm w
    cases m with
    | start c => exact LoadingCommand.starts hm _ _
    | perform | resume => trivial
  refine Flag.shows_iff hpool hshows moves ?_
  suffices h : ∀ w : Sys machine, StepsMeet move
      (loadingFlag.StartsWell LoadingCommand.raises LoadingCommand.program) w moves from h _
  induction moves with
  | nil => exact fun _ => trivial
  | cons m ms ih =>
    intro w
    exact ⟨hstarts m (hno m List.mem_cons_self) w,
      ih (fun m' hm' => hno m' (List.mem_cons_of_mem m hm')) _⟩

/-- A sign-in with a password fails, and a sign-out follows. -/
def failedThenOut : List (Move machine LoadingCommand) :=
  [.start (.passwordSignIn "alice" "pw"), .perform 0 { fails := some "timeout" }, .resume 0,
    .start .signOut, .perform 1 {}, .resume 1, .perform 1 {}, .resume 1, .perform 1 {}, .resume 1,
    .perform 1 {}, .resume 1]

theorem loading_shows_failedThenOut :
    HoldsThroughout move LoadingShows (Sys.idle {}) failedThenOut :=
  (loading_shows_iff {} rfl failedThenOut (by decide)).2 (by decide)

/-! ## Where it is wrong -/

/-- A registration whose first call fails. -/
def refusedRegistration : List (Move machine LoadingCommand) :=
  [.start (.registerAccount "Alice" "correct horse" "human"),
    .perform 0 { fails := some "username taken" }, .resume 0]

/-- A registration up to the end of `createIdentity`. -/
def createdOnly : List (Move machine LoadingCommand) :=
  .start (.registerAccount "Alice" "correct horse" "human") ::
    (List.replicate 7 [.perform 0 { generated := ⟨"did:zhtp:a", "", 0⟩ }, .resume 0]).flatten

/-- A sign-in, and a sign-out that is over before it. -/
def outWhileIn : List (Move machine LoadingCommand) :=
  .start (.signIn "did:zhtp:a" "pw") :: .start .signOut ::
    (List.replicate 4 [.perform 1 {}, .resume 1]).flatten

/-- The flag stays up though nothing is in progress; it is down while a registration goes on; it is down
    while one of two operations goes on. -/
theorem loading_wrong :
    ¬HoldsThroughout move LoadingShows (Sys.idle {}) refusedRegistration ∧
    ¬HoldsThroughout move LoadingShows (Sys.idle {}) createdOnly ∧
    ¬HoldsThroughout move LoadingShows (Sys.idle {}) outWhileIn := by
  have hstuck : ¬LoadingShows (refusedRegistration.foldl move (Sys.idle {})) := by
    unfold LoadingShows
    decide
  have hnested : ¬LoadingShows (createdOnly.foldl move (Sys.idle {})) := by
    unfold LoadingShows
    decide
  have hoverlap : ¬LoadingShows (outWhileIn.foldl move (Sys.idle {})) := by
    unfold LoadingShows
    decide
  exact ⟨fun h => hstuck h.last, fun h => hnested h.last, fun h => hoverlap h.last⟩

end Auth
