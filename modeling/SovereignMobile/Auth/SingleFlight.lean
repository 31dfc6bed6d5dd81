import SovereignMobile.Auth.ChainRegistrations
import SovereignMobile.EventLoop.Lone

/-! # One check at a time

The hook of `useChainReregistration.ts` with what drives it: its effect, `retry` and its timers, while the
connection, the identity and the node change. A check captures the identity of a render; it is kept alone
by a flag, and a count says how often it is tried again. -/

namespace ChainReregistration.SingleFlight

open EventLoop List
open Auth (Identity Did truthy)

inductive HookCmd where
  | connectTo (chainId height : Nat)
  | setConnected (isConnected : Bool)
  | setCurrentIdentity (identity : Option Identity)
  | effect
  | retry
  | timeout (n : Nat)

def HookCmd.cmd : HookCmd → Cmd
  | .connectTo chainId height => .connectTo chainId height
  | .setConnected isConnected => .setConnected isConnected
  | .setCurrentIdentity identity => .setCurrentIdentity identity
  | .effect => .effect
  | .retry => .retry
  | .timeout n => .timeout n

def hookProg (c : HookCmd) : Task machine := prog c.cmd

/-- Are the acts of the move the hook's own? -/
def ofHook : Move machine HookCmd → Bool
  | .start (.connectTo _ _) | .start (.setConnected _) | .start (.setCurrentIdentity _) => false
  | _ => true

/-- The checks in progress, and what the hook has done so far. -/
structure Hook where
  sys : Sys machine
  acts : List (Act machine)

/-- A move that is impossible changes nothing. -/
def Hook.step (x : Hook) (m : Move machine HookCmd) : Hook :=
  match x.sys.step Cond.any hookProg m with
  | none => x
  | some w => ⟨w, x.acts ++ if ofHook m then x.sys.acts hookProg m else []⟩

/-! ## What is claimed -/

/-- Registrations that were asked for since the count was last set to zero, by a success or by the user. -/
def attemptsAfter : Nat → List (Act machine) → Nat
  | n, [] => n
  | _, .op _ _ (.setRetryCount 0) :: h => attemptsAfter 0 h
  | n, .issue _ _ (.register ..) :: h => attemptsAfter (n + 1) h
  | n, _ :: h => attemptsAfter n h

def didOf (identity : Option Identity) : Option Did := identity.map Identity.did

/-- The DID that the identity is updated to. -/
def updatedTo : Act machine → Option (Option Did)
  | .op _ _ (.setCurrentIdentity identity) => some (didOf identity)
  | .issue _ _ (.setIdentity identity) => some (some identity.did)
  | _ => none

/-- The identity is updated to one with the DID of the current one, if it is. -/
def Own (a : Act machine) : Prop :=
  updatedTo a = none ∨ updatedTo a = some (didOf (State.currentIdentity a.state))

instance : DecidablePred Own := fun _ => inferInstanceAs (Decidable (_ ∨ _))

structure Disciplined (x : Hook) : Prop where
  single : x.sys.tasks.length ≤ 1
  bounded : attemptsAfter 0 x.acts ≤ 1 + MAX_RETRIES
  own : ∀ a ∈ x.acts, Own a

def GivenUp (s : State) : Prop := s.status = .error ∧ s.retryCount = MAX_RETRIES

/-- Is there something to check? -/
def begins (c : Closure) : Bool :=
  c.isConnected && (c.currentIdentity.bind fun identity => truthy identity.identityId).isSome

/-- While a check is in progress, there is no `retry`, no timer fires and the DID stays. Where the hook has
    given up, none is begun except by `retry`; and a timer checks the current identity. -/
def Condition (x : Hook) : Move machine HookCmd → Prop
  | .start .effect => x.sys.tasks = [] → begins (rendered x.sys.state) = true → ¬GivenUp x.sys.state
  | .start .retry => x.sys.tasks = []
  | .start (.timeout n) => ∀ delay c, x.sys.state.timers[n]? = some (delay, c) →
      x.sys.tasks = [] ∧ (begins c = true →
        ¬GivenUp x.sys.state ∧ didOf c.currentIdentity = didOf x.sys.state.currentIdentity)
  | .start (.setCurrentIdentity identity) =>
    x.sys.tasks ≠ [] → didOf identity = didOf x.sys.state.currentIdentity
  | _ => True

/-! ## The view of a check -/

structure Seen where
  running : Bool
  retryCount : Nat
  status : ChainReregStatus
  did : Option Did
  attempts : Nat

namespace Seen

def op (v : Seen) : Op → Seen
  | .setRunning running => { v with running }
  | .setRetryCount retryCount =>
    { v with retryCount, attempts := if retryCount = 0 then 0 else v.attempts }
  | .setStatus status => { v with status }
  | .setCurrentIdentity identity => { v with did := didOf identity }
  | _ => v

def issue (v : Seen) : Call → Seen
  | .register .. => { v with attempts := v.attempts + 1 }
  | _ => v

def GivenUp (v : Seen) : Prop := v.status = .error ∧ v.retryCount = MAX_RETRIES

/-- Between checks: each attempt has been counted, the last one perhaps by giving up. -/
structure Rests (v : Seen) : Prop where
  running : v.running = false
  retryCount : v.retryCount ≤ MAX_RETRIES
  attempts : v.attempts ≤ v.retryCount + 1
  open_ : ¬v.GivenUp → v.attempts ≤ v.retryCount

structure Waits (v : Seen) : Prop where
  running : v.running = true
  retryCount : v.retryCount ≤ MAX_RETRIES
  attempts : v.attempts ≤ v.retryCount + 1

structure Shows (v : Seen) (s : State) : Prop where
  running : s.running = v.running
  retryCount : s.retryCount = v.retryCount
  status : s.status = v.status
  did : didOf s.currentIdentity = v.did

variable {v : Seen} {s : State}

theorem Shows.op (h : v.Shows s) (i : Nat) (o : Op) : (v.op o).Shows (s.apply i o) := by
  cases o with
  | setRunning running => exact ⟨rfl, h.retryCount, h.status, h.did⟩
  | setRetryCount n => exact ⟨h.running, rfl, h.status, h.did⟩
  | setStatus status => exact ⟨h.running, h.retryCount, rfl, h.did⟩
  | setCurrentIdentity identity => exact ⟨h.running, h.retryCount, h.status, rfl⟩
  | _ => exact ⟨h.running, h.retryCount, h.status, h.did⟩

theorem Shows.issue (h : v.Shows s) (c : Call) : (v.issue c).Shows s := by
  cases c <;> exact ⟨h.running, h.retryCount, h.status, h.did⟩

theorem Shows.registers (h : v.Shows s) (i : Nat) (identityId : String) :
    v.Shows (s.registers i identityId) :=
  ⟨h.running, h.retryCount, h.status, h.did⟩

theorem Shows.perform {s' : State} (h : v.Shows s) {i : Nat} {c : Call} {r : Reply}
    {out : Except String (Ret c)} (hp : State.perform i c r s = some (s', out)) : v.Shows s' := by
  unfold State.perform at hp
  split at hp
  case h_5 =>
    cases hp
    unfold State.respond
    split
    · exact h.registers i _
    · exact h.registers i _
    · exact h
  all_goals first
    | (cases hp
       exact ⟨h.running, h.retryCount, h.status, h.did⟩)
    | simp at hp

end Seen

/-- Registrations are counted, and an identity is updated to one with the DID that is seen. -/
def view : View machine Seen where
  Shows := Seen.Shows
  op o v := v.op o
  issue c v := v.issue c
  OpPre
    | .setCurrentIdentity identity, v => v.did = didOf identity
    | _, _ => True
  CallPre
    | .setIdentity identity, v => v.did = some identity.did
    | _, _ => True
  Rests := Seen.Rests
  Waits := Seen.Waits
  shows_op i o _ _ h := h.op i o
  shows_issue c _ _ h := h.issue c
  shows_perform _ _ _ _ _ _ _ h hp := h.perform hp

theorem own_of_meets {a : Act machine} (h : view.Meets a) : Own a := by
  match a with
  | .op _ s o =>
    obtain ⟨v, hshows, hpre⟩ := h
    cases o with
    | setCurrentIdentity identity => exact .inr (congrArg some (hshows.did.trans hpre).symm)
    | _ => exact .inl rfl
  | .issue _ s c =>
    obtain ⟨v, hshows, hpre⟩ := h
    cases c with
    | setIdentity identity => exact .inr (congrArg some (hshows.did.trans hpre).symm)
    | _ => exact .inl rfl
  | .call _ _ _ _ => exact .inl rfl

/-- The view counts the attempts. -/
theorem attempts_after (v : Seen) (h : List (Act machine)) :
    (view.after v h).attempts = attemptsAfter v.attempts h := by
  induction h generalizing v with
  | nil => rfl
  | cons a h ih =>
    match a with
    | .op _ _ o =>
      rw [View.after, ih]
      cases o with
      | setRetryCount n => cases n <;> rfl
      | _ => rfl
    | .issue _ _ c =>
      rw [View.after, ih]
      cases c <;> rfl
    | .call _ _ _ _ => exact ih v

/-! ## A check -/

/-- A check for the DID is in progress, and has asked for `k` registrations. -/
structure Checking (d : Did) (k : Nat) (v : Seen) : Prop where
  running : v.running = true
  did : v.did = some d
  retryCount : v.retryCount ≤ MAX_RETRIES
  attempts : v.attempts ≤ v.retryCount + k

section
variable {d : Did} {k : Nat} {v : Seen} {α : Type}

theorem Checking.asked (h : Checking d 0 v) : Checking d 1 v :=
  ⟨h.running, h.did, h.retryCount, Nat.le_succ_of_le h.attempts⟩

theorem Checking.waits (h : Checking d k v) (hk : k ≤ 1) : v.Waits :=
  ⟨h.running, h.retryCount, h.attempts.trans (Nat.add_le_add_left hk _)⟩

theorem Checking.setStatus (h : Checking d k v) (status : ChainReregStatus) :
    Checking d k (v.op (.setStatus status)) :=
  ⟨h.running, h.did, h.retryCount, h.attempts⟩

/-- The check goes on, whatever the outcome. -/
def Keeps (d : Did) (k : Nat) (m : Prog α) : Prop :=
  ∀ v, Checking d k v → view.Wp m v fun _ v' => Checking d k v'

theorem keeps_pure (a : α) : Keeps d k (pure a : Prog α) := fun _ h => .pure h

theorem keeps_throw (e : String) : Keeps d k (throw e : Prog α) := fun _ h => .throw h

variable {m : Prog α}

theorem Keeps.bind {β : Type} {f : α → Prog β} (hm : Keeps d k m) (hf : ∀ a, Keeps d k (f a)) :
    Keeps d k (m >>= f) :=
  fun v h => (hm v h).bind (fun a v' h' => hf a v' h') fun _ _ h' => h'

theorem Keeps.rescue {f : String → Prog α} (hm : Keeps d k m) (hf : ∀ e, Keeps d k (f e)) :
    Keeps d k (rescue m f) :=
  fun v h => (hm v h).tryCatch (fun _ _ h' => h') fun e v' h' => hf e v' h'

theorem Keeps.ignoring {m : Prog Unit} (hm : Keeps d k m) : Keeps d k (ignoring m) :=
  hm.rescue fun _ => keeps_pure ()

theorem keeps_await {c : Call} (hissue : ∀ v, view.issue c v = v) (hpre : ∀ v, view.CallPre c v) (hk : k ≤ 1) :
    Keeps d k (await c) := by
  intro v h
  refine .await (hpre v) ?_ fun r => ?_
  · rw [hissue]
    exact h.waits hk
  · rw [hissue]
    exact h

theorem keeps_set (binding : LocalChainBinding) (hk : k ≤ 1) : Keeps d k (ChainBindingStorage.set binding) :=
  keeps_await (fun _ => rfl) (fun _ => trivial) hk

theorem keeps_renamed (identityId newIdentityId : String) (did : Did) (hk : k ≤ 1) :
    Keeps d k (RealAuthService.renamed identityId newIdentityId did) := by
  unfold RealAuthService.renamed
  split
  · exact keeps_pure ()
  refine Keeps.bind (Keeps.ignoring ?_) fun _ => Keeps.ignoring ?_
  iterate 2
    · exact keeps_await (fun _ => rfl) (fun _ => trivial) hk

/-- The one registration that the check asks for. -/
theorem wp_register {identityId displayName : String} {identityType : Auth.IdentityType} {did : Did}
    (h : Checking d 0 v) :
    view.Wp (await (.register identityId displayName identityType did)) v fun _ v' => Checking d 1 v' := by
  have hasked : Checking d 1 (v.issue (.register identityId displayName identityType did)) :=
    ⟨h.running, h.did, h.retryCount, Nat.succ_le_succ h.attempts⟩
  exact .await trivial (hasked.waits (Nat.le_refl 1)) fun _ => hasked

theorem wp_reRegisterExistingIdentity (currentIdentity : Identity) (newChainId newHeight : Nat)
    (h : Checking d 0 v) :
    view.Wp (RealAuthService.reRegisterExistingIdentity currentIdentity newChainId newHeight) v
      fun _ v' => Checking d 1 v' := by
  unfold RealAuthService.reRegisterExistingIdentity
  split
  · exact .throw h.asked
  rename_i identityId hid
  have hrestore : Keeps d 0 (rescue (await (.restoreIdentityToHandleStore identityId)) fun err =>
      throw ("Failed to restore identity handle for re-registration: " ++ err)) :=
    .rescue (keeps_await (fun _ => rfl) (fun _ => trivial) (Nat.zero_le 1)) fun _ => keeps_throw _
  refine (hrestore v h).bind (fun _ v1 h1 => ?_) fun _ _ h1 => h1.asked
  have hproof : Keeps d 0 (await (.createRegistrationProof
      (Auth.orElse currentIdentity.displayName "Recovered Identity") currentIdentity.did)) :=
    keeps_await (fun _ => rfl) (fun _ => trivial) (Nat.zero_le 1)
  refine (hproof v1 h1).bind (fun _ v2 h2 => ?_) fun _ _ h2 => h2.asked
  refine (wp_register h2).bind (fun response v3 h3 => ?_) fun _ _ h3 => h3
  split
  · exact .throw h3
  · refine Keeps.bind (keeps_renamed _ _ _ (Nat.le_refl 1)) (fun _ => ?_) v3 h3
    exact .bind (keeps_set _ (Nat.le_refl 1)) fun _ => keeps_pure _

/-- The try block: no registration is left that the count does not have, unless it fails. -/
theorem wp_check {currentIdentity : Identity} (identityId : String) (hdid : currentIdentity.did = d)
    (h : Checking d 0 v) :
    view.Wp (check currentIdentity identityId) v fun
      | .ok _, v' => Checking d 0 v'
      | .error _, v' => Checking d 1 v' := by
  have hfetch : Keeps d 0 (await .fetchChainInfo) :=
    keeps_await (fun _ => rfl) (fun _ => trivial) (Nat.zero_le 1)
  have hget : Keeps d 0 ChainBindingStorage.get :=
    .rescue (keeps_await (fun _ => rfl) (fun _ => trivial) (Nat.zero_le 1)) fun _ => keeps_pure _
  refine (hfetch v h).bind (fun chainInfo v1 h1 => ?_) fun _ _ h1 => h1.asked
  refine (hget v1 h1).bind (fun binding v2 h2 => ?_) fun _ _ h2 => h2.asked
  split
  · -- the first time
    refine .opThen trivial ?_
    refine ((keeps_set _ (Nat.zero_le 1)) v2 h2).bind (fun _ v3 h3 => ?_) fun _ _ h3 => h3.asked
    exact .opThen trivial (.op trivial (h3.setStatus .done))
  split
  · -- the chain is the same
    exact .opThen trivial (.op trivial (h2.setStatus .done))
  refine .opThen trivial ?_
  refine (wp_reRegisterExistingIdentity _ _ _ (h2.setStatus .syncing)).bind
    (fun newBinding v3 h3 => ?_) fun _ _ h3 => h3
  -- a success sets the count to zero
  have hdone : ∀ v', Checking d 1 v' → view.Wp
      (op (.setRetryCount 0) >>= fun _ => done newBinding.identityId chainInfo.chain_id .registered) v' fun
        | .ok _, v' => Checking d 0 v'
        | .error _, v' => Checking d 1 v' := by
    intro v' h'
    refine .opThen trivial (.opThen trivial (.op trivial ?_))
    exact ⟨h'.running, h'.did, Nat.zero_le _, Nat.le_refl 0⟩
  split
  · have hupdated : v3.did = some currentIdentity.did := h3.did.trans (congrArg some hdid.symm)
    have hset : view.Wp (await (.setIdentity { currentIdentity with
        identityId := some newBinding.identityId })) v3 fun _ v' => v' = v3 :=
      .await hupdated (h3.waits (Nat.le_refl 1)) fun _ => rfl
    refine hset.bind (fun _ v4 h4 => .opThen ?_ (hdone _ ?_)) fun _ _ h4 => ?_
    · rw [h4]
      exact hupdated
    · rw [h4]
      exact ⟨h3.running, congrArg some hdid, h3.retryCount, h3.attempts⟩
    · rw [h4]
      exact h3
  · exact hdone v3 h3

/-- A check is over, up to its flag. -/
structure Over (v : Seen) : Prop where
  retryCount : v.retryCount ≤ MAX_RETRIES
  attempts : v.attempts ≤ v.retryCount + 1
  open_ : ¬v.GivenUp → v.attempts ≤ v.retryCount

theorem Over.lowered (h : Over v) : (v.op (.setRunning false)).Rests :=
  ⟨rfl, h.retryCount, h.attempts, h.open_⟩

theorem wp_retryLater (c : Closure) (msg : String) (h : Checking d 1 v) :
    view.Wp (retryLater c msg) v fun _ v' => Over v' := by
  refine .getThen fun s hs => ?_
  have hcount : s.retryCount = v.retryCount := hs.retryCount
  split
  · rename_i hlt
    refine .opThen trivial (.opThen trivial (.op trivial ?_))
    have hattempts : v.attempts ≤ s.retryCount + 1 := hcount ▸ h.attempts
    exact ⟨hlt, Nat.le_succ_of_le hattempts, fun _ => hattempts⟩
  · rename_i hnot
    refine .opThen trivial (.op trivial ?_)
    have hmax : v.retryCount = MAX_RETRIES := Nat.le_antisymm h.retryCount (hcount ▸ Nat.le_of_not_lt hnot)
    exact ⟨h.retryCount, h.attempts, fun hopen => absurd ⟨rfl, hmax⟩ hopen⟩

/-- A check that begins does so for the DID that is seen, and where the hook has not given up. -/
theorem wp_checkAndReregister {c : Closure} (h : v.Rests)
    (hc : begins c = true → ¬v.GivenUp ∧ didOf c.currentIdentity = v.did) :
    view.Wp (checkAndReregister c) v fun _ v' => v'.Rests := by
  refine .getThen fun s hs => ?_
  have hrunning : ¬s.running = true := by
    rw [show s.running = v.running from hs.running, h.running]
    exact Bool.false_ne_true
  rw [if_neg hrunning]
  split
  · rename_i currentIdentity hconnected hidentity
    split
    · exact .pure h
    rename_i identityId hid
    have hbegins : begins c = true := by
      rw [begins, hconnected, hidentity, Option.bind_some, hid]
      rfl
    obtain ⟨hopen, hdid⟩ := hc hbegins
    have hchecking : Checking currentIdentity.did 0
        (((v.op (.setRunning true)).op (.setStatus .checking)).op (.setErrorMessage none)) := by
      refine ⟨rfl, ?_, h.retryCount, h.open_ hopen⟩
      rw [hidentity] at hdid
      exact hdid.symm
    refine .opThen trivial (.opThen trivial (.opThen trivial ?_))
    have hover : view.Wp (rescue (check currentIdentity identityId) (retryLater c)) _ fun _ v' => Over v' :=
      (wp_check identityId rfl hchecking).tryCatch
        (fun _ v' h' => ⟨h'.retryCount, Nat.le_succ_of_le h'.attempts, fun _ => h'.attempts⟩)
        fun e v' h' => wp_retryLater c e h'
    refine .settle hover fun r v' h' => ?_
    split
    · exact .op trivial h'.lowered
    · exact .opThen trivial (.throw h'.lowered)
  · exact .pure h

end

/-! ## The hook -/

section
variable {x : Hook} {v : Seen} {w : Sys machine}

variable {s : State} {n i : Nat}

theorem givenUp_iff (h : v.Shows s) : GivenUp s ↔ v.GivenUp := by
  rw [GivenUp, Seen.GivenUp, h.status, h.retryCount]

theorem safe_effect (hs : v.Shows s) (h : v.Rests) (hc : begins (rendered s) = true → ¬GivenUp s) :
    view.SafeAt s (hookProg .effect) v :=
  View.Wp.toTask (wp_checkAndReregister h fun hbegins =>
    ⟨fun hv => hc hbegins ((givenUp_iff hs).2 hv), hs.did⟩) fun _ _ h' => h'

/-- The user's retry begins with a count of zero. -/
theorem safe_retry : view.SafeAt s (hookProg .retry) v := by
  have hzero : ((v.op (.setRetryCount 0)).op (.setRunning false)).Rests :=
    ⟨rfl, Nat.zero_le _, Nat.zero_le _, fun _ => Nat.le_refl 0⟩
  have hretry : view.Wp (Cmd.prog .retry) v fun _ v' => v'.Rests := by
    refine .opThen trivial (.opThen trivial (.getThen fun s hs => ?_))
    refine wp_checkAndReregister hzero fun _ => ⟨?_, hs.did⟩
    rintro ⟨-, hmax⟩
    have hzero : 0 = MAX_RETRIES := hmax
    exact nomatch hzero
  exact View.Wp.toTask hretry fun _ _ h' => h'

theorem safe_timeout (h : v.Rests) (hs : v.Shows s)
    (hc : ∀ delay c, s.timers[n]? = some (delay, c) → begins c = true →
      ¬GivenUp s ∧ didOf c.currentIdentity = didOf s.currentIdentity) :
    view.SafeAt s (hookProg (.timeout n)) v := by
  refine View.Wp.toTask (?_ : view.Wp _ v fun _ v' => v'.Rests) fun _ _ h' => h'
  dsimp only
  split
  · exact .pure h
  rename_i delay c htimer
  have hlowered : ((v.op (.clearTimeout n)).op (.setRunning false)).Rests :=
    ⟨rfl, h.retryCount, h.attempts, h.open_⟩
  refine .opThen trivial (.opThen trivial (wp_checkAndReregister hlowered fun hbegins => ?_))
  obtain ⟨hopen, hdid⟩ := hc delay c htimer hbegins
  exact ⟨fun hv => hopen ((givenUp_iff hs).2 hv), hdid.trans hs.did⟩

/-- The flag is up: the effect does nothing. -/
theorem effect_passes (h : s.running = true) :
    (hookProg .effect).run Cond.any i s n = some ⟨s, n, []⟩ ∧ (hookProg .effect).acts i s n = [] := by
  constructor
  · refine (Async.run_getThen (M := machine) _ _ i n s).trans ?_
    refine (Async.run_getThen (M := machine) _ _ i n s).trans ?_
    rw [if_pos h]
    rfl
  · refine (Async.acts_getThen (M := machine) _ _ i n s).trans ?_
    refine (Async.acts_getThen (M := machine) _ _ i n s).trans ?_
    rw [if_pos h]
    rfl

theorem timeout_passes {k : Nat} (h : s.timers[k]? = none) :
    (hookProg (.timeout k)).run Cond.any i s n = some ⟨s, n, []⟩ ∧ (hookProg (.timeout k)).acts i s n = [] := by
  constructor
  · refine (Async.run_getThen (M := machine) _ _ i n s).trans ?_
    rw [h]
    rfl
  · refine (Async.acts_getThen (M := machine) _ _ i n s).trans ?_
    rw [h]
    rfl

theorem attemptsAfter_append (n : Nat) (h h' : List (Act machine)) :
    attemptsAfter n (h ++ h') = attemptsAfter (attemptsAfter n h) h' := by
  have hv := fun h => attempts_after ⟨false, 0, .idle, none, n⟩ h
  rw [← hv (h ++ h'), View.after_append, attempts_after, hv h]

/-- One check at most, each attempt counted, each update the current identity's. -/
structure Inv (x : Hook) (v : Seen) : Prop where
  lone : view.Lone x.sys v
  attempts : attemptsAfter 0 x.acts = v.attempts
  own : ∀ a ∈ x.acts, Own a

theorem Inv.disciplined (h : Inv x v) : Disciplined x := by
  refine ⟨h.lone.length_le, ?_, h.own⟩
  have hwithin : v.retryCount ≤ MAX_RETRIES ∧ v.attempts ≤ v.retryCount + 1 := by
    rcases h.lone.tasks with ⟨-, hrests⟩ | ⟨t, -, -, hwaits, -⟩
    · exact ⟨hrests.retryCount, hrests.attempts⟩
    · exact ⟨hwaits.retryCount, hwaits.attempts⟩
  have hbound := h.attempts
  omega

theorem Inv.rests (h : Inv x v) (htasks : x.sys.tasks = []) : v.Rests := by
  rcases h.lone.tasks with ⟨-, hrests⟩ | ⟨t, ht, -⟩
  · exact hrests
  · rw [ht] at htasks
    simp at htasks

theorem Inv.running (h : Inv x v) (htasks : x.sys.tasks ≠ []) : x.sys.state.running = true := by
  rcases h.lone.tasks with ⟨hnil, -⟩ | ⟨t, -, -, hwaits, -⟩
  · exact absurd hnil htasks
  · exact h.lone.shows.running.trans hwaits.running

/-- Acts of the hook itself. -/
theorem Inv.acts (h : Inv x v) {acts : List (Act machine)} (hlone : view.Lone w (view.after v acts))
    (hmeets : ∀ a ∈ acts, view.Meets a) : Inv ⟨w, x.acts ++ acts⟩ (view.after v acts) := by
  refine ⟨hlone, ?_, fun a ha => ?_⟩
  · rw [attemptsAfter_append, h.attempts, attempts_after]
  rcases mem_append.1 ha with ha | ha
  · exact h.own a ha
  · exact own_of_meets (hmeets a ha)

theorem Inv.quiet (h : Inv x v) {v' : Seen} (hlone : view.Lone w v') (hattempts : v'.attempts = v.attempts) :
    Inv ⟨w, x.acts ++ []⟩ v' := by
  rw [append_nil]
  exact ⟨hlone, h.attempts.trans hattempts.symm, h.own⟩

theorem Inv.start_own (h : Inv x v) {c : HookCmd} (htasks : x.sys.tasks = [])
    (hsafe : view.SafeAt x.sys.state (hookProg c) v) (hstep : x.sys.step Cond.any hookProg (.start c) = some w) :
    ∃ v', Inv ⟨w, x.acts ++ x.sys.acts hookProg (.start c)⟩ v' := by
  obtain ⟨hlone, hmeets⟩ := View.Lone.start h.lone.shows htasks hsafe hstep
  exact ⟨_, h.acts hlone hmeets⟩

theorem Inv.step (h : Inv x v) {m : Move machine HookCmd} (hc : Condition x m) : ∃ v', Inv (x.step m) v' := by
  unfold Hook.step
  split
  · exact ⟨v, h⟩
  rename_i w hstep
  cases m with
  | perform i r =>
    obtain ⟨hlone, hmeets⟩ := h.lone.perform hstep
    exact ⟨_, h.acts hlone hmeets⟩
  | resume i =>
    obtain ⟨hlone, hmeets⟩ := h.lone.resume hstep
    exact ⟨_, h.acts hlone hmeets⟩
  | start c =>
    cases c with
    | connectTo chainId height =>
      have hlone := h.lone.passed rfl (h.lone.shows.op x.sys.next (.connectTo chainId height)) (.inl rfl) hstep
      exact ⟨_, h.quiet hlone rfl⟩
    | setConnected isConnected =>
      have hlone := h.lone.passed rfl (h.lone.shows.op x.sys.next (.setConnected isConnected)) (.inl rfl) hstep
      exact ⟨_, h.quiet hlone rfl⟩
    | setCurrentIdentity identity =>
      have hsame : v.op (.setCurrentIdentity identity) = v ∨
          x.sys.tasks = [] ∧ (v.Rests → (v.op (.setCurrentIdentity identity)).Rests) := by
        by_cases htasks : x.sys.tasks = []
        · exact .inr ⟨htasks, fun hv => ⟨hv.running, hv.retryCount, hv.attempts, hv.open_⟩⟩
        · left
          rw [Seen.op, (hc htasks).trans h.lone.shows.did]
      have hlone := h.lone.passed rfl (h.lone.shows.op x.sys.next (.setCurrentIdentity identity)) hsame hstep
      exact ⟨_, h.quiet hlone rfl⟩
    | effect =>
      by_cases htasks : x.sys.tasks = []
      · exact h.start_own htasks (safe_effect h.lone.shows (h.rests htasks) (hc htasks)) hstep
      obtain ⟨hrun, hacts⟩ := effect_passes (h.running htasks)
      have hlone := h.lone.passed hrun h.lone.shows (.inl rfl) hstep
      have hnone : x.sys.acts hookProg (.start .effect) = [] := hacts
      rw [hnone]
      exact ⟨_, h.quiet hlone rfl⟩
    | retry => exact h.start_own hc (safe_retry) hstep
    | timeout n =>
      cases htimer : x.sys.state.timers[n]? with
      | none =>
        obtain ⟨hrun, hacts⟩ := timeout_passes htimer
        have hlone := h.lone.passed hrun h.lone.shows (.inl rfl) hstep
        have hnone : x.sys.acts hookProg (.start (.timeout n)) = [] := hacts
        rw [hnone]
        exact ⟨_, h.quiet hlone rfl⟩
      | some timer =>
        have htasks := (hc timer.1 timer.2 htimer).1
        exact h.start_own htasks
          (safe_timeout (h.rests htasks) h.lone.shows fun delay c hc' => (hc delay c hc').2) hstep

/-- The hook of a component that has just been mounted. -/
def Mounted (s : State) : Prop := s.running = false ∧ s.retryCount = 0 ∧ s.status = .idle

/-- **One check at a time**, at most `1 + MAX_RETRIES` attempts, each for the current identity, throughout a
    run that meets the condition. -/
theorem single_flight {s : State} (hs : Mounted s) {ms : List (Move machine HookCmd)}
    (h : StepsMeet Hook.step Condition ⟨Sys.idle s, []⟩ ms) :
    HoldsThroughout Hook.step Disciplined ⟨Sys.idle s, []⟩ ms := by
  obtain ⟨hrunning, hcount, hstatus⟩ := hs
  have hmounted : Inv ⟨Sys.idle s, []⟩ ⟨false, 0, .idle, didOf s.currentIdentity, 0⟩ := by
    refine ⟨⟨⟨hrunning, hcount, hstatus, rfl⟩, .inl ⟨rfl, ?_⟩⟩, rfl, fun a ha => absurd ha not_mem_nil⟩
    exact ⟨rfl, Nat.zero_le _, Nat.zero_le _, fun _ => Nat.le_refl 0⟩
  exact StepsMeet.holdsThroughout (I := fun x => ∃ v, Inv x v) (fun _ _ ⟨_, hi⟩ hc => hi.step hc)
    (fun _ ⟨_, hi⟩ => hi.disciplined) ⟨_, hmounted⟩ h

end

/-! ## Checks of a device whose chain has changed -/

/-- alice was registered on chain 2; the node is of chain 1. -/
def changed : State :=
  { fresh with currentIdentity := some alice, stored := some ⟨2, 5, "a1", "", "", ""⟩ }

/-- The `i`-th program gets its answers one after the other. -/
def replies (i : Nat) (rs : List Reply) : List (Move machine HookCmd) :=
  rs.flatMap fun r => [.perform i r, .resume i]

/-- The node is not reached; the timer's check reaches it. -/
def retriedRun : List (Move machine HookCmd) :=
  [.start .effect, .perform 0 (.fails "offline"), .resume 0, .start (.timeout 0), .perform 1 .ok, .resume 1]

theorem single_flight_retriedRun :
    HoldsThroughout Hook.step Disciplined ⟨Sys.idle changed, []⟩ retriedRun := by
  refine single_flight ⟨rfl, rfl, rfl⟩ ⟨?_, trivial, trivial, ?_, trivial, trivial, trivial⟩
  · exact fun _ _ hgivenUp => nomatch hgivenUp.1
  · intro delay c htimer
    cases htimer
    exact ⟨rfl, fun _ => ⟨fun hgivenUp => absurd hgivenUp.1 (by decide), rfl⟩⟩

/-- The user retries while the check is in progress. -/
def retryRun : List (Move machine HookCmd) := [.start .effect, .start .retry]

/-- The registration fails, in each check. -/
def failed (i : Nat) : List (Move machine HookCmd) := replies i [.ok, .ok, .ok, .ok, .fails "offline"]

/-- A second effect before the first timer fires; the hook has given up when the last one does. -/
def timerRun : List (Move machine HookCmd) :=
  [.start .effect] ++ failed 0 ++ [.start .effect] ++ failed 1 ++ [.start (.timeout 0)] ++ failed 2 ++
    [.start (.timeout 0)] ++ failed 3 ++ [.start (.timeout 0)] ++ failed 4

/-- The identity is switched while alice's registration, under a new id, is stored. -/
def switchRun : List (Move machine HookCmd) :=
  [.start .effect] ++ replies 0 [.ok, .ok, .ok, .ok, .response (.ok (some ⟨some "a9", none, none, none⟩)), .ok,
    .ok] ++ [.start (.setCurrentIdentity (some bob))] ++ replies 0 [.ok, .ok]

/-- Two checks are in progress, five registrations are asked for without a success, and bob's identity is
    replaced by alice's. -/
theorem not_single_flight :
    ¬HoldsThroughout Hook.step Disciplined ⟨Sys.idle changed, []⟩ retryRun ∧
    ¬HoldsThroughout Hook.step Disciplined ⟨Sys.idle changed, []⟩ timerRun ∧
    ¬HoldsThroughout Hook.step Disciplined ⟨Sys.idle changed, []⟩ switchRun := by
  refine ⟨fun h => ?_, fun h => ?_, fun h => ?_⟩
  · exact absurd h.last.single (by decide)
  · exact absurd h.last.bounded (by decide +kernel)
  · exact absurd h.last.own (by decide +kernel)

end ChainReregistration.SingleFlight
