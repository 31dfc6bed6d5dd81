import Mathlib.Data.List.Basic
import SovereignMobile.EventLoop.Sequential

/-! # The bootstrap against the configured gateways

`refreshActiveValidator` installs one gateway after the other, natively and as the active target, and
stays on the first one whose directory it accepts. A gateway that is rejected afterwards is not
uninstalled: when all of them fail, the target is the one that was installed last. The runs follow
one another. -/

namespace NetworkBootstrap

open EventLoop
open Option (any filter)

/-- An entry of `BOOTSTRAP_GATEWAYS`: the generated configuration has none without host or DID. -/
structure BootstrapGateway where
  host : String
  ip : String
  did : String
  host_ne : host ≠ ""
  did_ne : did ≠ ""
  deriving DecidableEq

/-- `activeTarget` -/
structure Target where
  host : String
  port : Int
  sni : String
  deriving DecidableEq

/-- The active validator of the native module. -/
structure Validator where
  quinnControlPlaneHost : String
  quinnControlPlanePort : Int
  quinnControlPlaneServerName : String
  activeExpectedDid : String
  deriving DecidableEq

def Validator.target (v : Validator) : Target :=
  ⟨v.quinnControlPlaneHost, v.quinnControlPlanePort, v.quinnControlPlaneServerName⟩

structure DirectoryValidator where
  did : String
  endpoint : String
  status : String
  deriving DecidableEq

/-- The answer of `fetchDirectory`, when it is not null. -/
structure DirectoryView where
  validators : List DirectoryValidator
  local_did : Option String

structure PersistedValidator where
  host : String
  port : Int
  did : String
  sni : String
  chosenAt : Nat
  deriving DecidableEq

/-- The generated configuration, and whether the native module has `setActiveValidator`. -/
structure Config where
  nativeQuic : Bool
  gateways : List BootstrapGateway
  quicPort : Int
  nodeHost : String
  nodePort : Int

/-- What the outside does at one gateway: whether the bridge passes `setActiveValidator` on, and the
    directory that answers. -/
structure Attempt where
  bridge : Bool
  directory : Option DirectoryView

/-- What the outside does in one run: at the gateway at each position, in `AsyncStorage.setItem`, and
    the time. -/
structure Run where
  attempts : Nat → Attempt
  setItem : Bool
  now : Nat

structure State where
  activeTarget : Target
  native : Validator
  activeValidatorV1 : Option PersistedValidator
  /-- history: the gateway that last answered with its own DID -/
  worked : Option BootstrapGateway
  /-- history: the validators that, when they last reported a DID, reported a different one -/
  rejected : List Validator

def BootstrapGateway.dialHost (gw : BootstrapGateway) : String :=
  if gw.ip = "" then gw.host else gw.ip

/-- `dir.local_did && dir.local_did !== expectedDid` -/
def DirectoryView.reportsOther (dir : DirectoryView) (expectedDid : String) : Bool :=
  match dir.local_did with
  | some did => decide (did ≠ "") && decide (did ≠ expectedDid)
  | none => false

/-- The directory names the expected DID. -/
def DirectoryView.confirms (dir : DirectoryView) (expectedDid : String) : Bool :=
  decide (dir.local_did = some expectedDid)

/-- `NativeQuic.setActiveValidator`, the same on both platforms. -/
def setActiveValidator (host : String) (port : Int) (expectedDid sni : String) :
    Except String Validator :=
  if host = "" then .error "host is required"
  else if port ≤ 0 ∨ 65536 ≤ port then .error "port must be 1..65535"
  else if expectedDid = "" then
    .error "expectedDid is required (no SPKI pinning — identity is the DID)"
  else .ok ⟨host, port, if sni = "" then host else sni, expectedDid⟩

namespace Config

variable (c : Config)

def initialTarget : Target :=
  match c.gateways.head? with
  | none => ⟨"", c.quicPort, ""⟩
  | some primary => ⟨primary.dialHost, c.quicPort, primary.host⟩

/-- The native module reads the same list, and another port. -/
def defaultBootstrap : Validator :=
  match c.gateways.head? with
  | none => ⟨c.nodeHost, c.nodePort, c.nodeHost, ""⟩
  | some primary => ⟨primary.dialHost, c.nodePort, primary.host, primary.did⟩

def initial : State where
  activeTarget := c.initialTarget
  native := c.defaultBootstrap
  activeValidatorV1 := none
  worked := none
  rejected := []

/-- The validator that a gateway is installed as. -/
def validator (gw : BootstrapGateway) : Validator :=
  ⟨gw.dialHost, c.quicPort, gw.host, gw.did⟩

/-- The history: the directory of `gw` has answered. -/
def answered (gw : BootstrapGateway) (dir : DirectoryView) (s : State) : State :=
  if dir.confirms gw.did then
    { s with worked := some gw, rejected := s.rejected.filter (· ≠ c.validator gw) }
  else if dir.reportsOther gw.did then { s with rejected := c.validator gw :: s.rejected }
  else s

def tryBootstrapGateway (gw : BootstrapGateway) (a : Attempt) (s : State) :
    Option DirectoryView × State :=
  if !a.bridge then (none, s)
  else match setActiveValidator gw.dialHost c.quicPort gw.did gw.host with
    | .error _ => (none, s)
    | .ok v =>
      let s := { s with native := v, activeTarget := ⟨gw.dialHost, c.quicPort, gw.host⟩ }
      match a.directory with
      | none => (none, s)
      | some dir => (if dir.reportsOther gw.did then none else some dir, c.answered gw dir s)

def persistSelection (setItem : Bool) (v : PersistedValidator) (s : State) : State :=
  if setItem then { s with activeValidatorV1 := some v } else s

/-- The loop over the gateways; `i` is the position of the first of them. -/
def tryGateways (r : Run) : Nat → List BootstrapGateway → State → Option DirectoryValidator × State
  | _, [], s => (none, s)
  | i, gw :: gws, s =>
    match c.tryBootstrapGateway gw (r.attempts i) s with
    | (none, s) => tryGateways r (i + 1) gws s
    | (some dir, s) =>
      (dir.validators.find? (·.did = gw.did),
        persistSelection r.setItem ⟨gw.host, c.quicPort, gw.did, gw.host, r.now⟩ s)

def refreshActiveValidator (r : Run) (s : State) : Option DirectoryValidator × State :=
  if !c.nativeQuic then (none, s)
  else if c.gateways = [] then (none, s)
  else c.tryGateways r 0 c.gateways s

/-- One run, as a step. -/
def refresh (s : State) (r : Run) : State :=
  (c.refreshActiveValidator r s).2

/-! ## What is expected when a run settles -/

/-- The gateway that last answered with its own DID, in this run or an earlier one, or the primary. -/
def expected (s : State) : Option BootstrapGateway :=
  s.worked.or c.gateways.head?

/-- The active target, in JavaScript and natively, is the expected gateway, and it is none that
    reported a different DID. -/
def Settled (s : State) : Prop :=
  ∃ gw, c.expected s = some gw ∧ s.native = c.validator gw ∧
    s.activeTarget = s.native.target ∧ s.native ∉ s.rejected

/-! ## The condition -/

/-- The native module takes the gateway. -/
def installs (a : Attempt) : Bool :=
  a.bridge && decide (0 < c.quicPort) && decide (c.quicPort < 65536)

/-- The gateways that a run installs, in order, each with what its directory answers. -/
def installedFrom (r : Run) :
    Nat → List BootstrapGateway → List (BootstrapGateway × Option DirectoryView)
  | _, [] => []
  | i, gw :: gws =>
    let a := r.attempts i
    if !c.installs a then installedFrom r (i + 1) gws
    else if a.directory.any fun dir => !dir.reportsOther gw.did then [(gw, a.directory)]
    else (gw, a.directory) :: installedFrom r (i + 1) gws

def installed (r : Run) : List (BootstrapGateway × Option DirectoryView) :=
  if c.nativeQuic then c.installedFrom r 0 c.gateways else []

/-- The last gateway that the run installs answers with its own DID; or it is the one that was
    expected before the run, and does not report another DID in it. -/
def StaysOnWorking (s : State) (r : Run) : Prop :=
  ∀ x, (c.installed r).getLast? = some x →
    (x.2.any fun dir => dir.confirms x.1.did) = true ∨
      ∃ gw, c.expected s = some gw ∧ c.validator x.1 = c.validator gw ∧
        ∀ y ∈ c.installed r, c.validator y.1 = c.validator gw →
          (y.2.any fun dir => dir.reportsOther y.1.did) = false

/-! ## What one run does -/

variable {c}

theorem dialHost_ne (gw : BootstrapGateway) : gw.dialHost ≠ "" := by
  unfold BootstrapGateway.dialHost
  split
  · exact gw.host_ne
  · rename_i hip
    exact hip

/-- The state once a gateway is installed and its directory has answered, if it does. -/
def install (c : Config) (s : State) (x : BootstrapGateway × Option DirectoryView) : State :=
  let s := { s with native := c.validator x.1, activeTarget := (c.validator x.1).target }
  match x.2 with
  | none => s
  | some dir => c.answered x.1 dir s

/-- The directory of the gateway is accepted. -/
def accepts (x : BootstrapGateway × Option DirectoryView) : Bool :=
  x.2.any fun dir => !dir.reportsOther x.1.did

variable {gw : BootstrapGateway} {a : Attempt} {s : State} {r : Run}
    {x : BootstrapGateway × Option DirectoryView}

theorem setActiveValidator_eq (hb : a.bridge = true) (hi : c.installs a = true) :
    setActiveValidator gw.dialHost c.quicPort gw.did gw.host = .ok (c.validator gw) := by
  simp only [installs, Bool.and_eq_true, decide_eq_true_eq] at hi
  unfold setActiveValidator
  rw [if_neg (dialHost_ne gw), if_neg (by omega), if_neg gw.did_ne, if_neg gw.host_ne]
  rfl

theorem setActiveValidator_error (hb : a.bridge = true) (hi : c.installs a = false) :
    ∃ e, setActiveValidator gw.dialHost c.quicPort gw.did gw.host = .error e := by
  simp only [installs, hb, Bool.true_and, Bool.and_eq_false_iff, decide_eq_false_iff_not] at hi
  unfold setActiveValidator
  rw [if_neg (dialHost_ne gw), if_pos (by omega)]
  exact ⟨_, rfl⟩

theorem tryBootstrapGateway_refused (hi : c.installs a = false) :
    c.tryBootstrapGateway gw a s = (none, s) := by
  unfold tryBootstrapGateway
  cases hb : a.bridge with
  | false => rfl
  | true =>
    obtain ⟨e, he⟩ := setActiveValidator_error hb hi
    rw [he]
    rfl

theorem tryBootstrapGateway_installed (hi : c.installs a = true) : c.tryBootstrapGateway gw a s =
      (a.directory.filter fun dir => !dir.reportsOther gw.did, c.install s (gw, a.directory)) := by
  have hb : a.bridge = true := by
    simp only [installs, Bool.and_eq_true] at hi
    exact hi.1.1
  unfold tryBootstrapGateway
  rw [hb, setActiveValidator_eq hb hi]
  cases hdir : a.directory with
  | none => rfl
  | some dir =>
    cases hother : dir.reportsOther gw.did with
    | false | true =>
      simp only [hother, filter]
      rfl

/-- A run installs its gateways one after the other, and only persists its choice besides. -/
theorem tryGateways_eq (r : Run) (gws : List BootstrapGateway) : ∀ (i : Nat) (s : State),
    ∃ p, (c.tryGateways r i gws s).2 =
      { (c.installedFrom r i gws).foldl c.install s with activeValidatorV1 := p } := by
  induction gws with
  | nil => exact fun i s => ⟨s.activeValidatorV1, rfl⟩
  | cons gw gws ih =>
    intro i s
    unfold tryGateways installedFrom
    dsimp only
    cases hi : c.installs (r.attempts i) with
    | false =>
      rw [tryBootstrapGateway_refused hi]
      exact ih (i + 1) s
    | true =>
      rw [tryBootstrapGateway_installed hi]
      cases hdir : (r.attempts i).directory with
      | none => exact ih (i + 1) _
      | some dir =>
        cases hother : dir.reportsOther gw.did with
        | true =>
          simp only [filter, hother, any]
          exact ih (i + 1) _
        | false =>
          simp only [filter, hother, any]
          cases r.setItem with
          | false | true => exact ⟨_, rfl⟩

theorem refresh_eq (r : Run) (s : State) : ∃ p, c.refresh s r =
    { (c.installed r).foldl c.install s with activeValidatorV1 := p } := by
  unfold refresh refreshActiveValidator installed
  cases c.nativeQuic with
  | false => exact ⟨s.activeValidatorV1, rfl⟩
  | true =>
    split
    · contradiction
    split
    · rename_i hnil
      rw [hnil]
      exact ⟨s.activeValidatorV1, rfl⟩
    · exact tryGateways_eq r c.gateways 0 s

/-- A run goes on only from a gateway that it does not accept. -/
theorem not_accepts_of_installedFrom (r : Run) (gws : List BootstrapGateway) :
    ∀ {i : Nat} {xs : List (BootstrapGateway × Option DirectoryView)}
      {x : BootstrapGateway × Option DirectoryView}, c.installedFrom r i gws = xs ++ [x] →
      ∀ y ∈ xs, accepts y = false := by
  induction gws with
  | nil =>
    intro i xs x h
    exact absurd h.symm (by simp [installedFrom])
  | cons gw gws ih =>
    intro i xs x h y hy
    unfold installedFrom at h
    dsimp only at h
    split at h
    · exact ih h y hy
    split at h
    · have hnil : xs = [] := by
        cases xs with
        | nil => rfl
        | cons z zs => exact absurd (congrArg List.length h) (by simp)
      rw [hnil] at hy
      simp at hy
    · rename_i hrejected
      cases xs with
      | nil => simp at hy
      | cons z zs =>
        obtain ⟨rfl, htail⟩ := List.cons.inj h
        rcases List.mem_cons.1 hy with rfl | hy
        · exact Bool.eq_false_iff.2 hrejected
        · exact ih htail y hy

theorem not_accepts_of_installed {xs : List (BootstrapGateway × Option DirectoryView)}
    (h : c.installed r = xs ++ [x]) :
    ∀ y ∈ xs, accepts y = false := by
  unfold installed at h
  split at h
  · exact not_accepts_of_installedFrom r c.gateways h
  · exact absurd h.symm (by simp)

/-! ## What is left of the gateways that were installed -/

theorem not_reportsOther_of_confirms {dir : DirectoryView} {did : String}
    (h : dir.confirms did = true) : dir.reportsOther did = false := by
  simp only [DirectoryView.confirms, decide_eq_true_eq] at h
  simp [DirectoryView.reportsOther, h]

theorem not_confirms_of_not_accepts (h : accepts x = false) :
    (x.2.any fun dir => dir.confirms x.1.did) = false := by
  obtain ⟨gw, directory⟩ := x
  cases directory with
  | none => rfl
  | some dir =>
    have hother : dir.reportsOther gw.did = true := by simpa [accepts] using h
    refine Bool.eq_false_iff.2 fun hconfirms => ?_
    have hnot := not_reportsOther_of_confirms hconfirms
    exact nomatch hother.symm.trans hnot

theorem install_of_confirms (h : (x.2.any fun dir => dir.confirms x.1.did) = true) :
    (c.install s x).worked = some x.1 ∧ c.validator x.1 ∉ (c.install s x).rejected := by
  obtain ⟨gw, directory⟩ := x
  cases directory with
  | none => simp at h
  | some dir =>
    have hconfirms : dir.confirms gw.did = true := h
    simp [install, answered, hconfirms]

/-- Unless the directory confirms the DID, the history gains at most a rejection. -/
theorem install_of_not_confirms (h : (x.2.any fun dir => dir.confirms x.1.did) = false) :
    (c.install s x).worked = s.worked ∧ ∀ v, v ∈ (c.install s x).rejected ↔ v ∈ s.rejected ∨
        (c.validator x.1 = v ∧ (x.2.any fun dir => dir.reportsOther x.1.did) = true) := by
  obtain ⟨gw, directory⟩ := x
  cases directory with
  | none => exact ⟨rfl, fun v => by simp [install]⟩
  | some dir =>
    have hconfirms : dir.confirms gw.did = false := h
    cases hother : dir.reportsOther gw.did with
    | false => exact ⟨by simp [install, answered, hconfirms, hother],
        fun v => by simp [install, answered, hconfirms, hother]⟩
    | true =>
      refine ⟨by simp [install, answered, hconfirms, hother], fun v => ?_⟩
      simp only [install, answered, hconfirms, hother, any, List.mem_cons,
        Bool.false_eq_true, if_false, if_true, and_true]
      exact ⟨fun h => h.symm.imp id Eq.symm, fun h => h.symm.imp Eq.symm id⟩

theorem foldl_install_of_not_accepts (xs : List (BootstrapGateway × Option DirectoryView)) :
    ∀ s : State, (∀ y ∈ xs, accepts y = false) → (xs.foldl c.install s).worked = s.worked ∧
      ∀ v, v ∈ (xs.foldl c.install s).rejected ↔ v ∈ s.rejected ∨
        ∃ y ∈ xs, c.validator y.1 = v ∧ (y.2.any fun dir => dir.reportsOther y.1.did) = true := by
  induction xs with
  | nil => exact fun s _ => ⟨rfl, fun v => by simp⟩
  | cons x xs ih =>
    intro s h
    obtain ⟨hworked, hrejected⟩ := ih (c.install s x) fun y hy => h y (List.mem_cons_of_mem _ hy)
    obtain ⟨hworked', hrejected'⟩ := install_of_not_confirms
      (not_confirms_of_not_accepts (h x List.mem_cons_self))
    refine ⟨hworked.trans hworked', fun v => ?_⟩
    rw [List.foldl_cons, hrejected, hrejected', or_assoc]
    simp only [List.mem_cons, exists_eq_or_imp]

theorem native_install (s : State) (x : BootstrapGateway × Option DirectoryView) :
    (c.install s x).native = c.validator x.1 := by
  unfold install answered
  split
  · rfl
  split
  · rfl
  · split <;> rfl

theorem activeTarget_install (s : State) (x : BootstrapGateway × Option DirectoryView) :
    (c.install s x).activeTarget = (c.validator x.1).target := by
  unfold install answered
  split
  · rfl
  split
  · rfl
  · split <;> rfl

/-! ## When a run settles -/

/-- A run that installs nothing changes nothing but what is persisted. -/
theorem settled_refresh_of_nil (h : c.installed r = []) :
    c.Settled (c.refresh s r) ↔ c.Settled s := by
  obtain ⟨p, hp⟩ := refresh_eq r s
  rw [hp, h]
  exact .rfl

/-- A run that installs a gateway settles as expected exactly if the last one it installs answers
    with its own DID, or was the expected one. -/
theorem settled_refresh (hne : c.installed r ≠ [])
    (hs : ∀ gw, c.expected s = some gw → c.validator gw ∉ s.rejected) :
    c.Settled (c.refresh s r) ↔ c.StaysOnWorking s r := by
  obtain ⟨xs, x, hx⟩ := (List.eq_nil_or_concat _).resolve_left hne
  rw [List.concat_eq_append] at hx
  obtain ⟨p, hp⟩ := refresh_eq r s
  obtain ⟨hworked, hrejected⟩ := foldl_install_of_not_accepts xs s (not_accepts_of_installed hx)
  rw [hx, List.foldl_append, List.foldl_cons, List.foldl_nil] at hp
  set t := xs.foldl c.install s
  have hlast : (c.installed r).getLast? = some x := by rw [hx, List.getLast?_concat]
  have hnative : (c.refresh s r).native = c.validator x.1 := by
    rw [hp]
    exact native_install t x
  have htarget : (c.refresh s r).activeTarget = (c.refresh s r).native.target := by
    rw [hnative, hp]
    exact activeTarget_install t x
  cases hconfirms : x.2.any fun dir => dir.confirms x.1.did with
  | true =>
    obtain ⟨hworks, hout⟩ := install_of_confirms hconfirms
    constructor
    · intro _ y hy
      rw [Option.some.inj (hlast.symm.trans hy)] at hconfirms
      exact .inl hconfirms
    intro _
    refine ⟨x.1, ?_, hnative, htarget, ?_⟩
    · rw [hp, expected]
      rw [hworks]
      rfl
    · rw [hnative, hp]
      exact hout
  | false =>
    obtain ⟨hworks, hrejects⟩ := install_of_not_confirms hconfirms
    have hexpected : c.expected (c.refresh s r) = c.expected s := by
      rw [hp, expected, expected]
      rw [hworks, hworked]
    -- what is rejected after the run, when it was not before
    have hmem : ∀ v, v ∉ s.rejected → (v ∈ (c.refresh s r).rejected ↔ ∃ y ∈ c.installed r,
        c.validator y.1 = v ∧ (y.2.any fun dir => dir.reportsOther y.1.did) = true) := by
      intro v hv
      rw [hp]
      rw [hrejects, hrejected, hx]
      simp [hv, exists_or]
    constructor
    · rintro ⟨gw, hgw, hv, _, hout⟩ y hy
      obtain rfl := Option.some.inj (hlast.symm.trans hy)
      rw [hexpected] at hgw
      refine .inr ⟨gw, hgw, hnative.symm.trans hv, fun z hz hzv => ?_⟩
      rw [hv, hmem _ (hs gw hgw)] at hout
      exact Bool.eq_false_iff.2 fun hother => hout ⟨z, hz, hzv, hother⟩
    · intro h
      rcases h x hlast with hc | ⟨gw, hgw, hv, hothers⟩
      · exact nomatch hc.symm.trans hconfirms
      refine ⟨gw, hexpected.trans hgw, hnative.trans hv, htarget, ?_⟩
      rw [hnative, hv, hmem _ (hs gw hgw)]
      rintro ⟨z, hz, hzv, hother⟩
      exact nomatch hother.symm.trans (hothers z hz hzv)

theorem staysOnWorking_of_nil (h : c.installed r = []) : c.StaysOnWorking s r := by
  intro x hx
  rw [h] at hx
  simp at hx

theorem settled_initial : c.Settled c.initial ↔ c.gateways ≠ [] ∧ c.quicPort = c.nodePort := by
  unfold Settled expected initial initialTarget defaultBootstrap
  cases hgws : c.gateways with
  | nil => simp
  | cons gw gws =>
    simp only [List.head?_cons, Option.or, Option.some.injEq, exists_eq_left', validator,
      Validator.target, Validator.mk.injEq]
    constructor
    · rintro ⟨⟨_, hport, _⟩, _⟩
      exact ⟨by simp, hport.symm⟩
    · rintro ⟨_, hport⟩
      simp [hport]

/-- After every run the target is the expected gateway exactly if there is one to expect, the two
    configured ports are equal or the first run installs a gateway, and every run that installs
    gateways ends with one that answers with its DID or with the one that was expected. -/
theorem settles_iff (c : Config) (r : Run) (rs : List Run) :
    HoldsThroughout c.refresh c.Settled (c.refresh c.initial r) rs ↔
      c.gateways ≠ [] ∧ (c.quicPort = c.nodePort ∨ c.installed r ≠ []) ∧
        StepsMeet c.refresh c.StaysOnWorking c.initial (r :: rs) := by
  have hnext : ∀ s r, True → c.Settled s → (c.Settled (c.refresh s r) ↔ c.StaysOnWorking s r) := by
    rintro s r - ⟨gw, hgw, hv, htarget, hout⟩
    by_cases hnil : c.installed r = []
    · rw [settled_refresh_of_nil hnil]
      exact ⟨fun _ => staysOnWorking_of_nil hnil, fun _ => ⟨gw, hgw, hv, htarget, hout⟩⟩
    · refine settled_refresh hnil fun gw' hgw' => ?_
      rw [hgw] at hgw'
      rw [← Option.some.inj hgw', ← hv]
      exact hout
  have hfirst : c.Settled (c.refresh c.initial r) ↔ c.gateways ≠ [] ∧
      (c.quicPort = c.nodePort ∨ c.installed r ≠ []) ∧ c.StaysOnWorking c.initial r := by
    by_cases hnil : c.installed r = []
    · rw [settled_refresh_of_nil hnil, settled_initial]
      simp [hnil, staysOnWorking_of_nil hnil]
    · rw [settled_refresh hnil fun _ _ => by simp [initial]]
      refine ⟨fun h => ⟨fun hgws => hnil ?_, .inr hnil, h⟩, fun h => h.2.2⟩
      unfold installed
      rw [hgws]
      exact ite_self _
  have hthen : c.Settled (c.refresh c.initial r) →
      (HoldsThroughout c.refresh c.Settled (c.refresh c.initial r) rs ↔
        StepsMeet c.refresh c.StaysOnWorking (c.refresh c.initial r) rs) :=
    holdsThroughout_iff (fun _ _ _ => trivial) hnext rs _ trivial
  constructor
  · intro h
    obtain ⟨hgws, hport, hstays⟩ := hfirst.1 h.head
    exact ⟨hgws, hport, hstays, (hthen h.head).1 h⟩
  · rintro ⟨hgws, hport, hstays, hrest⟩
    exact (hthen (hfirst.2 ⟨hgws, hport, hstays⟩)).2 hrest

/-! ## The fallback gateway is an impostor -/

def twoGateways : Config where
  nativeQuic := true
  gateways := [⟨"g1.example", "10.0.0.1", "did:zhtp:g1", by decide, by decide⟩,
    ⟨"g2.example", "10.0.0.2", "did:zhtp:g2", by decide, by decide⟩]
  quicPort := 9334
  nodeHost := "g1.example"
  nodePort := 9334

/-- The primary does not answer, and what answers as the fallback is another node. -/
def impostor : Run where
  attempts i := ⟨true, if i = 0 then none else some ⟨[], some "did:zhtp:other"⟩⟩
  setItem := true
  now := 0

theorem not_settled : ¬ HoldsThroughout twoGateways.refresh twoGateways.Settled
    (twoGateways.refresh twoGateways.initial impostor) [] := by
  rintro ⟨gw, _, _, _, hout⟩
  refine hout ?_
  decide

end Config

end NetworkBootstrap
