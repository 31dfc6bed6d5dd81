import Mathlib.Data.Rat.Floor
import SovereignMobile.EventLoop.Sequential
import SovereignMobile.Payments.SendScreen
import SovereignMobile.Text.Decimals

/-! # The reward counter

`useRewardCounter.ts` shows the rewards of the current identity. They are fetched when it has changed and
when the counter's own gate has: the time from which an identity may have rewards. An answer sets the
counter whoever it is for. -/

namespace RewardCounter

open Auth (includes trim)
open EventLoop List
open SendTokensScreen (isDigits)

/-- Atoms as the node reports them; other values count as the text that `String` makes of them. -/
inductive Amount where
  | missing
  | number (v : ℚ)
  | notFinite
  | text (v : String)
  deriving DecidableEq

/-- In whole SOV, not rounded. From 10^21 on, `String` gives no digits alone. -/
def atomsToSov : Amount → ℚ
  | .missing | .notFinite => 0
  | .number v => if 0 ≤ v ∧ v < 10 ^ 21 then ⌊v⌋₊ / 10 ^ 18 else 0
  | .text v => if isDigits (trim v).toList then Decimals.number (trim v).toList / 10 ^ 18 else 0

structure PoUWRewardsResponse (R : Type) where
  client_did : String
  total_rewards : Amount
  total_earned : Amount
  total_paid : Amount
  pending : Amount
  rewards : List R
  deriving DecidableEq

def ZERO_REWARDS {R : Type} (did : String) : PoUWRewardsResponse R :=
  ⟨did, .number 0, .number 0, .number 0, .number 0, []⟩

/-- What `getRewards` is rejected with: `message` if it is an `Error`, and `ageSecs` and `requiredSecs` if
    `extractMaturationSecs` finds them. -/
structure Failure where
  status : Option Nat
  message : Option String
  maturationSecs : Option (Int × Int)

/-- What the counter makes of an answer. -/
inductive Outcome (R : Type) where
  | rewards (data : PoUWRewardsResponse R)
  | zero
  | maturing (remainingSecs : Int)
  | failed (message : String)

/-- A state variable, and the history: whose answers its value may depend on. -/
structure Answered (α : Type) where
  value : α
  by' : List String

section
variable {α R : Type}

/-- An answer that sets the variable. -/
def Answered.set (_ : Answered α) (did : String) (value : α) : Answered α :=
  ⟨value, [did]⟩

/-- An answer that leaves the variable as it is, where another one would have set it. -/
def Answered.keep (v : Answered α) (did : String) : Answered α :=
  ⟨v.value, did :: v.by'⟩

/-! ## Answers -/

def Failure.outcome (err : Failure) : Outcome R :=
  let msg := err.message.getD "Failed to fetch rewards"
  if includes msg "404" || includes msg "NotFound" then .zero
  else if err.status = some 401 ∨ err.status = some 403 then
    match err.maturationSecs with
    | some (ageSecs, requiredSecs) => .maturing (requiredSecs - ageSecs)
    | none => .zero
  else .failed msg

def outcome : Except Failure (PoUWRewardsResponse R) → Outcome R
  | .ok data => .rewards data
  | .error err => err.outcome

namespace Outcome

def setRewards (o : Outcome R) (did : String) (rewards : Answered (Option (PoUWRewardsResponse R))) :
    Answered (Option (PoUWRewardsResponse R)) :=
  match o with
  | .rewards data => rewards.set did (some data)
  | .zero | .maturing _ => rewards.set did (some (ZERO_REWARDS did))
  | .failed _ => rewards.keep did

def setError (o : Outcome R) (did : String) (error : Answered (Option String)) :
    Answered (Option String) :=
  match o with
  | .rewards _ => error.keep did
  | .zero | .maturing _ => error.set did none
  | .failed message => error.set did (some message)

def setMaturesAt (o : Outcome R) (now : Int) (maturesAt : Option Int) : Option Int :=
  match o with
  | .rewards _ => none
  | .maturing remainingSecs => some (now + remainingSecs)
  | .zero | .failed _ => maturesAt

end Outcome

/-! ## The hook -/

/-- `fetchRewards` of a render: `useCallback(.., [currentIdentity?.did, maturesAt])`. -/
structure Callback where
  did : Option String
  maturesAt : Option Int
  deriving DecidableEq

/-- `requests` are the calls that are waiting, with whose rewards they have asked for; `now` is in
    seconds. -/
structure State (R : Type) where
  did : Option String
  rewards : Answered (Option (PoUWRewardsResponse R))
  loading : Bool
  error : Answered (Option String)
  maturesAt : Option Int
  callbacks : List Callback
  requests : List String
  now : Int

inductive Event (R : Type) where
  | render (did : Option String)
  | answer (did : String) (i : Nat) (result : Except Failure (PoUWRewardsResponse R))
  | refetch (callback : Nat)
  | time (now : Int)

/-- `maturesAt && now < maturesAt` -/
def Callback.maturing (cb : Callback) (now : Int) : Bool :=
  match cb.maturesAt with
  | none => false
  | some maturesAt => maturesAt ≠ 0 && now < maturesAt

namespace State

def fetchRewards (s : State R) (cb : Callback) : State R :=
  match cb.did with
  | none => s
  | some did =>
    if did = "" || cb.maturing s.now then s
    else { s with loading := true, error := ⟨none, []⟩, requests := s.requests ++ [did] }

/-- A new callback, and the effect that calls it. -/
def effect (s : State R) : State R :=
  fetchRewards { s with callbacks := s.callbacks ++ [⟨s.did, s.maturesAt⟩] } ⟨s.did, s.maturesAt⟩

def render (s : State R) (did : Option String) : State R :=
  if did = s.did then s else effect { s with did := did }

/-- The `i`-th waiting call is answered, if it is for the identity. -/
def answer (s : State R) (did : String) (i : Nat) (o : Outcome R) : State R :=
  if s.requests[i]? = some did then
    let after := { s with
      rewards := o.setRewards did s.rewards
      loading := false
      error := o.setError did s.error
      maturesAt := o.setMaturesAt s.now s.maturesAt
      requests := s.requests.eraseIdx i }
    if after.maturesAt = s.maturesAt then after else after.effect
  else s

def refetch (s : State R) (i : Nat) : State R :=
  match s.callbacks[i]? with
  | none => s
  | some cb => s.fetchRewards cb

def step (s : State R) : Event R → State R
  | .render did => s.render did
  | .answer did i result => s.answer did i (outcome result)
  | .refetch i => s.refetch i
  | .time now => { s with now := now }

end State

def mounted (did : Option String) (now : Int) : State R :=
  State.effect
    { did := did
      rewards := ⟨none, []⟩
      loading := false
      error := ⟨none, []⟩
      maturesAt := none
      callbacks := []
      requests := []
      now := now }

structure RewardCounterData (R : Type) where
  balance : ℚ
  isAccumulating : Bool
  rewards : Option (PoUWRewardsResponse R)
  loading : Bool
  error : Option String
  maturesAt : Option Int

def State.data (s : State R) : RewardCounterData R where
  balance := (s.rewards.value.map fun r => atomsToSov r.total_earned).getD 0
  isAccumulating := false
  rewards := s.rewards.value
  loading := s.loading
  error := s.error.value
  maturesAt := s.maturesAt

/-! ## Two runs -/

/-- Events that differ at most in the answer to a request, and then as `Q` has it. -/
inductive Differ (Q : String → Outcome R → Outcome R → Prop) : Event R → Event R → Prop
  | render (did : Option String) : Differ Q (.render did) (.render did)
  | answer (did : String) (i : Nat) {r r' : Except Failure (PoUWRewardsResponse R)}
    (h : Q did (outcome r) (outcome r')) : Differ Q (.answer did i r) (.answer did i r')
  | refetch (i : Nat) : Differ Q (.refetch i) (.refetch i)
  | time (now : Int) : Differ Q (.time now) (.time now)

/-- Events that differ at most in the answer to a request for `A`. -/
abbrev SameBut (A : String) : Event R → Event R → Prop :=
  Differ fun did o o' => did ≠ A → o' = o

/-- No answer for `A` changes the gate: it is open when one arrives, and none closes it. -/
def GateKept (A : String) (s : State R) : Event R → Prop
  | .answer did i result => did = A → s.requests[i]? = some A →
      s.maturesAt = none ∧ (outcome result).setMaturesAt s.now none = none
  | _ => True

/-- States that differ in the rewards and the error alone, and there as `P` and `P'` have it. -/
def Alike (P : Answered (Option (PoUWRewardsResponse R)) → Answered (Option (PoUWRewardsResponse R)) → Prop)
    (P' : Answered (Option String) → Answered (Option String) → Prop) (s s' : State R) : Prop :=
  ∃ rewards error, s' = { s with rewards := rewards, error := error } ∧ P s.rewards rewards ∧
    P' s.error error

/-- `P` and `P'` are kept by whatever sets the rewards and the error. -/
structure Kept (P : Answered (Option (PoUWRewardsResponse R)) → Answered (Option (PoUWRewardsResponse R)) → Prop)
    (P' : Answered (Option String) → Answered (Option String) → Prop)
    (Q : String → Outcome R → Outcome R → Prop) : Prop where
  setRewards : ∀ {v v' did o o'}, P v v' → Q did o o' → P (o.setRewards did v) (o'.setRewards did v')
  setError : ∀ {v v' did o o'}, P' v v' → Q did o o' → P' (o.setError did v) (o'.setError did v')
  cleared : P' ⟨none, []⟩ ⟨none, []⟩

section
variable {P : Answered (Option (PoUWRewardsResponse R)) → Answered (Option (PoUWRewardsResponse R)) → Prop}
  {P' : Answered (Option String) → Answered (Option String) → Prop}
  {Q : String → Outcome R → Outcome R → Prop} {s s' : State R}

theorem Alike.fetchRewards (hP : Kept P P' Q) (h : Alike P P' s s') (cb : Callback) :
    Alike P P' (s.fetchRewards cb) (s'.fetchRewards cb) := by
  obtain ⟨rewards, error, rfl, hrewards, herror⟩ := h
  unfold State.fetchRewards
  split
  · exact ⟨rewards, error, rfl, hrewards, herror⟩
  split
  · exact ⟨rewards, error, rfl, hrewards, herror⟩
  · exact ⟨rewards, _, rfl, hrewards, hP.cleared⟩

theorem Alike.effect (hP : Kept P P' Q) (h : Alike P P' s s') : Alike P P' s.effect s'.effect := by
  obtain ⟨rewards, error, rfl, hrewards, herror⟩ := h
  have hcallbacks : Alike P P' { s with callbacks := s.callbacks ++ [⟨s.did, s.maturesAt⟩] }
      { s with
        callbacks := s.callbacks ++ [⟨s.did, s.maturesAt⟩], rewards := rewards, error := error } :=
    ⟨rewards, error, rfl, hrewards, herror⟩
  exact hcallbacks.fetchRewards hP ⟨s.did, s.maturesAt⟩

theorem Alike.render (hP : Kept P P' Q) (h : Alike P P' s s') (did : Option String) :
    Alike P P' (s.render did) (s'.render did) := by
  obtain ⟨rewards, error, rfl, hrewards, herror⟩ := h
  unfold State.render
  split
  · exact ⟨rewards, error, rfl, hrewards, herror⟩
  · exact Alike.effect hP ⟨rewards, error, rfl, hrewards, herror⟩

/-- The gate becomes the same one, so it is fetched again after both answers or after none. -/
theorem Alike.answer (hP : Kept P P' Q) (h : Alike P P' s s') {did : String} {i : Nat} {o o' : Outcome R}
    (ho : Q did o o') (hgate : s.requests[i]? = some did →
      o'.setMaturesAt s.now s.maturesAt = o.setMaturesAt s.now s.maturesAt) :
    Alike P P' (s.answer did i o) (s'.answer did i o') := by
  obtain ⟨rewards, error, rfl, hrewards, herror⟩ := h
  unfold State.answer
  dsimp only
  split
  · rename_i hrequest
    rw [hgate hrequest]
    have hafter := hP.setRewards hrewards ho
    have hafter' := hP.setError herror ho
    split
    · exact ⟨_, _, rfl, hafter, hafter'⟩
    · exact Alike.effect hP ⟨_, _, rfl, hafter, hafter'⟩
  · exact ⟨rewards, error, rfl, hrewards, herror⟩

theorem Alike.refetch (hP : Kept P P' Q) (h : Alike P P' s s') (i : Nat) :
    Alike P P' (s.refetch i) (s'.refetch i) := by
  obtain ⟨rewards, error, rfl, hrewards, herror⟩ := h
  unfold State.refetch
  dsimp only
  split
  · exact ⟨rewards, error, rfl, hrewards, herror⟩
  · exact Alike.fetchRewards hP ⟨rewards, error, rfl, hrewards, herror⟩ _

end

/-! ## What is shown for another identity -/

variable {A : String} {s s' : State R}

/-- What does not depend on answers for `A` is the same. -/
def Same (A : String) (v v' : Answered α) : Prop :=
  (A ∈ v'.by' ↔ A ∈ v.by') ∧ (A ∉ v.by' → v'.value = v.value)

variable {v v' : Answered α} {did : String}

theorem Same.keep (h : Same A v v') (did : String) : Same A (v.keep did) (v'.keep did) := by
  refine ⟨?_, fun hA => h.2 fun hmem => hA (mem_cons_of_mem _ hmem)⟩
  simp only [Answered.keep, mem_cons, h.1]

theorem same_of_mem (h : A ∈ v.by') (h' : A ∈ v'.by') : Same A v v' :=
  ⟨iff_of_true h' h, fun hA => absurd h hA⟩

theorem mem_setRewards (o : Outcome R) (did : String) (v : Answered (Option (PoUWRewardsResponse R))) :
    did ∈ (o.setRewards did v).by' := by
  cases o <;> simp [Outcome.setRewards, Answered.set, Answered.keep]

theorem mem_setError (o : Outcome R) (did : String) (v : Answered (Option String)) :
    did ∈ (o.setError did v).by' := by
  cases o <;> simp [Outcome.setError, Answered.set, Answered.keep]

theorem kept_sameBut (A : String) :
    Kept (R := R) (Same A) (Same A) fun did o o' => did ≠ A → o' = o where
  setRewards := by
    intro v v' did o o' h ho
    by_cases hdid : did = A
    · subst hdid
      exact same_of_mem (mem_setRewards o did v) (mem_setRewards o' did v')
    obtain rfl := ho hdid
    cases o' with
    | failed message => exact h.keep did
    | _ => exact ⟨.rfl, fun _ => rfl⟩
  setError := by
    intro v v' did o o' h ho
    by_cases hdid : did = A
    · subst hdid
      exact same_of_mem (mem_setError o did v) (mem_setError o' did v')
    obtain rfl := ho hdid
    cases o' with
    | rewards data => exact h.keep did
    | _ => exact ⟨.rfl, fun _ => rfl⟩
  cleared := ⟨.rfl, fun _ => rfl⟩

theorem GateKept.setMaturesAt {i : Nat} {r : Except Failure (PoUWRewardsResponse R)}
    (h : GateKept A s (.answer did i r)) (hdid : did = A) (hrequest : s.requests[i]? = some did) :
    (outcome r).setMaturesAt s.now s.maturesAt = none := by
  subst hdid
  obtain ⟨hopen, hkept⟩ := h rfl hrequest
  rw [hopen, hkept]

theorem Alike.step_sameBut (h : Alike (Same A) (Same A) s s') {e e' : Event R} (he : SameBut A e e')
    (hgate : GateKept A s e) (hgate' : GateKept A s' e') :
    Alike (Same A) (Same A) (s.step e) (s'.step e') := by
  have hP := kept_sameBut (R := R) A
  cases he with
  | render did => exact h.render hP did
  | refetch i => exact h.refetch hP i
  | time now =>
    obtain ⟨rewards, error, rfl, hrewards, herror⟩ := h
    exact ⟨rewards, error, rfl, hrewards, herror⟩
  | answer did i ho =>
    refine h.answer hP ho fun hrequest => ?_
    by_cases hdid : did = A
    · obtain ⟨rewards, error, rfl, -, -⟩ := h
      exact (hgate'.setMaturesAt hdid hrequest).trans (hgate.setMaturesAt hdid hrequest).symm
    · rw [ho hdid]

theorem Alike.run_sameBut (h : Alike (Same A) (Same A) s s') {es es' : List (Event R)}
    (hes : List.Forall₂ (SameBut A) es es') (hgate : StepsMeet State.step (GateKept A) s es)
    (hgate' : StepsMeet State.step (GateKept A) s' es') :
    Alike (Same A) (Same A) (es.foldl State.step s) (es'.foldl State.step s') :=
  StepsMeet.related hes (fun _ _ _ _ h he hgate hgate' => h.step_sameBut he hgate hgate') h hgate hgate'

/-! ## The run in which all answers for one identity are the same one -/

def Event.answeredWith (A : String) (result : Except Failure (PoUWRewardsResponse R)) : Event R → Event R
  | .answer did i r => .answer did i (if did = A then result else r)
  | e => e

theorem sameBut_answeredWith (A : String) (result : Except Failure (PoUWRewardsResponse R))
    (es : List (Event R)) : List.Forall₂ (SameBut A) es (es.map (Event.answeredWith A result)) := by
  refine forall₂_map_right_iff.2 (forall₂_same.2 fun e _ => ?_)
  cases e with
  | render did => exact .render did
  | answer did i r =>
    refine .answer did i fun hdid => ?_
    rw [if_neg hdid]
  | refetch i => exact .refetch i
  | time now => exact .time now

theorem Answered.mem_of_keep (hdid : did ≠ A) (h : A ∈ (v.keep did).by') : A ∈ v.by' :=
  (mem_cons.1 h).resolve_left (Ne.symm hdid)

theorem kept_rewards (A : String) (data : PoUWRewardsResponse R) :
    Kept (fun v v' => A ∈ v.by' → v'.value = some data) (fun _ _ => True)
      fun did o o' => o' = if did = A then .rewards data else o where
  setRewards := by
    rintro v v' did o o' h rfl hA
    by_cases hdid : did = A
    · rw [if_pos hdid]
      rfl
    rw [if_neg hdid]
    cases o with
    | failed message => exact h (Answered.mem_of_keep hdid hA)
    | _ => exact absurd (mem_singleton.1 hA).symm hdid
  setError _ _ := trivial
  cleared := trivial

theorem kept_failed (A : String) (message : String) :
    Kept (R := R) (fun _ _ => True) (fun v v' => A ∈ v.by' → v'.value = some message)
      fun did o o' => o' = if did = A then .failed message else o where
  setRewards _ _ := trivial
  setError := by
    rintro v v' did o o' h rfl hA
    by_cases hdid : did = A
    · rw [if_pos hdid]
      rfl
    rw [if_neg hdid]
    cases o with
    | rewards data => exact h (Answered.mem_of_keep hdid hA)
    | _ => exact absurd (mem_singleton.1 hA).symm hdid
  cleared hA := absurd hA not_mem_nil

section
variable {P : Answered (Option (PoUWRewardsResponse R)) → Answered (Option (PoUWRewardsResponse R)) → Prop}
  {P' : Answered (Option String) → Answered (Option String) → Prop}
  {result : Except Failure (PoUWRewardsResponse R)}

/-- The answer leaves the gate open, so that the runs differ in the rewards and the error alone. -/
theorem Alike.step_answeredWith
    (hP : Kept P P' fun did o o' => o' = if did = A then outcome result else o)
    (hresult : ∀ now, (outcome result).setMaturesAt now none = none) (h : Alike P P' s s') (e : Event R)
    (hgate : GateKept A s e) :
    GateKept A s' (e.answeredWith A result) ∧ Alike P P' (s.step e) (s'.step (e.answeredWith A result)) := by
  cases e with
  | render did => exact ⟨trivial, h.render hP did⟩
  | refetch i => exact ⟨trivial, h.refetch hP i⟩
  | time now =>
    obtain ⟨rewards, error, rfl, hrewards, herror⟩ := h
    exact ⟨trivial, rewards, error, rfl, hrewards, herror⟩
  | answer did i r =>
    have hgate' : GateKept A s' (.answer did i (if did = A then result else r)) := by
      obtain ⟨rewards, error, rfl, -, -⟩ := h
      intro hdid hrequest
      rw [if_pos hdid]
      exact ⟨(hgate hdid hrequest).1, hresult s.now⟩
    have ho : outcome (if did = A then result else r) = if did = A then outcome result else outcome r :=
      apply_ite outcome _ _ _
    refine ⟨hgate', h.answer hP ho fun hrequest => ?_⟩
    by_cases hdid : did = A
    · have hnone := hgate'.setMaturesAt hdid
      obtain ⟨rewards, error, rfl, -, -⟩ := h
      exact (hnone hrequest).trans (hgate.setMaturesAt hdid hrequest).symm
    · rw [if_neg hdid]

theorem Alike.run_answeredWith (result : Except Failure (PoUWRewardsResponse R))
    (hP : Kept P P' fun did o o' => o' = if did = A then outcome result else o)
    (hresult : ∀ now, (outcome result).setMaturesAt now none = none) (h : Alike P P' s s')
    {es : List (Event R)} (hgate : StepsMeet State.step (GateKept A) s es) :
    StepsMeet State.step (GateKept A) s' (es.map (Event.answeredWith A result)) ∧
      Alike P P' (es.foldl State.step s) ((es.map (Event.answeredWith A result)).foldl State.step s') :=
  StepsMeet.map (fun _ _ e h hgate => h.step_answeredWith hP hresult e hgate) h hgate

end

/-! ## The counter of another identity -/

theorem mounted_rewards (did : Option String) (now : Int) :
    (mounted did now : State R).rewards = ⟨none, []⟩ := by
  unfold mounted State.effect State.fetchRewards
  split
  · rfl
  · split <;> rfl

theorem mounted_error (did : Option String) (now : Int) :
    (mounted did now : State R).error = ⟨none, []⟩ := by
  unfold mounted State.effect State.fetchRewards
  split
  · rfl
  · split <;> rfl

/-- What the counter shows does not depend on the answers for `A` exactly if neither the rewards nor the
    error does, in runs in which these answers leave the gate as it is. -/
theorem independent_iff (A : String) (did : Option String) (now : Int) (es : List (Event R))
    (hgate : StepsMeet State.step (GateKept A) (mounted did now) es) :
    (∀ es', List.Forall₂ (SameBut A) es es' → StepsMeet State.step (GateKept A) (mounted did now) es' →
      (es'.foldl State.step (mounted did now)).data = (es.foldl State.step (mounted did now)).data) ↔
      A ∉ (es.foldl State.step (mounted did now)).rewards.by' ∧
        A ∉ (es.foldl State.step (mounted did now)).error.by' := by
  constructor
  · intro hsame
    constructor
    · intro hA
      have hshown : ∀ data, (es.foldl State.step (mounted did now)).data.rewards = some data := by
        intro data
        have hstart : Alike (fun v v' => A ∈ v.by' → v'.value = some data) (fun _ _ => True)
            (mounted did now) (mounted did now) := by
          refine ⟨_, _, rfl, fun hmem => ?_, trivial⟩
          rw [mounted_rewards] at hmem
          exact absurd hmem not_mem_nil
        obtain ⟨hgate', rewards, error, hrun, hvalue, -⟩ :=
          hstart.run_answeredWith (.ok data) (kept_rewards A data) (fun _ => rfl) hgate
        rw [← hsame _ (sameBut_answeredWith A (.ok data) es) hgate', hrun]
        exact hvalue hA
      have hdids := (hshown (ZERO_REWARDS "")).symm.trans (hshown (ZERO_REWARDS "did:zhtp:"))
      have hdid : "" = "did:zhtp:" := congrArg PoUWRewardsResponse.client_did (Option.some.inj hdids)
      exact nomatch hdid
    · intro hA
      have hshown : ∀ err : Failure, ∀ message, (outcome (.error err) : Outcome R) = .failed message →
          (es.foldl State.step (mounted did now)).data.error = some message := by
        intro err message herr
        have hstart : Alike (R := R) (fun _ _ => True) (fun v v' => A ∈ v.by' → v'.value = some message)
            (mounted did now) (mounted did now) := by
          refine ⟨_, _, rfl, trivial, fun hmem => ?_⟩
          rw [mounted_error] at hmem
          exact absurd hmem not_mem_nil
        have hP := kept_failed (R := R) A message
        rw [← herr] at hP
        obtain ⟨hgate', rewards, error, hrun, -, hvalue⟩ :=
          hstart.run_answeredWith (.error err) hP (fun _ => by rw [herr]; rfl) hgate
        rw [← hsame _ (sameBut_answeredWith A (.error err) es) hgate', hrun]
        exact hvalue hA
      have hmessages := (hshown ⟨none, some "offline", none⟩ "offline" rfl).symm.trans
        (hshown ⟨none, some "timeout", none⟩ "timeout" rfl)
      exact nomatch Option.some.inj hmessages
  · rintro ⟨hrewards, herror⟩ es' hes hgate'
    have hstart : Alike (Same A) (Same A) (mounted did now : State R) (mounted did now) :=
      ⟨_, _, rfl, ⟨.rfl, fun _ => rfl⟩, .rfl, fun _ => rfl⟩
    obtain ⟨rewards, error, hrun, hsame, hsame'⟩ := hstart.run_sameBut hes hgate hgate'
    rw [hrun]
    simp only [State.data, hsame.2 hrewards, hsame'.2 herror]

end

end RewardCounter
