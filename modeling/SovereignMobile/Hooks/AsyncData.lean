import SovereignMobile.EventLoop.Sequential

/-! # Asynchronous data

`useAsyncData.ts` shows what an asynchronous function has returned, and calls it again when one of its
dependencies has changed. What was shown before stays until the answer is there, and when there is an error
instead. -/

namespace AsyncData

open EventLoop List

/-- What a rejected promise is rejected with: an `Error`, or something else. -/
inductive Caught where
  | error (message : String)
  | other
  deriving DecidableEq

def Caught.normalizedError : Caught → String
  | .error message => message
  | .other => "Unknown error occurred"

structure UseAsyncDataState (T : Type) where
  data : Option T
  loading : Bool
  error : Option String

/-- A call that is waiting for what it has asked for; `mounted` until the effect is run again. -/
structure Request (κ : Type) where
  key : κ
  mounted : Bool
  deriving DecidableEq

/-- `asyncFunctionRef` is what the function of the last render asks for. `answered` is the history: whose
    answers `data` may depend on, which are the last success and the errors since then. -/
structure State (κ D T : Type) where
  state : UseAsyncDataState T
  retryCount : Nat
  asyncFunctionRef : κ
  dependencies : D
  skip : Bool
  requests : List (Request κ)
  answered : List κ

inductive Event (κ D T : Type) where
  | render (asyncFunction : κ) (dependencies : D) (skip : Bool)
  | answer (key : κ) (i : Nat) (result : Except Caught T)
  | retry
  | reset

section
variable {κ D T : Type} (initialData : Option T)

namespace UseAsyncDataState

def skipped (st : UseAsyncDataState T) : UseAsyncDataState T :=
  ⟨st.data.or initialData, false, none⟩

def refreshing (st : UseAsyncDataState T) : UseAsyncDataState T :=
  { st with loading := st.data.isNone, error := none }

def settled (st : UseAsyncDataState T) : Except Caught T → UseAsyncDataState T
  | .ok result => ⟨some result, false, none⟩
  | .error caught => ⟨st.data, false, some caught.normalizedError⟩

end UseAsyncDataState

/-- The history after an answer. -/
def answeredBy (answered : List κ) (key : κ) : Except Caught T → List κ
  | .ok _ => [key]
  | .error _ => key :: answered

namespace State

/-- The effect for `[...dependencies, retryCount, skip]`. -/
def effect (s : State κ D T) : State κ D T :=
  if s.skip then { s with state := s.state.skipped initialData }
  else { s with
    state := s.state.refreshing
    requests := s.requests ++ [⟨s.asyncFunctionRef, true⟩] }

/-- What the effect has returned is called before. -/
def effectAgain (s : State κ D T) : State κ D T :=
  effect initialData { s with requests := s.requests.map fun r => { r with mounted := false } }

def render [DecidableEq D] (s : State κ D T) (asyncFunction : κ) (dependencies : D) (skip : Bool) :
    State κ D T :=
  let rendered := { s with
    asyncFunctionRef := asyncFunction, dependencies := dependencies, skip := skip }
  if dependencies = s.dependencies ∧ skip = s.skip then rendered else rendered.effectAgain initialData

/-- The `i`-th waiting call is answered, if it has asked for the key. -/
def answer [DecidableEq κ] (s : State κ D T) (key : κ) (i : Nat) (result : Except Caught T) :
    State κ D T :=
  match s.requests[i]? with
  | none => s
  | some request =>
    if request.key = key then
      let s := { s with requests := s.requests.eraseIdx i }
      if request.mounted then
        { s with state := s.state.settled result, answered := answeredBy s.answered key result }
      else s
    else s

def retry (s : State κ D T) : State κ D T :=
  effectAgain initialData { s with retryCount := s.retryCount + 1 }

def reset (s : State κ D T) : State κ D T :=
  let cleared := { s with state := ⟨initialData, false, none⟩, retryCount := 0, answered := [] }
  if s.retryCount = 0 then cleared else cleared.effectAgain initialData

def step [DecidableEq κ] [DecidableEq D] (s : State κ D T) : Event κ D T → State κ D T
  | .render asyncFunction dependencies skip => s.render initialData asyncFunction dependencies skip
  | .answer key i result => s.answer key i result
  | .retry => s.retry initialData
  | .reset => s.reset initialData

end State

def mounted (asyncFunction : κ) (dependencies : D) (skip : Bool) : State κ D T :=
  State.effect initialData
    { state := ⟨initialData, !skip, none⟩
      retryCount := 0
      asyncFunctionRef := asyncFunction
      dependencies := dependencies
      skip := skip
      requests := []
      answered := [] }

theorem answered_mounted (asyncFunction : κ) (dependencies : D) (skip : Bool) :
    (mounted initialData asyncFunction dependencies skip).answered = [] := by
  unfold mounted State.effect
  split <;> rfl

/-! ## States that differ in what is shown -/

/-- States that differ in what is shown alone, and there as `P` has it. -/
def Alike (P : UseAsyncDataState T → List κ → UseAsyncDataState T → List κ → Prop)
    (s s' : State κ D T) : Prop :=
  ∃ state answered, s' = { s with state := state, answered := answered } ∧
    P s.state s.answered state answered

/-- `P` is kept by whatever sets the state. -/
structure Kept (P : UseAsyncDataState T → List κ → UseAsyncDataState T → List κ → Prop)
    (Q : κ → Except Caught T → Except Caught T → Prop) : Prop where
  skipped : ∀ {st l st' l'}, P st l st' l' → P (st.skipped initialData) l (st'.skipped initialData) l'
  refreshing : ∀ {st l st' l'}, P st l st' l' → P st.refreshing l st'.refreshing l'
  settled : ∀ {st l st' l' key r r'}, P st l st' l' → Q key r r' →
    P (st.settled r) (answeredBy l key r) (st'.settled r') (answeredBy l' key r')

section
variable {initialData} {P : UseAsyncDataState T → List κ → UseAsyncDataState T → List κ → Prop}
  {Q : κ → Except Caught T → Except Caught T → Prop} {s s' : State κ D T}

theorem Alike.effect (hP : Kept initialData P Q) (h : Alike P s s') :
    Alike P (s.effect initialData) (s'.effect initialData) := by
  obtain ⟨state, answered, rfl, hstate⟩ := h
  unfold State.effect
  split
  · exact ⟨_, _, rfl, hP.skipped hstate⟩
  · exact ⟨_, _, rfl, hP.refreshing hstate⟩

theorem Alike.effectAgain (hP : Kept initialData P Q) (h : Alike P s s') :
    Alike P (s.effectAgain initialData) (s'.effectAgain initialData) := by
  obtain ⟨state, answered, rfl, hstate⟩ := h
  exact Alike.effect hP ⟨state, answered, rfl, hstate⟩

theorem Alike.render [DecidableEq D] (hP : Kept initialData P Q) (h : Alike P s s')
    (asyncFunction : κ) (dependencies : D) (skip : Bool) :
    Alike P (s.render initialData asyncFunction dependencies skip)
      (s'.render initialData asyncFunction dependencies skip) := by
  obtain ⟨state, answered, rfl, hstate⟩ := h
  unfold State.render
  split
  · exact ⟨state, answered, rfl, hstate⟩
  · exact Alike.effectAgain hP ⟨state, answered, rfl, hstate⟩

theorem Alike.retry (hP : Kept initialData P Q) (h : Alike P s s') :
    Alike P (s.retry initialData) (s'.retry initialData) := by
  obtain ⟨state, answered, rfl, hstate⟩ := h
  exact Alike.effectAgain hP ⟨state, answered, rfl, hstate⟩

variable [DecidableEq κ]

/-- The request is the same one in both states. -/
theorem Alike.answer (hP : Kept initialData P Q) (h : Alike P s s') (key : κ) (i : Nat)
    {r r' : Except Caught T} (hr : Q key r r') : Alike P (s.answer key i r) (s'.answer key i r') := by
  obtain ⟨state, answered, rfl, hstate⟩ := h
  unfold State.answer
  dsimp only
  split
  · exact ⟨state, answered, rfl, hstate⟩
  split
  · split
    · exact ⟨_, _, rfl, hP.settled hstate hr⟩
    · exact ⟨state, answered, rfl, hstate⟩
  · exact ⟨state, answered, rfl, hstate⟩

end

/-! ## What depends on the answers for one key -/

section
variable {initialData} [DecidableEq κ]

theorem kept_sameBut (A : κ) : Kept initialData (T := T)
    (fun st l st' l' => (A ∈ l' ↔ A ∈ l) ∧ (A ∉ l → st' = st)) fun key r r' => key ≠ A → r' = r where
  skipped h := ⟨h.1, fun hA => congrArg (UseAsyncDataState.skipped initialData) (h.2 hA)⟩
  refreshing h := ⟨h.1, fun hA => congrArg UseAsyncDataState.refreshing (h.2 hA)⟩
  settled := by
    intro st l st' l' key r r' h hr
    by_cases hkey : key = A
    · -- both histories have `A` now
      have hmem : ∀ l (r : Except Caught T), A ∈ answeredBy l key r := by
        rintro l (_ | _) <;> simp [answeredBy, hkey]
      exact ⟨iff_of_true (hmem l' r') (hmem l r), fun hA => absurd (hmem l r) hA⟩
    obtain rfl := hr hkey
    cases r' with
    | ok result => exact ⟨.rfl, fun _ => rfl⟩
    | error caught =>
      refine ⟨?_, fun hA => ?_⟩
      · simp only [answeredBy, mem_cons, h.1]
      · rw [h.2 fun hmem => hA (mem_cons_of_mem _ hmem)]

/-- Where all answers for `A` are the value, `data` is the value if it depends on them. -/
theorem kept_answeredWith (A : κ) (v : T) : Kept initialData
    (fun _ l st' _ => A ∈ l → st'.data = some v) fun key r r' => r' = if key = A then .ok v else r where
  skipped h hA := by
    rw [UseAsyncDataState.skipped, h hA]
    rfl
  refreshing h := h
  settled := by
    rintro st l st' l' key r r' h rfl hA
    by_cases hkey : key = A
    · rw [if_pos hkey]
      rfl
    rw [if_neg hkey]
    cases r with
    | ok result => exact absurd (mem_singleton.1 hA).symm hkey
    | error caught => exact h ((mem_cons.1 hA).resolve_left (Ne.symm hkey))

end

end

/-! ## Hooks that show what an asynchronous function returns -/

/-- What a hook asks for where its arguments are in `I`, what it makes of the answer, and what it shows. -/
structure Hook (I κ D X T O : Type) where
  asyncFunction : I → κ
  dependencies : I → D
  skip : I → Bool
  result : X → Except Caught T
  shown : I → UseAsyncDataState T → O

namespace Hook

structure State (I κ D T : Type) where
  arguments : I
  asyncData : AsyncData.State κ D T

inductive Event (I κ X : Type) where
  | render (arguments : I)
  | answer (key : κ) (i : Nat) (answer : X)
  | refresh

section
variable {I κ D X T O : Type}

/-- Events that differ at most in the answer to a request, and then as `Q` has it. -/
inductive Differ (Q : κ → X → X → Prop) : Event I κ X → Event I κ X → Prop
  | render (arguments : I) : Differ Q (.render arguments) (.render arguments)
  | answer (key : κ) (i : Nat) {x x' : X} (h : Q key x x') : Differ Q (.answer key i x) (.answer key i x')
  | refresh : Differ Q .refresh .refresh

/-- Events that differ at most in the answer to a request for `A`. -/
abbrev SameBut (A : κ) : Event I κ X → Event I κ X → Prop :=
  Differ fun key x x' => key ≠ A → x' = x

variable [DecidableEq κ] [DecidableEq D] (hook : Hook I κ D X T O)

def mounted (arguments : I) : State I κ D T :=
  ⟨arguments, AsyncData.mounted none (hook.asyncFunction arguments) (hook.dependencies arguments)
    (hook.skip arguments)⟩

def step (s : State I κ D T) : Event I κ X → State I κ D T
  | .render arguments => ⟨arguments, s.asyncData.step none (.render (hook.asyncFunction arguments)
      (hook.dependencies arguments) (hook.skip arguments))⟩
  | .answer key i x => ⟨s.arguments, s.asyncData.step none (.answer key i (hook.result x))⟩
  | .refresh => ⟨s.arguments, s.asyncData.step none .retry⟩

def run (arguments : I) (es : List (Event I κ X)) : State I κ D T :=
  es.foldl hook.step (hook.mounted arguments)

/-- What is shown after a run. -/
def shownAfter (arguments : I) (es : List (Event I κ X)) : O :=
  hook.shown (hook.run arguments es).arguments (hook.run arguments es).asyncData.state

/-! ## What is shown for another key -/

variable {hook} {P : UseAsyncDataState T → List κ → UseAsyncDataState T → List κ → Prop}
  {Q : κ → Except Caught T → Except Caught T → Prop} {E : κ → X → X → Prop} {s s' : State I κ D T}

/-- The same arguments, and alike in what is shown. -/
def Alike (P : UseAsyncDataState T → List κ → UseAsyncDataState T → List κ → Prop)
    (s s' : State I κ D T) : Prop :=
  s'.arguments = s.arguments ∧ AsyncData.Alike P s.asyncData s'.asyncData

theorem Alike.step (hP : Kept none P Q) (hE : ∀ key x x', E key x x' → Q key (hook.result x) (hook.result x'))
    (h : Alike P s s') {e e' : Event I κ X} (he : Differ E e e') :
    Alike P (hook.step s e) (hook.step s' e') := by
  cases he with
  | render arguments => exact ⟨rfl, h.2.render hP _ _ _⟩
  | answer key i hx => exact ⟨h.1, h.2.answer hP key i (hE _ _ _ hx)⟩
  | refresh => exact ⟨h.1, h.2.retry hP⟩

/-- Two runs whose answers are related. -/
theorem run_alike (hP : Kept none P Q)
    (hE : ∀ key x x', E key x x' → Q key (hook.result x) (hook.result x')) (hstart : ∀ st, P st [] st [])
    (arguments : I) {es es' : List (Event I κ X)} (hes : List.Forall₂ (Differ E) es es') :
    Alike P (hook.run arguments es) (hook.run arguments es') := by
  have hmounted : Alike P (hook.mounted arguments) (hook.mounted arguments) := by
    have hnil : (hook.mounted arguments).asyncData.answered = [] := answered_mounted none _ _ _
    refine ⟨rfl, (hook.mounted arguments).asyncData.state,
      (hook.mounted arguments).asyncData.answered, rfl, ?_⟩
    rw [hnil]
    exact hstart _
  exact rel_foldl (fun _ _ hs _ _ he => hs.step hP hE he) hmounted hes

def Event.answeredWith (A : κ) (x : X) : Event I κ X → Event I κ X
  | .answer key i x' => .answer key i (if key = A then x else x')
  | e => e

theorem differ_answeredWith (A : κ) (x : X) (es : List (Event I κ X)) :
    List.Forall₂ (Differ fun key x' x'' => x'' = if key = A then x else x') es
      (es.map (Event.answeredWith A x)) := by
  refine forall₂_map_right_iff.2 (forall₂_same.2 fun e _ => ?_)
  cases e with
  | render arguments => exact .render arguments
  | answer key i x' => exact .answer key i rfl
  | refresh => exact .refresh

theorem sameBut_answeredWith (A : κ) (x : X) (es : List (Event I κ X)) :
    List.Forall₂ (SameBut A) es (es.map (Event.answeredWith A x)) := by
  refine (differ_answeredWith A x es).imp fun e e' he => ?_
  cases he with
  | render arguments => exact .render arguments
  | answer key i hx =>
    refine .answer key i fun hkey => ?_
    rw [hx, if_neg hkey]
  | refresh => exact .refresh

/-- Where all answers for `A` are the same value, this is what `data` is, if it depends on them. -/
theorem data_answeredWith {A : κ} {x : X} {v : T} (hx : hook.result x = .ok v) (arguments : I)
    {es : List (Event I κ X)} (hA : A ∈ (hook.run arguments es).asyncData.answered) :
    ∃ st, st.data = some v ∧ hook.shownAfter arguments (es.map (Event.answeredWith A x)) =
      hook.shown (hook.run arguments es).arguments st := by
  have hE : ∀ key x' x'', (x'' = if key = A then x else x') →
      hook.result x'' = if key = A then .ok v else hook.result x' := by
    rintro key x' _ rfl
    rw [apply_ite hook.result, hx]
  obtain ⟨harguments, st, answered, hrun, hdata⟩ := run_alike (kept_answeredWith A v) hE
    (fun _ hmem => absurd hmem not_mem_nil) arguments (differ_answeredWith A x es)
  refine ⟨st, hdata hA, ?_⟩
  rw [shownAfter, harguments, hrun]

/-- What is shown does not depend on the answers for `A` exactly if `data` does not, where two answers are
    shown differently. -/
theorem independent_iff (x x' : X) {v v' : T} (hx : hook.result x = .ok v) (hx' : hook.result x' = .ok v')
    (hshown : ∀ arguments st st', st.data = some v → st'.data = some v' →
      hook.shown arguments st ≠ hook.shown arguments st')
    (A : κ) (arguments : I) (es : List (Event I κ X)) :
    (∀ es', List.Forall₂ (SameBut A) es es' →
      hook.shownAfter arguments es' = hook.shownAfter arguments es) ↔
      A ∉ (hook.run arguments es).asyncData.answered := by
  constructor
  · intro hsame hA
    obtain ⟨st, hdata, hst⟩ := data_answeredWith hx arguments hA
    obtain ⟨st', hdata', hst'⟩ := data_answeredWith hx' arguments hA
    refine hshown (hook.run arguments es).arguments st st' hdata hdata' ?_
    rw [← hst, ← hst', hsame _ (sameBut_answeredWith A x es), hsame _ (sameBut_answeredWith A x' es)]
  intro hA es' hes
  have hresult : ∀ key x x', (key ≠ A → x' = x) → key ≠ A → hook.result x' = hook.result x :=
    fun _ _ _ hx hkey => congrArg hook.result (hx hkey)
  obtain ⟨harguments, st, answered, hrun, -, hst⟩ :=
    run_alike (kept_sameBut A) hresult (fun _ => ⟨.rfl, fun _ => rfl⟩) arguments hes
  rw [shownAfter, harguments, hrun, hst hA]
  rfl

end

end Hook

end AsyncData
