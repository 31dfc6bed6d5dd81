import Mathlib.Data.List.Basic
import Mathlib.Logic.Function.Basic
import SovereignMobile.EventLoop.Sequential

/-! # Persisted state

`usePersistedState.ts` keeps a value in memory and under a storage key. It is loaded when the component
is mounted and when the key changes, and written on each update; an update belongs to a render, whose key
and value it has captured. -/

namespace PersistedState

open EventLoop Option Function

/-- Values, and the texts that they are stored as. A text that is no JSON is read as it is. -/
structure Json (T S : Type) where
  stringify : T → S
  parse : S → T
  parse_stringify : ∀ v, parse (stringify v) = v

/-- `T | ((prev: T) => T)`; an updater may throw. -/
inductive Update (T : Type) where
  | value (v : T)
  | updater (f : T → Option T)

/-- `newValue` -/
def Update.apply {T : Type} : Update T → T → Option T
  | .value v, _ => some v
  | .updater f, prev => f prev

/-- A `loadFromStorage` that is waiting, and what `getItem` has answered it; an error answers nothing. -/
structure Load (K S : Type) where
  key : K
  answer : Option (Option S)
  deriving DecidableEq

/-- `renders` are the key and the state that each render has captured, `writes` the `setItem` calls that
    have not been performed. The last four are the history: the value of each key, which is what was
    stored with all updates of the key applied in order; whether there was an update since the key has
    changed; what was replaced by loads since then, and by what; and the keys of loads that set the state,
    with the key at that time. -/
structure State (K T S : Type) where
  key : K
  state : T
  isLoading : Bool
  renders : List (K × T)
  loads : List (Load K S)
  writes : List (K × S)
  storage : K → Option S
  expected : K → T
  updated : Bool
  overwritten : List (T × T)
  loaded : List (K × K)

inductive Event (K T : Type) where
  | render (key : K)
  | setPersistedState (render : Nat) (update : Update T)
  | write
  | getItem (i : Nat) (ok : Bool)
  | loadFromStorage (i : Nat)

section
variable {K T S : Type} [DecidableEq K] (J : Json T S) (initialValue : T)

/-- What a key is read as. -/
def storedValue (stored : Option S) : T := (stored.map J.parse).getD initialValue

def mounted (key : K) (storage : K → Option S) : State K T S where
  key := key
  state := initialValue
  isLoading := true
  renders := [(key, initialValue)]
  loads := [⟨key, none⟩]
  writes := []
  storage := storage
  expected k := storedValue J initialValue (storage k)
  updated := false
  overwritten := []
  loaded := []

namespace State

/-- A changed key runs the effect again. -/
def render (s : State K T S) (key : K) : State K T S :=
  { s with
    key := key
    renders := s.renders ++ [(key, s.state)]
    loads := if key = s.key then s.loads else s.loads ++ [⟨key, none⟩]
    updated := s.updated && key = s.key }

def setPersistedState (s : State K T S) (i : Nat) (update : Update T) : State K T S :=
  match s.renders[i]? with
  | none => s
  | some (key, state) =>
    let value := (update.apply (s.expected key)).getD (s.expected key)
    let s := { s with expected := Function.update s.expected key value }
    match update.apply state with
    | none => s
    | some newValue =>
      { s with
        state := newValue
        writes := s.writes ++ [(key, J.stringify newValue)]
        updated := true }

/-- Writes succeed in the order of the calls. -/
def write (s : State K T S) : State K T S :=
  match s.writes with
  | [] => s
  | (key, text) :: writes =>
    { s with writes := writes, storage := Function.update s.storage key (some text) }

def getItem (s : State K T S) (i : Nat) (ok : Bool) : State K T S :=
  match s.loads[i]? with
  | some ⟨key, none⟩ =>
    { s with loads := s.loads.set i ⟨key, some (if ok then s.storage key else none)⟩ }
  | _ => s

def loadFromStorage (s : State K T S) (i : Nat) : State K T S :=
  match s.loads[i]? with
  | some ⟨key, some answer⟩ =>
    let s := { s with loads := s.loads.eraseIdx i, isLoading := false }
    match answer with
    | none => s
    | some storedValue =>
      { s with
        state := J.parse storedValue
        overwritten := if s.updated then s.overwritten ++ [(s.state, J.parse storedValue)] else s.overwritten
        loaded := s.loaded ++ [(key, s.key)] }
  | _ => s

def step (s : State K T S) : Event K T → State K T S
  | .render key => s.render key
  | .setPersistedState i update => s.setPersistedState J i update
  | .write => s.write
  | .getItem i ok => s.getItem i ok
  | .loadFromStorage i => s.loadFromStorage J i

end State

/-! ## Convergence -/

structure Converges (s : State K T S) : Prop where
  settled : s.loads = [] → s.writes = [] → s.state = s.expected s.key ∧
    storedValue J initialValue (s.storage s.key) = s.expected s.key
  kept : ∀ p ∈ s.overwritten, p.2 = p.1
  own : ∀ p ∈ s.loaded, p.1 = p.2

/-- An update belongs to a render with the current key, and makes of what the render has captured what it
    makes of the key's value. A load sets the state to the value of the current key, or finds nothing
    where the state is this value already. -/
def Condition (s : State K T S) : Event K T → Prop
  | .setPersistedState i update => ∀ key state, s.renders[i]? = some (key, state) →
      key = s.key ∧ update.apply state = update.apply (s.expected key)
  | .loadFromStorage i => ∀ key answer, s.loads[i]? = some ⟨key, some answer⟩ →
      match answer with
      | none => key = s.key → s.state = s.expected key
      | some text => key = s.key ∧ J.parse text = s.expected key
  | _ => True

/-! ## What each event keeps -/

/-- The storage once all writes are performed. -/
def State.written (s : State K T S) : K → Option S :=
  s.writes.foldl (fun storage w => Function.update storage w.1 (some w.2)) s.storage

structure Inv (s : State K T S) : Prop where
  shown : s.state = s.expected s.key ∨ s.key ∈ s.loads.map Load.key
  updated : s.updated = true → s.state = s.expected s.key
  written : ∀ key, storedValue J initialValue (s.written key) = s.expected key
  kept : ∀ p ∈ s.overwritten, p.2 = p.1
  own : ∀ p ∈ s.loaded, p.1 = p.2

variable {J initialValue} {s : State K T S}

theorem Inv.convergent (h : Inv J initialValue s) : Converges J initialValue s := by
  refine ⟨fun hloads hwrites => ⟨?_, ?_⟩, h.kept, h.own⟩
  · rcases h.shown with hshown | hpending
    · exact hshown
    · rw [hloads] at hpending
      exact absurd hpending List.not_mem_nil
  · have hwritten := h.written s.key
    rwa [State.written, hwrites] at hwritten

theorem Inv.mounted (key : K) (storage : K → Option S) :
    Inv J initialValue (mounted J initialValue key storage) where
  shown := .inr (List.mem_singleton.2 rfl)
  updated h := absurd h Bool.false_ne_true
  written _ := rfl
  kept _ h := absurd h List.not_mem_nil
  own _ h := absurd h List.not_mem_nil

theorem Inv.render (h : Inv J initialValue s) (key : K) : Inv J initialValue (s.render key) := by
  by_cases hkey : key = s.key
  · subst hkey
    refine ⟨?_, fun hupdated => h.updated ?_, h.written, h.kept, h.own⟩
    · simpa [State.render] using h.shown
    · simpa [State.render] using hupdated
  · refine ⟨.inr ?_, fun hupdated => ?_, h.written, h.kept, h.own⟩
    · simp [State.render, hkey]
    · simp [State.render, hkey] at hupdated

variable {i : Nat}

theorem Inv.setPersistedState (h : Inv J initialValue s) {update : Update T}
    (hc : Condition J s (.setPersistedState i update)) :
    Inv J initialValue (s.setPersistedState J i update) := by
  unfold State.setPersistedState
  split
  · exact h
  rename_i key state hrender
  obtain ⟨rfl, happly⟩ := hc key state hrender
  rw [happly]
  cases hvalue : update.apply (s.expected s.key) with
  | none =>
    dsimp only
    rw [getD_none, update_eq_self]
    exact h
  | some newValue =>
    dsimp only [getD_some]
    have hself : Function.update s.expected s.key newValue s.key = newValue := update_self _ _ _
    refine ⟨.inl hself.symm, fun _ => hself.symm, ?_, h.kept, h.own⟩
    intro key
    have hwritten : State.written { s with
        expected := Function.update s.expected s.key newValue
        state := newValue
        writes := s.writes ++ [(s.key, J.stringify newValue)]
        updated := true } =
        Function.update s.written s.key (some (J.stringify newValue)) := List.foldl_append
    change storedValue J initialValue (State.written _ key) =
      Function.update s.expected s.key newValue key
    rw [hwritten]
    by_cases hkey : key = s.key
    · rw [hkey, update_self, update_self]
      exact J.parse_stringify newValue
    · rw [update_of_ne hkey, update_of_ne hkey]
      exact h.written key

theorem Inv.write (h : Inv J initialValue s) : Inv J initialValue s.write := by
  unfold State.write
  split
  · exact h
  rename_i key text writes hwrites
  refine ⟨h.shown, h.updated, fun k => ?_, h.kept, h.own⟩
  rw [← h.written k, State.written, State.written, hwrites]
  rfl

theorem Inv.getItem (h : Inv J initialValue s) (i : Nat) (ok : Bool) :
    Inv J initialValue (s.getItem i ok) := by
  unfold State.getItem
  split
  · rename_i key hload
    refine ⟨h.shown.imp_right fun hpending => ?_, h.updated, h.written, h.kept, h.own⟩
    have hkeys : (s.loads.set i ⟨key, some (if ok then s.storage key else none)⟩).map Load.key =
        s.loads.map Load.key := by
      refine List.ext_getElem? fun j => ?_
      rw [List.getElem?_map, List.getElem?_map, List.getElem?_set]
      by_cases hj : i = j
      · have hlt : i < s.loads.length := (List.getElem?_eq_some_iff.1 hload).1
        rw [if_pos hj, if_pos hlt, ← hj, hload]
        rfl
      · rw [if_neg hj]
    rwa [hkeys]
  · exact h

theorem Inv.loadFromStorage (h : Inv J initialValue s) (hc : Condition J s (.loadFromStorage i)) :
    Inv J initialValue (s.loadFromStorage J i) := by
  unfold State.loadFromStorage
  split
  · rename_i key answer hload
    have hcond := hc key answer hload
    cases answer with
    | none =>
      refine ⟨?_, h.updated, h.written, h.kept, h.own⟩
      by_cases hkey : key = s.key
      · exact .inl ((hcond hkey).trans (congrArg s.expected hkey))
      refine h.shown.imp_right fun hpending => ?_
      -- the load of the current key is another one
      obtain ⟨load, hmem, hload'⟩ := List.mem_map.1 hpending
      obtain ⟨j, hj⟩ := List.getElem?_of_mem hmem
      refine List.mem_map.2 ⟨load, List.mem_eraseIdx_iff_getElem?.2 ⟨j, ?_, hj⟩, hload'⟩
      rintro rfl
      rw [hload] at hj
      cases hj
      exact hkey hload'
    | some text =>
      obtain ⟨rfl, hparse⟩ := hcond
      refine ⟨.inl hparse, fun _ => hparse, h.written, ?_, ?_⟩
      · intro p hp
        dsimp only at hp
        split at hp
        · rename_i hupdated
          rcases List.mem_append.1 hp with hp | hp
          · exact h.kept p hp
          · rw [List.mem_singleton.1 hp]
            exact hparse.trans (h.updated hupdated).symm
        · exact h.kept p hp
      · intro p hp
        rcases List.mem_append.1 hp with hp | hp
        · exact h.own p hp
        · rw [List.mem_singleton.1 hp]
  · exact h

theorem Inv.step (h : Inv J initialValue s) {e : Event K T} (hc : Condition J s e) :
    Inv J initialValue (s.step J e) := by
  cases e with
  | render key => exact h.render key
  | setPersistedState i update => exact h.setPersistedState hc
  | write => exact h.write
  | getItem i ok => exact h.getItem i ok
  | loadFromStorage i => exact h.loadFromStorage hc

/-- **The state converges** in every run whose updates and loads meet the condition. -/
theorem converges {key : K} {storage : K → Option S} {events : List (Event K T)}
    (h : StepsMeet (State.step J) (Condition J) (mounted J initialValue key storage) events) :
    HoldsThroughout (State.step J) (Converges J initialValue) (mounted J initialValue key storage) events :=
  StepsMeet.holdsThroughout (fun _ _ hi hc => Inv.step hi hc) (fun _ hi => hi.convergent)
    (Inv.mounted key storage) h

end

/-! ## A number under two keys -/

def numbers : Json Nat Nat := ⟨id, id, fun _ => rfl⟩

/-- 5 is stored for a, and 7 for b. -/
def start : State String Nat Nat :=
  mounted numbers 0 "a" fun key => if key = "a" then some 5 else if key = "b" then some 7 else none

def addOne : Update Nat := .updater fun n => some (n + 1)

/-- The value is loaded, updated in the next render, and written. -/
def oneUpdate : List (Event String Nat) :=
  [.getItem 0 true, .loadFromStorage 0, .render "a", .setPersistedState 1 addOne, .write]

theorem converges_oneUpdate :
    HoldsThroughout (State.step numbers) (Converges numbers 0) start oneUpdate := by
  refine converges ⟨trivial, ?_, trivial, ?_, trivial, trivial⟩
  · intro key answer hload
    obtain ⟨rfl, rfl⟩ : key = "a" ∧ answer = some 5 := by
      simpa [mounted, State.step, State.getItem, eq_comm] using hload
    exact ⟨rfl, rfl⟩
  · intro key state hrender
    obtain ⟨rfl, rfl⟩ : "a" = key ∧ 5 = state := Prod.ext_iff.1 (some.inj hrender)
    exact ⟨rfl, rfl⟩

/-- The value is set while the load has its answer already. -/
def setBeforeLoaded : List (Event String Nat) :=
  [.getItem 0 true, .setPersistedState 0 (.value 9), .write, .loadFromStorage 0]

/-- Two updaters in the same render. -/
def twoUpdaters : List (Event String Nat) :=
  [.getItem 0 true, .loadFromStorage 0, .render "a", .setPersistedState 1 addOne,
    .setPersistedState 1 addOne, .write, .write]

/-- The load for a goes on after the one for b. -/
def lateLoad : List (Event String Nat) :=
  [.getItem 0 true, .render "b", .getItem 1 true, .loadFromStorage 1, .loadFromStorage 0]

/-- Everything has settled: the value is 5 where 9 is stored, 6 after two increments of 5, and 5 where 7 is
    stored. -/
theorem not_converging :
    ¬HoldsThroughout (State.step numbers) (Converges numbers 0) start setBeforeLoaded ∧
    ¬HoldsThroughout (State.step numbers) (Converges numbers 0) start twoUpdaters ∧
    ¬HoldsThroughout (State.step numbers) (Converges numbers 0) start lateLoad := by
  refine ⟨fun h => ?_, fun h => ?_, fun h => ?_⟩
  · exact absurd (h.last.settled rfl rfl).1 (by decide)
  · exact absurd (h.last.settled rfl rfl).1 (by decide)
  · exact absurd (h.last.settled rfl rfl).1 (by decide)

end PersistedState
