import SovereignMobile.Auth.Types
import SovereignMobile.EventLoop.Wp

/-! # The address book

`AddressBookService.ts` keeps a list of entries under one storage key. Every change loads the list,
changes it and saves it, and other changes may run while it waits for the storage. `useAddressBook.ts`
repeats the changes in memory. -/

namespace AddressBook

open EventLoop List Option Function
open Auth (trim)

/-! ## The storage -/

structure AddressBookEntry where
  id : String
  name : String
  address : String
  createdAt : Int
  deriving DecidableEq

/-- The text under the storage key: the JSON of a list, or something that is no JSON. -/
inductive Stored where
  | missing
  | list (entries : List AddressBookEntry)
  | corrupt
  deriving DecidableEq

def Stored.entries : Stored → List AddressBookEntry
  | .list entries => entries
  | _ => []

/-- What a list is saved for. -/
inductive Change where
  | add (entry : AddressBookEntry)
  | update (id name : String)
  | remove (id : String)
  deriving DecidableEq

def Change.apply : Change → List AddressBookEntry → List AddressBookEntry
  | .add entry, entries => entries ++ [entry]
  | .update id name, entries => entries.map fun e => if e.id = id then { e with name := trim name } else e
  | .remove id, entries => entries.filter fun e => e.id ≠ id

/-- `entries` is the list of the hook. The rest is the history: what `getItem` answered each task, the
    changes whose lists have been written, and the entries that were stored when a list without them was
    written after a failed read, though it does not remove them. -/
structure State where
  stored : Stored
  entries : List AddressBookEntry
  answers : Nat → Option Stored
  completed : List Change
  lost : List AddressBookEntry

/-- What `load` makes of the answer: of a rejection and of a broken text nothing. -/
def loadOf (answer : Option Stored) : List AddressBookEntry :=
  (answer.map Stored.entries).getD []

/-- The list that the task has loaded. -/
def State.loaded (s : State) (i : Nat) : List AddressBookEntry := loadOf (s.answers i)

/-- The read was rejected, or has come back broken. -/
def State.readFailed (s : State) (i : Nat) : Bool := s.answers i = none || s.answers i = some .corrupt

inductive Call where
  | getItem
  | setItem (change : Change) (entries : List AddressBookEntry)

abbrev Call.Ret : Call → Type
  | .getItem => Stored
  | .setItem _ _ => Unit

inductive Reply where
  | ok
  | corrupt
  | fail
  deriving DecidableEq

inductive Error where
  | storage
  | syntaxError
  deriving DecidableEq

def State.answer (s : State) (i : Nat) (answer : Option Stored) : State :=
  { s with answers := Function.update s.answers i answer }

/-- The entries that the new list leaves out. -/
def State.leftOut (s : State) (change : Change) (entries : List AddressBookEntry) : List AddressBookEntry :=
  s.stored.entries.filter fun e => change ≠ .remove e.id && !entries.any fun e' => e'.id = e.id

def State.write (s : State) (i : Nat) (change : Change) (entries : List AddressBookEntry) : State :=
  { s with
    stored := .list entries
    completed := s.completed ++ [change]
    lost := if s.readFailed i then s.lost ++ s.leftOut change entries else s.lost }

def Call.perform (i : Nat) : (c : Call) → Reply → State → Option (State × Except Error c.Ret)
  | .getItem, .ok, s => some (s.answer i (some s.stored), .ok s.stored)
  | .getItem, .corrupt, s => some (s.answer i (some .corrupt), .ok .corrupt)
  | .getItem, .fail, s => some (s.answer i none, .error .storage)
  | .setItem change entries, .ok, s => some (s.write i change entries, .ok ())
  | .setItem _ _, .fail, s => some (s, .error .storage)
  | .setItem _ _, .corrupt, _ => none

/-- `setEntries` -/
abbrev Op := List AddressBookEntry → List AddressBookEntry

def machine : Machine where
  State := State
  Op := Op
  Call := Call
  Ret := Call.Ret
  Err := Error
  Reply := Reply
  apply _ f s := { s with entries := f s.entries }
  perform := Call.perform

/-! ## The service -/

def load : Async machine (List AddressBookEntry) :=
  Async.tryCatch (do
    let raw : Stored ← Async.await (M := machine) .getItem
    match raw with
    | .missing => pure []
    | .list entries => pure entries
    | .corrupt => Async.throw (M := machine) .syntaxError)
    fun _ => pure []

def save (change : Change) (entries : List AddressBookEntry) : Async machine Unit :=
  Async.await (M := machine) (.setItem change entries)

def getAll : Async machine (List AddressBookEntry) := load

/-- `id` and `createdAt` are what the clock and the random numbers make of them. -/
def addEntry (name address id : String) (createdAt : Int) : Async machine AddressBookEntry := do
  let entries ← load
  let entry : AddressBookEntry := ⟨id, trim name, trim address, createdAt⟩
  save (.add entry) (entries ++ [entry])
  pure entry

def updateEntry (id name : String) : Async machine Unit := do
  let entries ← load
  save (.update id name) (entries.map fun e => if e.id = id then { e with name := trim name } else e)

def removeEntry (id : String) : Async machine Unit := do
  let entries ← load
  save (.remove id) (entries.filter fun e => e.id ≠ id)

/-! ## The hook -/

def setEntries (f : List AddressBookEntry → List AddressBookEntry) : Async machine Unit :=
  Async.op (M := machine) f

def mount : Async machine Unit := do
  let entries ← getAll
  setEntries fun _ => entries

def add (name address id : String) (createdAt : Int) : Async machine AddressBookEntry := do
  let entry ← addEntry name address id createdAt
  setEntries fun prev => prev ++ [entry]
  pure entry

def remove (id : String) : Async machine Unit := do
  removeEntry id
  setEntries fun prev => prev.filter fun e => e.id ≠ id

/-- In memory the name is not trimmed. -/
def rename (id name : String) : Async machine Unit := do
  updateEntry id name
  setEntries fun prev => prev.map fun e => if e.id = id then { e with name := name } else e

inductive Cmd where
  | mount
  | add (name address id : String) (createdAt : Int)
  | remove (id : String)
  | rename (id name : String)
  | addEntry (name address id : String) (createdAt : Int)
  | updateEntry (id name : String)
  | removeEntry (id : String)

def prog : Cmd → Task machine
  | .mount => AddressBook.mount.toTask
  | .add name address id createdAt => (AddressBook.add name address id createdAt).toTask
  | .remove id => (AddressBook.remove id).toTask
  | .rename id name => (AddressBook.rename id name).toTask
  | .addEntry name address id createdAt => (AddressBook.addEntry name address id createdAt).toTask
  | .updateEntry id name => (AddressBook.updateEntry id name).toTask
  | .removeEntry id => (AddressBook.removeEntry id).toTask

/-! ## No entry is lost -/

/-- The name that the last of the changes gives. -/
def lastName (id name : String) (changes : List Change) : String :=
  changes.foldl (fun name change =>
    match change with
    | .update id' name' => if id' = id then trim name' else name
    | _ => name) name

/-- What was added and not removed is stored, under the name that the last update gave it. -/
def State.Kept (s : State) : Prop :=
  ∀ before e after, s.completed = before ++ .add e :: after → Change.remove e.id ∉ after →
    { e with name := lastName e.id e.name after } ∈ s.stored.entries

structure State.NoEntryLost (s : State) : Prop where
  kept : s.Kept
  lost : s.lost = []

/-- A list is written only if it has what the change makes of the list that is stored. -/
def upToDate : Cond machine where
  op _ _ _ := true
  call i s
    | .setItem change _, .ok _ => change.apply s.stored.entries ⊆ change.apply (State.loaded s i)
    | _, _ => true

/-! ## One change -/

section
variable {s s' : State} {change : Change} {entries : List AddressBookEntry} {i : Nat}

variable {e : AddressBookEntry} {es : List AddressBookEntry}

theorem Change.mem_apply_remove {id : String} :
    e ∈ (Change.remove id).apply es ↔ e ∈ es ∧ e.id ≠ id := by
  simp [Change.apply]

theorem Change.exists_mem_apply (h : e ∈ es) (hne : change ≠ .remove e.id) :
    { e with name := lastName e.id e.name [change] } ∈ change.apply es := by
  cases change with
  | add entry => exact mem_append_left _ h
  | update id name =>
    refine mem_map.2 ⟨e, h, ?_⟩
    by_cases hid : id = e.id
    · rw [if_pos hid.symm]
      simp [lastName, hid]
    · rw [if_neg (Ne.symm hid)]
      simp [lastName, hid]
  | remove id =>
    exact Change.mem_apply_remove.2 ⟨h, fun hid => hne (congrArg Change.remove hid.symm)⟩

theorem lastName_snoc (id name : String) (changes : List Change) (change : Change) :
    lastName id name (changes ++ [change]) = lastName id (lastName id name changes) [change] :=
  foldl_append

/-- A list that has what the change makes of the stored one keeps every entry. -/
theorem State.Kept.write (h : s.Kept) (hsub : change.apply s.stored.entries ⊆ entries) :
    (s.write i change entries).Kept := by
  intro before e after hsplit hremove
  have hstored : (s.write i change entries).stored.entries = entries := rfl
  have hcompleted : s.completed ++ [change] = before ++ .add e :: after := hsplit
  rw [hstored]
  rcases eq_nil_or_concat after with rfl | ⟨after, last, rfl⟩
  · -- the entry is the one that has just been added
    obtain ⟨-, hlast⟩ := append_inj' hcompleted rfl
    obtain rfl : change = .add e := by simpa using hlast
    exact hsub (mem_append_right _ (mem_singleton.2 rfl))
  rw [concat_eq_append] at hcompleted hremove ⊢
  rw [← cons_append, ← append_assoc] at hcompleted
  obtain ⟨hbefore, hlast⟩ := append_inj' hcompleted rfl
  obtain rfl : change = last := by simpa using hlast
  rw [mem_append, not_or] at hremove
  have hmem := h before e after hbefore hremove.1
  have hne : change ≠ .remove e.id := by
    rintro rfl
    exact hremove.2 (mem_singleton.2 rfl)
  rw [lastName_snoc]
  exact hsub (Change.exists_mem_apply hmem hne)

/-- Nothing is left out of such a list. -/
theorem State.leftOut_eq_nil (hsub : change.apply s.stored.entries ⊆ entries) :
    s.leftOut change entries = [] := by
  refine filter_eq_nil_iff.2 fun e he => ?_
  by_cases hne : change = .remove e.id
  · simp [hne]
  have hmem := hsub (Change.exists_mem_apply he hne)
  have hany : (entries.any fun e' => e'.id = e.id) = true :=
    any_eq_true.2 ⟨_, hmem, decide_eq_true rfl⟩
  simp [hany]

theorem State.NoEntryLost.write (h : s.NoEntryLost)
    (hsub : change.apply s.stored.entries ⊆ entries) : (s.write i change entries).NoEntryLost := by
  refine ⟨h.kept.write hsub, ?_⟩
  change (if s.readFailed i then s.lost ++ s.leftOut change entries else s.lost) = []
  rw [State.leftOut_eq_nil hsub, append_nil, ite_self]
  exact h.lost

end

/-! ## The programs -/

/-- Nobody else changes what a task has loaded; it saves the change of that list. -/
def spec : Spec machine where
  Inv := State.NoEntryLost
  Rely i s s' := s'.answers i = s.answers i
  OpPre _ _ _ := True
  CallPre i s
    | .getItem => True
    | .setItem change entries => entries = change.apply (State.loaded s i)
  Fin _ _ := True

theorem spec_sound : spec.Sound upToDate where
  refl _ _ := rfl
  trans _ _ _ _ h h' := h'.trans h
  op _ _ _ hi _ _ := ⟨⟨hi.kept, hi.lost⟩, fun _ _ => rfl⟩
  call i s c r s' o hi hpre hp hc := by
    cases c with
    | getItem =>
      have hanswer : ∃ answer, s' = State.answer s i answer := by
        cases r with
        | ok | corrupt | fail => exact ⟨_, (Prod.ext_iff.1 (some.inj hp)).1.symm⟩
      obtain ⟨answer, rfl⟩ := hanswer
      exact ⟨⟨hi.kept, hi.lost⟩, fun j hj => update_of_ne hj _ _⟩
    | setItem change entries =>
      cases r with
      | ok =>
        cases hp
        obtain rfl : entries = change.apply (State.loaded s i) := hpre
        exact ⟨hi.write (of_decide_eq_true hc), fun _ _ => rfl⟩
      | corrupt => simp [machine, Call.perform] at hp
      | fail =>
        cases hp
        exact ⟨hi, fun _ _ => rfl⟩
  fin _ _ _ h _ _ := h

section
variable {s : State} {i : Nat}

theorem load_wp : spec.Wp upToDate i load (fun r s' => r = .ok (State.loaded s' i)) s := by
  refine .tryCatch (R := fun r s' => ∀ e, (r = .ok e → e = State.loaded s' i) ∧
    ((∃ e, r = .error e) → State.loaded s' i = [])) ?_ ?_ ?_
  · refine .bind (R := fun r (s' : State) => s'.answers i = r.toOption) ?_ ?_ ?_
    · refine .await fun s1 _ _ => ⟨trivial, fun r s2 o hp _ _ s3 hr _ => ?_⟩
      cases r with
      | ok | corrupt | fail =>
        cases hp
        exact hr.trans (update_self _ _ _)
    · intro raw s' hi' hraw
      have hloaded : State.loaded s' i = raw.entries := congrArg loadOf hraw
      cases raw with
      | missing => exact .pure hi' fun e => ⟨fun h => by simpa [hloaded, Stored.entries] using h.symm,
          fun ⟨_, h⟩ => nomatch h⟩
      | list entries => exact .pure hi' fun e =>
        ⟨fun h => by simpa [hloaded, Stored.entries] using h.symm, fun ⟨_, h⟩ => nomatch h⟩
      | corrupt => exact .throw hi' fun e => ⟨fun h => absurd h (by simp), fun _ => hloaded⟩
    · intro error s' _ hanswer e
      exact ⟨fun h => absurd h (by simp), fun _ => congrArg loadOf hanswer⟩
  · intro e s' _ h
    rw [(h e).1 rfl]
  · intro error s' hi' h
    refine .pure hi' ?_
    rw [(h []).2 ⟨error, rfl⟩]

theorem save_wp {change : Change} {entries : List AddressBookEntry}
    (h : entries = change.apply (State.loaded s i)) :
    spec.Wp upToDate i (save change entries) (fun _ _ => True) s := by
  refine .await fun s1 hr _ => ⟨?_, fun _ _ _ _ _ _ _ _ _ => trivial⟩
  have hloaded : State.loaded s1 i = State.loaded s i := congrArg loadOf hr
  change entries = change.apply (State.loaded s1 i)
  rw [hloaded, h]

theorem addEntry_wp (name address id : String) (createdAt : Int) :
    spec.Wp upToDate i (addEntry name address id createdAt) (fun _ _ => True) s := by
  refine .bind load_wp (fun entries s' hi' hloaded => ?_) fun _ _ _ _ => trivial
  obtain rfl : entries = State.loaded s' i := Except.ok.inj hloaded
  refine .bind (save_wp rfl) (fun _ s' hi' _ => ?_) fun _ _ _ _ => trivial
  exact .pure hi' trivial

theorem updateEntry_wp (id name : String) :
    spec.Wp upToDate i (updateEntry id name) (fun _ _ => True) s := by
  refine .bind load_wp (fun entries s' _ hloaded => ?_) fun _ _ _ _ => trivial
  obtain rfl : entries = State.loaded s' i := Except.ok.inj hloaded
  exact save_wp rfl

theorem removeEntry_wp (id : String) : spec.Wp upToDate i (removeEntry id) (fun _ _ => True) s := by
  refine .bind load_wp (fun entries s' _ hloaded => ?_) fun _ _ _ _ => trivial
  obtain rfl : entries = State.loaded s' i := Except.ok.inj hloaded
  exact save_wp rfl

theorem setEntries_wp (f : List AddressBookEntry → List AddressBookEntry) :
    spec.Wp upToDate i (setEntries f) (fun _ _ => True) s :=
  .op fun _ => ⟨trivial, fun _ => trivial⟩

theorem prog_safe (c : Cmd) : spec.Safe upToDate i (prog c) s := by
  have hdone : ∀ {α : Type} {m : Async machine α}, spec.Wp upToDate i m (fun _ _ => True) s →
      spec.Safe upToDate i m.toTask s := fun h => h.toTask fun _ _ _ _ => trivial
  cases c with
  | mount =>
    refine hdone (.bind load_wp (fun entries s' _ _ => ?_) fun _ _ _ _ => trivial)
    exact setEntries_wp _
  | add name address id createdAt =>
    refine hdone (.bind (addEntry_wp _ _ _ _) (fun entry s' _ _ => ?_) fun _ _ _ _ => trivial)
    refine .bind (setEntries_wp _) (fun _ s' hi' _ => ?_) fun _ _ _ _ => trivial
    exact .pure hi' trivial
  | remove id =>
    refine hdone (.bind (removeEntry_wp _) (fun _ s' _ _ => ?_) fun _ _ _ _ => trivial)
    exact setEntries_wp _
  | rename id name =>
    refine hdone (.bind (updateEntry_wp _ _) (fun _ s' _ _ => ?_) fun _ _ _ _ => trivial)
    exact setEntries_wp _
  | addEntry name address id createdAt => exact hdone (addEntry_wp _ _ _ _)
  | updateEntry id name => exact hdone (updateEntry_wp _ _)
  | removeEntry id => exact hdone (removeEntry_wp _)

end

/-- **The address book loses no entry** in a run in which every list that is written has what the change
    makes of the stored list. -/
theorem no_entry_lost {w : Sys machine} (h : Reach upToDate prog State.NoEntryLost w) :
    State.NoEntryLost w.state :=
  (spec_sound.reach (fun _ h => h) (fun _ _ _ => trivial) (fun c _ _ _ _ => prog_safe c) h).inv

def noEntries : State := ⟨.missing, [], fun _ => none, [], []⟩

theorem noEntries_kept : noEntries.NoEntryLost := by
  refine ⟨fun before e after hsplit => ?_, rfl⟩
  exact absurd hsplit.symm (by simp [noEntries])

def ann : AddressBookEntry := ⟨"1", "Ann", "0a", 1⟩

def bob : AddressBookEntry := ⟨"2", "Bob", "0b", 2⟩

/-- Load and save. -/
def steps (i : Nat) : List (Move machine Cmd) := [.perform i .ok, .resume i, .perform i .ok, .resume i]

theorem no_entry_lost_one_after_the_other :
    ∃ w : Sys machine, (Sys.idle noEntries).run upToDate prog
        (.start (.addEntry "Ann" "0a" "1" 1) :: steps 0 ++ .start (.updateEntry "1" " Anna ") :: steps 1) =
          some w ∧
      State.stored w.state = .list [{ ann with name := "Anna" }] ∧ State.NoEntryLost w.state := by
  have hw : ((Sys.idle noEntries).run upToDate prog
      (.start (.addEntry "Ann" "0a" "1" 1) :: steps 0 ++ .start (.updateEntry "1" " Anna ") :: steps 1)).map
        (fun w => State.stored w.state) = some (.list [{ ann with name := "Anna" }]) := by decide
  obtain ⟨w, hrun, hstored⟩ := map_eq_some_iff.1 hw
  exact ⟨w, hrun, hstored, no_entry_lost (.of_run noEntries_kept hrun)⟩

/-- Both entries are added to the empty list. -/
def overlapping : List (Move machine Cmd) :=
  [.start (.addEntry "Ann" "0a" "1" 1), .start (.addEntry "Bob" "0b" "2" 2), .perform 0 .ok, .perform 1 .ok,
   .resume 0, .resume 1, .perform 0 .ok, .perform 1 .ok, .resume 0, .resume 1]

/-- The second entry is added after a failed read. -/
def failedRead : List (Move machine Cmd) :=
  .start (.addEntry "Ann" "0a" "1" 1) :: steps 0 ++
    [.start (.addEntry "Bob" "0b" "2" 2), .perform 1 .fail, .resume 1, .perform 1 .ok, .resume 1]

/-- All calls have settled, and the first entry is gone. -/
theorem entry_lost :
    (∃ w : Sys machine, Reach Cond.any prog State.NoEntryLost w ∧ w.tasks.length = 0 ∧
      ¬State.Kept w.state) ∧
    ∃ w : Sys machine, Reach Cond.any prog State.NoEntryLost w ∧ w.tasks.length = 0 ∧
      State.lost w.state = [ann] := by
  have hkept : ((Sys.idle noEntries).run Cond.any prog overlapping).map
      (fun w => (State.stored w.state, State.completed w.state, w.tasks.length)) =
        some (.list [bob], [.add ann, .add bob], 0) := by decide
  have hlost : ((Sys.idle noEntries).run Cond.any prog failedRead).map
      (fun w => (State.lost w.state, w.tasks.length)) = some ([ann], 0) := by decide
  obtain ⟨w, hrun, hobs⟩ := map_eq_some_iff.1 hkept
  obtain ⟨w', hrun', hobs'⟩ := map_eq_some_iff.1 hlost
  simp only [Prod.mk.injEq] at hobs hobs'
  refine ⟨⟨w, .of_run noEntries_kept hrun, hobs.2.2, fun h => ?_⟩,
    w', .of_run noEntries_kept hrun', hobs'.2, hobs'.1⟩
  have hmem := h [] ann [.add bob] hobs.2.1 (by simp)
  rw [hobs.1] at hmem
  exact nomatch hmem

end AddressBook
