/-! # Programs that may be cut off

Sequential code over a state, in which a call returns, throws, or never comes back. After a call that does
not come back nothing runs, no handler either, and the state stays as it is. `Ends m s r s'` says how a
program ends, with one rule for each way to put programs together. -/

namespace Stateful

namespace Interruptible

/-- `none` for what never comes back. -/
abbrev Outcome (ε α : Type) := Option (Except ε α)

variable {ε S α β : Type}

def Outcome.returned : Outcome ε α → Option α
  | some (.ok a) => some a
  | _ => none

theorem Outcome.eq_of_returned {r : Outcome ε α} {a : α} (h : r.returned = some a) : r = some (.ok a) := by
  rcases r with _ | e | a'
  · cases h
  · cases h
  · cases h
    rfl

def Prog (ε S α : Type) := S → Outcome ε α × S

namespace Prog

def next (f : α → Prog ε S β) : Outcome ε α × S → Outcome ε β × S
  | (some (.ok a), s) => f a s
  | (some (.error e), s) => (some (.error e), s)
  | (none, s) => (none, s)

/-- No handler runs for code that is cut off. -/
def handle (h : ε → Prog ε S α) : Outcome ε α × S → Outcome ε α × S
  | (some (.error e), s) => h e s
  | x => x

instance : Monad (Prog ε S) where
  pure a := fun s => (some (.ok a), s)
  bind m f := fun s => next f (m s)

instance : MonadExceptOf ε (Prog ε S) where
  throw e := fun s => (some (.error e), s)
  tryCatch m h := fun s => handle h (m s)

end Prog

/-- A call that leaves the state alone. -/
def answer (r : Outcome ε α) : Prog ε S α := fun s => (r, s)

/-- A call that changes the state, unless it never comes back. -/
def perform (f : S → Except ε α × S) (comesBack : Bool) : Prog ε S α := fun s =>
  if comesBack then (some (f s).1, (f s).2) else (none, s)

/-- `catch (e) {}` -/
def ignoring (m : Prog ε S Unit) : Prog ε S Unit := tryCatch m fun _ => pure ()

/-! ## How a program ends -/

def Ends (m : Prog ε S α) (s : S) (r : Outcome ε α) (s' : S) : Prop := m s = (r, s')

namespace Ends

variable {m : Prog ε S α} {f : α → Prog ε S β} {h : ε → Prog ε S α} {s s1 s2 : S} {a : α} {e : ε}
  {r : Outcome ε α} {r' : Outcome ε β}

theorem pure : Ends (Pure.pure a : Prog ε S α) s (some (.ok a)) s := rfl

theorem throw : Ends (MonadExcept.throw e : Prog ε S α) s (some (.error e)) s := rfl

theorem answer : Ends (Interruptible.answer r : Prog ε S α) s r s := rfl

theorem answer_ok (hr : r.returned = some a) :
    Ends (Interruptible.answer r : Prog ε S α) s (some (.ok a)) s := Outcome.eq_of_returned hr ▸ answer

variable {g : S → Except ε α × S}

theorem perform : Ends (Interruptible.perform g true) s (some (g s).1) (g s).2 := rfl

theorem perform_cutOff : Ends (Interruptible.perform g false) s none s := rfl

theorem bind (hm : Ends m s (some (.ok a)) s1) (hf : Ends (f a) s1 r' s2) : Ends (m >>= f) s r' s2 := by
  have hstep : (m >>= f) s = Prog.next f (m s) := rfl
  rw [Ends, hstep, hm]
  exact hf

theorem bind_iff (hm : Ends m s (some (.ok a)) s1) : Ends (m >>= f) s r' s2 ↔ Ends (f a) s1 r' s2 := by
  have hstep : (m >>= f) s = Prog.next f (m s) := rfl
  rw [Ends, hstep, hm]
  rfl

theorem bind_error (hm : Ends m s (some (.error e)) s1) : Ends (m >>= f) s (some (.error e)) s1 := by
  have hstep : (m >>= f) s = Prog.next f (m s) := rfl
  rw [Ends, hstep, hm]
  rfl

theorem bind_cutOff (hm : Ends m s none s1) : Ends (m >>= f) s none s1 := by
  have hstep : (m >>= f) s = Prog.next f (m s) := rfl
  rw [Ends, hstep, hm]
  rfl

theorem tryCatch (hm : Ends m s (some (.ok a)) s1) :
    Ends (MonadExcept.tryCatch m h) s (some (.ok a)) s1 := by
  have hstep : (MonadExcept.tryCatch m h) s = Prog.handle h (m s) := rfl
  rw [Ends, hstep, hm]
  rfl

theorem tryCatch_error (hm : Ends m s (some (.error e)) s1) (hh : Ends (h e) s1 r s2) :
    Ends (MonadExcept.tryCatch m h) s r s2 := by
  have hstep : (MonadExcept.tryCatch m h) s = Prog.handle h (m s) := rfl
  rw [Ends, hstep, hm]
  exact hh

theorem tryCatch_cutOff (hm : Ends m s none s1) : Ends (MonadExcept.tryCatch m h) s none s1 := by
  have hstep : (MonadExcept.tryCatch m h) s = Prog.handle h (m s) := rfl
  rw [Ends, hstep, hm]
  rfl

theorem ignoring {m : Prog ε S Unit} {r : Except ε Unit} (hm : Ends m s (some r) s1) :
    Ends (Interruptible.ignoring m) s (some (.ok ())) s1 := by
  cases r with
  | ok _ => exact tryCatch hm
  | error _ => exact tryCatch_error hm pure

theorem ignoring_cutOff {m : Prog ε S Unit} (hm : Ends m s none s1) :
    Ends (Interruptible.ignoring m) s none s1 := tryCatch_cutOff hm

theorem ignoring_answer {r : Outcome ε Unit} (hr : r.isSome = true) :
    Ends (Interruptible.ignoring (Interruptible.answer r) : Prog ε S Unit) s (some (.ok ())) s := by
  obtain ⟨x, rfl⟩ := Option.isSome_iff_exists.1 hr
  exact ignoring answer

theorem unique {r1 r2 : Outcome ε α} (h1 : Ends m s r1 s1) (h2 : Ends m s r2 s2) :
    r1 = r2 ∧ s1 = s2 := Prod.mk.inj (Eq.trans (Eq.symm h1) h2)

end Ends

/-! ## Programs that do not return -/

/-- `m` throws or is cut off, in the state `s'`. -/
def Stops (m : Prog ε S α) (s s' : S) : Prop := ∃ r, Ends m s r s' ∧ r.returned = none

namespace Stops

variable {m : Prog ε S α} {f : α → Prog ε S β} {s s1 s2 : S} {a : α}

theorem throw {e : ε} : Stops (MonadExcept.throw e : Prog ε S α) s s := ⟨_, .throw, rfl⟩

theorem answer {r : Outcome ε α} (hr : r.returned = none) : Stops (Interruptible.answer r : Prog ε S α) s s :=
  ⟨r, .answer, hr⟩

theorem ignoring_answer {r : Outcome ε Unit} (hr : ¬ r.isSome = true) :
    Stops (Interruptible.ignoring (Interruptible.answer r) : Prog ε S Unit) s s := by
  rw [Option.not_isSome_iff_eq_none.1 hr]
  exact ⟨none, .ignoring_cutOff .answer, rfl⟩

theorem bind (hm : Stops m s s1) : Stops (m >>= f) s s1 := by
  obtain ⟨r, hends, hr⟩ := hm
  rcases r with _ | e | a
  · exact ⟨none, hends.bind_cutOff, rfl⟩
  · exact ⟨some (.error e), hends.bind_error, rfl⟩
  · cases hr

theorem after (hm : Ends m s (some (.ok a)) s1) (hf : Stops (f a) s1 s2) : Stops (m >>= f) s s2 := by
  obtain ⟨r, hends, hr⟩ := hf
  exact ⟨r, hm.bind hends, hr⟩

theorem after_iff (hm : Ends m s (some (.ok a)) s1) : Stops (m >>= f) s s2 ↔ Stops (f a) s1 s2 := by
  constructor
  · rintro ⟨r, hends, hr⟩
    exact ⟨r, hm.bind_iff.1 hends, hr⟩
  · exact after hm

theorem unique (h1 : Stops m s s1) (h2 : Stops m s s2) : s1 = s2 := by
  obtain ⟨r1, hends1, -⟩ := h1
  obtain ⟨r2, hends2, -⟩ := h2
  exact (Prod.mk.inj (Eq.trans (Eq.symm hends1) hends2)).2

/-- A program that stops does not return. -/
theorem not_ends (hm : Stops m s s1) : ¬ Ends m s (some (.ok a)) s2 := by
  obtain ⟨r, hends, hr⟩ := hm
  intro hok
  obtain ⟨rfl, -⟩ := hends.unique hok
  cases hr

end Stops

/-! ## Programs that return under a condition -/

/-- Under the condition `P` the program returns, and then as `Q` says; else it stops, in a state with `Z`. -/
def Returns (P : Prop) (m : Prog ε S α) (s : S) (Q : α → S → Prop) (Z : S → Prop) : Prop :=
  (P ∧ ∃ a s', Ends m s (some (.ok a)) s' ∧ Q a s') ∨ ¬ P ∧ ∃ s', Stops m s s' ∧ Z s'

namespace Returns

variable {P P' : Prop} {m : Prog ε S α} {f : α → Prog ε S β} {s s1 : S} {a : α}
  {Q : α → S → Prop} {R : β → S → Prop} {Z Z' : S → Prop}

theorem of_ends (hP : P) (h : Ends m s (some (.ok a)) s1) (hQ : Q a s1) : Returns P m s Q Z :=
  .inl ⟨hP, a, s1, h, hQ⟩

theorem of_stops (hP : ¬ P) (h : Stops m s s1) (hZ : Z s1) : Returns P m s Q Z := .inr ⟨hP, s1, h, hZ⟩

/-- The condition of the whole says that the first part returns. -/
theorem bind (hm : Returns P m s Q Z) (himp : P' → P) (hZ : ¬ P → ∀ s1, Z s1 → Z' s1)
    (hf : P → ∀ a s1, Q a s1 → Returns P' (f a) s1 R Z') : Returns P' (m >>= f) s R Z' := by
  rcases hm with ⟨hP, a, s1, hends, hQ⟩ | ⟨hP, s1, hstops, hz⟩
  · rcases hf hP a s1 hQ with ⟨hP', b, s2, hends', hR⟩ | ⟨hP', s2, hstops, hz⟩
    · exact of_ends hP' (hends.bind hends') hR
    · exact of_stops hP' (.after hends hstops) hz
  · exact of_stops (fun h => hP (himp h)) hstops.bind (hZ hP s1 hz)

theorem after (hm : Ends m s (some (.ok a)) s1) (hf : Returns P' (f a) s1 R Z') :
    Returns P' (m >>= f) s R Z' :=
  (of_ends trivial hm ⟨rfl, rfl⟩ : Returns True m s (fun b s' => s' = s1 ∧ b = a) Z').bind
    (fun _ => trivial) (fun _ _ h => h) fun _ _ _ h => h.1 ▸ h.2 ▸ hf

theorem imp (h : Returns P m s Q Z) {Q' : α → S → Prop} (hP : P' ↔ P) (hQ : ∀ a s1, Q a s1 → Q' a s1)
    (hZ : ∀ s1, Z s1 → Z' s1) : Returns P' m s Q' Z' := by
  rcases h with ⟨h, a, s1, hends, hq⟩ | ⟨h, s1, hstops, hz⟩
  · exact of_ends (hP.2 h) hends (hQ a s1 hq)
  · exact of_stops (fun h' => h (hP.1 h')) hstops (hZ s1 hz)

theorem anyhow (h : Returns P m s Q Z) : Returns P m s Q fun _ => True :=
  h.imp Iff.rfl (fun _ _ h => h) fun _ _ => trivial

theorem answer (r : Outcome ε α) : Returns (r.returned.isSome = true) (Interruptible.answer r) s
    (fun a s' => r.returned = some a ∧ s' = s) fun s' => s' = s := by
  cases hr : r.returned with
  | none => exact of_stops Bool.false_ne_true (.answer hr) rfl
  | some a => exact of_ends rfl (.answer_ok hr) ⟨rfl, rfl⟩

theorem ignoring_answer (r : Outcome ε Unit) :
    Returns (r.isSome = true) (Interruptible.ignoring (Interruptible.answer r)) s
      (fun _ s' => s' = s) fun s' => s' = s := by
  by_cases hr : r.isSome = true
  · exact of_ends hr (.ignoring_answer hr) rfl
  · exact of_stops hr (.ignoring_answer hr) rfl

end Returns

end Interruptible

end Stateful
