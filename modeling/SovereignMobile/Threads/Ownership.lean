import Mathlib.Data.List.Basic

/-! # What threads hold

Threads hold objects, and some of what a thread holds it alone may hold. While no two threads stand in
each other's way (`Claims.Exclusive`), a step has to be justified only by what the thread takes: an object
that it did not hold must be one that no other thread owns, and one that it did not own one that no other
thread holds (`Claims.Exclusive.stepped`). -/

namespace Threads

open List

variable {τ α : Type}

/-- What a thread holds, and what of it alone. -/
structure Claims (τ α : Type) where
  holds : τ → α → Prop
  owns : τ → α → Prop
  holds_of_owns : ∀ t a, owns t a → holds t a

namespace Claims

variable (C : Claims τ α)

/-- What one of two threads owns the other does not hold. -/
def Apart (t u : τ) : Prop := ∀ a, (C.owns t a → ¬ C.holds u a) ∧ (C.owns u a → ¬ C.holds t a)

def Exclusive (ts : List τ) : Prop := ts.Pairwise C.Apart

variable {C} {t u : τ} {pre post ts : List τ}

theorem Apart.symm (h : C.Apart t u) : C.Apart u t := fun a => ⟨(h a).2, (h a).1⟩

/-- A thread that holds nothing. -/
theorem Apart.of_idle (h : ∀ a, ¬ C.holds t a) : C.Apart t u := by
  intro a
  constructor
  · intro ho _
    exact h a (C.holds_of_owns t a ho)
  · exact fun _ => h a

theorem Exclusive.iff_middle :
    C.Exclusive (pre ++ t :: post) ↔ (∀ u ∈ pre ++ post, C.Apart t u) ∧ C.Exclusive (pre ++ post) := by
  unfold Exclusive
  rw [pairwise_middle Apart.symm, pairwise_cons]

/-- A thread that holds nothing may join. -/
theorem Exclusive.append_idle (h : C.Exclusive ts) (hidle : ∀ a, ¬ C.holds t a) :
    C.Exclusive (ts ++ [t]) := by
  rw [Exclusive.iff_middle, append_nil]
  exact ⟨fun _ _ => .of_idle hidle, h⟩

/-- What a thread takes over from `t`, and what it takes in addition. -/
theorem Apart.stepped (h : C.Apart t u) {t' : τ}
    (hholds : ∀ a, C.holds t' a → C.holds t a ∨ ¬ C.owns u a)
    (howns : ∀ a, C.owns t' a → C.owns t a ∨ ¬ C.holds u a) : C.Apart t' u := by
  intro a
  constructor
  · intro ho
    rcases howns a ho with ho | hu
    · exact (h a).1 ho
    · exact hu
  · intro hu hh
    rcases hholds a hh with hh | hno
    · exact (h a).2 hu hh
    · exact hno hu

/-- **The step rule.** A thread that takes a step takes no object from another thread. -/
theorem Exclusive.stepped (h : C.Exclusive (pre ++ t :: post)) {next : Option τ}
    (hholds : ∀ t' ∈ next, ∀ u ∈ pre ++ post, ∀ a, C.holds t' a → C.holds t a ∨ ¬ C.owns u a)
    (howns : ∀ t' ∈ next, ∀ u ∈ pre ++ post, ∀ a, C.owns t' a → C.owns t a ∨ ¬ C.holds u a) :
    C.Exclusive (pre ++ (next.toList ++ post)) := by
  obtain ⟨hapart, hrest⟩ := Exclusive.iff_middle.1 h
  cases next with
  | none => exact hrest
  | some t' =>
    refine .iff_middle.2 ⟨?_, hrest⟩
    intro u hu
    exact (hapart u hu).stepped (hholds t' rfl u hu) (howns t' rfl u hu)

end Claims

/-- The others, where the thread at `pre.length` takes a step. -/
theorem others_eq (pre post : List τ) (t : τ) :
    (pre ++ t :: post)[pre.length]? = some t ∧ (pre ++ t :: post).eraseIdx pre.length = pre ++ post := by
  constructor
  · simp
  · rw [eraseIdx_append_of_length_le (Nat.le_refl _)]
    simp

end Threads
