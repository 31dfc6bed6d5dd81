import Mathlib.Data.List.Basic

/-! # Threads over shared state

Threads that run side by side and meet in critical sections. A thread is given by where it stands;
one step takes it from one section to the next, and what comes back from the outside world in
between is an input of the step. Loops need no end. What holds of every reachable pool is shown
once for the entry points and once for each kind of thread (`Reach.invariant`). -/

namespace Threads

open List Option

variable {σ τ κ ι : Type}

/-- `call` is an entry point: what it does at once, and the threads it starts. `step` is what a
    thread does next: the threads that then stand in its place are none when it ends, and more than
    one when it starts others; it is `none` where the input is not what the thread waits for. -/
structure Program (σ τ κ ι : Type) where
  call : κ → σ → σ × List τ
  step : τ → ι → σ → Option (σ × List τ)

structure Pool (σ τ : Type) where
  shared : σ
  threads : List τ

inductive Move (κ ι : Type) where
  | call (c : κ)
  | step (n : Nat) (x : ι)

variable (P : Program σ τ κ ι)

def Pool.call (w : Pool σ τ) (c : κ) : Pool σ τ :=
  ⟨(P.call c w.shared).1, w.threads ++ (P.call c w.shared).2⟩

/-- The `n`-th thread takes a step. -/
def Pool.advance (w : Pool σ τ) (n : Nat) (x : ι) : Option (Pool σ τ) :=
  match w.threads[n]? with
  | none => none
  | some t =>
    (P.step t x w.shared).map fun r =>
      ⟨r.1, w.threads.take n ++ (r.2 ++ w.threads.drop (n + 1))⟩

def Pool.move (w : Pool σ τ) : Move κ ι → Option (Pool σ τ)
  | .call c => some (w.call P c)
  | .step n x => w.advance P n x

/-! ## Runs -/

/-- A condition on the moves of a run, in the pool they start from. -/
abbrev Cond (σ τ κ ι : Type) := Pool σ τ → Move κ ι → Bool

def Cond.any : Cond σ τ κ ι := fun _ _ => true

variable (C : Cond σ τ κ ι)

def Pool.run (w : Pool σ τ) : List (Move κ ι) → Option (Pool σ τ)
  | [] => some w
  | m :: ms => if C w m then (w.move P m).bind fun w' => w'.run ms else none

inductive Reach (init : σ → Prop) : Pool σ τ → Prop
  | start (s : σ) : init s → Reach init ⟨s, []⟩
  | move {w w' : Pool σ τ} (m : Move κ ι) :
      Reach init w → C w m = true → w.move P m = some w' → Reach init w'

variable {P C} {init : σ → Prop}

variable {w w' : Pool σ τ} {pre post ts : List τ} {t u : τ}

theorem Reach.run (h : Reach P C init w) (ms : List (Move κ ι)) (hrun : w.run P C ms = some w') :
    Reach P C init w' := by
  induction ms generalizing w with
  | nil => exact some.inj hrun ▸ h
  | cons m ms ih =>
    rw [Pool.run] at hrun
    split at hrun
    · rename_i hc
      obtain ⟨w1, hmove, hrest⟩ := bind_eq_some_iff.1 hrun
      exact ih (h.move m hc hmove) hrest
    · simp at hrun

theorem Reach.of_run {s : σ} {ms : List (Move κ ι)} (hs : init s)
    (hrun : Pool.run P C ⟨s, []⟩ ms = some w) : Reach P C init w :=
  (Reach.start s hs).run ms hrun

/-- A thread that is there after a step is one that took it, or was there before. -/
theorem mem_stepped (h : u ∈ pre ++ (ts ++ post)) : u ∈ ts ∨ u ∈ pre ++ t :: post := by
  simp only [mem_append, mem_cons] at h ⊢
  rcases h with h | h | h
  · exact .inr (.inl h)
  · exact .inl h
  · exact .inr (.inr (.inr h))

/-- Every thread but the one that takes a step is there after it. -/
theorem mem_others_stepped (h : u ∈ pre ++ t :: post) (hne : u ≠ t) : u ∈ pre ++ (ts ++ post) := by
  simp only [mem_append, mem_cons] at h ⊢
  rcases h with h | h | h
  · exact .inl h
  · exact absurd h hne
  · exact .inr (.inr h)

/-- The thread that takes the step, between the others. -/
theorem advance_eq_some {n : Nat} {x : ι} (h : w.advance P n x = some w') :
    ∃ pre t post s' ts, w.threads = pre ++ t :: post ∧ pre.length = n ∧
      P.step t x w.shared = some (s', ts) ∧ w' = ⟨s', pre ++ (ts ++ post)⟩ := by
  unfold Pool.advance at h
  split at h
  · simp at h
  rename_i t ht
  obtain ⟨⟨s', ts⟩, hstep, rfl⟩ := map_eq_some_iff.1 h
  obtain ⟨hlt, heq⟩ := List.getElem?_eq_some_iff.1 ht
  refine ⟨w.threads.take n, t, w.threads.drop (n + 1), s', ts, ?_, ?_, hstep, rfl⟩
  · rw [← heq, ← List.drop_eq_getElem_cons hlt, List.take_append_drop]
  · rw [List.length_take]
    omega

/-- **The invariant rule.** What holds at the start, after each call and after each step of any
    thread, whatever the others are, holds of every reachable pool. -/
theorem Reach.invariant {I : Pool σ τ → Prop} (hstart : ∀ s, init s → I ⟨s, []⟩)
    (hcall : ∀ w c, Reach P C init w → I w → C w (.call c) = true → I (w.call P c))
    (hstep : ∀ s pre t post x s' ts, Reach P C init ⟨s, pre ++ t :: post⟩ →
      I ⟨s, pre ++ t :: post⟩ → C ⟨s, pre ++ t :: post⟩ (.step pre.length x) = true →
      P.step t x s = some (s', ts) → I ⟨s', pre ++ (ts ++ post)⟩) (h : Reach P C init w) : I w := by
  induction h with
  | start s hs => exact hstart s hs
  | move m hw hc hmove ih =>
    cases m with
    | call c => exact some.inj hmove ▸ hcall _ c hw ih hc
    | step n x =>
      rename_i w _
      obtain ⟨s, threads⟩ := w
      obtain ⟨pre, t, post, s', ts, heq, hlen, hstep', rfl⟩ := advance_eq_some hmove
      obtain rfl : threads = pre ++ t :: post := heq
      subst hlen
      exact hstep s pre t post x s' ts hw ih hc hstep'

end Threads
