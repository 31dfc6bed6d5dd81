import Mathlib.Data.List.Basic
import Mathlib.Logic.Relation

/-! # Asynchronous programs on an event loop

A shallow embedding of single-threaded asynchronous code (JavaScript promises, or threads that
only meet at lock and I/O points). A program is cut at its suspension points: between two of
them it runs atomically, at each of them every other suspended program may run.

* `Machine` is what the programs run against: the shared state, the atomic operations on it, and
  the external calls a program can wait for. A call is *performed* by the outside world some time
  after it was issued, and the program is *resumed* some time after that.
* `Task` is the tree of one running program, `Async` the continuation monad that builds it, so
  that a modelled function reads like its source (`let x ← f a; …`).
* `Sys` is the shared state with the pool of suspended tasks; `Sys.step` is one move of the event
  loop, and `Reach` the states every order of moves can lead to.
* `Cond` restricts the moves: a claim of the form "in every run whose steps meet the condition" is
  a statement about `Reach C`, and `Cond.any` is the code as it stands. -/

namespace EventLoop

open List Option

/-- Shared state, atomic operations and external calls. `apply` and `perform` know the identifier
    of the running task, so that a state can record who did something; `perform` is `none` where
    the reply is impossible. -/
structure Machine where
  State : Type
  Op : Type
  Call : Type
  Ret : Call → Type
  Err : Type
  Reply : Type
  apply : Nat → Op → State → State
  perform : Nat → (c : Call) → Reply → State → Option (State × Except Err (Ret c))

/-- The rest of a running program. `fork` starts a program that nobody waits for: its code up to
    the first suspension runs before the forking program goes on. -/
inductive Task (M : Machine) : Type where
  | done
  | read (k : M.State → Task M)
  | op (o : M.Op) (k : Task M)
  | await (c : M.Call) (k : Except M.Err (M.Ret c) → Task M)
  | fork (child k : Task M)

/-- A program fragment: given what to do with its result or its exception, the task. -/
structure Async (M : Machine) (α : Type) where
  run : (Except M.Err α → Task M) → Task M

variable {M : Machine} {α β : Type}

namespace Async

instance : Monad (Async M) where
  pure a := ⟨fun k => k (.ok a)⟩
  bind m f := ⟨fun k => m.run fun
    | .ok a => (f a).run k
    | .error e => k (.error e)⟩

/-- Read the shared state. -/
def get : Async M M.State := ⟨fun k => .read fun s => k (.ok s)⟩

/-- Run one atomic operation. -/
def op (o : M.Op) : Async M Unit := ⟨fun k => .op o (k (.ok ()))⟩

/-- Issue an external call and wait for its outcome. -/
def await (c : M.Call) : Async M (M.Ret c) := ⟨fun k => .await c k⟩

/-- The task of a program whose result nobody looks at. -/
def toTask (m : Async M α) : Task M := m.run fun _ => .done

/-- Start `m` and do not wait for it. -/
def spawn (m : Async M α) : Async M Unit := ⟨fun k => .fork m.toTask (k (.ok ()))⟩

/-- `throw e` -/
def throw (e : M.Err) : Async M α := ⟨fun k => k (.error e)⟩

/-- `try { m } catch (e) { h e }` -/
def tryCatch (m : Async M α) (h : M.Err → Async M α) : Async M α := ⟨fun k => m.run fun
  | .ok a => k (.ok a)
  | .error e => (h e).run k⟩

/-- Run `m` and hand its result or exception to `h`. -/
def settle (m : Async M α) (h : Except M.Err α → Async M β) : Async M β :=
  ⟨fun k => m.run fun r => (h r).run k⟩

/-- `f` for one element after the other, up to the first exception. -/
def forEach (f : α → Async M Unit) : List α → Async M Unit
  | [] => pure ()
  | x :: xs => do
    f x
    forEach f xs

@[simp] theorem pure_run (a : α) (k : Except M.Err α → Task M) :
    (pure a : Async M α).run k = k (.ok a) := rfl

@[simp] theorem bind_run (m : Async M α) (f : α → Async M β) (k : Except M.Err β → Task M) :
    (m >>= f).run k = m.run (fun
      | .ok a => (f a).run k
      | .error e => k (.error e)) := rfl

@[simp] theorem get_run (k : Except M.Err M.State → Task M) :
    (get : Async M M.State).run k = .read fun s => k (.ok s) := rfl

@[simp] theorem op_run (o : M.Op) (k : Except M.Err Unit → Task M) :
    (op o).run k = .op o (k (.ok ())) := rfl

@[simp] theorem await_run (c : M.Call) (k : Except M.Err (M.Ret c) → Task M) :
    (await c).run k = .await c k := rfl

@[simp] theorem spawn_run (m : Async M α) (k : Except M.Err Unit → Task M) :
    (spawn m).run k = .fork m.toTask (k (.ok ())) := rfl

@[simp] theorem throw_run (e : M.Err) (k : Except M.Err α → Task M) :
    (throw e : Async M α).run k = k (.error e) := rfl

@[simp] theorem tryCatch_run (m : Async M α) (h : M.Err → Async M α) (k : Except M.Err α → Task M) :
    (tryCatch m h).run k = m.run (fun
      | .ok a => k (.ok a)
      | .error e => (h e).run k) := rfl

@[simp] theorem settle_run (m : Async M α) (h : Except M.Err α → Async M β)
    (k : Except M.Err β → Task M) : (settle m h).run k = m.run fun r => (h r).run k := rfl

end Async

/-! ## Conditions on runs -/

/-- A condition on the steps of a run: on every operation in the state it starts from, and on
    every performed call with its outcome. -/
structure Cond (M : Machine) where
  op : Nat → M.State → M.Op → Bool
  call : Nat → M.State → (c : M.Call) → Except M.Err (M.Ret c) → Bool

/-- No condition: every run of the code. -/
def Cond.any : Cond M where
  op _ _ _ := true
  call _ _ _ _ := true

/-! ## The event loop -/

/-- A suspended task: the call it waits for, what it does with the outcome, and the outcome once
    the call has been performed. -/
structure Suspended (M : Machine) where
  id : Nat
  call : M.Call
  cont : Except M.Err (M.Ret call) → Task M
  out : Option (Except M.Err (M.Ret call))

/-- The shared state, the pool of suspended tasks and the next task identifier. -/
structure Sys (M : Machine) where
  state : M.State
  tasks : List (Suspended M)
  next : Nat

/-- What one atomic segment leaves behind. -/
structure Segment (M : Machine) where
  state : M.State
  next : Nat
  tasks : List (Suspended M)

/-- Run task `i` up to its next suspension, with the forks on the way; `none` if an operation
    violates the condition. -/
def Task.run (C : Cond M) (i : Nat) : Task M → M.State → Nat → Option (Segment M)
  | .done, s, n => some ⟨s, n, []⟩
  | .read k, s, n => (k s).run C i s n
  | .op o k, s, n => if C.op i s o then k.run C i (M.apply i o s) n else none
  | .await c k, s, n => some ⟨s, n, [⟨i, c, k, none⟩]⟩
  | .fork child k, s, n =>
    match child.run C n s (n + 1) with
    | none => none
    | some g₁ =>
      match k.run C i g₁.state g₁.next with
      | none => none
      | some g₂ => some ⟨g₂.state, g₂.next, g₁.tasks ++ g₂.tasks⟩

variable {C : Cond M}

/-- What is read is the state of the moment. -/
theorem Async.run_getThen {α : Type} (f : M.State → Async M α) (k : Except M.Err α → Task M)
    (i n : Nat) (s : M.State) :
    ((Async.get >>= f).run k).run C i s n = ((f s).run k).run C i s n := rfl

/-- One move of the event loop: a new top-level program, the outside world performing a call, or
    a task resuming with the outcome of its call. -/
inductive Move (M : Machine) (Cmd : Type) where
  | start (c : Cmd)
  | perform (i : Nat) (r : M.Reply)
  | resume (i : Nat)

variable {Cmd : Type}

/-- The pool without task `i`. -/
def Sys.others (w : Sys M) (i : Nat) : List (Suspended M) :=
  w.tasks.filter fun t => t.id ≠ i

/-- Task `i` goes on with `t`. -/
def Sys.proceed (C : Cond M) (w : Sys M) (i : Nat) (t : Task M) (n : Nat) : Option (Sys M) :=
  (t.run C i w.state n).map fun g => ⟨g.state, w.others i ++ g.tasks, g.next⟩

/-- The outside world performs the call of the suspended task `t`. -/
def Sys.complete (C : Cond M) (w : Sys M) (t : Suspended M) (r : M.Reply) : Option (Sys M) :=
  match t.out, M.perform t.id t.call r w.state with
  | none, some (s, o) =>
    if C.call t.id w.state t.call o then
      some ⟨s, { t with out := some o } :: w.others t.id, w.next⟩
    else none
  | _, _ => none

def Sys.step (C : Cond M) (prog : Cmd → Task M) (w : Sys M) : Move M Cmd → Option (Sys M)
  | .start c => w.proceed C w.next (prog c) (w.next + 1)
  | .perform i r =>
    match w.tasks.find? fun t => t.id = i with
    | none => none
    | some t => w.complete C t r
  | .resume i =>
    match w.tasks.find? fun t => t.id = i with
    | none => none
    | some t =>
      match t.out with
      | none => none
      | some o => w.proceed C i (t.cont o) w.next

/-- The system before any program has started. -/
def Sys.idle (s : M.State) : Sys M := ⟨s, [], 0⟩

/-- A run: the moves one after the other. -/
def Sys.run (C : Cond M) (prog : Cmd → Task M) : Sys M → List (Move M Cmd) → Option (Sys M)
  | w, [] => some w
  | w, m :: ms =>
    match w.step C prog m with
    | none => none
    | some w' => w'.run C prog ms

/-- The systems reachable from an idle one by moves that meet the condition. -/
inductive Reach (C : Cond M) (prog : Cmd → Task M) (init : M.State → Prop) : Sys M → Prop
  | idle (s : M.State) : init s → Reach C prog init (Sys.idle s)
  | step {w w' : Sys M} (m : Move M Cmd) :
      Reach C prog init w → w.step C prog m = some w' → Reach C prog init w'

/-! ## What a run is made of -/

section Inversion
variable {i n : Nat} {s : M.State} {k : Task M} {g : Segment M} {w w' : Sys M}

theorem Task.run_op {o : M.Op} (h : (Task.op o k).run C i s n = some g) :
    C.op i s o = true ∧ k.run C i (M.apply i o s) n = some g := by
  rw [Task.run] at h
  split at h
  · exact ⟨‹_›, h⟩
  · simp at h

theorem Task.run_fork {child : Task M} (h : (Task.fork child k).run C i s n = some g) :
    ∃ g1 g2, child.run C n s (n + 1) = some g1 ∧ k.run C i g1.state g1.next = some g2 ∧
      g = ⟨g2.state, g2.next, g1.tasks ++ g2.tasks⟩ := by
  rw [Task.run] at h
  split at h
  · simp at h
  split at h
  · simp at h
  · exact ⟨_, _, ‹_›, ‹_›, (some.inj h).symm⟩

/-- What a move is made of. -/
theorem Sys.step_cases {prog : Cmd → Task M} {m : Move M Cmd} (h : w.step C prog m = some w') :
    (∃ c, m = .start c ∧ w.proceed C w.next (prog c) (w.next + 1) = some w') ∨
    (∃ i r, ∃ t ∈ w.tasks, m = .perform i r ∧ t.id = i ∧ w.complete C t r = some w') ∨
    ∃ i, ∃ t ∈ w.tasks, ∃ o, m = .resume i ∧ t.id = i ∧ t.out = some o ∧
      w.proceed C i (t.cont o) w.next = some w' := by
  cases m with
  | start c => exact .inl ⟨c, rfl, h⟩
  | perform i r =>
    rw [Sys.step] at h
    split at h
    · simp at h
    rename_i t hfind
    have hid : t.id = i := by simpa using find?_some hfind
    exact .inr (.inl ⟨i, r, t, mem_of_find?_eq_some hfind, rfl, hid, h⟩)
  | resume i =>
    rw [Sys.step] at h
    split at h
    · simp at h
    rename_i t hfind
    have hid : t.id = i := by simpa using find?_some hfind
    split at h
    · simp at h
    · rename_i o hout
      exact .inr (.inr ⟨i, t, mem_of_find?_eq_some hfind, o, rfl, hid, hout, h⟩)

/-- A completed call has changed the state as `perform` says, and only its own task. -/
theorem Sys.complete_cases {t : Suspended M} {r : M.Reply} (h : w.complete C t r = some w') :
    ∃ s o, t.out = none ∧ M.perform t.id t.call r w.state = some (s, o) ∧
      C.call t.id w.state t.call o = true ∧
        w' = ⟨s, { t with out := some o } :: w.others t.id, w.next⟩ := by
  unfold Sys.complete at h
  split at h
  · rename_i s o hnone hp
    split at h
    · exact ⟨s, o, hnone, hp, ‹_›, (some.inj h).symm⟩
    · simp at h
  · simp at h

end Inversion

theorem Reach.run {C : Cond M} {prog : Cmd → Task M} {init : M.State → Prop} {w w' : Sys M}
    (h : Reach C prog init w) (ms : List (Move M Cmd)) (hrun : w.run C prog ms = some w') :
    Reach C prog init w' := by
  induction ms generalizing w with
  | nil =>
    simp only [Sys.run, some.injEq] at hrun
    exact hrun ▸ h
  | cons m ms ih =>
    rw [Sys.run] at hrun
    split at hrun
    · simp at hrun
    · rename_i w1 hstep
      exact ih (h.step m hstep) hrun

theorem Reach.of_run {prog : Cmd → Task M} {init : M.State → Prop} {s : M.State} {w : Sys M}
    {ms : List (Move M Cmd)} (hs : init s) (hrun : (Sys.idle s).run C prog ms = some w) :
    Reach C prog init w :=
  (Reach.idle s hs).run ms hrun

end EventLoop
