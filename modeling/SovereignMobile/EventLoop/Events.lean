import SovereignMobile.EventLoop.Since

/-! # The events of a run

What happened in a run, in order: every operation with the task that ran it and the state it ran in,
and every performed call with its outcome. `Traced` is `Reach` with this record beside the system, so
that "how often" and "before" can be said of a run. -/

namespace EventLoop

variable {M : Machine} {Cmd : Type}

inductive Event (M : Machine) where
  | op (i : Nat) (s : M.State) (o : M.Op)
  | call (i : Nat) (s : M.State) (c : M.Call) (r : Except M.Err (M.Ret c))

/-- The state an event happened in. -/
def Event.state : Event M → M.State
  | .op _ s _ => s
  | .call _ s _ _ => s

/-- The task that an event is of. -/
def Event.task : Event M → Nat
  | .op i _ _ => i
  | .call i _ _ _ => i

/-- A call of task `i` has been performed. -/
def Event.isCallOf (i : Nat) : Event M → Bool
  | .op _ _ _ => false
  | .call j _ _ _ => j == i

/-- The events of a segment. -/
def Task.events (i : Nat) : Task M → M.State → Nat → List (Event M)
  | .done, _, _ => []
  | .read k, s, n => (k s).events i s n
  | .op o k, s, n => .op i s o :: k.events i (M.apply i o s) n
  | .await _ _, _, _ => []
  | .fork child k, s, n =>
    child.events n s (n + 1) ++
      match child.run Cond.any n s (n + 1) with
      | none => []
      | some g => k.events i g.state g.next

/-- The events of a move. -/
def Sys.events (prog : Cmd → Task M) (w : Sys M) : Move M Cmd → List (Event M)
  | .start c => (prog c).events w.next w.state (w.next + 1)
  | .perform i r =>
    match w.tasks.find? fun t => t.id = i with
    | none => []
    | some t =>
      match M.perform t.id t.call r w.state with
      | none => []
      | some (_, o) => [.call t.id w.state t.call o]
  | .resume i =>
    match w.tasks.find? fun t => t.id = i with
    | none => []
    | some t =>
      match t.out with
      | none => []
      | some o => (t.cont o).events i w.state w.next

/-- The systems that are reached, with what has happened so far. -/
inductive Traced (prog : Cmd → Task M) (init : M.State → Prop) : Sys M → List (Event M) → Prop
  | idle (s : M.State) : init s → Traced prog init (Sys.idle s) []
  | step {w w' : Sys M} {h : List (Event M)} (m : Move M Cmd) :
      Traced prog init w h → w.step Cond.any prog m = some w' →
      Traced prog init w' (h ++ w.events prog m)

variable {prog : Cmd → Task M} {init : M.State → Prop} {w : Sys M} {h : List (Event M)}

/-- A run with its events. -/
def Sys.trace (prog : Cmd → Task M) :
    Sys M → List (Event M) → List (Move M Cmd) → Option (Sys M × List (Event M))
  | w, h, [] => some (w, h)
  | w, h, m :: ms =>
    match w.step Cond.any prog m with
    | none => none
    | some w' => w'.trace prog (h ++ w.events prog m) ms

theorem Traced.trace {w' : Sys M} {h' : List (Event M)} (hw : Traced prog init w h)
    (ms : List (Move M Cmd)) (hrun : w.trace prog h ms = some (w', h')) :
    Traced prog init w' h' := by
  induction ms generalizing w h with
  | nil =>
    simp only [Sys.trace, Option.some.injEq, Prod.mk.injEq] at hrun
    exact hrun.1 ▸ hrun.2 ▸ hw
  | cons m ms ih =>
    rw [Sys.trace] at hrun
    split at hrun
    · simp at hrun
    · rename_i w1 hstep
      exact ih (hw.step m hstep) hrun

theorem Traced.of_trace {s : M.State} {p : Sys M × List (Event M)} {ms : List (Move M Cmd)}
    (hs : init s) (hrun : (Sys.idle s).trace prog [] ms = some p) : Traced prog init p.1 p.2 :=
  (Traced.idle s hs).trace ms hrun

end EventLoop
