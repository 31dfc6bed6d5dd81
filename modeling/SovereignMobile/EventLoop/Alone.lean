import Mathlib.Logic.Function.Basic
import SovereignMobile.EventLoop.Basic

/-! # Programs that run alone

A program that nothing else interferes with, given what the outside world answers: a function from
calls, and how often they were made before, to replies. `Task.alone` runs it to its end, and
`Async.Returns` says of a fragment what it returns, by rules that follow the constructors of
`Async`. Every such run is a run of the event loop (`Task.alone_reach`). -/

namespace EventLoop

variable {M : Machine} {α β : Type} {Cmd : Type}

/-- What is replied to a call that was made `k` times before. -/
abbrev Answers (M : Machine) := M.Call → Nat → M.Reply

section Alone
variable [DecidableEq M.Call]

/-- The state in which the task ends; `made` counts the calls. None if a reply is impossible, or if the
    task does not stay alone. -/
def Task.alone (a : Answers M) (i : Nat) : Task M → (M.Call → Nat) → M.State → Option M.State
  | .done, _, s => some s
  | .read k, made, s => (k s).alone a i made s
  | .op o k, made, s => k.alone a i made (M.apply i o s)
  | .await c k, made, s =>
    match M.perform i c (a c (made c)) s with
    | none => none
    | some (s', out) => (k out).alone a i (Function.update made c (made c + 1)) s'
  | .fork _ _, _, _ => none

/-- Whatever is done with its outcome, `m` goes from `s` to `s'` and hands over `r`. -/
def Async.Returns (m : Async M α) (a : Answers M) (i : Nat) (made : M.Call → Nat) (s : M.State)
    (r : Except M.Err α) (made' : M.Call → Nat) (s' : M.State) : Prop :=
  ∀ k : Except M.Err α → Task M, (m.run k).alone a i made s = (k r).alone a i made' s'

/-- Does `m`, run alone, end with an error? -/
def Async.rejects (m : Async M α) (a : Answers M) (i : Nat) (made : M.Call → Nat) (s : M.State) : Bool :=
  ((m.run fun r => match r with
    | .ok _ => .fork .done .done
    | .error _ => .done).alone a i made s).isSome

namespace Async.Returns

variable {a : Answers M} {i : Nat} {made made1 made2 : M.Call → Nat} {s s1 s2 : M.State}

theorem pure (x : α) : Returns (Pure.pure x : Async M α) a i made s (.ok x) made s := fun _ => rfl

theorem throw (e : M.Err) : Returns (Async.throw e : Async M α) a i made s (.error e) made s :=
  fun _ => rfl

theorem op (o : M.Op) : Returns (Async.op o) a i made s (.ok ()) made (M.apply i o s) :=
  fun _ => rfl

variable {r : Except M.Err α} {m : Async M α} {f : α → Async M β} {x : α} {e : M.Err}

theorem await {c : M.Call} {r : Except M.Err (M.Ret c)}
    (h : M.perform i c (a c (made c)) s = some (s1, r)) :
    Returns (Async.await c) a i made s r (Function.update made c (made c + 1)) s1 := by
  intro k
  simp only [Async.await_run, Task.alone]
  rw [h]

theorem bind {r : Except M.Err β} (hm : Returns m a i made s (.ok x) made1 s1)
    (hf : Returns (f x) a i made1 s1 r made2 s2) :
    Returns (m >>= f) a i made s r made2 s2 :=
  fun k => (hm _).trans (hf k)

theorem bind_error (hm : Returns m a i made s (.error e) made1 s1) :
    Returns (m >>= f) a i made s (.error e) made1 s1 :=
  fun _ => hm _

theorem tryCatch {f : M.Err → Async M α} (hm : Returns m a i made s (.ok x) made1 s1) :
    Returns (Async.tryCatch m f) a i made s (.ok x) made1 s1 :=
  fun _ => hm _

theorem tryCatch_error {f : M.Err → Async M α} (hm : Returns m a i made s (.error e) made1 s1)
    (hf : Returns (f e) a i made1 s1 r made2 s2) :
    Returns (Async.tryCatch m f) a i made s r made2 s2 :=
  fun k => (hm _).trans (hf k)

theorem settle {f : Except M.Err α → Async M β} {r' : Except M.Err β}
    (hm : Returns m a i made s r made1 s1) (hf : Returns (f r) a i made1 s1 r' made2 s2) :
    Returns (Async.settle m f) a i made s r' made2 s2 :=
  fun k => (hm _).trans (hf k)

theorem toTask (hm : Returns m a i made s r made1 s1) : m.toTask.alone a i made s = some s1 := hm _

/-- A fragment returns one thing only. -/
theorem unique {r' : Except M.Err α} (h : Returns m a i made s r made1 s1)
    (h' : Returns m a i made s r' made2 s2) : r = r' ∧ s1 = s2 := by
  classical
  -- a continuation that ends with `r` only
  have heq := (h fun x => if x = r then .done else .fork .done .done).symm.trans
    (h' fun x => if x = r then .done else .fork .done .done)
  by_cases hr : r' = r
  · subst hr
    simp only [if_true, Task.alone, Option.some.injEq] at heq
    exact ⟨rfl, heq⟩
  · rw [if_neg hr] at heq
    simp [Task.alone] at heq

theorem error_of_rejects (h : Returns m a i made s r made1 s1) (hm : m.rejects a i made s = true) :
    ∃ e, r = .error e := by
  cases r with
  | error e => exact ⟨e, rfl⟩
  | ok x =>
    unfold Async.rejects at hm
    rw [h] at hm
    simp [Task.alone] at hm

end Async.Returns

end Alone

/-- A fragment without a value, and then nothing. -/
theorem Async.bind_pure_unit (m : Async M Unit) : (m >>= fun _ => Pure.pure ()) = m := by
  obtain ⟨run⟩ := m
  change Async.mk _ = Async.mk run
  congr 1
  funext k
  congr 1
  funext r
  cases r <;> rfl

/-! ## On the event loop -/

variable [DecidableEq M.Call]

variable {a : Answers M} {prog : Cmd → Task M}

theorem Task.alone_run {i n : Nat} (t : Task M) :
    ∀ (made : M.Call → Nat) (s s' : M.State), t.alone a i made s = some s' →
      ∃ w ms, Sys.proceed Cond.any ⟨s, [], n⟩ i t n = some w ∧
        w.run Cond.any prog ms = some ⟨s', [], n⟩ := by
  induction t with
  | done =>
    intro made s s' hs
    cases hs
    exact ⟨⟨s, [], n⟩, [], rfl, rfl⟩
  | read k ih => exact fun made s s' hs => ih s made s s' hs
  | op o k ih => exact fun made s s' hs => ih made _ s' hs
  | await c k ih =>
    intro made s s' hs
    rw [Task.alone] at hs
    split at hs
    · simp at hs
    rename_i s1 out hperf
    obtain ⟨w, ms, hproceed, hms⟩ := ih out _ s1 s' hs
    refine ⟨⟨s, [⟨i, c, k, none⟩], n⟩, .perform i (a c (made c)) :: .resume i :: ms, rfl, ?_⟩
    have hothers : ∀ x : Suspended M, x.id = i → ∀ s2 : M.State,
        (Sys.mk s2 [x] n).others i = [] := by
      intro x hx s2
      simp [Sys.others, hx]
    -- the call is performed as answered, and the task goes on alone
    have hperform : Sys.step Cond.any prog ⟨s, [⟨i, c, k, none⟩], n⟩
        (.perform i (a c (made c))) = some ⟨s1, [⟨i, c, k, some out⟩], n⟩ := by
      simp only [Sys.step, List.find?_cons, decide_true, Sys.complete, hperf]
      rw [hothers _ rfl]
      rfl
    have hresume : Sys.step Cond.any prog ⟨s1, [⟨i, c, k, some out⟩], n⟩ (.resume i) = some w := by
      simp only [Sys.step, List.find?_cons]
      rw [← hproceed]
      unfold Sys.proceed
      rw [hothers _ rfl]
      rfl
    rw [Sys.run, hperform]
    dsimp only
    rw [Sys.run, hresume]
    exact hms
  | fork child k _ _ => exact fun made s s' hs => absurd hs (by simp [Task.alone])

/-- A program that runs alone to its end does so on the event loop. -/
theorem Task.alone_reach {init : M.State → Prop} {c : Cmd} {s s' : M.State} (hs : init s)
    (h : (prog c).alone a 0 (fun _ => 0) s = some s') :
    Reach .any prog init ⟨s', [], 1⟩ := by
  obtain ⟨w, ms, hproceed, hms⟩ : ∃ w ms, Sys.proceed Cond.any ⟨s, [], 1⟩ 0 (prog c) 1 = some w ∧
      w.run Cond.any prog ms = some ⟨s', [], 1⟩ := Task.alone_run _ _ _ _ h
  refine (Reach.idle s hs).run (.start c :: ms) ?_
  rw [Sys.run]
  have hstart : (Sys.idle s).step Cond.any prog (.start c) = some w := hproceed
  rw [hstart]
  exact hms

end EventLoop
