import Mathlib.Logic.Function.Basic
import SovereignMobile.EventLoop.Events

/-! # Roles of tasks

Programs whose correctness rests on who is doing what: at any time a task has a role, and one invariant
`Inv` speaks of the state and of the roles of all tasks together. Since a segment runs to its end
before any other task goes on, `Inv` has to hold between segments only: `Script.Safe` runs along one
program from a known state, picks the roles on the way, and owes `Inv` wherever the segment ends. A
fork is followed with the state its first segment leaves. `Script.reach` puts the programs together.

What the operations, forks, suspensions and calls of a script keep needs no further look at the
programs (`Script.Keeps`). -/

namespace EventLoop

open List
open Function (update update_of_ne update_self)

variable {M : Machine} {ρ α β : Type} {Cmd : Type}

/-- A system as the scripts see it: what has happened, the state, the next identifier, the roles. -/
structure Config (M : Machine) (ρ : Type) where
  state : M.State
  events : List (Event M)
  next : Nat
  role : Nat → ρ

namespace Config

/-- Task `i` takes the role `r`. -/
def assign (c : Config M ρ) (i : Nat) (r : ρ) : Config M ρ :=
  { c with role := Function.update c.role i r }

/-- Task `i` runs `o` and takes the role `r`. -/
def op (c : Config M ρ) (i : Nat) (o : M.Op) (r : ρ) : Config M ρ where
  state := M.apply i o c.state
  events := c.events ++ [.op i c.state o]
  next := c.next
  role := Function.update c.role i r

/-- The call of task `i` is performed. -/
def call (c : Config M ρ) (i : Nat) (k : M.Call) (out : Except M.Err (M.Ret k)) (s : M.State)
    (r : ρ) : Config M ρ where
  state := s
  events := c.events ++ [.call i c.state k out]
  next := c.next
  role := Function.update c.role i r

/-- A new task has the role `r`. -/
def fork (c : Config M ρ) (r : ρ) : Config M ρ :=
  { c with next := c.next + 1, role := Function.update c.role c.next r }

@[simp] theorem assign_state (c : Config M ρ) (i : Nat) (r : ρ) : (c.assign i r).state = c.state := rfl
@[simp] theorem assign_events (c : Config M ρ) (i : Nat) (r : ρ) :
    (c.assign i r).events = c.events := rfl
@[simp] theorem assign_next (c : Config M ρ) (i : Nat) (r : ρ) : (c.assign i r).next = c.next := rfl
@[simp] theorem op_state (c : Config M ρ) (i : Nat) (o : M.Op) (r : ρ) :
    (c.op i o r).state = M.apply i o c.state := rfl
@[simp] theorem op_events (c : Config M ρ) (i : Nat) (o : M.Op) (r : ρ) :
    (c.op i o r).events = c.events ++ [.op i c.state o] := rfl
@[simp] theorem op_next (c : Config M ρ) (i : Nat) (o : M.Op) (r : ρ) :
    (c.op i o r).next = c.next := rfl
theorem op_role (c : Config M ρ) (i : Nat) (o : M.Op) (r : ρ) :
    (c.op i o r).role = update c.role i r := rfl
@[simp] theorem fork_state (c : Config M ρ) (r : ρ) : (c.fork r).state = c.state := rfl
@[simp] theorem fork_events (c : Config M ρ) (r : ρ) : (c.fork r).events = c.events := rfl
@[simp] theorem fork_next (c : Config M ρ) (r : ρ) : (c.fork r).next = c.next + 1 := rfl

@[simp] theorem assign_self (c : Config M ρ) (i : Nat) : c.assign i (c.role i) = c := by
  simp [assign]

end Config

/-- `idle` is the role of a program that starts. `OpPre i c o r` is what has to be known when task `i`
    runs `o` and takes the role `r`; likewise where it forks a task with the role `r`, where it
    suspends on a call, and where the call is performed. -/
structure Script (M : Machine) (ρ : Type) where
  idle : ρ
  Inv : Config M ρ → Prop
  OpPre : Nat → Config M ρ → M.Op → ρ → Prop
  ForkPre : Nat → Config M ρ → ρ → Prop
  AwaitPre : Nat → Config M ρ → M.Call → ρ → Prop
  CallPre : Nat → Config M ρ → (k : M.Call) → Except M.Err (M.Ret k) → ρ → Prop

/-- Task `i`, at the point of `c`, keeps to the script, and `post` holds where its segment ends. -/
def Script.Safe (S : Script M ρ) : Task M → Nat → Config M ρ → (Config M ρ → Prop) → Prop
  | .done, _, c, post => post c
  | .read k, i, c, post => S.Safe (k c.state) i c post
  | .op o k, i, c, post => ∃ r, S.OpPre i c o r ∧ S.Safe k i (c.op i o r) post
  | .await call k, i, c, post => ∃ r, S.AwaitPre i c call r ∧ post (c.assign i r) ∧
      ∀ c₁, S.Inv c₁ → c₁.role i = r → i < c₁.next →
        ∀ reply s out, M.perform i call reply c₁.state = some (s, out) →
          ∃ r', S.CallPre i c₁ call out r' ∧ S.Inv (c₁.call i call out s r') ∧
            ∀ c₂, S.Inv c₂ → c₂.role i = r' → i < c₂.next → S.Safe (k out) i c₂ S.Inv
  | .fork child k, i, c, post => ∃ r, S.ForkPre i c r ∧
      S.Safe child c.next (c.fork r) fun c' => S.Safe k i c' post

/-- A task with the role `r` goes on with `t` whenever it is resumed. -/
def Script.Resumes (S : Script M ρ) (i : Nat) (r : ρ) (t : Task M) : Prop :=
  ∀ c, S.Inv c → c.role i = r → i < c.next → S.Safe t i c S.Inv

/-- A task with the role `r` waits for `call` and goes on with `k`. -/
def Script.Waits (S : Script M ρ) (i : Nat) (r : ρ) (call : M.Call)
    (k : Except M.Err (M.Ret call) → Task M) : Prop :=
  ∀ c, S.Inv c → c.role i = r → i < c.next →
    ∀ reply s out, M.perform i call reply c.state = some (s, out) →
      ∃ r', S.CallPre i c call out r' ∧ S.Inv (c.call i call out s r') ∧ S.Resumes i r' (k out)

/-- What is kept by all that the script allows. -/
structure Script.Keeps (S : Script M ρ) (J : Config M ρ → Prop) : Prop where
  start : ∀ c, J c → J (c.fork S.idle)
  op : ∀ i c o r, i < c.next → J c → S.OpPre i c o r → J (c.op i o r)
  fork : ∀ i c r, i < c.next → J c → S.ForkPre i c r → J (c.fork r)
  await : ∀ i c call r, i < c.next → J c → S.AwaitPre i c call r → J (c.assign i r)
  call : ∀ i c call out reply s r, i < c.next → J c → S.Inv c → S.CallPre i c call out r →
    M.perform i call reply c.state = some (s, out) → J (c.call i call out s r)

variable {S : Script M ρ} {J K : Config M ρ → Prop} {w w' : Sys M} {c : Config M ρ}
    {prog : Cmd → Task M}

/-- What is kept with the help of something else that is. -/
theorem Script.Keeps.and (hJ : S.Keeps J) (start : ∀ c, J c → K c → K (c.fork S.idle))
    (op : ∀ i c o r, i < c.next → J c → K c → S.OpPre i c o r → K (c.op i o r))
    (fork : ∀ i c r, i < c.next → J c → K c → S.ForkPre i c r → K (c.fork r))
    (await : ∀ i c call r, i < c.next → J c → K c → S.AwaitPre i c call r → K (c.assign i r))
    (call : ∀ i c call out reply s r, i < c.next → J c → K c → S.Inv c → S.CallPre i c call out r →
      M.perform i call reply c.state = some (s, out) → K (c.call i call out s r)) :
    S.Keeps fun c => J c ∧ K c where
  start c hc := ⟨hJ.start c hc.1, start c hc.1 hc.2⟩
  op i c o r hlt hc hpre := ⟨hJ.op i c o r hlt hc.1 hpre, op i c o r hlt hc.1 hc.2 hpre⟩
  fork i c r hlt hc hpre := ⟨hJ.fork i c r hlt hc.1 hpre, fork i c r hlt hc.1 hc.2 hpre⟩
  await i c k r hlt hc hpre := ⟨hJ.await i c k r hlt hc.1 hpre, await i c k r hlt hc.1 hc.2 hpre⟩
  call i c k out reply s r hlt hc hinv hpre hperf :=
    ⟨hJ.call i c k out reply s r hlt hc.1 hinv hpre hperf,
      call i c k out reply s r hlt hc.1 hc.2 hinv hpre hperf⟩

theorem Script.Keeps.both (hJ : S.Keeps J) (hK : S.Keeps K) : S.Keeps fun c => J c ∧ K c :=
  hJ.and (fun c _ hc => hK.start c hc) (fun i c o r hlt _ hc => hK.op i c o r hlt hc)
    (fun i c r hlt _ hc => hK.fork i c r hlt hc) (fun i c k r hlt _ hc => hK.await i c k r hlt hc)
    (fun i c k out reply s r hlt _ hc => hK.call i c k out reply s r hlt hc)

theorem Script.Keeps.congr (hJ : S.Keeps J) (h : ∀ c, J c ↔ K c) : S.Keeps K := by
  have heq : J = K := funext fun c => propext (h c)
  exact heq ▸ hJ

theorem Script.Safe.mono (t : Task M) :
    ∀ {i : Nat} {c : Config M ρ} {post post' : Config M ρ → Prop}, S.Safe t i c post →
      (∀ c', post c' → post' c') → S.Safe t i c post' := by
  induction t with
  | done => exact fun h hpost => hpost _ h
  | read k ih => exact fun h hpost => ih _ h hpost
  | op o k ih =>
    rintro i c post post' ⟨r, hpre, h⟩ hpost
    exact ⟨r, hpre, ih h hpost⟩
  | await call k _ =>
    rintro i c post post' ⟨r, hpre, h, hk⟩ hpost
    exact ⟨r, hpre, hpost _ h, hk⟩
  | fork child k ihc ihk =>
    rintro i c post post' ⟨r, hpre, h⟩ hpost
    exact ⟨r, hpre, ihc h fun c' hc' => ihk hc' hpost⟩

/-- A segment gives roles to its own task and to new ones only. -/
theorem Script.Safe.frame (t : Task M) :
    ∀ {i : Nat} {c : Config M ρ} {post : Config M ρ → Prop}, S.Safe t i c post →
      S.Safe t i c fun c' => post c' ∧ c.next ≤ c'.next ∧
        ∀ j, j < c.next → j ≠ i → c'.role j = c.role j := by
  induction t with
  | done => exact fun h => ⟨h, Nat.le_refl _, fun _ _ _ => rfl⟩
  | read k ih => exact fun h => ih _ h
  | op o k ih =>
    rintro i c post ⟨r, hpre, h⟩
    refine ⟨r, hpre, (ih h).mono _ fun c' hc' => ⟨hc'.1, hc'.2.1, fun j hj hne => ?_⟩⟩
    exact (hc'.2.2 j hj hne).trans (update_of_ne hne _ _)
  | await call k _ =>
    rintro i c post ⟨r, hpre, h, hk⟩
    exact ⟨r, hpre, ⟨h, Nat.le_refl _, fun j _ hne => update_of_ne hne _ _⟩, hk⟩
  | fork child k ihc ihk =>
    rintro i c post ⟨r, hpre, h⟩
    refine ⟨r, hpre, (ihc h).mono _ fun c1 hc1 => (ihk hc1.1).mono _ fun c2 hc2 => ?_⟩
    obtain ⟨_, hle1, hrole1⟩ := hc1
    obtain ⟨hpost, hle2, hrole2⟩ := hc2
    simp only [Config.fork_next] at hle1 hrole1
    refine ⟨hpost, by omega, fun j hj hne => ?_⟩
    rw [hrole2 j (by omega) hne, hrole1 j (by omega) (by omega)]
    exact update_of_ne (by omega) _ _

/-! ## From the programs to the pool -/

/-- What the rest of the system is told of a segment of task `i` that started in `c`. -/
structure Script.SegmentOk (S : Script M ρ) (i : Nat) (c : Config M ρ) (g : Segment M)
    (c' : Config M ρ) : Prop where
  state : c'.state = g.state
  next : c'.next = g.next
  le : c.next ≤ g.next
  role : ∀ j, j < c.next → j ≠ i → c'.role j = c.role j
  ids : ∀ t ∈ g.tasks, t.id = i ∨ (c.next ≤ t.id ∧ t.id < g.next)
  out : ∀ t ∈ g.tasks, t.out = none
  waits : ∀ t ∈ g.tasks, S.Waits t.id (c'.role t.id) t.call t.cont

theorem Script.Safe.segment (hJ : S.Keeps J) (t : Task M) :
    ∀ (i : Nat) (c : Config M ρ) (post : Config M ρ → Prop) (g : Segment M), i < c.next → J c →
      S.Safe t i c post → t.run Cond.any i c.state c.next = some g →
      ∃ c', c'.events = c.events ++ t.events i c.state c.next ∧ post c' ∧ J c' ∧
        S.SegmentOk i c g c' := by
  induction t with
  | done =>
    intro i c post g hlt hj hsafe hrun
    cases hrun
    refine ⟨c, by simp [Task.events], hsafe, hj, rfl, rfl, Nat.le_refl _, fun _ _ _ => rfl, ?_, ?_, ?_⟩
    all_goals exact fun t ht => nomatch ht
  | read k ih => exact fun i c post g hlt hj hsafe hrun => ih _ i c post g hlt hj hsafe hrun
  | op o k ih =>
    intro i c post g hlt hj hsafe hrun
    obtain ⟨r, hpre, hsafe⟩ := hsafe
    obtain ⟨-, hrun⟩ := Task.run_op hrun
    obtain ⟨c', hev, hpost, hj', hok⟩ :=
      ih i (c.op i o r) post g hlt (hJ.op i c o r hlt hj hpre) hsafe hrun
    refine ⟨c', ?_, hpost, hj', hok.state, hok.next, hok.le, fun j hjn hne => ?_, hok.ids, hok.out,
      hok.waits⟩
    · rw [hev]
      simp [Task.events]
    · exact (hok.role j hjn hne).trans (update_of_ne hne _ _)
  | await call k _ =>
    intro i c post g hlt hj hsafe hrun
    obtain ⟨r, hpre, hpost, hk⟩ := hsafe
    cases hrun
    refine ⟨c.assign i r, by simp [Task.events], hpost, hJ.await i c call r hlt hj hpre, rfl, rfl,
      Nat.le_refl _, fun j _ hne => update_of_ne hne _ _, ?_, ?_, ?_⟩
    · exact fun t ht => .inl (mem_singleton.1 ht ▸ rfl)
    · exact fun t ht => mem_singleton.1 ht ▸ rfl
    intro t ht
    rw [mem_singleton.1 ht]
    change S.Waits i (update c.role i r i) call k
    rw [update_self]
    exact hk
  | fork child k ihc ihk =>
    intro i c post g hlt hj hsafe hrun
    obtain ⟨r, hpre, hsafe⟩ := hsafe
    obtain ⟨g1, g2, hrun1, hrun2, rfl⟩ := Task.run_fork hrun
    obtain ⟨c1, hev1, hsafe1, hj1, hok1⟩ := ihc c.next (c.fork r) _ g1 (Nat.lt_succ_self _)
      (hJ.fork i c r hlt hj hpre) hsafe hrun1
    have hle1 : c.next + 1 ≤ g1.next := hok1.le
    rw [← hok1.state, ← hok1.next] at hrun2
    obtain ⟨c2, hev2, hpost, hj2, hok2⟩ := ihk i c1 post g2 (by rw [hok1.next]; omega) hj1 hsafe1
      hrun2
    have hle2 : g1.next ≤ g2.next := hok1.next ▸ hok2.le
    have hrole : ∀ j, j < c.next → j ≠ i → c2.role j = c.role j := by
      intro j hjn hne
      rw [hok2.role j (by rw [hok1.next]; omega) hne,
        hok1.role j (Nat.lt_succ_of_lt hjn) (by omega)]
      exact update_of_ne (by omega) _ _
    refine ⟨c2, ?_, hpost, hj2, hok2.state, hok2.next, by dsimp only; omega, hrole, ?_, ?_, ?_⟩
    · rw [hev2, hev1]
      simp only [Config.fork_events, Config.fork_state, Config.fork_next, Task.events, hrun1,
        hok1.state, hok1.next, append_assoc]
    · intro t ht
      dsimp only at ht ⊢
      rcases mem_append.1 ht with ht | ht
      · have := hok1.ids t ht
        simp only [Config.fork_next] at this
        omega
      · have := hok2.ids t ht
        rw [hok1.next] at this
        omega
    · intro t ht
      rcases mem_append.1 ht with ht | ht
      · exact hok1.out t ht
      · exact hok2.out t ht
    · intro t ht
      rcases mem_append.1 ht with ht | ht
      · -- the rest of the segment leaves the roles of what the child has left alone
        have hids := hok1.ids t ht
        simp only [Config.fork_next] at hids
        rw [hok2.role t.id (by rw [hok1.next]; omega) (by omega)]
        exact hok1.waits t ht
      · exact hok2.waits t ht

/-- The pool keeps to the script. -/
structure Script.PoolOk (S : Script M ρ) (w : Sys M) (c : Config M ρ) : Prop where
  state : c.state = w.state
  next : c.next = w.next
  inv : S.Inv c
  lt : ∀ t ∈ w.tasks, t.id < w.next
  waits : ∀ t ∈ w.tasks, t.out = none → S.Waits t.id (c.role t.id) t.call t.cont
  resumes : ∀ t ∈ w.tasks, ∀ o, t.out = some o → S.Resumes t.id (c.role t.id) (t.cont o)

theorem Script.PoolOk.proceed (hJ : S.Keeps J) {i n : Nat} {t : Task M} (hw : S.PoolOk w c)
    (c0 : Config M ρ) (hi : i < n) (hn : w.next ≤ n) (hstate : c0.state = w.state)
    (hnext : c0.next = n) (hrole : ∀ j, j < w.next → j ≠ i → c0.role j = c.role j) (hj : J c0)
    (hsafe : S.Safe t i c0 S.Inv) (hstep : w.proceed Cond.any i t n = some w') :
    ∃ c', c'.events = c0.events ++ t.events i w.state n ∧ S.PoolOk w' c' ∧ J c' := by
  obtain ⟨g, hrun, rfl⟩ := Option.map_eq_some_iff.1 hstep
  rw [← hstate, ← hnext] at hrun
  obtain ⟨c', hev, hinv, hj', hok⟩ := hsafe.segment hJ t i c0 _ g (by omega) hj hrun
  rw [hstate, hnext] at hev
  have hle : n ≤ g.next := hnext ▸ hok.le
  have hothers : ∀ t' ∈ w.others i, c'.role t'.id = c.role t'.id := by
    intro t' ht'
    obtain ⟨hmem, hne⟩ := Sys.mem_others.1 ht'
    have hlt := hw.lt t' hmem
    exact (hok.role t'.id (by omega) hne).trans (hrole t'.id hlt hne)
  refine ⟨c', hev, ⟨hok.state, hok.next, hinv, fun t' ht' => ?_, fun t' ht' hout => ?_,
    fun t' ht' o hout => ?_⟩, hj'⟩
  · dsimp only at ht' ⊢
    rcases mem_append.1 ht' with ht' | ht'
    · have := hw.lt t' (Sys.mem_others.1 ht').1
      omega
    · have := hok.ids t' ht'
      omega
  · rcases mem_append.1 ht' with ht' | ht'
    · exact hothers t' ht' ▸ hw.waits t' (Sys.mem_others.1 ht').1 hout
    · exact hok.waits t' ht'
  · rcases mem_append.1 ht' with ht' | ht'
    · exact hothers t' ht' ▸ hw.resumes t' (Sys.mem_others.1 ht').1 o hout
    · exact nomatch (hok.out t' ht').symm.trans hout

theorem Script.PoolOk.complete (hJ : S.Keeps J) {t : Suspended M} {r : M.Reply} (hw : S.PoolOk w c)
    (ht : t ∈ w.tasks) (hj : J c) (hstep : w.complete Cond.any t r = some w') :
    ∃ s o c', M.perform t.id t.call r w.state = some (s, o) ∧
      c'.events = c.events ++ [.call t.id w.state t.call o] ∧ S.PoolOk w' c' ∧ J c' := by
  obtain ⟨s, o, hout, hperf, -, rfl⟩ := Sys.complete_cases hstep
  have hlt := hw.lt t ht
  rw [← hw.state] at hperf
  obtain ⟨r', hpre, hinv, hk⟩ := hw.waits t ht hout c hw.inv rfl (hw.next ▸ hlt) r s o hperf
  have hj' := hJ.call t.id c t.call o r s r' (hw.next ▸ hlt) hj hw.inv hpre hperf
  have hothers : ∀ t' ∈ w.others t.id, (c.call t.id t.call o s r').role t'.id = c.role t'.id :=
    fun t' ht' => update_of_ne (Sys.mem_others.1 ht').2 _ _
  have hown : (c.call t.id t.call o s r').role t.id = r' := update_self ..
  refine ⟨s, o, c.call t.id t.call o s r', hw.state ▸ hperf, ?_,
    ⟨rfl, hw.next, hinv, fun t' ht' => ?_, fun t' ht' hout' => ?_, fun t' ht' o' hout' => ?_⟩, hj'⟩
  · simp [Config.call, hw.state]
  · rcases mem_cons.1 ht' with rfl | ht'
    · exact hlt
    · exact hw.lt t' (Sys.mem_others.1 ht').1
  · rcases mem_cons.1 ht' with rfl | ht'
    · simp at hout'
    · exact hothers t' ht' ▸ hw.waits t' (Sys.mem_others.1 ht').1 hout'
  rcases mem_cons.1 ht' with rfl | ht'
  · rw [Option.some.injEq] at hout'
    rw [hown, ← hout']
    exact hk
  · exact hothers t' ht' ▸ hw.resumes t' (Sys.mem_others.1 ht').1 o' hout'

theorem Script.PoolOk.step (hJ : S.Keeps J) (hstart : ∀ c, S.Inv c → S.Inv (c.fork S.idle))
    (hprog : ∀ cmd i, S.Resumes i S.idle (prog cmd)) {m : Move M Cmd} (hw : S.PoolOk w c) (hj : J c)
    (hstep : w.step Cond.any prog m = some w') :
    ∃ c', c'.events = c.events ++ w.events prog m ∧ S.PoolOk w' c' ∧ J c' := by
  cases m with
  | start cmd =>
    have hsafe : S.Safe (prog cmd) w.next (c.fork S.idle) S.Inv := by
      refine hprog cmd w.next _ (hstart c hw.inv) ?_ ?_
      · rw [← hw.next]
        exact update_self ..
      · rw [← hw.next]
        exact Nat.lt_succ_self _
    have hnext : (c.fork S.idle).next = w.next + 1 := congrArg (· + 1) hw.next
    exact hw.proceed hJ (c.fork S.idle) (Nat.lt_succ_self _) (Nat.le_succ _) hw.state hnext
      (fun j hj hne => update_of_ne (hw.next ▸ hne) _ _) (hJ.start c hj) hsafe hstep
  | perform i r =>
    rw [Sys.step] at hstep
    split at hstep
    · simp at hstep
    rename_i t hfind
    obtain ⟨s, o, c', hperf, hev, hw', hj'⟩ :=
      hw.complete hJ (mem_of_find?_eq_some hfind) hj hstep
    refine ⟨c', ?_, hw', hj'⟩
    rw [hev, Sys.events, hfind]
    simp only [hperf]
  | resume i =>
    rw [Sys.step] at hstep
    split at hstep
    · simp at hstep
    rename_i t hfind
    have hmem := mem_of_find?_eq_some hfind
    have hid : t.id = i := by simpa using find?_some hfind
    split at hstep
    · simp at hstep
    rename_i o hout
    subst hid
    have hlt := hw.lt t hmem
    have hsafe := hw.resumes t hmem o hout c hw.inv rfl (hw.next ▸ hlt)
    obtain ⟨c', hev, hw', hj'⟩ := hw.proceed hJ c hlt (Nat.le_refl _) hw.state hw.next
      (fun _ _ _ => rfl) hj hsafe hstep
    refine ⟨c', ?_, hw', hj'⟩
    rw [hev, Sys.events, hfind]
    simp only [hout]

/-- The configuration before any program has started. -/
def Script.initial (S : Script M ρ) (s : M.State) : Config M ρ := ⟨s, [], 0, fun _ => S.idle⟩

/-- **The script rule.** If the programs keep to the script, then in every run there are roles with
    which its invariant holds, and everything that the script keeps. -/
theorem Script.reach (hJ : S.Keeps J) {init : M.State → Prop}
    (hinit : ∀ s, init s → S.Inv (S.initial s) ∧ J (S.initial s))
    (hstart : ∀ c, S.Inv c → S.Inv (c.fork S.idle)) (hprog : ∀ cmd i, S.Resumes i S.idle (prog cmd))
    {h : List (Event M)} (hw : Traced prog init w h) : ∃ c, c.events = h ∧ S.PoolOk w c ∧ J c := by
  induction hw with
  | idle s hs =>
    obtain ⟨hinv, hj⟩ := hinit s hs
    refine ⟨S.initial s, rfl, ⟨rfl, rfl, hinv, ?_, ?_, ?_⟩, hj⟩
    all_goals exact fun t ht => absurd ht (by simp [Sys.idle])
  | step m _ hstep ih =>
    obtain ⟨c, rfl, hok, hj⟩ := ih
    exact hok.step hJ hstart hprog hj hstep

/-! ## Program fragments -/

/-- Task `i` keeps to the script while it runs `m` from the point of `c`, and `Q` holds of the outcome
    and the point it leaves. -/
def Script.Wp (S : Script M ρ) (i : Nat) (m : Async M α) (Q : Except M.Err α → Config M ρ → Prop)
    (c : Config M ρ) : Prop :=
  ∀ k : Except M.Err α → Task M, (∀ r c', Q r c' → S.Safe (k r) i c' S.Inv) →
    S.Safe (m.run k) i c S.Inv

namespace Script.Wp

variable {S : Script M ρ} {i : Nat} {c : Config M ρ}

variable {m : Async M α} {Q Q' : Except M.Err α → Config M ρ → Prop}

theorem mono (h : S.Wp i m Q c) (hQ : ∀ r c', Q r c' → Q' r c') : S.Wp i m Q' c :=
  fun k hk => h k fun r c' hq => hk r c' (hQ r c' hq)

theorem pure {a : α} (h : Q (.ok a) c) : S.Wp i (Pure.pure a) Q c := fun _ hk => hk _ c h

theorem throw {e : M.Err} (h : Q (.error e) c) : S.Wp i (Async.throw e) Q c := fun _ hk => hk _ c h

theorem bind {f : α → Async M β} {Q' : Except M.Err β → Config M ρ → Prop} (hm : S.Wp i m Q c)
    (hf : ∀ a c', Q (.ok a) c' → S.Wp i (f a) Q' c')
    (he : ∀ e c', Q (.error e) c' → Q' (.error e) c') : S.Wp i (m >>= f) Q' c := by
  intro k hk
  refine hm _ fun r c' hq => ?_
  cases r with
  | ok a => exact hf a c' hq k hk
  | error e => exact hk _ c' (he e c' hq)

theorem settle {f : Except M.Err α → Async M β} {Q' : Except M.Err β → Config M ρ → Prop}
    (hm : S.Wp i m Q c) (hf : ∀ r c', Q r c' → S.Wp i (f r) Q' c') :
    S.Wp i (Async.settle m f) Q' c :=
  fun k hk => hm _ fun r c' hq => hf r c' hq k hk

theorem tryCatch {f : M.Err → Async M α} (hm : S.Wp i m Q c)
    (hok : ∀ a c', Q (.ok a) c' → Q' (.ok a) c')
    (hf : ∀ e c', Q (.error e) c' → S.Wp i (f e) Q' c') :
    S.Wp i (Async.tryCatch m f) Q' c := by
  intro k hk
  refine hm _ fun r c' hq => ?_
  cases r with
  | ok a => exact hk _ c' (hok a c' hq)
  | error e => exact hf e c' hq k hk

theorem op {o : M.Op} {Q : Except M.Err Unit → Config M ρ → Prop} (r : ρ) (hpre : S.OpPre i c o r)
    (h : Q (.ok ()) (c.op i o r)) : S.Wp i (Async.op o) Q c :=
  fun _ hk => ⟨r, hpre, hk _ _ h⟩

theorem await {call : M.Call} {Q : Except M.Err (M.Ret call) → Config M ρ → Prop} (r : ρ)
    (hpre : S.AwaitPre i c call r) (hinv : S.Inv (c.assign i r))
    (h : ∀ c1, S.Inv c1 → c1.role i = r → i < c1.next →
      ∀ reply s out, M.perform i call reply c1.state = some (s, out) →
        ∃ r', S.CallPre i c1 call out r' ∧ S.Inv (c1.call i call out s r') ∧
          ∀ c2, S.Inv c2 → c2.role i = r' → i < c2.next → Q out c2) :
    S.Wp i (Async.await call) Q c := by
  intro k hk
  refine ⟨r, hpre, hinv, fun c1 hi1 hr1 hlt1 reply s out hperf => ?_⟩
  obtain ⟨r', hpre', hinv', hq⟩ := h c1 hi1 hr1 hlt1 reply s out hperf
  exact ⟨r', hpre', hinv', fun c2 hi2 hr2 hlt2 => hk out c2 (hq c2 hi2 hr2 hlt2)⟩

theorem spawn {Q : Except M.Err Unit → Config M ρ → Prop} (r : ρ) (hpre : S.ForkPre i c r)
    {post : Config M ρ → Prop} (hm : S.Safe m.toTask c.next (c.fork r) post)
    (h : ∀ c', post c' → Q (.ok ()) c') :
    S.Wp i (Async.spawn m) Q c :=
  fun _ hk => ⟨r, hpre, hm.mono _ fun c' hc' => hk _ c' (h c' hc')⟩

end Script.Wp

end EventLoop
