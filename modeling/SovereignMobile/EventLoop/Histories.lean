import Mathlib.Algebra.Ring.Nat
import SovereignMobile.EventLoop.Events

/-! # Histories with the calls that are issued

The events of a run say when a call was performed. Where it matters when a call was attempted, a
history also has the moment at which it was issued (`Act.issue`), between the operations before it and
the one that performs it. In a history each act happens in the state that the one before it has left
(`Linked`), and each meets what the outline asks of it (`Spec.Sound.recorded`); both together make a
history one sequence of steps, on which invariants and measures go step by step, whatever task each
step is of. -/

namespace EventLoop

open List

variable {M : Machine} {Cmd : Type}

inductive Act (M : Machine) where
  | op (i : Nat) (s : M.State) (o : M.Op)
  | issue (i : Nat) (s : M.State) (c : M.Call)
  | call (i : Nat) (s : M.State) (c : M.Call) (r : Except M.Err (M.Ret c))

/-- The state an act happened in. -/
def Act.state : Act M → M.State
  | .op _ s _ => s
  | .issue _ s _ => s
  | .call _ s _ _ => s

/-- What an act makes of the state it happened in. -/
def Act.Leaves : Act M → M.State → Prop
  | .op i s o, s' => s' = M.apply i o s
  | .issue _ s _, s' => s' = s
  | .call i s c r, s' => ∃ reply, M.perform i c reply s = some (s', r)

/-- The acts of a segment. -/
def Task.acts (i : Nat) : Task M → M.State → Nat → List (Act M)
  | .done, _, _ => []
  | .read k, s, n => (k s).acts i s n
  | .op o k, s, n => .op i s o :: k.acts i (M.apply i o s) n
  | .await c _, s, _ => [.issue i s c]
  | .fork child k, s, n =>
    child.acts n s (n + 1) ++
      match child.run Cond.any n s (n + 1) with
      | none => []
      | some g => k.acts i g.state g.next

/-- The acts of a move. -/
def Sys.acts (prog : Cmd → Task M) (w : Sys M) : Move M Cmd → List (Act M)
  | .start c => (prog c).acts w.next w.state (w.next + 1)
  | .perform i r =>
    match w.tasks.find? fun t => t.id = i with
    | none => []
    | some t =>
      match M.perform t.id t.call r w.state with
      | none => []
      | some (_, o) => [.call t.id w.state t.call o]
  | .resume i =>
    match w.tasks.find? fun t => t.id = i with
    | none => []
    | some t =>
      match t.out with
      | none => []
      | some o => (t.cont o).acts i w.state w.next

/-- The systems that are reached, with all acts so far. -/
inductive Recorded (prog : Cmd → Task M) (init : M.State → Prop) : Sys M → List (Act M) → Prop
  | idle (s : M.State) : init s → Recorded prog init (Sys.idle s) []
  | step {w w' : Sys M} {h : List (Act M)} (m : Move M Cmd) :
      Recorded prog init w h → w.step Cond.any prog m = some w' →
      Recorded prog init w' (h ++ w.acts prog m)

variable {prog : Cmd → Task M} {init : M.State → Prop} {w w' : Sys M} {h h' : List (Act M)}
    {s s' : M.State} {S : Spec M}

theorem Recorded.reach (hw : Recorded prog init w h) : Reach Cond.any prog init w := by
  induction hw with
  | idle s hs => exact .idle s hs
  | step m _ hstep ih => exact ih.step m hstep

/-- A run with its acts. -/
def Sys.record (prog : Cmd → Task M) :
    Sys M → List (Act M) → List (Move M Cmd) → Option (Sys M × List (Act M))
  | w, h, [] => some (w, h)
  | w, h, m :: ms =>
    match w.step Cond.any prog m with
    | none => none
    | some w' => w'.record prog (h ++ w.acts prog m) ms

theorem Recorded.record (hw : Recorded prog init w h) (ms : List (Move M Cmd))
    (hrun : w.record prog h ms = some (w', h')) : Recorded prog init w' h' := by
  induction ms generalizing w h with
  | nil =>
    simp only [Sys.record, Option.some.injEq, Prod.mk.injEq] at hrun
    exact hrun.1 ▸ hrun.2 ▸ hw
  | cons m ms ih =>
    rw [Sys.record] at hrun
    cases hstep : w.step Cond.any prog m with
    | none =>
      rw [hstep] at hrun
      simp at hrun
    | some w1 =>
      rw [hstep] at hrun
      exact ih (hw.step m hstep) hrun

/-! ## One act after the other -/

inductive Linked : M.State → List (Act M) → M.State → Prop
  | nil (s : M.State) : Linked s [] s
  | cons {a : Act M} {s₁ s' : M.State} {h : List (Act M)} :
      a.Leaves s₁ → Linked s₁ h s' → Linked a.state (a :: h) s'

theorem Linked.append {s1 : M.State} (hl : Linked s h s1) (hl' : Linked s1 h' s') :
    Linked s (h ++ h') s' := by
  induction hl with
  | nil s => exact hl'
  | cons ha _ ih => exact .cons ha (ih hl')

theorem Linked.of_append (hl : Linked s (h ++ h') s') : ∃ s1, Linked s h s1 ∧ Linked s1 h' s' := by
  induction h generalizing s with
  | nil => exact ⟨s, .nil s, hl⟩
  | cons a h ih =>
    cases hl with
    | cons ha hrest =>
      obtain ⟨s1, hl1, hl2⟩ := ih hrest
      exact ⟨s1, .cons ha hl1, hl2⟩

theorem Linked.keeps {I : M.State → Prop} (hl : Linked s h s')
    (hkeep : ∀ a ∈ h, ∀ s1, I a.state → a.Leaves s1 → I s1) (hs : I s) : I s' := by
  induction hl with
  | nil s => exact hs
  | cons ha _ ih =>
    refine ih (fun b hb => hkeep b (mem_cons_of_mem _ hb)) ?_
    exact hkeep _ mem_cons_self _ hs ha

/-- The acts add up to no more than the measure has grown, if no act adds more than it grows. -/
theorem Linked.sum_le {f : Act M → Nat} {m : M.State → Nat} (hl : Linked s h s')
    (hgrow : ∀ a ∈ h, ∀ s1, a.Leaves s1 → f a + m a.state ≤ m s1) :
    (h.map f).sum + m s ≤ m s' := by
  induction hl with
  | nil s => simp
  | @cons a s1 s' h ha _ ih =>
    have hhead := hgrow a mem_cons_self s1 ha
    have htail := ih fun b hb => hgrow b (mem_cons_of_mem _ hb)
    rw [map_cons, sum_cons]
    omega

theorem Task.linked (t : Task M) : ∀ (i n : Nat) (s : M.State) (g : Segment M),
    t.run Cond.any i s n = some g → Linked s (t.acts i s n) g.state := by
  induction t with
  | done =>
    intro i n s g hrun
    cases hrun
    exact .nil s
  | read k ih =>
    intro i n s g hrun
    exact ih s i n s g hrun
  | op o k ih =>
    intro i n s g hrun
    exact .cons (a := .op i s o) rfl (ih i n _ g (Task.run_op hrun).2)
  | await c k ih =>
    intro i n s g hrun
    cases hrun
    exact .cons (a := .issue i s c) rfl (.nil s)
  | fork child k ihc ihk =>
    intro i n s g hrun
    obtain ⟨g1, g2, hrun1, hrun2, rfl⟩ := Task.run_fork hrun
    rw [Task.acts, hrun1]
    -- the child runs to its first call before the parent goes on
    exact (ihc n (n + 1) s g1 hrun1).append (ihk i g1.next g1.state g2 hrun2)

/-! ## What is known of each act -/

/-- The outline's obligation at an act. -/
def Spec.Meets (S : Spec M) : Act M → Prop
  | .op i s o => S.Inv s ∧ S.OpPre i s o
  | .issue i s c => S.Inv s ∧ S.CallPre i s c
  | .call i s c _ => S.Inv s ∧ S.CallPre i s c

theorem Spec.Sound.acts (hS : S.Sound Cond.any) (t : Task M) :
    ∀ (i n : Nat) (s : M.State) (g : Segment M), i < n → S.Inv s → (∀ j, n ≤ j → S.Fin j s) →
      S.Safe Cond.any i t s → t.run Cond.any i s n = some g → ∀ a ∈ t.acts i s n, S.Meets a := by
  induction t with
  | done =>
    intro i n s g _ _ _ _ _ a ha
    simp [Task.acts] at ha
  | read k ih =>
    intro i n s g hlt hinv hfresh hsafe hrun
    exact ih s i n s g hlt hinv hfresh hsafe hrun
  | op o k ih =>
    intro i n s g hlt hinv hfresh hsafe hrun a ha
    obtain ⟨hpre, hk⟩ := hsafe rfl
    obtain ⟨hinv', hrely⟩ := hS.op i s o hinv rfl hpre
    have hfresh' : ∀ j, n ≤ j → S.Fin j (M.apply i o s) := fun j hj =>
      hS.fin _ _ _ (hfresh j hj) (hrely j (by omega)) hinv'
    rcases mem_cons.1 ha with rfl | ha
    · exact ⟨hinv, hpre⟩
    · exact ih i n _ g hlt hinv' hfresh' (hk hinv') (Task.run_op hrun).2 a ha
  | await c k ih =>
    intro i n s g _ hinv _ hsafe _ a ha
    obtain rfl := mem_singleton.1 ha
    exact ⟨hinv, (hsafe s (hS.refl _ _) hinv).1⟩
  | fork child k ihc ihk =>
    intro i n s g hlt hinv hfresh hsafe hrun a ha
    obtain ⟨hchild, hk⟩ := hsafe
    have hsafe1 := hchild n (Nat.ne_of_gt hlt) (hfresh n (Nat.le_refl n))
    have hfresh' : ∀ j, n + 1 ≤ j → S.Fin j s := fun j hj => hfresh j (by omega)
    obtain ⟨g1, g2, hrun1, hrun2, -⟩ := Task.run_fork hrun
    rw [Task.acts, hrun1] at ha
    rcases mem_append.1 ha with ha | ha
    · exact ihc n (n + 1) s g1 (Nat.lt_succ_self n) hinv hfresh' hsafe1 hrun1 a ha
    have h1 := hS.segment child n (n + 1) s g1 (Nat.lt_succ_self n) hinv hfresh' hsafe1 hrun1
    have hle1 : n + 1 ≤ g1.next := h1.le
    have hfresh1 : ∀ j, g1.next ≤ j → S.Fin j g1.state := fun j hj =>
      hS.fin _ _ _ (hfresh j (by omega)) (h1.rely j (by omega) (by omega)) h1.inv
    have hsafe2 := hk _ (h1.rely i (by omega) (by omega)) h1.inv
    exact ihk i _ _ g2 (by omega) h1.inv hfresh1 hsafe2 hrun2 a ha

/-- One move: its acts lead from one state to the next, and each meets its obligation. -/
theorem Spec.PoolOk.acts (hS : S.Sound Cond.any)
    (hprog : ∀ c i s, S.Inv s → S.Fin i s → S.Safe Cond.any i (prog c) s) {m : Move M Cmd}
    (hw : S.PoolOk Cond.any w) (hstep : w.step Cond.any prog m = some w') :
    Linked w.state (w.acts prog m) w'.state ∧ ∀ a ∈ w.acts prog m, S.Meets a := by
  have hfresh : ∀ j, w.next ≤ j → S.Fin j w.state := fun j hj => hw.fin j fun t ht => by
    have := hw.lt t ht
    omega
  have hproceed : ∀ (i n) t, i < n → w.next ≤ n →
      S.Safe Cond.any i t w.state → w.proceed Cond.any i t n = some w' →
      Linked w.state (t.acts i w.state n) w'.state ∧ ∀ a ∈ t.acts i w.state n, S.Meets a := by
    intro i n t hlt hn hsafe hproc
    obtain ⟨g, hrun, rfl⟩ := Option.map_eq_some_iff.1 hproc
    constructor
    · exact t.linked i n w.state g hrun
    · exact hS.acts t i n w.state g hlt hw.inv (fun j hj => hfresh j (by omega)) hsafe hrun
  cases m with
  | start c =>
    have hsafe := hprog c w.next w.state hw.inv (hfresh _ le_rfl)
    exact hproceed w.next (w.next + 1) (prog c) (Nat.lt_succ_self _) (Nat.le_succ _) hsafe hstep
  | perform i r =>
    rw [Sys.step] at hstep
    rw [Sys.acts]
    cases hfind : w.tasks.find? fun t => t.id = i with
    | none =>
      rw [hfind] at hstep
      simp at hstep
    | some t =>
      rw [hfind] at hstep
      obtain ⟨s, o, hout, hperf, -, rfl⟩ := Sys.complete_cases hstep
      dsimp only
      rw [hperf]
      have hsafe := hw.safe t (mem_of_find?_eq_some hfind)
      rw [Spec.SafeSuspended, hout] at hsafe
      constructor
      · exact .cons (a := .call t.id w.state t.call o) ⟨r, hperf⟩ (.nil s)
      intro a ha
      obtain rfl := mem_singleton.1 ha
      exact ⟨hw.inv, (hsafe w.state (hS.refl _ _) hw.inv).1⟩
  | resume i =>
    rw [Sys.step] at hstep
    rw [Sys.acts]
    cases hfind : w.tasks.find? fun t => t.id = i with
    | none =>
      rw [hfind] at hstep
      simp at hstep
    | some t =>
      rw [hfind] at hstep
      dsimp only at hstep ⊢
      have hmem := mem_of_find?_eq_some hfind
      have hid : t.id = i := by simpa using find?_some hfind
      have hsafe := hw.safe t hmem
      cases hout : t.out with
      | none =>
        rw [hout] at hstep
        simp at hstep
      | some o =>
        rw [hout] at hstep
        rw [Spec.SafeSuspended, hout, hid] at hsafe
        exact hproceed i w.next (t.cont o) (hid ▸ hw.lt t hmem) le_rfl
          (hsafe _ (hS.refl _ _) hw.inv) hstep

/-- **The rule.** A history leads from an initial state to the present one, and each act of it meets
    its obligation. -/
theorem Spec.Sound.recorded (hS : S.Sound Cond.any) (hinit : ∀ s, init s → S.Inv s)
    (hfin : ∀ s i, init s → S.Fin i s)
    (hprog : ∀ c i s, S.Inv s → S.Fin i s → S.Safe Cond.any i (prog c) s)
    (hw : Recorded prog init w h) :
    ∃ s, init s ∧ Linked s h w.state ∧ ∀ a ∈ h, S.Meets a := by
  induction hw with
  | idle s hs =>
    refine ⟨s, hs, .nil s, ?_⟩
    intro a ha
    simp at ha
  | step m hw hstep ih =>
    obtain ⟨s, hs, hlinked, hmeets⟩ := ih
    have hpool := hS.reach hinit hfin hprog hw.reach
    obtain ⟨hlinked', hmeets'⟩ := hpool.acts hS hprog hstep
    refine ⟨s, hs, hlinked.append hlinked', ?_⟩
    intro a ha
    rcases mem_append.1 ha with ha | ha
    · exact hmeets a ha
    · exact hmeets' a ha

end EventLoop
