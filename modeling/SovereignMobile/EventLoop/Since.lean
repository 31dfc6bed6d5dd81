import SovereignMobile.EventLoop.Within

/-! # What is left of the past

Which tasks of a run go back to programs that began before a certain system was reached, and what
holds of them when the rest of each of their programs is of one kind: the kind is kept along the run,
and whatever relation between states its operations stay within, every step of these tasks stays
within. -/

namespace EventLoop

open List Option

variable {M : Machine} {Cmd : Type}

/-- Who goes back to `old` after the move: what an old task forks is old. -/
def Move.heirs (m : Move M Cmd) (old : Nat → Prop) (w w' : Sys M) : Nat → Prop :=
  match m with
  | .resume i => fun j => old j ∨ (old i ∧ w.next ≤ j ∧ j < w'.next)
  | _ => old

/-- The move starts none of the programs in `P`. -/
def Move.startsNone (P : Cmd → Bool) : Move M Cmd → Bool
  | .start c => !P c
  | _ => true

/-- `w` is reached from `w₁`. The tasks in `old` go back to the time before `w₁`, and `alone` says
    that no program in `P` has started since. -/
inductive Since (prog : Cmd → Task M) (P : Cmd → Bool) (w₁ : Sys M) :
    (Nat → Prop) → Bool → Sys M → Prop
  | here : Since prog P w₁ (fun i => i < w₁.next) true w₁
  | step {old : Nat → Prop} {alone : Bool} {w w' : Sys M} (m : Move M Cmd) :
      Since prog P w₁ old alone w → w.step Cond.any prog m = some w' →
      Since prog P w₁ (m.heirs old w w') (alone && m.startsNone P) w'

/-! ## Identifiers -/

variable {C : Cond M} {i n : Nat} {s : M.State} {k : Task M} {w w' : Sys M}

/-- The tasks of a segment are its own and new ones. -/
theorem Task.run_ids (t : Task M) : ∀ (i n : Nat) (s : M.State) (g : Segment M),
    t.run C i s n = some g →
      n ≤ g.next ∧ ∀ t' ∈ g.tasks, t'.id = i ∨ (n ≤ t'.id ∧ t'.id < g.next) := by
  induction t with
  | done =>
    intro i n s g hrun
    cases hrun
    exact ⟨Nat.le_refl n, fun t' ht' => nomatch ht'⟩
  | read k ih => exact fun i n s g hrun => ih s i n s g hrun
  | op o k ih =>
    intro i n s g hrun
    obtain ⟨-, hrun⟩ := Task.run_op hrun
    exact ih i n _ g hrun
  | await c k ih =>
    intro i n s g hrun
    cases hrun
    exact ⟨Nat.le_refl n, fun t' ht' => .inl (mem_singleton.1 ht' ▸ rfl)⟩
  | fork child k ihc ihk =>
    intro i n s g hrun
    obtain ⟨g1, g2, hrun1, hrun2, rfl⟩ := Task.run_fork hrun
    obtain ⟨hle1, hids1⟩ := ihc n (n + 1) s g1 hrun1
    obtain ⟨hle2, hids2⟩ := ihk i g1.next g1.state g2 hrun2
    refine ⟨by dsimp only; omega, fun t' ht' => ?_⟩
    dsimp only at ht' ⊢
    rcases mem_append.1 ht' with ht' | ht'
    · have := hids1 t' ht'
      omega
    · have := hids2 t' ht'
      omega

/-! ## Equal segments -/

theorem Task.run_op_congr {o : M.Op} {k' : Task M}
    (h : k.run C i (M.apply i o s) n = k'.run C i (M.apply i o s) n) :
    (Task.op o k).run C i s n = (Task.op o k').run C i s n := by
  simp only [Task.run, h]

theorem Task.run_fork_congr {child child' : Task M}
    (h : child.run C n s (n + 1) = child'.run C n s (n + 1)) :
    (Task.fork child k).run C i s n = (Task.fork child' k).run C i s n := by
  simp only [Task.run, h]

/-! ## One kind of program -/

/-- Whatever its call answers, the task goes on as a program of the kind. -/
def Suspended.Only (P : M.Op → Prop) (t : Suspended M) : Prop :=
  ∀ r, (t.cont r).Only (Kind.ofOp P) .whatever

/-- The operations in `P` and all calls stay within `R`. -/
structure StaysWithin (P : M.Op → Prop) (R : M.State → M.State → Prop) : Prop where
  refl : ∀ s, R s s
  trans : ∀ s₁ s₂ s₃, R s₁ s₂ → R s₂ s₃ → R s₁ s₃
  op : ∀ i s o, P o → R s (M.apply i o s)
  call : ∀ i s c r s' o, M.perform i c r s = some (s', o) → R s s'

section Segments
variable {P : M.Op → Prop} {R : M.State → M.State → Prop}

theorem StaysWithin.any : StaysWithin (M := M) P fun _ _ => True :=
  ⟨fun _ => trivial, fun _ _ _ _ _ => trivial, fun _ _ _ _ => trivial, fun _ _ _ _ _ _ _ => trivial⟩

theorem StaysWithin.confined (h : StaysWithin P R) : Confined P (fun _ => True) R :=
  ⟨h.refl, h.trans, h.op, fun i s c r s' o _ hp => h.call i s c r s' o hp⟩

theorem Task.Only.segment (hR : StaysWithin P R) {C : Cond M} (t : Task M) (i n : Nat) (s : M.State)
    (g : Segment M) (ht : t.Only (Kind.ofOp P) .whatever) (hrun : t.run C i s n = some g) :
    R s g.state ∧ ∀ t' ∈ g.tasks, t'.Only P := by
  obtain ⟨hr, htasks⟩ := hR.confined.segment t i n s g ht hrun
  exact ⟨hr, fun t' ht' => (htasks t' ht').2.2⟩

end Segments

/-! ## Along the run -/

section Old
variable {prog : Cmd → Task M} {B : Cmd → Bool} {P : M.Op → Prop} {w₁ : Sys M}

/-- Identifiers of tasks and old ones are below the next one. -/
structure Sys.Bounded (w : Sys M) (old : Nat → Prop) : Prop where
  tasks : ∀ t ∈ w.tasks, t.id < w.next
  old : ∀ i, old i → i < w.next

variable {C : Cond M} {w w' : Sys M} {i : Nat} {m : Move M Cmd} {init : M.State → Prop}
    {old : Nat → Prop} {alone : Bool} {R : M.State → M.State → Prop}

/-- A segment keeps the identifiers of the pool below the next one. -/
theorem Sys.proceed_lt {n : Nat} {t : Task M} (hw : ∀ t ∈ w.tasks, t.id < w.next) (hi : i < n)
    (hn : w.next ≤ n) (h : w.proceed C i t n = some w') :
    n ≤ w'.next ∧ ∀ t ∈ w'.tasks, t.id < w'.next := by
  obtain ⟨g, hrun, rfl⟩ := map_eq_some_iff.1 h
  obtain ⟨hle, hids⟩ := Task.run_ids _ _ _ _ _ hrun
  refine ⟨hle, fun t' ht' => ?_⟩
  rcases mem_append.1 ht' with ht' | ht'
  · have := hw t' (Sys.mem_others.1 ht').1
    dsimp only
    omega
  · have := hids t' ht'
    dsimp only
    omega

theorem Sys.step_lt (hw : ∀ t ∈ w.tasks, t.id < w.next) (h : w.step C prog m = some w') :
    w.next ≤ w'.next ∧ ∀ t ∈ w'.tasks, t.id < w'.next := by
  rcases Sys.step_cases h with ⟨c, rfl, hp⟩ | ⟨i, r, t, ht, rfl, rfl, hp⟩ |
    ⟨i, t, ht, o, rfl, rfl, _, hp⟩
  · obtain ⟨hle, hlt⟩ := Sys.proceed_lt hw (Nat.lt_succ_self _) (Nat.le_succ _) hp
    exact ⟨Nat.le_of_succ_le hle, hlt⟩
  · obtain ⟨s, o, _, _, _, rfl⟩ := Sys.complete_cases hp
    refine ⟨Nat.le_refl _, fun t' ht' => ?_⟩
    rcases mem_cons.1 ht' with rfl | ht'
    · exact hw t ht
    · exact hw t' (Sys.mem_others.1 ht').1
  · exact Sys.proceed_lt hw (hw t ht) (Nat.le_refl _) hp

theorem Reach.lt (h : Reach C prog init w) : ∀ t ∈ w.tasks, t.id < w.next := by
  induction h with
  | idle s _ => exact fun t ht => absurd ht (by simp [Sys.idle])
  | step m _ hstep ih => exact (Sys.step_lt ih hstep).2

theorem Since.bounded (h1 : ∀ t ∈ w₁.tasks, t.id < w₁.next) (h : Since prog B w₁ old alone w) :
    w.Bounded old := by
  induction h with
  | here => exact ⟨h1, fun _ hi => hi⟩
  | step m _ hstep ih =>
    obtain ⟨hle, hlt⟩ := Sys.step_lt ih.tasks hstep
    refine ⟨hlt, fun i hi => ?_⟩
    cases m with
    | resume j =>
      rcases hi with hi | ⟨_, _, hi⟩
      · exact Nat.lt_of_lt_of_le (ih.old i hi) hle
      · exact hi
    | start | perform => exact Nat.lt_of_lt_of_le (ih.old i hi) hle

theorem Since.reach (h1 : Reach Cond.any prog init w₁) (h : Since prog B w₁ old alone w) :
    Reach .any prog init w := by
  induction h with
  | here => exact h1
  | step m _ hstep ih => exact ih.step m hstep

/-- What holds of every old task, stays true when its call is performed, and passes on to what a segment
    leaves suspended, holds of every old task ever after. -/
theorem Since.old_kept {G : Suspended M → Prop} (h1 : ∀ t ∈ w₁.tasks, t.id < w₁.next ∧ G t)
    (hperform : ∀ (t : Suspended M) (o : Except M.Err (M.Ret t.call)), t.out = none → G t →
      G { t with out := some o })
    (hresume : ∀ (t : Suspended M) (o : Except M.Err (M.Ret t.call)) (n : Nat) (s : M.State)
      (g : Segment M), t.out = some o → G t → (t.cont o).run Cond.any t.id s n = some g →
        ∀ t' ∈ g.tasks, G t') (h : Since prog B w₁ old alone w) :
    ∀ t ∈ w.tasks, old t.id → G t := by
  induction h with
  | here => exact fun t ht _ => (h1 t ht).2
  | step m hw hstep ih =>
    have hb := hw.bounded fun t ht => (h1 t ht).1
    intro t' ht' hold
    rcases Sys.step_cases hstep with ⟨c, rfl, hp⟩ | ⟨i, r, t, ht, rfl, rfl, hp⟩ |
      ⟨i, t, ht, o, rfl, rfl, hout, hp⟩
    · unfold Sys.proceed at hp
      obtain ⟨g, hrun, rfl⟩ := map_eq_some_iff.1 hp
      rcases mem_append.1 ht' with ht' | ht'
      · exact ih t' (Sys.mem_others.1 ht').1 hold
      have hids := (Task.run_ids _ _ _ _ _ hrun).2 t' ht'
      have hlt := hb.old _ hold
      omega
    · obtain ⟨s, o, hnone, _, _, rfl⟩ := Sys.complete_cases hp
      rcases mem_cons.1 ht' with rfl | ht'
      · exact hperform t o hnone (ih t ht hold)
      · exact ih t' (Sys.mem_others.1 ht').1 hold
    · unfold Sys.proceed at hp
      obtain ⟨g, hrun, rfl⟩ := map_eq_some_iff.1 hp
      have hids := Task.run_ids _ _ _ _ _ hrun
      have hseg := fun hti => hresume t o _ _ _ hout (ih t ht hti) hrun
      rcases mem_append.1 ht' with ht' | ht'
      · obtain ⟨hmem, _⟩ := Sys.mem_others.1 ht'
        rcases hold with hold | ⟨_, hle, _⟩
        · exact ih t' hmem hold
        · have := hb.tasks t' hmem
          omega
      rcases hold with hold | ⟨hti, _, _⟩
      · rcases hids.2 t' ht' with hid | hid
        · exact hseg (hid ▸ hold) t' ht'
        · have := hb.old _ hold
          omega
      · exact hseg hti t' ht'

/-- While only programs of the kind start, all tasks are of the kind, and the state stays within
    the relation that their operations and the calls stay within. -/
theorem Since.alone_only (hR : StaysWithin P R)
    (hprog : ∀ c, B c = false → (prog c).Only (Kind.ofOp P) .whatever)
    (h1 : ∀ t ∈ w₁.tasks, t.Only P) (h : Since prog B w₁ old alone w) (halone : alone = true) :
    R w₁.state w.state ∧ ∀ t ∈ w.tasks, t.Only P := by
  induction h with
  | here => exact ⟨hR.refl _, h1⟩
  | step m _ hstep ih =>
    rw [Bool.and_eq_true] at halone
    obtain ⟨hr, htasks⟩ := ih halone.1
    have hproceed : ∀ {i n : Nat} {t : Task M} {w w' : Sys M}, R w₁.state w.state →
        (∀ t ∈ w.tasks, t.Only P) → t.Only (Kind.ofOp P) .whatever →
        w.proceed Cond.any i t n = some w' → R w₁.state w'.state ∧ ∀ t ∈ w'.tasks, t.Only P := by
      intro i n t w w' hr htasks ht hp
      obtain ⟨g, hrun, rfl⟩ := map_eq_some_iff.1 hp
      obtain ⟨hg, hnew⟩ := Task.Only.segment hR _ _ _ _ _ ht hrun
      refine ⟨hR.trans _ _ _ hr hg, fun t' ht' => ?_⟩
      rcases mem_append.1 ht' with ht' | ht'
      · exact htasks t' (Sys.mem_others.1 ht').1
      · exact hnew t' ht'
    rcases Sys.step_cases hstep with ⟨c, rfl, hp⟩ | ⟨i, r, t, ht, rfl, rfl, hp⟩ |
      ⟨i, t, ht, o, rfl, rfl, _, hp⟩
    · exact hproceed hr htasks (hprog c (by simpa [Move.startsNone] using halone.2)) hp
    · obtain ⟨s, o, _, hperf, _, rfl⟩ := Sys.complete_cases hp
      refine ⟨hR.trans _ _ _ hr (hR.call _ _ _ _ _ _ hperf), fun t' ht' => ?_⟩
      rcases mem_cons.1 ht' with rfl | ht'
      · exact htasks t ht
      · exact htasks t' (Sys.mem_others.1 ht').1
    · exact hproceed hr htasks (htasks t ht o) hp

variable {Q : M.Call → Prop}

theorem Since.run (h : Since prog B w₁ old alone w) (ms : List (Move M Cmd))
    (hrun : w.run Cond.any prog ms = some w') :
    ∃ old' alone', Since prog B w₁ old' alone' w' ∧ ∀ i, old i → old' i := by
  induction ms generalizing w old alone with
  | nil =>
    cases hrun
    exact ⟨old, alone, h, fun _ hi => hi⟩
  | cons m ms ih =>
    rw [Sys.run] at hrun
    split at hrun
    · simp at hrun
    rename_i w2 hstep
    obtain ⟨old', alone', h', hold⟩ := ih (h.step m hstep) hrun
    refine ⟨old', alone', h', fun i hi => hold i ?_⟩
    cases m with
    | resume j => exact .inl hi
    | start | perform => exact hi

/-- Where every old task has nothing else ahead of it, that stays so. -/
theorem Since.old_within (h1 : ∀ t ∈ w₁.tasks, t.id < w₁.next ∧ t.Within P Q)
    (h : Since prog B w₁ old alone w) :
    ∀ t ∈ w.tasks, old t.id → t.Within P Q :=
  h.old_kept h1 (fun _ _ hout ht => ht.performed hout) fun _ _ _ _ _ hout ht hrun =>
    fun t' ht' => .ofNone ((Confined.any.segment _ _ _ _ _ (ht.cont hout) hrun).2 t' ht')

theorem Since.step_within (hR : Confined P Q R) (h1 : ∀ t ∈ w₁.tasks, t.id < w₁.next ∧ t.Within P Q)
    (h : Since prog B w₁ old alone w) (hi : old i) (hm : m = .resume i ∨ ∃ r, m = .perform i r)
    (hstep : w.step Cond.any prog m = some w') :
    R w.state w'.state := by
  rcases Sys.step_cases hstep with ⟨c, rfl, _⟩ | ⟨j, r, t, ht, rfl, rfl, hp⟩ |
    ⟨j, t, ht, o, rfl, rfl, hout, hp⟩
  · rcases hm with hm | ⟨_, hm⟩ <;> simp at hm
  · have hold : old t.id := by
      rcases hm with hm | ⟨_, hm⟩
      · simp at hm
      · exact (Move.perform.inj hm).1 ▸ hi
    obtain ⟨s, o, hout, hperf, _, rfl⟩ := Sys.complete_cases hp
    exact hR.call _ _ _ _ _ _ ((h.old_within h1 t ht hold).call hout) hperf
  · have hold : old t.id := by
      rcases hm with hm | ⟨_, hm⟩
      · exact (Move.resume.inj hm) ▸ hi
      · simp at hm
    obtain ⟨g, hrun, rfl⟩ := map_eq_some_iff.1 hp
    exact (hR.segment _ _ _ _ _ ((h.old_within h1 t ht hold).cont hout) hrun).1

theorem Suspended.Only.within {t : Suspended M} (h : t.Only P) : t.Within P fun _ => True := by
  unfold Suspended.Within
  split
  · exact ⟨trivial, h⟩
  · rename_i o _
    exact h o

theorem Since.step_old (hR : StaysWithin P R) (h1 : ∀ t ∈ w₁.tasks, t.id < w₁.next ∧ t.Only P)
    (h : Since prog B w₁ old alone w) (hi : old i) (hm : m = .resume i ∨ ∃ r, m = .perform i r)
    (hstep : w.step Cond.any prog m = some w') :
    R w.state w'.state :=
  h.step_within hR.confined (fun t ht => ⟨(h1 t ht).1, (h1 t ht).2.within⟩) hi hm hstep

end Old

end EventLoop
