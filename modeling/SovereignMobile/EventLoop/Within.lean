import SovereignMobile.EventLoop.Only

/-! # Operations and calls that are left

`Suspended.Within P Q` says of a suspended task that nothing but operations in `P` and calls in `Q` are
ahead of it, whatever it reads and hears. A segment of such a task stays within every relation that these
operations and calls stay within, and what it leaves suspended is such a task again. -/

namespace EventLoop

open List

variable {M : Machine}

/-- The operations in `P`, and the calls in `Q` with any answer. -/
def Kind.within (P : M.Op → Prop) (Q : M.Call → Prop) : Kind M Whatever where
  reads _ _ := True
  op _ := P
  call _ := Q
  answers _ _ _ := True
  seen _ _ := .whatever
  done _ _ := .whatever
  le_seen _ _ := trivial
  le_done _ _ := trivial

/-- A call that was performed is not ahead of the task any more, and its outcome is known. -/
def Suspended.Within (P : M.Op → Prop) (Q : M.Call → Prop) (t : Suspended M) : Prop :=
  match t.out with
  | none => Q t.call ∧ ∀ r, (t.cont r).Only (Kind.within P Q) .whatever
  | some o => (t.cont o).Only (Kind.within P Q) .whatever

/-- The operations in `P` and the calls in `Q` stay within `R`. -/
structure Confined (P : M.Op → Prop) (Q : M.Call → Prop) (R : M.State → M.State → Prop) : Prop where
  refl : ∀ s, R s s
  trans : ∀ s₁ s₂ s₃, R s₁ s₂ → R s₂ s₃ → R s₁ s₃
  op : ∀ i s o, P o → R s (M.apply i o s)
  call : ∀ i s c r s' o, Q c → M.perform i c r s = some (s', o) → R s s'

section Steps
variable {P : M.Op → Prop} {Q : M.Call → Prop} {R : M.State → M.State → Prop}

theorem Confined.any : Confined (M := M) P Q fun _ _ => True :=
  ⟨fun _ => trivial, fun _ _ _ _ _ => trivial, fun _ _ _ _ => trivial,
    fun _ _ _ _ _ _ _ _ => trivial⟩

variable {t : Suspended M} {o : Except M.Err (M.Ret t.call)} {C : Cond M} {Cmd : Type}
    {prog : Cmd → Task M} {w : Sys M}

theorem Suspended.Within.performed (hout : t.out = none) (h : t.Within P Q) :
    Suspended.Within P Q { t with out := some o } := by
  unfold Suspended.Within at h
  rw [hout] at h
  exact h.2 o

theorem Suspended.Within.cont (hout : t.out = some o) (h : t.Within P Q) :
    (t.cont o).Only (.within P Q) .whatever := by
  unfold Suspended.Within at h
  rw [hout] at h
  exact h

theorem Suspended.Within.call (hout : t.out = none) (h : t.Within P Q) : Q t.call := by
  unfold Suspended.Within at h
  rw [hout] at h
  exact h.1

theorem Suspended.Within.ofNone
    (h : t.out = none ∧ Q t.call ∧ ∀ r, (t.cont r).Only (Kind.within P Q) .whatever) :
    t.Within P Q := by
  unfold Suspended.Within
  rw [h.1]
  exact h.2

theorem Confined.segment (hR : Confined P Q R) (t : Task M) :
    ∀ (i n : Nat) (s : M.State) (g : Segment M), t.Only (Kind.within P Q) .whatever →
      t.run C i s n = some g → R s g.state ∧ ∀ t' ∈ g.tasks, t'.out = none ∧ Q t'.call ∧
        ∀ r, (t'.cont r).Only (.within P Q) .whatever := by
  induction t with
  | done =>
    intro i n s g _ hrun
    cases hrun
    exact ⟨hR.refl s, fun t' ht' => nomatch ht'⟩
  | read k ih => exact fun i n s g ht hrun => ih s i n s g (ht s trivial) hrun
  | op o k ih =>
    intro i n s g ht hrun
    obtain ⟨-, hrun⟩ := Task.run_op hrun
    obtain ⟨hr, htasks⟩ := ih i n _ g ht.2 hrun
    exact ⟨hR.trans _ _ _ (hR.op i s o ht.1) hr, htasks⟩
  | await c k ih =>
    intro i n s g ht hrun
    cases hrun
    refine ⟨hR.refl s, fun t' ht' => ?_⟩
    rw [mem_singleton.1 ht']
    exact ⟨rfl, ht.1, fun r => ht.2 r trivial⟩
  | fork child k ihc ihk =>
    intro i n s g ht hrun
    obtain ⟨g1, g2, hrun1, hrun2, rfl⟩ := Task.run_fork hrun
    obtain ⟨hr1, htasks1⟩ := ihc _ _ _ g1 ht.1 hrun1
    obtain ⟨hr2, htasks2⟩ := ihk _ _ _ g2 ht.2 hrun2
    refine ⟨hR.trans _ _ _ hr1 hr2, fun t' ht' => ?_⟩
    rcases mem_append.1 ht' with ht' | ht'
    · exact htasks1 t' ht'
    · exact htasks2 t' ht'

theorem Sys.start_within {w' : Sys M} {c : Cmd} (hc : (prog c).Only (Kind.within P Q) .whatever)
    (hw : ∀ t ∈ w.tasks, t.Within P Q) (h : w.step C prog (.start c) = some w') :
    ∀ t ∈ w'.tasks, t.Within P Q := by
  rw [Sys.step] at h
  obtain ⟨g, hrun, rfl⟩ := Option.map_eq_some_iff.1 h
  intro t ht
  rcases mem_append.1 ht with ht | ht
  · exact hw t (Sys.mem_others.1 ht).1
  · exact .ofNone ((Confined.any.segment _ _ _ _ _ hc hrun).2 t ht)

/-- What the operations in `P` and the calls in `Q` keep is an invariant of programs that have no others. -/
theorem Reach.invariant_within {init I : M.State → Prop}
    (hprog : ∀ c, (prog c).Only (Kind.within P Q) .whatever) (hinit : ∀ s, init s → I s)
    (hop : ∀ i s o, P o → I s → C.op i s o = true → I (M.apply i o s))
    (hcall : ∀ i s c r s' o, Q c → I s → M.perform i c r s = some (s', o) → C.call i s c o = true →
      I s') (h : Reach C prog init w) : I w.state := by
  let S : Spec M := ⟨I, fun _ _ _ => True, fun _ _ o => P o, fun _ _ c => Q c, fun _ _ => True⟩
  have hS : S.Sound C :=
    { refl := fun _ _ => trivial
      trans := fun _ _ _ _ _ _ => trivial
      op := fun i s o hi hc ho => ⟨hop i s o ho hi hc, fun _ _ => trivial⟩
      call := fun i s c r s' o hi hq hp hc => ⟨hcall i s c r s' o hq hi hp hc, fun _ _ => trivial⟩
      fin := fun _ _ _ _ _ _ => trivial }
  have hF : S.Carries C (.within P Q) fun _ _ _ => True :=
    { reads := fun _ _ _ _ _ => ⟨trivial, trivial⟩
      op := fun _ _ _ _ ho _ _ _ => ⟨ho, fun _ => trivial⟩
      call := fun _ _ _ _ hq _ _ => ⟨hq, fun _ _ _ _ _ _ => ⟨trivial, trivial⟩⟩
      rely := fun _ _ _ _ _ _ _ => trivial
      fork := fun _ _ _ _ _ _ => trivial
      fin := fun _ _ _ _ => trivial }
  have hpool := hS.reach hinit (fun _ _ _ => trivial)
    (fun c i s hi _ => Spec.safe_of_only hF (prog c) _ (hprog c) i s hi trivial) h
  exact hpool.inv

end Steps

end EventLoop
