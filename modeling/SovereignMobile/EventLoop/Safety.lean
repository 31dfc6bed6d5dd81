import SovereignMobile.EventLoop.Basic

/-! # Invariants of interleaved programs

A rely-guarantee rule for the event loop. A `Spec` names an invariant of the shared state, the
obligation every operation and every performed call has to meet, and, for each task, what the
other tasks leave alone while it is suspended (`Rely`). `Spec.Sound` says once, operation by
operation, that the obligations are enough to keep the invariant; `Spec.Safe` walks along one
program and checks that it meets them, whatever happens at its suspension points. Together they
give the invariant in every reachable system (`Spec.Sound.reach`), so interleavings are
considered here and nowhere else. -/

namespace EventLoop

open List

variable {M : Machine} {α β : Type} {Cmd : Type}

/-- `OpPre i s o` is what task `i` has to know when it runs `o` in state `s`, `CallPre` what has to
    hold whenever its pending call may be performed, `Fin` what it owes when it ends. -/
structure Spec (M : Machine) where
  Inv : M.State → Prop
  Rely : Nat → M.State → M.State → Prop
  OpPre : Nat → M.State → M.Op → Prop
  CallPre : Nat → M.State → M.Call → Prop
  Fin : Nat → M.State → Prop

/-- The obligations are enough: each operation and each performed call keeps the invariant and
    stays within what the other tasks rely on. -/
structure Spec.Sound (S : Spec M) (C : Cond M) : Prop where
  refl : ∀ i s, S.Rely i s s
  trans : ∀ i s₁ s₂ s₃, S.Rely i s₁ s₂ → S.Rely i s₂ s₃ → S.Rely i s₁ s₃
  op : ∀ i s o, S.Inv s → C.op i s o = true → S.OpPre i s o →
    S.Inv (M.apply i o s) ∧ ∀ j, j ≠ i → S.Rely j s (M.apply i o s)
  call : ∀ i s c r s' o, S.Inv s → S.CallPre i s c → M.perform i c r s = some (s', o) →
    C.call i s c o = true → S.Inv s' ∧ ∀ j, j ≠ i → S.Rely j s s'
  fin : ∀ i s s', S.Fin i s → S.Rely i s s' → S.Inv s' → S.Fin i s'

/-- Task `i`, about to run from a state that satisfies the invariant, meets its obligations. -/
def Spec.Safe (S : Spec M) (C : Cond M) : Nat → Task M → M.State → Prop
  | i, .done, s => S.Fin i s
  | i, .read k, s => S.Safe C i (k s) s
  | i, .op o k, s => C.op i s o = true →
      S.OpPre i s o ∧ (S.Inv (M.apply i o s) → S.Safe C i k (M.apply i o s))
  | i, .await c k, s => ∀ s₁, S.Rely i s s₁ → S.Inv s₁ →
      S.CallPre i s₁ c ∧
      ∀ r s₂ o, M.perform i c r s₁ = some (s₂, o) → C.call i s₁ c o = true → S.Inv s₂ →
        ∀ s₃, S.Rely i s₂ s₃ → S.Inv s₃ → S.Safe C i (k o) s₃
  | i, .fork child k, s => (∀ c, c ≠ i → S.Fin c s → S.Safe C c child s) ∧
      ∀ s₁, S.Rely i s s₁ → S.Inv s₁ → S.Safe C i k s₁

section Rules
variable {S : Spec M} {C : Cond M} {i : Nat} {s : M.State}

theorem Spec.safe_read {k : M.State → Task M} : S.Safe C i (.read k) s ↔ S.Safe C i (k s) s := .rfl

end Rules

/-! ## From the programs to the pool -/

/-- A suspended task is safe in `s`: whatever the others do next, it will meet its obligations. -/
def Spec.SafeSuspended (S : Spec M) (C : Cond M) (t : Suspended M) (s : M.State) : Prop :=
  match t.out with
  | none => S.Safe C t.id (.await t.call t.cont) s
  | some o => ∀ s₁, S.Rely t.id s s₁ → S.Inv s₁ → S.Safe C t.id (t.cont o) s₁

variable {S : Spec M} {C : Cond M} {t : Suspended M} {w w' : Sys M} {i : Nat} {prog : Cmd → Task M}
    {init J I : M.State → Prop}

theorem Spec.SafeSuspended.mono (hS : S.Sound C) {s s' : M.State} (h : S.SafeSuspended C t s)
    (hr : S.Rely t.id s s') :
    S.SafeSuspended C t s' := by
  unfold Spec.SafeSuspended at h ⊢
  split
  · rename_i hout
    rw [hout] at h
    intro s1 hr1 hi1
    exact h s1 (hS.trans _ _ _ _ hr hr1) hi1
  · rename_i o hout
    rw [hout] at h
    intro s1 hr1 hi1
    exact h s1 (hS.trans _ _ _ _ hr hr1) hi1

/-- What a segment of task `i` that started in `s` with next identifier `n` guarantees. -/
structure Spec.SegmentOk (S : Spec M) (C : Cond M) (i : Nat) (s : M.State) (n : Nat)
    (g : Segment M) : Prop where
  inv : S.Inv g.state
  le : n ≤ g.next
  rely : ∀ j, j < n ∨ g.next ≤ j → j ≠ i → S.Rely j s g.state
  ids : ∀ t ∈ g.tasks, t.id = i ∨ (n ≤ t.id ∧ t.id < g.next)
  safe : ∀ t ∈ g.tasks, S.SafeSuspended C t g.state
  fin : ∀ j, j = i ∨ n ≤ j → (∀ t ∈ g.tasks, t.id ≠ j) → S.Fin j g.state

theorem Spec.Sound.segment (hS : S.Sound C) (t : Task M) :
    ∀ (i n : Nat) (s : M.State) (g : Segment M), i < n → S.Inv s → (∀ j, n ≤ j → S.Fin j s) →
      S.Safe C i t s → t.run C i s n = some g → S.SegmentOk C i s n g := by
  induction t with
  | done =>
    intro i n s g hlt hinv hfresh hsafe hrun
    cases hrun
    refine ⟨hinv, Nat.le_refl _, fun j _ _ => hS.refl j s, by simp, by simp, fun j hj _ => ?_⟩
    rcases hj with rfl | hj
    · exact hsafe
    · exact hfresh j hj
  | read k ih =>
    intro i n s g hlt hinv hfresh hsafe hrun
    exact ih s i n s g hlt hinv hfresh hsafe hrun
  | op o k ih =>
    intro i n s g hlt hinv hfresh hsafe hrun
    obtain ⟨hc, hrun⟩ := Task.run_op hrun
    obtain ⟨hpre, hk⟩ := hsafe hc
    obtain ⟨hinv', hrely⟩ := hS.op i s o hinv hc hpre
    have hfresh' : ∀ j, n ≤ j → S.Fin j (M.apply i o s) := fun j hj =>
      hS.fin _ _ _ (hfresh j hj) (hrely j (by omega)) hinv'
    obtain ⟨h1, h2, h3, h4, h5, h6⟩ := ih i n _ g hlt hinv' hfresh' (hk hinv') hrun
    exact ⟨h1, h2, fun j hj hne => hS.trans _ _ _ _ (hrely j hne) (h3 j hj hne), h4, h5, h6⟩
  | await c k ih =>
    intro i n s g hlt hinv hfresh hsafe hrun
    cases hrun
    refine ⟨hinv, Nat.le_refl _, fun j _ _ => hS.refl j s, by simp, ?_, fun j hj hnot => ?_⟩
    · intro t ht
      rw [mem_singleton] at ht
      subst ht
      exact hsafe
    · rcases hj with rfl | hj
      · exact absurd rfl (hnot _ (mem_singleton.2 rfl))
      · exact hfresh j hj
  | fork child k ihc ihk =>
    intro i n s g hlt hinv hfresh hsafe hrun
    obtain ⟨hchild, hk⟩ := hsafe
    obtain ⟨g1, g2, hrun1, hrun2, rfl⟩ := Task.run_fork hrun
    have h1 := ihc n (n + 1) s g1 (Nat.lt_succ_self n) hinv (fun j hj => hfresh j (by omega))
      (hchild n (Nat.ne_of_gt hlt) (hfresh n (Nat.le_refl n))) hrun1
    have hle1 : n + 1 ≤ g1.next := h1.le
    have hi1 : S.Rely i s g1.state := h1.rely i (by omega) (by omega)
    have hfresh1 : ∀ j, g1.next ≤ j → S.Fin j g1.state := fun j hj =>
      hS.fin _ _ _ (hfresh j (by omega)) (h1.rely j (by omega) (by omega)) h1.inv
    have h2 := ihk i g1.next g1.state g2 (by omega) h1.inv hfresh1 (hk _ hi1 h1.inv) hrun2
    have hle2 : g1.next ≤ g2.next := h2.le
    -- whatever the child left suspended or finished, the rest of the segment leaves alone
    have hkeep : ∀ j, n ≤ j → j < g1.next → S.Rely j g1.state g2.state :=
      fun j _ hj => h2.rely j (.inl hj) (by omega)
    refine ⟨h2.inv, by dsimp only; omega, ?_, ?_, ?_, ?_⟩
    · intro j hj hne
      dsimp only at hj
      exact hS.trans _ _ _ _ (h1.rely j (by omega) (by omega)) (h2.rely j (by omega) hne)
    · intro t ht
      rcases mem_append.1 ht with ht | ht
      · have hid := h1.ids t ht
        right
        dsimp only
        omega
      · rcases h2.ids t ht with h | h
        · exact .inl h
        right
        dsimp only
        omega
    · intro t ht
      rcases mem_append.1 ht with ht | ht
      · have hid : n ≤ t.id ∧ t.id < g1.next := by
          rcases h1.ids t ht with h | h <;> omega
        exact (h1.safe t ht).mono hS (hkeep t.id hid.1 hid.2)
      · exact h2.safe t ht
    · intro j hj hnot
      have hnot1 : ∀ t ∈ g1.tasks, t.id ≠ j := fun t ht =>
        hnot t (mem_append_left _ ht)
      have hnot2 : ∀ t ∈ g2.tasks, t.id ≠ j := fun t ht =>
        hnot t (mem_append_right _ ht)
      by_cases hj1 : n ≤ j ∧ j < g1.next
      · have hfin : S.Fin j g1.state := h1.fin j (by omega) hnot1
        exact hS.fin _ _ _ hfin (hkeep j hj1.1 hj1.2) h2.inv
      · exact h2.fin j (by omega) hnot2

/-! ## Every reachable system -/

/-- The invariant of the whole pool. -/
structure Spec.PoolOk (S : Spec M) (C : Cond M) (w : Sys M) : Prop where
  inv : S.Inv w.state
  lt : ∀ t ∈ w.tasks, t.id < w.next
  safe : ∀ t ∈ w.tasks, S.SafeSuspended C t w.state
  fin : ∀ i, (∀ t ∈ w.tasks, t.id ≠ i) → S.Fin i w.state

theorem Sys.mem_others : t ∈ w.others i ↔ t ∈ w.tasks ∧ t.id ≠ i := by
  simp [Sys.others]

theorem Spec.Sound.proceed (hS : S.Sound C) {n : Nat} {t : Task M} (hw : S.PoolOk C w) (hi : i < n)
    (hn : w.next ≤ n) (hsafe : S.Safe C i t w.state) (hstep : w.proceed C i t n = some w') :
    S.PoolOk C w' := by
  unfold Sys.proceed at hstep
  rw [Option.map_eq_some_iff] at hstep
  obtain ⟨g, hrun, rfl⟩ := hstep
  have hfresh : ∀ j, n ≤ j → S.Fin j w.state := fun j hj => hw.fin j fun t' ht => by
    have := hw.lt t' ht
    omega
  have hg := hS.segment t i n w.state g hi hw.inv hfresh hsafe hrun
  have hle : n ≤ g.next := hg.le
  refine ⟨hg.inv, ?_, ?_, ?_⟩
  · intro t' ht
    rcases mem_append.1 ht with ht | ht
    · have := hw.lt t' (Sys.mem_others.1 ht).1
      dsimp only
      omega
    · have := hg.ids t' ht
      dsimp only
      omega
  · intro t' ht
    rcases mem_append.1 ht with ht | ht
    · obtain ⟨hmem, hne⟩ := Sys.mem_others.1 ht
      have := hw.lt t' hmem
      exact (hw.safe t' hmem).mono hS (hg.rely t'.id (by omega) hne)
    · exact hg.safe t' ht
  · intro j hnot
    have hnot1 : ∀ t' ∈ g.tasks, t'.id ≠ j := fun t' ht => hnot t' (mem_append_right _ ht)
    by_cases hji : j = i
    · exact hg.fin j (.inl hji) hnot1
    by_cases hjn : j < n
    · have hfin : S.Fin j w.state := by
        refine hw.fin j fun t' ht hid => ?_
        exact hnot t' (mem_append_left _ (Sys.mem_others.2 ⟨ht, by omega⟩)) hid
      exact hS.fin _ _ _ hfin (hg.rely j (.inl hjn) hji) hg.inv
    · exact hg.fin j (.inr (by omega)) hnot1

theorem Spec.Sound.complete (hS : S.Sound C) {r : M.Reply} (hw : S.PoolOk C w) (ht : t ∈ w.tasks)
    (hstep : w.complete C t r = some w') : S.PoolOk C w' := by
  obtain ⟨s, o, hout, hperf, hc, rfl⟩ := Sys.complete_cases hstep
  have hsafe := hw.safe t ht
  unfold Spec.SafeSuspended at hsafe
  rw [hout] at hsafe
  obtain ⟨hpre, hk⟩ := hsafe w.state (hS.refl _ _) hw.inv
  obtain ⟨hinv, hrely⟩ := hS.call _ _ _ r s o hw.inv hpre hperf hc
  refine ⟨hinv, ?_, ?_, ?_⟩
  · intro t' ht'
    rcases mem_cons.1 ht' with rfl | ht'
    · exact hw.lt t ht
    · exact hw.lt t' (Sys.mem_others.1 ht').1
  · intro t' ht'
    rcases mem_cons.1 ht' with rfl | ht'
    · exact hk r s o hperf hc hinv
    · obtain ⟨hmem, hne⟩ := Sys.mem_others.1 ht'
      exact (hw.safe t' hmem).mono hS (hrely _ hne)
  · intro j hnot
    have hne : j ≠ t.id := fun h => hnot _ (mem_cons_self ..) h.symm
    refine hS.fin _ _ _ (hw.fin j fun t' ht' hid => ?_) (hrely j hne) hinv
    exact hnot t' (mem_cons_of_mem _ (Sys.mem_others.2 ⟨ht', by omega⟩)) hid

/-- One move of the event loop keeps the pool invariant. -/
theorem Spec.Sound.step (hS : S.Sound C)
    (hprog : ∀ c i s, S.Inv s → S.Fin i s → S.Safe C i (prog c) s) {m : Move M Cmd}
    (hw : S.PoolOk C w) (hstep : w.step C prog m = some w') : S.PoolOk C w' := by
  rcases Sys.step_cases hstep with ⟨c, -, hp⟩ | ⟨i, r, t, ht, -, -, hp⟩ |
    ⟨i, t, ht, o, -, rfl, hout, hp⟩
  · have hfin : S.Fin w.next w.state := hw.fin _ fun t ht => Nat.ne_of_lt (hw.lt t ht)
    exact hS.proceed hw (Nat.lt_succ_self _) (Nat.le_succ _) (hprog c _ _ hw.inv hfin) hp
  · exact hS.complete hw ht hp
  have hsafe := hw.safe t ht
  unfold Spec.SafeSuspended at hsafe
  rw [hout] at hsafe
  exact hS.proceed hw (hw.lt t ht) (Nat.le_refl _) (hsafe _ (hS.refl _ _) hw.inv) hp

/-- **The invariant rule.** If the obligations are sound and every top-level program meets them
    from every state of the invariant in which it owes nothing, then every reachable system
    satisfies the invariant, and every task that is not suspended owes nothing. -/
theorem Spec.Sound.reach (hS : S.Sound C) (hinit : ∀ s, init s → S.Inv s)
    (hfin : ∀ s i, init s → S.Fin i s)
    (hprog : ∀ c i s, S.Inv s → S.Fin i s → S.Safe C i (prog c) s) (h : Reach C prog init w) :
    S.PoolOk C w := by
  induction h with
  | idle s hs =>
    exact ⟨hinit s hs, by simp [Sys.idle], by simp [Sys.idle], fun i _ => hfin s i hs⟩
  | step m _ hstep ih => exact hS.step hprog ih hstep

/-! ## One outline, many invariants -/

/-- The obligations of `S`, with a further invariant. -/
def Spec.strengthen (S : Spec M) (J : M.State → Prop) : Spec M :=
  { S with Inv := fun s => S.Inv s ∧ J s }

theorem Spec.safe_strengthen (t : Task M) :
    ∀ (i : Nat) (s : M.State), S.Safe .any i t s → (S.strengthen J).Safe C i t s := by
  induction t with
  | done => exact fun i s h => h
  | read k ih => exact fun i s h => ih s i s h
  | op o k ih =>
    intro i s h _
    obtain ⟨hpre, hk⟩ := h rfl
    exact ⟨hpre, fun hs' => ih i _ (hk hs'.1)⟩
  | await c k ih =>
    intro i s h s1 hr1 hi1
    obtain ⟨hpre, hk⟩ := h s1 hr1 hi1.1
    refine ⟨hpre, fun r s2 o hp _ hi2 s3 hr3 hi3 => ih o i s3 ?_⟩
    exact hk r s2 o hp rfl hi2.1 s3 hr3 hi3.1
  | fork child k ihc ihk =>
    intro i s h
    exact ⟨fun c hc hf => ihc c s (h.1 c hc hf), fun s1 hr1 hi1 => ihk i s1 (h.2 s1 hr1 hi1.1)⟩

/-- **The transfer rule.** Once the programs are known to meet the obligations of an outline in all
    runs, a further invariant needs no look at them: it is enough that the operations and calls
    keep it, where the outline's obligations and the condition on the run may be used. -/
theorem Spec.Sound.transfer (hS : S.Sound Cond.any) (hinit : ∀ s, init s → S.Inv s ∧ J s)
    (hfin : ∀ s i, init s → S.Fin i s)
    (hprog : ∀ c i s, S.Inv s → S.Fin i s → S.Safe Cond.any i (prog c) s)
    (hop : ∀ i s o, S.Inv s → J s → C.op i s o = true → S.OpPre i s o → J (M.apply i o s))
    (hcall : ∀ i s c r s' o, S.Inv s → J s → S.CallPre i s c → M.perform i c r s = some (s', o) →
      C.call i s c o = true → J s') (h : Reach C prog init w) :
    (S.strengthen J).PoolOk C w := by
  have hS' : (S.strengthen J).Sound C := by
    refine ⟨hS.refl, hS.trans, ?_, ?_, fun i s s' hf hr hi => hS.fin i s s' hf hr hi.1⟩
    · intro i s o hi hc hpre
      obtain ⟨hi', hr⟩ := hS.op i s o hi.1 rfl hpre
      exact ⟨⟨hi', hop i s o hi.1 hi.2 hc hpre⟩, hr⟩
    · intro i s c r s' o hi hpre hp hc
      obtain ⟨hi', hr⟩ := hS.call i s c r s' o hi.1 hpre hp rfl
      exact ⟨⟨hi', hcall i s c r s' o hi.1 hi.2 hpre hp hc⟩, hr⟩
  exact hS'.reach hinit hfin (fun c i s hi hf => safe_strengthen _ i s (hprog c i s hi.1 hf)) h

/-- Fewer obligations at the calls. -/
theorem Spec.Safe.weaken {P : Nat → M.State → M.Call → Prop}
    (hP : ∀ i s c, S.CallPre i s c → P i s c) {t : Task M} : ∀ {i : Nat} {s : M.State},
    S.Safe C i t s → { S with CallPre := P }.Safe C i t s := by
  induction t with
  | done =>
    intro i s h
    exact h
  | read k ih =>
    intro i s h
    exact ih s h
  | op o k ih =>
    intro i s h hc
    obtain ⟨hpre, hk⟩ := h hc
    exact ⟨hpre, fun hi => ih (hk hi)⟩
  | await c k ih =>
    intro i s h s1 hr1 hi1
    obtain ⟨hpre, hk⟩ := h s1 hr1 hi1
    refine ⟨hP _ _ _ hpre, ?_⟩
    intro r s2 o hp hc hi2 s3 hr3 hi3
    exact ih o (hk r s2 o hp hc hi2 s3 hr3 hi3)
  | fork child k ihc ihk =>
    intro i s h
    constructor
    · intro c hc hf
      exact ihc (h.1 c hc hf)
    · intro s1 hr1 hi1
      exact ihk (h.2 s1 hr1 hi1)

/-! ## Invariants of the operations alone -/

/-- No obligations beyond keeping `I`. -/
def Spec.plain (I : M.State → Prop) : Spec M where
  Inv := I
  Rely _ _ _ := True
  OpPre _ _ _ := True
  CallPre _ _ _ := True
  Fin _ _ := True

theorem Spec.safe_plain (t : Task M) : ∀ (i : Nat) (s : M.State), (Spec.plain I).Safe C i t s := by
  induction t with
  | done => exact fun _ _ => trivial
  | read k ih => exact fun i s => ih s i s
  | op o k ih => exact fun i s _ => ⟨trivial, fun _ => ih i _⟩
  | await c k ih => exact fun i s _ _ _ => ⟨trivial, fun _ _ o _ _ _ s3 _ _ => ih o i s3⟩
  | fork child k ihc ihk => exact fun i s => ⟨fun c _ _ => ihc c s, fun s1 _ _ => ihk i s1⟩

/-- What every operation and every performed call keeps, whatever the programs do with them, holds
    in every reachable system. -/
theorem Reach.invariant (hinit : ∀ s, init s → I s)
    (hop : ∀ i s o, I s → C.op i s o = true → I (M.apply i o s))
    (hcall : ∀ i s c r s' o, I s → M.perform i c r s = some (s', o) → C.call i s c o = true → I s')
    (h : Reach C prog init w) : I w.state := by
  have hS : (Spec.plain I).Sound C :=
    { refl := fun _ _ => trivial
      trans := fun _ _ _ _ _ _ => trivial
      op := fun i s o hi hc _ => ⟨hop i s o hi hc, fun _ _ => trivial⟩
      call := fun i s c r s' o hi _ hp hc => ⟨hcall i s c r s' o hi hp hc, fun _ _ => trivial⟩
      fin := fun _ _ _ _ _ _ => trivial }
  have hpool := hS.reach hinit (fun _ _ _ => trivial) (fun c i s _ _ => Spec.safe_plain (prog c) i s) h
  exact hpool.inv

end EventLoop
