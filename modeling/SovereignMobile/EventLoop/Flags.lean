import SovereignMobile.EventLoop.Sequential
import SovereignMobile.EventLoop.Since

/-! # A flag that programs raise and lower

Programs that share one flag, which each of them raises before it first waits and lowers as the last
thing it does. The flag is up exactly while one of them is suspended if none of them ends while another
one is (`Flag.shows_iff`): whoever ends lowers it for all. -/

namespace EventLoop

variable {M : Machine} {Cmd α β : Type}

/-- The flag, and the operations that leave it alone. -/
structure Flag (M : Machine) where
  up : M.State → Bool
  raise : M.Op
  lower : M.Op
  Steady : M.Op → Prop
  up_raise : ∀ i s, up (M.apply i raise s) = true
  up_lower : ∀ i s, up (M.apply i lower s) = false
  up_steady : ∀ i s o, Steady o → up (M.apply i o s) = up s
  up_perform : ∀ i s c r s' o, M.perform i c r s = some (s', o) → up s' = up s

namespace Flag

/-- Leaves the flag alone up to its end, where it lowers it. -/
inductive Lowers (F : Flag M) : Task M → Prop
  | last : F.Lowers (.op F.lower .done)
  | read {k : M.State → Task M} : (∀ s, F.Lowers (k s)) → F.Lowers (.read k)
  | op {o : M.Op} {k : Task M} : F.Steady o → F.Lowers k → F.Lowers (.op o k)
  | await {c : M.Call} {k : Except M.Err (M.Ret c) → Task M} :
      (∀ r, F.Lowers (k r)) → F.Lowers (.await c k)

/-- Started in this state by task `i`, it raises the flag before it waits, and lowers it at its end; or it
    goes through without touching it. -/
def Starts (F : Flag M) (raises : Bool) (i : Nat) : Task M → M.State → Prop
  | .done, _ => raises = false
  | .read k, s => F.Starts raises i (k s) s
  | .op o k, s =>
    (F.Steady o ∧ F.Starts raises i k (M.apply i o s)) ∨ (o = F.raise ∧ raises = true ∧ F.Lowers k)
  | .await _ _, _ => False
  | .fork _ _, _ => False

/-- A fragment that leaves the flag alone, whatever follows it. -/
def Quiet (F : Flag M) (m : Async M α) : Prop :=
  ∀ k : Except M.Err α → Task M, (∀ r, F.Lowers (k r)) → F.Lowers (m.run k)

namespace Quiet

variable {F : Flag M}

theorem pure (a : α) : F.Quiet (Pure.pure a : Async M α) := fun _ hk => hk _

theorem throw (e : M.Err) : F.Quiet (Async.throw e : Async M α) := fun _ hk => hk _

variable {m : Async M α}

theorem settle {f : Except M.Err α → Async M β} (hm : F.Quiet m) (hf : ∀ r, F.Quiet (f r)) :
    F.Quiet (Async.settle m f) :=
  fun k hk => hm _ fun r => hf r k hk

theorem bind {f : α → Async M β} (hm : F.Quiet m) (hf : ∀ a, F.Quiet (f a)) :
    F.Quiet (m >>= f) := by
  intro k hk
  refine hm _ fun r => ?_
  cases r with
  | ok a => exact hf a k hk
  | error e => exact hk _

theorem tryCatch {f : M.Err → Async M α} (hm : F.Quiet m) (hf : ∀ e, F.Quiet (f e)) :
    F.Quiet (Async.tryCatch m f) := by
  intro k hk
  refine hm _ fun r => ?_
  cases r with
  | ok a => exact hk _
  | error e => exact hf e k hk

theorem getThen {f : M.State → Async M β} (hf : ∀ s, F.Quiet (f s)) : F.Quiet (Async.get >>= f) :=
  fun k hk => .read fun s => hf s k hk

theorem op {o : M.Op} (h : F.Steady o) : F.Quiet (Async.op o) := fun _ hk => .op h (hk _)

theorem await (c : M.Call) : F.Quiet (Async.await c) := fun _ hk => .await hk

end Quiet

/-! ## Segments -/

section Segments
variable {F : Flag M} {i n : Nat} {s : M.State} {g : Segment M}

/-- What a segment of a program leaves behind that has raised the flag: the program is over and the flag
    is down, or it waits and will lower the flag. -/
inductive Went (F : Flag M) (i n : Nat) (before : Bool) : Segment M → Prop
  | ended {s : M.State} : F.up s = false → Went F i n before ⟨s, n, []⟩
  | waits {s : M.State} {c : M.Call} {k : Except M.Err (M.Ret c) → Task M} :
      F.up s = before → (∀ r, F.Lowers (k r)) → Went F i n before ⟨s, n, [⟨i, c, k, none⟩]⟩

variable {t : Task M}

theorem Lowers.went (h : F.Lowers t) :
    ∀ {s g}, t.run Cond.any i s n = some g → F.Went i n (F.up s) g := by
  induction h with
  | last =>
    intro s g hrun
    cases hrun
    exact .ended (F.up_lower i s)
  | read _ ih => exact fun hrun => ih _ hrun
  | op ho _ ih =>
    intro s g hrun
    rw [← F.up_steady i s _ ho]
    exact ih hrun
  | await hk =>
    intro s g hrun
    cases hrun
    exact .waits rfl hk

theorem Starts.went (h : F.Starts true i t s) (hrun : t.run Cond.any i s n = some g) :
    F.Went i n true g := by
  induction t generalizing s with
  | done => simp [Starts] at h
  | read k ih => exact ih s h hrun
  | op o k ih =>
    rcases h with ⟨_, h⟩ | ⟨rfl, -, h⟩
    · exact ih h hrun
    · exact F.up_raise i s ▸ h.went hrun
  | await | fork => exact h.elim

theorem Starts.passed (h : F.Starts false i t s) (hrun : t.run Cond.any i s n = some g) :
    F.up g.state = F.up s ∧ g.next = n ∧ g.tasks = [] := by
  induction t generalizing s with
  | done =>
    cases hrun
    exact ⟨rfl, rfl, rfl⟩
  | read k ih => exact ih s h hrun
  | op o k ih =>
    rcases h with ⟨ho, h⟩ | ⟨_, h, _⟩
    · rw [← F.up_steady i s o ho]
      exact ih h hrun
    · simp at h
  | await | fork => exact h.elim

end Segments

/-! ## The pool -/

/-- The flag is up exactly while a program is suspended. -/
def Shows (F : Flag M) (w : Sys M) : Prop := F.up w.state = true ↔ w.tasks ≠ []

/-- The program that a move runs, if it raises the flag or has raised it. -/
def ranBy (raises : Cmd → M.State → Bool) (w : Sys M) : Move M Cmd → Option Nat
  | .start c => if raises c w.state then some w.next else none
  | .perform _ _ => none
  | .resume i => some i

/-- A program that the move runs to its end is the only one in progress. -/
def settlesAlone (raises : Cmd → M.State → Bool) (prog : Cmd → Task M) (w : Sys M) (m : Move M Cmd) :
    Bool :=
  match ranBy raises w m, w.step Cond.any prog m with
  | some i, some w' => w'.tasks.any (fun t => t.id = i) || (w.others i).isEmpty
  | _, _ => true

/-- A move; one that is impossible changes nothing. -/
def move (prog : Cmd → Task M) (w : Sys M) (m : Move M Cmd) : Sys M :=
  (w.step Cond.any prog m).getD w

/-- Whoever is suspended has raised the flag, and will lower it. -/
structure Pool (F : Flag M) (w : Sys M) : Prop where
  lt : ∀ t ∈ w.tasks, t.id < w.next
  lowers : ∀ t ∈ w.tasks, ∀ r, F.Lowers (t.cont r)

section Steps
variable {F : Flag M} {w : Sys M} {i n : Nat} {t : Task M}

variable {g : Segment M}

theorem Pool.proceeds (hw : F.Pool w) (hi : i < n) (hn : w.next ≤ n) {b : Bool}
    (hg : F.Went i n b g) : F.Pool ⟨g.state, w.others i ++ g.tasks, g.next⟩ := by
  have hothers : ∀ t ∈ w.others i, t.id < n ∧ ∀ r, F.Lowers (t.cont r) := by
    intro t ht
    have hmem := (Sys.mem_others.1 ht).1
    exact ⟨Nat.lt_of_lt_of_le (hw.lt t hmem) hn, hw.lowers t hmem⟩
  cases hg with
  | ended _ =>
    simp only [List.append_nil]
    exact ⟨fun t ht => (hothers t ht).1, fun t ht => (hothers t ht).2⟩
  | waits _ hk =>
    refine ⟨fun t ht => ?_, fun t ht => ?_⟩
    · rcases List.mem_append.1 ht with ht | ht
      · exact (hothers t ht).1
      · rw [List.mem_singleton.1 ht]
        exact hi
    · rcases List.mem_append.1 ht with ht | ht
      · exact (hothers t ht).2
      · rw [List.mem_singleton.1 ht]
        exact hk

theorem any_others (ts : List (Suspended M)) :
    (w.others i ++ ts).any (fun t => t.id = i) = ts.any fun t => t.id = i := by
  have hnone : (w.others i).any (fun t => t.id = i) = false := by
    rw [List.any_eq_false]
    intro t ht
    simpa using (Sys.mem_others.1 ht).2
  rw [List.any_append, hnone, Bool.false_or]

/-- After a program that has raised the flag ran, the flag shows what is in progress if the program still
    is, or if nothing else is. -/
theorem Went.shows_iff (hg : F.Went i n true g) : F.Shows ⟨g.state, w.others i ++ g.tasks, g.next⟩ ↔
      ((w.others i ++ g.tasks).any (fun t => t.id = i) || (w.others i).isEmpty) = true := by
  rw [any_others]
  cases hg with
  | ended hup =>
    simp only [Shows, hup, Bool.false_or]
    simp
  | waits hup _ => simp [Shows, hup]

end Steps

variable {F : Flag M} {raises : Cmd → M.State → Bool} {prog : Cmd → Task M}

/-- A program that starts as it should. -/
def StartsWell (F : Flag M) (raises : Cmd → M.State → Bool) (prog : Cmd → Task M) (w : Sys M) :
    Move M Cmd → Prop
  | .start c => F.Starts (raises c w.state) w.next (prog c) w.state
  | _ => True

variable {w : Sys M}

/-- What one move does to the pool and the flag. -/
theorem Pool.step {w' : Sys M} {m : Move M Cmd} (hw : F.Pool w) (hs : F.Shows w)
    (hm : F.StartsWell raises prog w m) (h : w.step Cond.any prog m = some w') :
    F.Pool w' ∧ (F.Shows w' ↔ settlesAlone raises prog w m = true) := by
  unfold settlesAlone
  rw [h]
  rcases Sys.step_cases h with ⟨c, rfl, hp⟩ | ⟨i, r, t, ht, rfl, rfl, hp⟩ |
    ⟨i, t, ht, o, rfl, rfl, _, hp⟩
  · -- a program is started
    obtain ⟨g, hrun, rfl⟩ := Option.map_eq_some_iff.1 hp
    have hstart : F.Starts (raises c w.state) w.next (prog c) w.state := hm
    simp only [ranBy]
    cases hraises : raises c w.state with
    | true =>
      rw [hraises] at hstart
      have hg := hstart.went hrun
      exact ⟨hw.proceeds (Nat.lt_succ_self _) (Nat.le_succ _) hg, hg.shows_iff⟩
    | false =>
      rw [hraises] at hstart
      obtain ⟨hup, hnext, htasks⟩ := hstart.passed hrun
      have hothers : w.others w.next = w.tasks := by
        rw [Sys.others, List.filter_eq_self]
        intro t ht
        simpa using Nat.ne_of_lt (hw.lt t ht)
      rw [htasks, List.append_nil, hothers, hnext]
      refine ⟨⟨fun t ht => Nat.lt_succ_of_lt (hw.lt t ht), hw.lowers⟩, ?_⟩
      simpa [Shows, hup] using hs
  · -- a call is performed, and its program stays suspended
    obtain ⟨s, o, _, hperf, _, rfl⟩ := Sys.complete_cases hp
    have hup := F.up_perform _ _ _ _ _ _ hperf
    refine ⟨⟨fun t' ht' => ?_, fun t' ht' => ?_⟩, ?_⟩
    · rcases List.mem_cons.1 ht' with rfl | ht'
      · exact hw.lt t ht
      · exact hw.lt t' (Sys.mem_others.1 ht').1
    · rcases List.mem_cons.1 ht' with rfl | ht'
      · exact hw.lowers t ht
      · exact hw.lowers t' (Sys.mem_others.1 ht').1
    · have hraised : F.up w.state = true := hs.2 (List.ne_nil_of_mem ht)
      simp [Shows, ranBy, hup, hraised]
  · -- a program goes on
    obtain ⟨g, hrun, rfl⟩ := Option.map_eq_some_iff.1 hp
    have hraised : F.up w.state = true := hs.2 (List.ne_nil_of_mem ht)
    have hg := (hw.lowers t ht o).went hrun
    rw [hraised] at hg
    exact ⟨hw.proceeds (hw.lt t ht) (Nat.le_refl _) hg, hg.shows_iff⟩

/-- In a run of programs that raise and lower the flag as they should, it shows throughout whether one of
    them is in progress exactly if none of them ends while another one is in progress. -/
theorem shows_iff (hw : F.Pool w) (hs : F.Shows w) (ms : List (Move M Cmd))
    (hms : StepsMeet (move prog) (F.StartsWell raises prog) w ms) :
    HoldsThroughout (move prog) F.Shows w ms ↔
      StepsMeet (move prog) (fun w m => settlesAlone raises prog w m = true) w ms := by
  have hstep : ∀ w m, F.Pool w → F.Shows w → F.StartsWell raises prog w m →
      F.Pool (move prog w m) ∧ (F.Shows (move prog w m) ↔ settlesAlone raises prog w m = true) := by
    intro w m hw hs hm
    unfold move
    cases h : w.step Cond.any prog m with
    | some w' => exact hw.step hs hm h
    | none =>
      have hall : settlesAlone raises prog w m = true := by
        unfold settlesAlone
        rw [h]
        split
        · rename_i heq
          simp at heq
        · rfl
      exact ⟨hw, iff_of_true hs hall⟩
  exact holdsThroughout_iff_of (fun w m hw hs hm => (hstep w m hw hs hm).1)
    (fun w m hw hs hm => (hstep w m hw hs hm).2) ms w hw hs hms

end Flag

end EventLoop
