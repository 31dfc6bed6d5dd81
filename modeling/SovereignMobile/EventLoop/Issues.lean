import SovereignMobile.EventLoop.Since

/-! # What holds when a call is issued

While a program waits, what may become of the shared state depends on what it waits for: the turn
between an awaited function and its caller is short, the answer of a server may take minutes. An
`Outlook` says for each call what may happen while a program waits for it, and what has to hold of the
state in which the call is issued. The state may also change by itself (`World`), as with a clock. -/

namespace EventLoop

open List Option

variable {M : Machine} {Cmd α β ε : Type}

/-! ## Runs in a changing world -/

/-- `drift` is what becomes of the state by itself. `allows` is a condition on what the outside world
    does, by performing a call or by drifting: the system before, and the state after. -/
structure World (M : Machine) (ε : Type) where
  drift : ε → M.State → M.State
  allows : Sys M → M.State → Bool

inductive Turn (M : Machine) (Cmd ε : Type) where
  | move (m : Move M Cmd)
  | drift (x : ε)

def Sys.turn (C : Cond M) (W : World M ε) (prog : Cmd → Task M) (w : Sys M) :
    Turn M Cmd ε → Option (Sys M)
  | .move (.perform i r) =>
    (w.step C prog (.perform i r)).bind fun w' => if W.allows w w'.state then some w' else none
  | .move m => w.step C prog m
  | .drift x =>
    if W.allows w (W.drift x w.state) then some { w with state := W.drift x w.state } else none

def Sys.turns (C : Cond M) (W : World M ε) (prog : Cmd → Task M) :
    Sys M → List (Turn M Cmd ε) → Option (Sys M)
  | w, [] => some w
  | w, x :: xs => (w.turn C W prog x).bind fun w' => w'.turns C W prog xs

inductive ReachAmid (C : Cond M) (W : World M ε) (prog : Cmd → Task M) (init : M.State → Prop) :
    Sys M → Prop
  | idle (s : M.State) : init s → ReachAmid C W prog init (Sys.idle s)
  | turn {w w' : Sys M} (x : Turn M Cmd ε) :
      ReachAmid C W prog init w → w.turn C W prog x = some w' → ReachAmid C W prog init w'

theorem ReachAmid.turns {C : Cond M} {W : World M ε} {prog : Cmd → Task M} {init : M.State → Prop}
    {w w' : Sys M} (h : ReachAmid C W prog init w) (xs : List (Turn M Cmd ε))
    (hrun : w.turns C W prog xs = some w') : ReachAmid C W prog init w' := by
  induction xs generalizing w with
  | nil =>
    simp only [Sys.turns, some.injEq] at hrun
    exact hrun ▸ h
  | cons x xs ih =>
    obtain ⟨w1, hturn, hrest⟩ := bind_eq_some_iff.1 hrun
    exact ih (h.turn x hturn) hrest

/-- The calls that a segment issues, each with the state in which it does. -/
def Task.issues (i : Nat) : Task M → M.State → Nat → List (M.State × M.Call)
  | .done, _, _ => []
  | .read k, s, n => (k s).issues i s n
  | .op o k, s, n => k.issues i (M.apply i o s) n
  | .await c _, s, _ => [(s, c)]
  | .fork child k, s, n =>
    child.issues n s (n + 1) ++
      match child.run Cond.any n s (n + 1) with
      | none => []
      | some g => k.issues i g.state g.next

def Sys.issues (prog : Cmd → Task M) (w : Sys M) : Turn M Cmd ε → List (M.State × M.Call)
  | .move (.start c) => (prog c).issues w.next w.state (w.next + 1)
  | .move (.resume i) =>
    match w.tasks.find? fun t => t.id = i with
    | none => []
    | some t =>
      match t.out with
      | none => []
      | some o => (t.cont o).issues i w.state w.next
  | _ => []

/-! ## Outlooks -/

/-- `Rely c` is what may happen while a program waits for `c`, `Issue s c` what has to hold when `c` is
    issued in `s`. -/
structure Outlook (M : Machine) where
  Rely : M.Call → M.State → M.State → Prop
  Issue : M.State → M.Call → Prop

/-- Nothing that a program does itself is more than the others may rely on. -/
structure Outlook.Sound (O : Outlook M) (C : Cond M) : Prop where
  refl : ∀ c s, O.Rely c s s
  trans : ∀ c s₁ s₂ s₃, O.Rely c s₁ s₂ → O.Rely c s₂ s₃ → O.Rely c s₁ s₃
  op : ∀ c i s o, C.op i s o = true → O.Rely c s (M.apply i o s)

/-- Task `i`, about to run, will issue its calls in the right states. Nothing is known of the state that
    a forked program leaves. -/
def Outlook.Good (O : Outlook M) (C : Cond M) : Nat → Task M → M.State → Prop
  | _, .done, _ => True
  | i, .read k, s => O.Good C i (k s) s
  | i, .op o k, s => C.op i s o = true → O.Good C i k (M.apply i o s)
  | _, .await c k, s => O.Issue s c ∧ ∀ i r s', O.Rely c s s' → O.Good C i (k r) s'
  | _, .fork child k, s => (∀ i, O.Good C i child s) ∧ ∀ i s', O.Good C i k s'

/-- Whatever the call of the suspended task answers. -/
def Outlook.GoodSuspended (O : Outlook M) (C : Cond M) (t : Suspended M) (s : M.State) : Prop :=
  ∀ i r s', O.Rely t.call s s' → O.Good C i (t.cont r) s'

section Steps
variable {O : Outlook M} {C : Cond M}

theorem Outlook.GoodSuspended.mono (hO : O.Sound C) {t : Suspended M} {s s' : M.State}
    (h : O.GoodSuspended C t s) (hr : O.Rely t.call s s') : O.GoodSuspended C t s' :=
  fun i r s1 hr1 => h i r s1 (hO.trans _ _ _ _ hr hr1)

/-- A run that meets a condition is a run. -/
theorem Task.run_any (t : Task M) : ∀ (i n : Nat) (s : M.State) (g : Segment M),
    t.run C i s n = some g → t.run .any i s n = some g := by
  induction t with
  | done | await c k ih => exact fun _ _ _ _ h => h
  | read k ih => exact fun i n s g h => ih s i n s g h
  | op o k ih =>
    intro i n s g h
    obtain ⟨-, h⟩ := Task.run_op h
    exact ih i n _ g h
  | fork child k ihc ihk =>
    intro i n s g h
    obtain ⟨g1, g2, hrun1, hrun2, hg⟩ := Task.run_fork h
    rw [Task.run, ihc _ _ _ _ hrun1]
    dsimp only
    rw [ihk _ _ _ _ hrun2, hg]

theorem Outlook.Sound.segment (hO : O.Sound C) (t : Task M) :
    ∀ (i n : Nat) (s : M.State) (g : Segment M), O.Good C i t s → t.run C i s n = some g →
      (∀ c, O.Rely c s g.state) ∧ (∀ x ∈ t.issues i s n, O.Issue x.1 x.2) ∧
        ∀ t' ∈ g.tasks, O.GoodSuspended C t' g.state := by
  induction t with
  | done =>
    intro i n s g _ hrun
    cases hrun
    refine ⟨fun c => hO.refl c s, fun x hx => absurd hx (by simp [Task.issues]), ?_⟩
    exact fun t' ht' => nomatch ht'
  | read k ih => exact fun i n s g h hrun => ih s i n s g h hrun
  | op o k ih =>
    intro i n s g h hrun
    obtain ⟨hc, hrun⟩ := Task.run_op hrun
    obtain ⟨hrely, hissues, htasks⟩ := ih i n _ g (h hc) hrun
    exact ⟨fun c => hO.trans _ _ _ _ (hO.op c i s o hc) (hrely c), hissues, htasks⟩
  | await c k ih =>
    intro i n s g h hrun
    cases hrun
    refine ⟨fun c => hO.refl c s, fun x hx => ?_, fun t' ht' => ?_⟩
    · rw [mem_singleton.1 hx]
      exact h.1
    · rw [mem_singleton.1 ht']
      exact h.2
  | fork child k ihc ihk =>
    intro i n s g h hrun
    obtain ⟨g1, g2, hrun1, hrun2, rfl⟩ := Task.run_fork hrun
    obtain ⟨hrely1, hissues1, htasks1⟩ := ihc _ _ _ g1 (h.1 n) hrun1
    obtain ⟨hrely2, hissues2, htasks2⟩ := ihk _ _ _ g2 (h.2 i g1.state) hrun2
    refine ⟨fun c => hO.trans _ _ _ _ (hrely1 c) (hrely2 c), fun x hx => ?_, fun t' ht' => ?_⟩
    · rw [Task.issues, Task.run_any child _ _ _ _ hrun1] at hx
      rcases mem_append.1 hx with hx | hx
      · exact hissues1 x hx
      · exact hissues2 x hx
    · rcases mem_append.1 ht' with ht' | ht'
      · exact (htasks1 t' ht').mono hO (hrely2 t'.call)
      · exact htasks2 t' ht'

variable {W : World M ε} {prog : Cmd → Task M} {w w' : Sys M}

theorem Outlook.Sound.proceed (hO : O.Sound C) {i n : Nat} {t : Task M}
    (hw : ∀ t ∈ w.tasks, O.GoodSuspended C t w.state) (ht : O.Good C i t w.state)
    (hstep : w.proceed C i t n = some w') :
    (∀ x ∈ t.issues i w.state n, O.Issue x.1 x.2) ∧
      ∀ t ∈ w'.tasks, O.GoodSuspended C t w'.state := by
  obtain ⟨g, hrun, rfl⟩ := map_eq_some_iff.1 hstep
  obtain ⟨hrely, hissues, htasks⟩ := hO.segment t i n w.state g ht hrun
  refine ⟨hissues, fun t' ht' => ?_⟩
  rcases mem_append.1 ht' with ht' | ht'
  · exact (hw t' (mem_filter.1 ht').1).mono hO (hrely t'.call)
  · exact htasks t' ht'

/-- What the outside world does stays within what everyone who waits relies on. -/
def Outlook.Respected (O : Outlook M) (W : World M ε) : Prop :=
  ∀ (w : Sys M) (s : M.State), W.allows w s = true → ∀ t ∈ w.tasks, O.Rely t.call w.state s

variable {x : Turn M Cmd ε}

/-- One turn keeps the suspended tasks good, and the calls it issues are issued in the right states. -/
theorem Outlook.Sound.turn (hO : O.Sound C) (hW : O.Respected W)
    (hprog : ∀ c i s, O.Good C i (prog c) s) (hw : ∀ t ∈ w.tasks, O.GoodSuspended C t w.state)
    (hturn : w.turn C W prog x = some w') :
    (∀ y ∈ w.issues prog x, O.Issue y.1 y.2) ∧ ∀ t ∈ w'.tasks, O.GoodSuspended C t w'.state := by
  rcases x with m | x
  · rcases m with c | ⟨i, r⟩ | i
    · exact hO.proceed hw (hprog c _ _) hturn
    · refine ⟨fun y hy => absurd hy (by simp [Sys.issues]), ?_⟩
      obtain ⟨w1, hstep, hallow⟩ := bind_eq_some_iff.1 hturn
      split at hallow
      · rename_i hallows
        cases hallow
        have hrely := hW _ _ hallows
        rcases Sys.step_cases hstep with ⟨c, hm, -⟩ | ⟨i', r', t, ht, -, -, hcomplete⟩ |
          ⟨i', t, ht, o, hm, -⟩
        · simp at hm
        · obtain ⟨s, o, -, -, -, rfl⟩ := Sys.complete_cases hcomplete
          intro t' ht'
          rcases mem_cons.1 ht' with rfl | ht'
          · exact (hw t ht).mono hO (hrely t ht)
          · have hmem := (mem_filter.1 ht').1
            exact (hw t' hmem).mono hO (hrely t' hmem)
        · simp at hm
      · simp at hallow
    · have hstep : w.step C prog (.resume i) = some w' := hturn
      rw [Sys.step] at hstep
      split at hstep
      · simp at hstep
      rename_i t hfind
      split at hstep
      · simp at hstep
      rename_i o hout
      have ht := hw t (mem_of_find?_eq_some hfind)
      have hgood := ht i o w.state (hO.refl _ _)
      rw [Sys.issues, hfind]
      dsimp only
      rw [hout]
      exact hO.proceed hw hgood hstep
  · refine ⟨fun y hy => absurd hy (by simp [Sys.issues]), ?_⟩
    rw [Sys.turn] at hturn
    split at hturn
    · rename_i hallows
      cases hturn
      exact fun t ht => (hw t ht).mono hO (hW _ _ hallows t ht)
    · simp at hturn

/-- **The rule.** In every run, each call is issued in a state that it may be issued in. -/
theorem Outlook.Sound.issues (hO : O.Sound C) (hW : O.Respected W)
    (hprog : ∀ c i s, O.Good C i (prog c) s) {init : M.State → Prop} (h : ReachAmid C W prog init w)
    (hturn : w.turn C W prog x = some w') :
    ∀ y ∈ w.issues prog x, O.Issue y.1 y.2 := by
  have hgood : ∀ t ∈ w.tasks, O.GoodSuspended C t w.state := by
    clear hturn
    induction h with
    | idle s _ => exact fun t ht => absurd ht (by simp [Sys.idle])
    | turn x _ hx ih => exact (hO.turn hW hprog ih hx).2
  exact (hO.turn hW hprog hgood hturn).1

end Steps

/-! ## Fragments -/

section Fragments
variable {O : Outlook M} {C : Cond M} {i : Nat} {s : M.State}

/-- Task `i` is good while it runs `m` from `s`, and whatever is good after `Q` is good after it. -/
def Outlook.Wp (O : Outlook M) (C : Cond M) (m : Async M α) (Q : Except M.Err α → M.State → Prop)
    (s : M.State) : Prop :=
  ∀ k : Except M.Err α → Task M,
    (∀ i r s', Q r s' → O.Good C i (k r) s') → ∀ i, O.Good C i (m.run k) s

namespace Outlook.Wp

variable {m : Async M α} {Q R : Except M.Err α → M.State → Prop}

theorem mono {Q' : Except M.Err α → M.State → Prop} (h : O.Wp C m Q s)
    (hQ : ∀ r s', Q r s' → Q' r s') : O.Wp C m Q' s :=
  fun k hk => h k fun i r s' hq => hk i r s' (hQ r s' hq)

theorem pure {a : α} (h : Q (.ok a) s) : O.Wp C (Pure.pure a) Q s := fun _ hk i => hk i _ s h

theorem throw {e : M.Err} (h : Q (.error e) s) :
    O.Wp C (Async.throw e) Q s := fun _ hk i => hk i _ s h

theorem settle {f : Except M.Err α → Async M β} {Q : Except M.Err β → M.State → Prop}
    (hm : O.Wp C m R s) (hf : ∀ r s', R r s' → O.Wp C (f r) Q s') :
    O.Wp C (Async.settle m f) Q s :=
  fun k hk => hm _ fun i r s' hq => hf r s' hq k hk i

theorem bind {f : α → Async M β} {Q : Except M.Err β → M.State → Prop} (hm : O.Wp C m R s)
    (hf : ∀ a s', R (.ok a) s' → O.Wp C (f a) Q s')
    (he : ∀ e s', R (.error e) s' → Q (.error e) s') : O.Wp C (m >>= f) Q s := by
  intro k hk
  refine hm _ fun i r s' hq => ?_
  cases r with
  | ok a => exact hf a s' hq k hk i
  | error e => exact hk i _ s' (he e s' hq)

theorem tryCatch {f : M.Err → Async M α} (hm : O.Wp C m R s)
    (hok : ∀ a s', R (.ok a) s' → Q (.ok a) s')
    (hf : ∀ e s', R (.error e) s' → O.Wp C (f e) Q s') :
    O.Wp C (Async.tryCatch m f) Q s := by
  intro k hk
  refine hm _ fun i r s' hq => ?_
  cases r with
  | ok a => exact hk i _ s' (hok a s' hq)
  | error e => exact hf e s' hq k hk i

theorem getThen {f : M.State → Async M β} {Q : Except M.Err β → M.State → Prop}
    (h : O.Wp C (f s) Q s) : O.Wp C (Async.get >>= f) Q s :=
  fun k hk i => h k hk i

theorem op {o : M.Op} {Q : Except M.Err Unit → M.State → Prop}
    (h : ∀ i, C.op i s o = true → Q (.ok ()) (M.apply i o s)) : O.Wp C (Async.op o) Q s :=
  fun _ hk i hc => hk i _ _ (h i hc)

theorem await {c : M.Call} {Q : Except M.Err (M.Ret c) → M.State → Prop} (hc : O.Issue s c)
    (h : ∀ r s', O.Rely c s s' → Q r s') : O.Wp C (Async.await c) Q s :=
  fun _ hk _ => ⟨hc, fun i r s' hr => hk i r s' (h r s' hr)⟩

theorem toTask (h : O.Wp C m Q s) (i : Nat) :
    O.Good C i m.toTask s := h (fun _ => .done) (fun _ _ _ _ => trivial) i

end Outlook.Wp

end Fragments

end EventLoop
