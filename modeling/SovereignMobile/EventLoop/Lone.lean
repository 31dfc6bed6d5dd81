import SovereignMobile.EventLoop.Histories

/-! # One program at a time

Where no program is started while another one is in progress, nothing but the program itself and the calls
it waits for changes the part of the state that it works on. A `View` is such a part, with what is counted
of the acts; `View.Safe` follows the program from one value of the view to the next, across its waits. -/

namespace EventLoop

open List Option

variable {M : Machine} {V α β Cmd : Type}

theorem Async.acts_getThen (f : M.State → Async M α) (k : Except M.Err α → Task M) (i n : Nat)
    (s : M.State) : ((Async.get >>= f).run k).acts i s n = ((f s).run k).acts i s n := rfl

/-- `Shows v s` where `v` is the view of the state `s`. A program that is over leaves a view that `Rests`,
    one that waits leaves one that `Waits`. -/
structure View (M : Machine) (V : Type) where
  Shows : V → M.State → Prop
  op : M.Op → V → V
  issue : M.Call → V → V
  OpPre : M.Op → V → Prop
  CallPre : M.Call → V → Prop
  Rests : V → Prop
  Waits : V → Prop
  shows_op : ∀ i o v s, Shows v s → Shows (op o v) (M.apply i o s)
  shows_issue : ∀ c v s, Shows v s → Shows (issue c v) s
  shows_perform : ∀ i c r v s s' out, Shows v s → M.perform i c r s = some (s', out) → Shows v s'

namespace View

/-- The view after some acts. -/
def after (S : View M V) : V → List (Act M) → V
  | v, [] => v
  | v, .op _ _ o :: h => S.after (S.op o v) h
  | v, .issue _ _ c :: h => S.after (S.issue c v) h
  | v, .call _ _ _ _ :: h => S.after v h

/-- What is asked of an act in the state in which it happens. -/
def Meets (S : View M V) : Act M → Prop
  | .op _ s o => ∃ v, S.Shows v s ∧ S.OpPre o v
  | .issue _ s c => ∃ v, S.Shows v s ∧ S.CallPre c v
  | .call _ _ _ _ => True

def Safe (S : View M V) : Task M → V → Prop
  | .done, v => S.Rests v
  | .read k, v => ∀ s, S.Shows v s → S.Safe (k s) v
  | .op o k, v => S.OpPre o v ∧ S.Safe k (S.op o v)
  | .await c k, v => S.CallPre c v ∧ S.Waits (S.issue c v) ∧ ∀ r, S.Safe (k r) (S.issue c v)
  | .fork _ _, _ => False

/-- What it reads first is this state. -/
def SafeAt (S : View M V) (s : M.State) : Task M → V → Prop
  | .read k, v => S.Safe (k s) v
  | t, v => S.Safe t v

variable {S : View M V}

theorem after_append (v : V) (h h' : List (Act M)) : S.after v (h ++ h') = S.after (S.after v h) h' := by
  induction h generalizing v with
  | nil => rfl
  | cons a h ih => cases a <;> exact ih _

/-! ## Segments -/

/-- What a segment leaves behind: a program that is over, or one that waits and is safe from there. -/
structure Went (S : View M V) (i n : Nat) (v : V) (g : Segment M) : Prop where
  shows : S.Shows v g.state
  next : g.next = n
  tasks : (g.tasks = [] ∧ S.Rests v) ∨ ∃ t, g.tasks = [t] ∧ t.id = i ∧ S.Waits v ∧ ∀ r, S.Safe (t.cont r) v

variable {t : Task M} {i n : Nat} {g : Segment M} {s : M.State} {c : Cmd}

theorem Safe.went {v : V} (h : S.Safe t v) (hs : S.Shows v s) (hrun : t.run Cond.any i s n = some g)
    :
    S.Went i n (S.after v (t.acts i s n)) g ∧ ∀ a ∈ t.acts i s n, S.Meets a := by
  induction t generalizing v s with
  | done =>
    cases hrun
    exact ⟨⟨hs, rfl, .inl ⟨rfl, h⟩⟩, fun a ha => absurd ha not_mem_nil⟩
  | read k ih => exact ih s (h s hs) hs hrun
  | op o k ih =>
    obtain ⟨hpre, hk⟩ := h
    obtain ⟨hwent, hmeets⟩ := ih hk (S.shows_op i o v s hs) hrun
    refine ⟨hwent, fun a ha => ?_⟩
    rcases mem_cons.1 ha with rfl | ha
    · exact ⟨v, hs, hpre⟩
    · exact hmeets a ha
  | await c k =>
    obtain ⟨hpre, hwaits, hk⟩ := h
    cases hrun
    refine ⟨⟨S.shows_issue c v s hs, rfl, .inr ⟨_, rfl, rfl, hwaits, hk⟩⟩, fun a ha => ?_⟩
    obtain rfl := mem_singleton.1 ha
    exact ⟨v, hs, hpre⟩
  | fork child k => exact h.elim

theorem SafeAt.went {v : V} (h : S.SafeAt s t v) (hs : S.Shows v s)
    (hrun : t.run Cond.any i s n = some g) :
    S.Went i n (S.after v (t.acts i s n)) g ∧ ∀ a ∈ t.acts i s n, S.Meets a := by
  cases t with
  | read k => exact Safe.went (t := k s) h hs hrun
  | _ => exact Safe.went h hs hrun

/-! ## The pool -/

/-- At most one program is in progress, which is safe from here. -/
structure Lone (S : View M V) (w : Sys M) (v : V) : Prop where
  shows : S.Shows v w.state
  tasks : (w.tasks = [] ∧ S.Rests v) ∨
    ∃ t, w.tasks = [t] ∧ t.id < w.next ∧ S.Waits v ∧ ∀ r, S.Safe (t.cont r) v

variable {prog : Cmd → Task M} {w w' : Sys M} {v : V}

theorem Lone.length_le (h : S.Lone w v) : w.tasks.length ≤ 1 := by
  rcases h.tasks with ⟨hnil, -⟩ | ⟨t, ht, -⟩
  · rw [hnil]
    exact Nat.zero_le 1
  · rw [ht]
    exact Nat.le_refl 1

theorem Lone.of_tasks (h : S.Lone w v) {t : Suspended M} (ht : t ∈ w.tasks) :
    w.tasks = [t] ∧ t.id < w.next ∧ S.Waits v ∧ ∀ r, S.Safe (t.cont r) v := by
  rcases h.tasks with ⟨hnil, -⟩ | ⟨t', ht', hsafe⟩
  · rw [hnil] at ht
    exact absurd ht not_mem_nil
  · rw [ht'] at ht
    obtain rfl := mem_singleton.1 ht
    exact ⟨ht', hsafe⟩

theorem others_singleton {t : Suspended M} (ht : w.tasks = [t]) : w.others t.id = [] := by
  simp [Sys.others, ht]

/-- What is left when the program goes on. -/
theorem Went.lone (h : S.Went i n v g) (hi : i < n) (ho : w.others i = []) :
    S.Lone ⟨g.state, w.others i ++ g.tasks, g.next⟩ v := by
  refine ⟨h.shows, ?_⟩
  rw [ho, h.next]
  rcases h.tasks with hrests | ⟨t, ht, rfl, hsafe⟩
  · exact .inl hrests
  · exact .inr ⟨t, ht, hi, hsafe⟩

theorem Lone.perform (h : S.Lone w v) {r : M.Reply}
    (hstep : w.step Cond.any prog (.perform i r) = some w') :
    S.Lone w' (S.after v (w.acts prog (.perform i r))) ∧ ∀ a ∈ w.acts prog (.perform i r), S.Meets a := by
  have hacts : S.after v (w.acts prog (.perform i r)) = v ∧
      ∀ a ∈ w.acts prog (.perform i r), S.Meets a := by
    unfold Sys.acts
    dsimp only
    split
    · exact ⟨rfl, fun a ha => absurd ha not_mem_nil⟩
    split
    · exact ⟨rfl, fun a ha => absurd ha not_mem_nil⟩
    refine ⟨rfl, fun a ha => ?_⟩
    rw [mem_singleton.1 ha]
    exact trivial
  rw [hacts.1]
  refine ⟨?_, hacts.2⟩
  rcases Sys.step_cases hstep with ⟨c, hm, -⟩ | ⟨i, r, t, ht, -, rfl, hp⟩ | ⟨i, t, ht, o, hm, -⟩
  · simp at hm
  · obtain ⟨htasks, hlt, hwaits, hsafe⟩ := h.of_tasks ht
    obtain ⟨s, o, -, hperf, -, rfl⟩ := Sys.complete_cases hp
    refine ⟨S.shows_perform _ _ _ _ _ _ _ h.shows hperf, .inr ⟨{ t with out := some o }, ?_, hlt, hwaits, hsafe⟩⟩
    rw [others_singleton htasks]
  · simp at hm

theorem Lone.resume (h : S.Lone w v) (hstep : w.step Cond.any prog (.resume i) = some w') :
    S.Lone w' (S.after v (w.acts prog (.resume i))) ∧ ∀ a ∈ w.acts prog (.resume i), S.Meets a := by
  revert hstep
  unfold Sys.step Sys.acts
  dsimp only
  cases hfind : w.tasks.find? fun t => t.id = i with
  | none => exact fun hstep => nomatch hstep
  | some t => ?_
  obtain rfl : t.id = i := by simpa using find?_some hfind
  obtain ⟨htasks, hlt, -, hsafe⟩ := h.of_tasks (mem_of_find?_eq_some hfind)
  dsimp only
  cases t.out with
  | none => exact fun hstep => nomatch hstep
  | some o => ?_
  intro hstep
  obtain ⟨g, hrun, rfl⟩ := map_eq_some_iff.1 hstep
  obtain ⟨hwent, hmeets⟩ := (hsafe o).went h.shows hrun
  exact ⟨hwent.lone hlt (others_singleton htasks), hmeets⟩

/-- A program is started when nothing is in progress. -/
theorem Lone.start (hshows : S.Shows v w.state) (htasks : w.tasks = [])
    (hsafe : S.SafeAt w.state (prog c) v) (hstep : w.step Cond.any prog (.start c) = some w') :
    S.Lone w' (S.after v (w.acts prog (.start c))) ∧ ∀ a ∈ w.acts prog (.start c), S.Meets a := by
  obtain ⟨g, hrun, rfl⟩ := map_eq_some_iff.1 hstep
  obtain ⟨hwent, hmeets⟩ := hsafe.went hshows hrun
  refine ⟨hwent.lone (Nat.lt_succ_self _) ?_, hmeets⟩
  rw [Sys.others, htasks]
  rfl

/-- A program goes through at once, and changes nothing that the one in progress depends on. -/
theorem Lone.passed (h : S.Lone w v) {s' : M.State} {v' : V}
    (hrun : (prog c).run Cond.any w.next w.state (w.next + 1) = some ⟨s', w.next + 1, []⟩)
    (hshows : S.Shows v' s') (hv : v' = v ∨ w.tasks = [] ∧ (S.Rests v → S.Rests v'))
    (hstep : w.step Cond.any prog (.start c) = some w') : S.Lone w' v' := by
  obtain ⟨g, hg, rfl⟩ := map_eq_some_iff.1 hstep
  rw [hrun] at hg
  cases hg
  refine ⟨hshows, ?_⟩
  rw [append_nil]
  rcases h.tasks with ⟨hnil, hrests⟩ | ⟨t, ht, hlt, hwaits, hsafe⟩
  · refine .inl ⟨?_, ?_⟩
    · rw [Sys.others, hnil]
      rfl
    · rcases hv with rfl | ⟨-, hv⟩
      · exact hrests
      · exact hv hrests
  · have hv' : v' = v := by
      refine hv.resolve_right ?_
      rintro ⟨hnil, -⟩
      rw [ht] at hnil
      simp at hnil
    subst hv'
    refine .inr ⟨t, ?_, Nat.lt_succ_of_lt hlt, hwaits, hsafe⟩
    simp [Sys.others, ht, Nat.ne_of_lt hlt]

/-! ## Fragments -/

/-- From the view `v` the fragment goes on to one that meets `Q`, with its outcome. -/
def Wp (S : View M V) (m : Async M α) (v : V) (Q : Except M.Err α → V → Prop) : Prop :=
  ∀ k : Except M.Err α → Task M, (∀ r v', Q r v' → S.Safe (k r) v') → S.Safe (m.run k) v

namespace Wp

variable {v : V}

variable {m : Async M α} {Q Q' : Except M.Err α → V → Prop} {o : M.Op}

theorem pure {a : α} (h : Q (.ok a) v) : S.Wp (Pure.pure a : Async M α) v Q := fun _ hk => hk _ v h

theorem throw {e : M.Err} (h : Q (.error e) v) : S.Wp (Async.throw e) v Q := fun _ hk => hk _ v h

theorem bind {f : α → Async M β} {Q' : Except M.Err β → V → Prop} (hm : S.Wp m v Q)
    (hf : ∀ a v', Q (.ok a) v' → S.Wp (f a) v' Q') (he : ∀ e v', Q (.error e) v' → Q' (.error e) v')
    :
    S.Wp (m >>= f) v Q' := by
  intro k hk
  refine hm _ fun r v' hq => ?_
  cases r with
  | ok a => exact hf a v' hq k hk
  | error e => exact hk _ v' (he e v' hq)

theorem tryCatch {f : M.Err → Async M α} (hm : S.Wp m v Q)
    (hok : ∀ a v', Q (.ok a) v' → Q' (.ok a) v') (hf : ∀ e v', Q (.error e) v' → S.Wp (f e) v' Q') :
    S.Wp (Async.tryCatch m f) v Q' := by
  intro k hk
  refine hm _ fun r v' hq => ?_
  cases r with
  | ok a => exact hk _ v' (hok a v' hq)
  | error e => exact hf e v' hq k hk

theorem settle {f : Except M.Err α → Async M β} {Q' : Except M.Err β → V → Prop} (hm : S.Wp m v Q)
    (hf : ∀ r v', Q r v' → S.Wp (f r) v' Q') :
    S.Wp (Async.settle m f) v Q' :=
  fun k hk => hm _ fun r v' hq => hf r v' hq k hk

theorem getThen {f : M.State → Async M α} (hf : ∀ s, S.Shows v s → S.Wp (f s) v Q) :
    S.Wp (Async.get >>= f) v Q :=
  fun k hk s hs => hf s hs k hk

theorem op {Q : Except M.Err Unit → V → Prop} (hpre : S.OpPre o v) (h : Q (.ok ()) (S.op o v)) :
    S.Wp (Async.op o) v Q :=
  fun _ hk => ⟨hpre, hk _ _ h⟩

theorem opThen {f : Unit → Async M α} (hpre : S.OpPre o v) (hf : S.Wp (f ()) (S.op o v) Q) :
    S.Wp (Async.op o >>= f) v Q :=
  fun k hk => ⟨hpre, hf k hk⟩

theorem await {c : M.Call} {Q : Except M.Err (M.Ret c) → V → Prop} (hpre : S.CallPre c v)
    (hwaits : S.Waits (S.issue c v)) (h : ∀ r, Q r (S.issue c v)) : S.Wp (Async.await c) v Q :=
  fun _ hk => ⟨hpre, hwaits, fun r => hk r _ (h r)⟩

theorem toTask (hm : S.Wp m v Q) (hQ : ∀ r v', Q r v' → S.Rests v') : S.Safe m.toTask v :=
  hm _ fun r v' hq => hQ r v' hq

end Wp

end View

end EventLoop
