import SovereignMobile.Identity.CachedIdentities
import SovereignMobile.Threads.Ownership

/-! # Identities that are closed while a task uses them

`close` waits for nobody, and the entry of a closed object stays in the cache until the next one is put in
its place or the cache is emptied. No handle is freed in use in the runs in which a task that replaces an
entry, or empties the cache, overlaps with no other task on the same object. -/

namespace CachedIdentities

open NativeIdentityProvisioning (Did)
open Threads List

/-! ## The invariant -/

def claims : Claims Task Nat where
  holds t o := o ∈ t.holds
  owns t o := o ∈ t.own ∨ t.closes = some o
  holds_of_owns t o h := by
    rcases h with h | h
    · exact List.mem_append_left _ h
    · exact List.mem_append_right _ (List.mem_append_left _ (by simp [h]))

/-- What holds of a task, whatever the others do. -/
structure Task.Good (s : State) (t : Task) : Prop where
  nodup : t.holds.Nodup
  made : ∀ o ∈ t.holds, o < s.dids.length
  own : ∀ o ∈ t.own, o ∉ s.closed ∧ o ∉ s.cachedIdentities.values
  uses : ∀ o, t.uses = some o → o ∉ s.closed
  marking : ∀ o after, t = .marking o after → o ∉ s.closed
  freeing : ∀ o after, t = .freeing o after → o ∈ s.closed ∧ o ∉ s.freed

structure State.Good (s : State) : Prop where
  values : ∀ o ∈ s.cachedIdentities.values, o < s.dids.length
  closed : ∀ o ∈ s.closed, o < s.dids.length
  freed : ∀ o ∈ s.freed, o ∈ s.closed
  nodup : s.freed.Nodup

structure Inv (w : Pool State Task) : Prop where
  shared : w.shared.Good
  tasks : ∀ t ∈ w.threads, t.Good w.shared
  exclusive : claims.Exclusive w.threads

/-- Nothing has happened to the object, as far as a task that has it in hand is concerned. -/
structure State.Keeps (s s' : State) (o : Nat) : Prop where
  closed : o ∈ s'.closed → o ∈ s.closed
  stays : o ∈ s.closed → o ∈ s'.closed
  freed : o ∈ s'.freed → o ∈ s.freed
  values : o ∈ s'.cachedIdentities.values → o ∈ s.cachedIdentities.values

theorem State.Keeps.refl (s : State) (o : Nat) : s.Keeps s o := ⟨id, id, id, id⟩

variable {t : Task} {o : Nat} {s s' : State} {pre post : List Task} {next : Option Task}
    {after : After} {x : Input} {w : Pool State Task}

theorem mem_holds_of_own (h : o ∈ t.own) : o ∈ t.holds := mem_append_left _ h

theorem mem_holds_of_closes (h : t.closes = some o) : o ∈ t.holds :=
  mem_append_right _ (mem_append_left _ (by simp [h]))

theorem mem_holds_of_uses (h : t.uses = some o) : o ∈ t.holds :=
  mem_append_right _ (mem_append_right _ (by simp [h]))

theorem mem_holds_iff : o ∈ t.holds ↔ o ∈ t.own ∨ t.closes = some o ∨ t.uses = some o := by
  simp [Task.holds]

theorem closes_of_uses (h : t.uses = some o) : t.closes = none := by
  cases t with
  | inUse p calls => rfl
  | _ => cases h

/-- A task does not notice what happens to other objects than those it has in hand. -/
theorem Task.Good.frame (h : t.Good s) (hmade : s.dids.length ≤ s'.dids.length)
    (hkeeps : ∀ o ∈ t.holds, s.Keeps s' o) : t.Good s' where
  nodup := h.nodup
  made o ho := Nat.lt_of_lt_of_le (h.made o ho) hmade
  own o ho := by
    have hk := hkeeps o (mem_holds_of_own ho)
    exact ⟨fun hc => (h.own o ho).1 (hk.closed hc), fun hv => (h.own o ho).2 (hk.values hv)⟩
  uses o ho hc := h.uses o ho ((hkeeps o (mem_holds_of_uses ho)).closed hc)
  marking o after ht hc := by
    have hk := hkeeps o (mem_holds_of_closes (by rw [ht]; rfl))
    exact h.marking o after ht (hk.closed hc)
  freeing o after ht := by
    have hk := hkeeps o (mem_holds_of_closes (by rw [ht]; rfl))
    exact ⟨hk.stays (h.freeing o after ht).1, fun hf => (h.freeing o after ht).2 (hk.freed hf)⟩

/-- **The step rule.** A step has to say what it does to the objects that the task owns. -/
theorem Inv.stepped (h : Inv ⟨s, pre ++ t :: post⟩) (hmade : s.dids.length ≤ s'.dids.length)
    (hkeeps : ∀ o < s.dids.length, o ∉ t.own → t.closes ≠ some o → s.Keeps s' o) (hshared : s'.Good)
    (hnext : ∀ t' ∈ next, t'.Good s') (hholds : ∀ t' ∈ next, ∀ u ∈ pre ++ post, ∀ o ∈ t'.holds,
      o ∈ t.holds ∨ ¬ (o ∈ u.own ∨ u.closes = some o))
    (howns : ∀ t' ∈ next, ∀ u ∈ pre ++ post, ∀ o, o ∈ t'.own ∨ t'.closes = some o →
      (o ∈ t.own ∨ t.closes = some o) ∨ o ∉ u.holds) :
    Inv ⟨s', pre ++ (next.toList ++ post)⟩ := by
  refine ⟨hshared, ?_, h.exclusive.stepped hholds howns⟩
  intro u hu
  have hothers : ∀ u ∈ pre ++ post, u.Good s' := by
    intro u hu
    have hgood : u.Good s := h.tasks u (by
      simp only [mem_append, mem_cons] at hu ⊢
      exact hu.imp_right .inr)
    have hapart := (Claims.Exclusive.iff_middle.1 h.exclusive).1 u hu
    refine hgood.frame hmade fun o ho => hkeeps o (hgood.made o ho) ?_ ?_
    · exact fun hown => (hapart o).1 (.inl hown) ho
    · exact fun hcloses => (hapart o).1 (.inr hcloses) ho
  simp only [mem_append, Option.mem_toList] at hu hothers
  rcases hu with hu | hu | hu
  · exact hothers u (.inl hu)
  · exact hnext u hu
  · exact hothers u (.inr hu)

/-! ## What a step can do -/

/-- A step from `t`: the new state, and where the task stands afterwards. -/
inductive Outcome (s : State) (t : Task) : State → Option Task → Prop where
  | goesOn (next : Option Task) : (∀ t' ∈ next, t'.own = t.own ∧ t'.closes = none ∧
      (t'.uses = none ∨ t'.uses = t.uses)) → Outcome s t s next
  | makes (did : Did) (t' : Task) : t'.own = [s.dids.length] → t'.closes = none → t'.uses = none →
      Outcome s t (s.make did) (some t')
  | puts (o : Nat) (next : Option Task) : t.own = [o] → (∀ t' ∈ next, t'.own = [] ∧ t'.closes = none ∧
      (t'.uses = none ∨ t'.uses = some o)) → Outcome s t (s.put o) next
  | clears : Outcome s t s.clear none
  | findsToClose (o : Nat) (after : After) : t.findsToClose s = some o → t.own = after.own →
      Outcome s t s (some (.closing o after))
  | findsToUse (o : Nat) (next : Option Task) : t.findsToUse s = some o →
      (∀ t' ∈ next, t'.own = [] ∧ t'.closes = none ∧ (t'.uses = none ∨ t'.uses = some o)) →
      Outcome s t s next
  | closesOwn (o : Nat) : t.own = [o] → Outcome s t s (some (.closing o .done))
  | tests (o : Nat) (after : After) : t = .closing o after → o ∉ s.closed →
      Outcome s t s (some (.marking o after))
  | marks (o : Nat) (after : After) : t = .marking o after →
      Outcome s t (s.mark o) (some (.freeing o after))
  | frees (o : Nat) (after : After) : t = .freeing o after →
      Outcome s t (s.nativeIdentityFree o) after.next

theorem After.next_spec : ∀ t' ∈ after.next, t'.own = after.own ∧ t'.closes = none ∧
    t'.uses = none := by
  intro t' ht'
  cases after with
  | put | sweep => cases ht'; exact ⟨rfl, rfl, rfl⟩
  | done => cases ht'

theorem useNext_spec {calls : List NativeCall} : ∀ t' ∈ useNext o calls,
    t'.own = [] ∧ t'.closes = none ∧ (t'.uses = none ∨ t'.uses = some o) := by
  intro t' ht'
  cases calls with
  | nil => cases ht'
  | cons c calls => cases ht'; exact ⟨rfl, rfl, .inr rfl⟩

theorem next_outcome (h : t.next x s = some (s', next)) : Outcome s t s' next := by
  have hidle : Outcome s t s none := .goesOn none (fun _ ht' => nomatch ht')
  unfold Task.next at h
  split at h
  -- `making`, `replacing` and `putting`
  · cases h
    exact .makes _ _ rfl rfl rfl
  · cases h
    exact hidle
  · split at h
    · rename_i old hold
      cases h
      exact .findsToClose old _ hold rfl
    · cases h
      exact .goesOn _ (by rintro _ ⟨⟩; exact ⟨rfl, rfl, .inl rfl⟩)
  · cases h
    exact .puts _ _ rfl (fun _ ht' => nomatch ht')
  -- `cleaning` and `sweeping`
  · cases h
    exact .goesOn _ (by rintro _ ⟨⟩; exact ⟨rfl, rfl, .inl rfl⟩)
  · cases h
    exact hidle
  · cases h
    exact .clears
  · split at h
    · rename_i hmod
      split at h
      · rename_i o ho
        cases h
        exact .findsToClose o _ (by rw [Task.findsToClose, if_pos hmod]; exact ho) rfl
      · cases h
        exact hidle
    · cases h
      exact hidle
  -- `close`
  · cases h
    split
    · refine .goesOn _ fun t' ht' => ?_
      obtain ⟨hown, hcloses, huses⟩ := After.next_spec t' ht'
      exact ⟨hown, hcloses, .inl huses⟩
    · rename_i hopen
      exact .tests _ _ rfl hopen
  · cases h
    exact .marks _ _ rfl
  · cases h
    exact .frees _ _ rfl
  -- `looking`
  iterate 2
    · split at h
      · rename_i o ho
        cases h
        exact .findsToUse o _ ho useNext_spec
      · cases h
        exact .goesOn _ (by rintro _ ⟨⟩; exact ⟨rfl, rfl, .inl rfl⟩)
  · cases h
    exact hidle
  · cases h
    exact hidle
  -- an identity that is restored on a cache miss
  · cases h
    exact .makes _ _ rfl rfl rfl
  · cases h
    exact hidle
  · cases h
    exact .puts _ _ rfl useNext_spec
  -- `inUse`
  · cases h
    refine .goesOn _ fun t' ht' => ?_
    obtain ⟨hown, hcloses, huses⟩ := useNext_spec t' ht'
    exact ⟨hown, hcloses, huses⟩
  · cases h
    exact hidle
  -- an identity that is loaded for one use
  · cases h
    exact .makes _ _ rfl rfl rfl
  · cases h
    exact hidle
  · cases h
    exact .goesOn _ (by rintro _ ⟨⟩; exact ⟨rfl, rfl, .inl rfl⟩)
  · cases h
    exact .closesOwn _ rfl
  · cases h
    exact .closesOwn _ rfl
  · simp at h

/-! ## The invariant is kept -/

theorem mem_values_of_findsToClose (h : t.findsToClose s = some o) :
    o ∈ s.cachedIdentities.values := by
  cases t with
  | replacing n => exact LinkedMap.mem_values_of_get h
  | sweeping next modCount =>
    cases next with
    | none => cases h
    | some n =>
      rw [Task.findsToClose] at h
      split at h
      · exact mem_of_getElem? h
      · cases h
  | _ => cases h

theorem mem_values_of_findsToUse (h : t.findsToUse s = some o) : o ∈ s.cachedIdentities.values := by
  cases t with
  | looking keys latest calls =>
    cases keys with
    | cons key keys => exact LinkedMap.mem_values_of_get h
    | nil =>
      cases latest with
      | false => cases h
      | true =>
        obtain ⟨e, he, rfl⟩ := Option.map_eq_some_iff.1 h
        exact mem_map_of_mem (mem_of_getLast? he)
  | _ => cases h

theorem findsIdle_step (h : findsIdle ⟨s, pre ++ t :: post⟩ (.step pre.length x) = true) :
    (∀ o, t.findsToClose s = some o → ∀ u ∈ pre ++ post, o ∉ u.holds) ∧
      ∀ o, t.findsToUse s = some o → o ∉ s.closed ∧ ∀ u ∈ pre ++ post, u.closes ≠ some o := by
  obtain ⟨hget, herase⟩ := others_eq pre post t
  simp only [findsIdle, hget, herase, Bool.and_eq_true] at h
  constructor
  · intro o ho u hu
    rw [ho] at h
    exact of_decide_eq_true (all_eq_true.1 h.1 u hu)
  intro o ho
  rw [ho] at h
  obtain ⟨hopen, hall⟩ := Bool.and_eq_true_iff.1 h.2
  exact ⟨of_decide_eq_true hopen, fun u hu => of_decide_eq_true (all_eq_true.1 hall u hu)⟩

theorem Task.Good.of_uses (hown : t.own = []) (hcloses : t.closes = none)
    (huses : ∀ o, t.uses = some o → o < s.dids.length ∧ o ∉ s.closed) : t.Good s where
  nodup := by
    rw [Task.holds, hown, hcloses]
    cases t.uses <;> simp
  made o ho := by
    rcases mem_holds_iff.1 ho with ho | ho | ho
    · rw [hown] at ho
      exact absurd ho not_mem_nil
    · rw [hcloses] at ho
      cases ho
    · exact (huses o ho).1
  own o ho := by
    rw [hown] at ho
    exact absurd ho not_mem_nil
  uses o ho := (huses o ho).2
  marking o after ht := by
    rw [ht] at hcloses
    cases hcloses
  freeing o after ht := by
    rw [ht] at hcloses
    cases hcloses

theorem eq_of_mem_holds {p : Nat} (h : t.own = [] ∧ t.closes = none ∧
    (t.uses = none ∨ t.uses = some o)) (hp : p ∈ t.holds) : p = o := by
  obtain ⟨hown, hcloses, huses⟩ := h
  rw [mem_holds_iff, hown, hcloses] at hp
  have huse : t.uses = some p := (hp.resolve_left not_mem_nil).resolve_left (by simp)
  rcases huses with huses | huses
  · exact nomatch huses.symm.trans huse
  · exact (Option.some.inj (huses.symm.trans huse)).symm

/-- A task that goes on with what it has in hand. -/
theorem Task.Good.goesOn {t' : Task} (h : t.Good s) (hown : t'.own = t.own)
    (hcloses : t'.closes = none) (huses : t'.uses = none ∨ t'.uses = t.uses) : t'.Good s where
  nodup := by
    have hsub : t'.holds.Sublist t.holds := by
      rw [Task.holds, hown, hcloses]
      refine .append_left ?_ _
      rcases huses with huses | huses
      · rw [huses]
        exact nil_sublist _
      · rw [huses]
        exact sublist_append_right _ _
    exact h.nodup.sublist hsub
  made o ho := by
    rcases mem_holds_iff.1 ho with ho | ho | ho
    · exact h.made o (mem_holds_of_own (hown ▸ ho))
    · rw [hcloses] at ho
      cases ho
    rcases huses with huses | huses
    · rw [huses] at ho
      cases ho
    · exact h.made o (mem_holds_of_uses (huses ▸ ho))
  own o ho := h.own o (hown ▸ ho)
  uses o ho := by
    rcases huses with huses | huses
    · rw [huses] at ho
      cases ho
    · exact h.uses o (huses ▸ ho)
  marking o after ht := by
    rw [ht] at hcloses
    cases hcloses
  freeing o after ht := by
    rw [ht] at hcloses
    cases hcloses

theorem Task.Good.closing (hnodup : (after.own ++ [o]).Nodup)
    (hmade : ∀ p ∈ after.own ++ [o], p < s.dids.length)
    (hown : ∀ p ∈ after.own, p ∉ s.closed ∧ p ∉ s.cachedIdentities.values) :
    (Task.closing o after).Good s where
  nodup := hnodup
  made := hmade
  own := hown
  uses _ h := nomatch h
  marking _ _ h := nomatch h
  freeing _ _ h := nomatch h

section Steps

variable {s : State} {pre post : List Task} {t : Task}

theorem Inv.self (h : Inv ⟨s, pre ++ t :: post⟩) : t.Good s := h.tasks t (by simp)

theorem Inv.others (h : Inv ⟨s, pre ++ t :: post⟩) : ∀ u ∈ pre ++ post, u.Good s := by
  intro u hu
  refine h.tasks u ?_
  simp only [mem_append, mem_cons] at hu ⊢
  exact hu.imp_right .inr

variable {next : Option Task} {o : Nat} {after : After}

theorem Inv.goesOn (h : Inv ⟨s, pre ++ t :: post⟩) (hnext : ∀ t' ∈ next,
    t'.own = t.own ∧ t'.closes = none ∧ (t'.uses = none ∨ t'.uses = t.uses)) :
    Inv ⟨s, pre ++ (next.toList ++ post)⟩ := by
  refine h.stepped le_rfl (fun o _ _ _ => .refl s o) h.shared ?_ ?_ ?_
  · intro t' ht'
    obtain ⟨hown, hcloses, huses⟩ := hnext t' ht'
    exact h.self.goesOn hown hcloses huses
  · intro t' ht' u _ o ho
    obtain ⟨hown, hcloses, huses⟩ := hnext t' ht'
    refine .inl ?_
    rcases mem_holds_iff.1 ho with ho | ho | ho
    · exact mem_holds_of_own (hown ▸ ho)
    · rw [hcloses] at ho
      cases ho
    rcases huses with huses | huses
    · rw [huses] at ho
      cases ho
    · exact mem_holds_of_uses (huses ▸ ho)
  · intro t' ht' u _ o ho
    obtain ⟨hown, hcloses, -⟩ := hnext t' ht'
    rw [hown, hcloses] at ho
    exact .inl (ho.imp_right fun hnone => nomatch hnone)

theorem Inv.makes {did : Did} {t' : Task} (h : Inv ⟨s, pre ++ t :: post⟩)
    (hown : t'.own = [s.dids.length]) (hcloses : t'.closes = none) (huses : t'.uses = none) :
    Inv ⟨s.make did, pre ++ ((some t').toList ++ post)⟩ := by
  -- no other task has the new object
  have hnew : ∀ u ∈ pre ++ post, s.dids.length ∉ u.holds := by
    intro u hmem hn
    exact absurd ((h.others u hmem).made _ hn) (Nat.lt_irrefl _)
  have heq : t'.holds = [s.dids.length] := by rw [Task.holds, hown, hcloses, huses]; rfl
  have hlen : s.dids.length < (s.make did).dids.length := by simp [State.make]
  refine h.stepped hlen.le (fun o _ _ _ => ⟨id, id, id, id⟩) ?_ ?_ ?_ ?_
  · exact ⟨fun o ho => (h.shared.values o ho).trans hlen, fun o ho => (h.shared.closed o ho).trans hlen,
      h.shared.freed, h.shared.nodup⟩
  · rintro _ ⟨⟩
    refine ⟨by simp [heq], ?_, ?_, ?_, ?_, ?_⟩
    · intro o ho
      rw [heq, mem_singleton] at ho
      exact ho ▸ hlen
    · intro o ho
      rw [hown, mem_singleton] at ho
      subst ho
      exact ⟨fun hc => absurd (h.shared.closed _ hc) (Nat.lt_irrefl _),
        fun hv => absurd (h.shared.values _ hv) (Nat.lt_irrefl _)⟩
    · intro o ho
      rw [huses] at ho
      cases ho
    iterate 2
      · intro o after heq
        rw [heq] at hcloses
        cases hcloses
  · rintro _ ⟨⟩ u hmem o ho
    rw [heq, mem_singleton] at ho
    subst ho
    exact .inr fun hn => hnew u hmem (mem_holds_iff.2 (hn.imp_right .inl))
  · rintro _ ⟨⟩ u hmem o ho
    rw [hown, hcloses, mem_singleton] at ho
    obtain rfl := ho.resolve_right (fun hnone => nomatch hnone)
    exact .inr (hnew u hmem)

theorem Inv.puts (h : Inv ⟨s, pre ++ t :: post⟩) (hown : t.own = [o])
    (hnext : ∀ t' ∈ next, t'.own = [] ∧ t'.closes = none ∧ (t'.uses = none ∨ t'.uses = some o)) :
    Inv ⟨s.put o, pre ++ (next.toList ++ post)⟩ := by
  have hmem : o ∈ t.own := by simp [hown]
  have hmade : o < s.dids.length := h.self.made o (mem_holds_of_own hmem)
  refine h.stepped le_rfl ?_ ?_ ?_ ?_ ?_
  · intro p _ hp _
    refine ⟨id, id, id, fun hv => ?_⟩
    exact (LinkedMap.mem_values_put hv).resolve_left fun heq => hp (heq ▸ hmem)
  · refine ⟨fun p hv => ?_, h.shared.closed, h.shared.freed, h.shared.nodup⟩
    rcases LinkedMap.mem_values_put hv with rfl | hv
    · exact hmade
    · exact h.shared.values p hv
  · intro t' ht'
    obtain ⟨hown', hcloses, huses⟩ := hnext t' ht'
    refine .of_uses hown' hcloses ?_
    intro p hp
    obtain rfl : p = o := by simpa [hp] using huses
    exact ⟨hmade, (h.self.own p hmem).1⟩
  · intro t' ht' u _ p hp
    refine .inl (mem_holds_of_own ?_)
    rw [eq_of_mem_holds (hnext t' ht') hp]
    exact hmem
  · intro t' ht' u _ p hp
    obtain ⟨hown', hcloses, -⟩ := hnext t' ht'
    simp [hown', hcloses] at hp

theorem Inv.clears (h : Inv ⟨s, pre ++ t :: post⟩) :
    Inv ⟨s.clear, pre ++ ((none : Option Task).toList ++ post)⟩ := by
  have hkeeps : ∀ o, s.Keeps s.clear o := fun o => ⟨id, id, id, fun hv => absurd hv not_mem_nil⟩
  refine h.stepped le_rfl (fun o _ _ _ => hkeeps o) ?_
    (fun _ ht' => nomatch ht') (fun _ ht' => nomatch ht') (fun _ ht' => nomatch ht')
  exact ⟨fun o hv => absurd hv not_mem_nil, h.shared.closed, h.shared.freed, h.shared.nodup⟩

theorem Inv.findsToClose (h : Inv ⟨s, pre ++ t :: post⟩) (hfind : t.findsToClose s = some o)
    (hown : t.own = after.own) (hidle : ∀ u ∈ pre ++ post, o ∉ u.holds) :
    Inv ⟨s, pre ++ ((some (.closing o after)).toList ++ post)⟩ := by
  have hvalue := mem_values_of_findsToClose hfind
  have hnotown : o ∉ after.own := fun hmem => (h.self.own o (hown ▸ hmem)).2 hvalue
  have hnodup : after.own.Nodup := hown ▸ h.self.nodup.sublist (sublist_append_left _ _)
  refine h.stepped le_rfl (fun o _ _ _ => .refl s o) h.shared ?_ ?_ ?_
  · rintro _ ⟨⟩
    refine .closing ?_ ?_ fun p hp => h.self.own p (hown ▸ hp)
    · refine nodup_append.2 ⟨hnodup, nodup_singleton o, ?_⟩
      intro p hp q hq heq
      exact hnotown (mem_singleton.1 hq ▸ heq ▸ hp)
    intro p hp
    rcases mem_append.1 hp with hp | hp
    · exact h.self.made p (mem_holds_of_own (hown ▸ hp))
    · exact mem_singleton.1 hp ▸ h.shared.values o hvalue
  · rintro _ ⟨⟩ u hmem p hp
    rcases mem_holds_iff.1 hp with hp | hp | hp
    · exact .inl (mem_holds_of_own (hown ▸ hp))
    · cases hp
      exact .inr fun hn => hidle u hmem (mem_holds_iff.2 (hn.imp_right .inl))
    · cases hp
  · rintro _ ⟨⟩ u hmem p hp
    rcases hp with hp | hp
    · exact .inl (.inl (hown ▸ hp))
    · cases hp
      exact .inr (hidle u hmem)

theorem Inv.findsToUse (h : Inv ⟨s, pre ++ t :: post⟩) (hfind : t.findsToUse s = some o)
    (hopen : o ∉ s.closed) (hidle : ∀ u ∈ pre ++ post, u.closes ≠ some o)
    (hnext : ∀ t' ∈ next, t'.own = [] ∧ t'.closes = none ∧ (t'.uses = none ∨ t'.uses = some o)) :
    Inv ⟨s, pre ++ (next.toList ++ post)⟩ := by
  have hvalue := mem_values_of_findsToUse hfind
  refine h.stepped le_rfl (fun o _ _ _ => .refl s o) h.shared ?_ ?_ ?_
  · intro t' ht'
    obtain ⟨hown, hcloses, huses⟩ := hnext t' ht'
    refine .of_uses hown hcloses ?_
    intro p hp
    obtain rfl : p = o := by simpa [hp] using huses
    exact ⟨h.shared.values p hvalue, hopen⟩
  · intro t' ht' u hmem p hp
    obtain rfl : p = o := eq_of_mem_holds (hnext t' ht') hp
    refine .inr ?_
    rintro (hn | hn)
    · exact ((h.others u hmem).own p hn).2 hvalue
    · exact hidle u hmem hn
  · intro t' ht' u _ p hp
    obtain ⟨hown, hcloses, -⟩ := hnext t' ht'
    simp [hown, hcloses] at hp

theorem Inv.closesOwn (h : Inv ⟨s, pre ++ t :: post⟩) (hown : t.own = [o]) :
    Inv ⟨s, pre ++ ((some (.closing o .done)).toList ++ post)⟩ := by
  have hmem : o ∈ t.own := by simp [hown]
  refine h.stepped le_rfl (fun o _ _ _ => .refl s o) h.shared ?_ ?_ ?_
  · rintro _ ⟨⟩
    refine .closing (nodup_singleton o) ?_ (fun _ hp => absurd hp not_mem_nil)
    intro p hp
    exact mem_singleton.1 hp ▸ h.self.made o (mem_holds_of_own hmem)
  · rintro _ ⟨⟩ u _ p hp
    obtain rfl : p = o := mem_singleton.1 hp
    exact .inl (mem_holds_of_own hmem)
  · rintro _ ⟨⟩ u _ p hp
    refine .inl (.inl ?_)
    rcases hp with hp | hp
    · exact absurd hp not_mem_nil
    · exact Option.some.inj hp ▸ hmem

theorem Inv.tests (h : Inv ⟨s, pre ++ .closing o after :: post⟩) (hopen : o ∉ s.closed) :
    Inv ⟨s, pre ++ ((some (.marking o after)).toList ++ post)⟩ := by
  refine h.stepped le_rfl (fun o _ _ _ => .refl s o) h.shared
    ?_ (fun _ ht' _ _ _ hp => .inl (by cases ht'; exact hp))
    (fun _ ht' _ _ _ hp => .inl (by cases ht'; exact hp))
  rintro _ ⟨⟩
  refine ⟨h.self.nodup, h.self.made, h.self.own, (fun _ hp => nomatch hp), ?_, fun _ _ hp => nomatch hp⟩
  rintro _ _ ⟨⟩
  exact hopen

theorem Inv.marks (h : Inv ⟨s, pre ++ .marking o after :: post⟩) :
    Inv ⟨s.mark o, pre ++ ((some (.freeing o after)).toList ++ post)⟩ := by
  have hopen : o ∉ s.closed := h.self.marking o after rfl
  have hclosed : ∀ p, p ≠ o → p ∈ (s.mark o).closed → p ∈ s.closed :=
    fun p hne hp => (mem_cons.1 hp).resolve_left hne
  refine h.stepped le_rfl ?_ ?_ ?_ (fun _ ht' _ _ _ hp => .inl (by cases ht'; exact hp))
    (fun _ ht' _ _ _ hp => .inl (by cases ht'; exact hp))
  · intro p _ _ hp
    exact ⟨hclosed p fun heq => hp (heq ▸ rfl), mem_cons_of_mem _, id, id⟩
  · refine ⟨h.shared.values, ?_, fun p hp => mem_cons_of_mem _ (h.shared.freed p hp), h.shared.nodup⟩
    intro p hp
    rcases mem_cons.1 hp with rfl | hp
    · exact h.self.made _ (mem_holds_of_closes rfl)
    · exact h.shared.closed p hp
  rintro _ ⟨⟩
  refine ⟨h.self.nodup, h.self.made, ?_, (fun _ hp => nomatch hp), (fun _ _ hp => nomatch hp), ?_⟩
  · intro p hp
    have hne : p ≠ o := (nodup_append.1 h.self.nodup).2.2 p hp o (by simp [Task.closes])
    exact ⟨fun hc => (h.self.own p hp).1 (hclosed p hne hc), (h.self.own p hp).2⟩
  · rintro _ _ ⟨⟩
    exact ⟨mem_cons_self, fun hf => hopen (h.shared.freed o hf)⟩

theorem Inv.frees (h : Inv ⟨s, pre ++ .freeing o after :: post⟩) :
    Inv ⟨s.nativeIdentityFree o, pre ++ (after.next.toList ++ post)⟩ := by
  obtain ⟨hclosed, hunfreed⟩ := h.self.freeing o after rfl
  refine h.stepped le_rfl ?_ ?_ ?_ ?_ ?_
  · intro p _ _ hp
    refine ⟨id, id, fun hf => ?_, id⟩
    exact (mem_cons.1 hf).resolve_left fun heq => hp (heq ▸ rfl)
  · refine ⟨h.shared.values, h.shared.closed, ?_, nodup_cons.2 ⟨hunfreed, h.shared.nodup⟩⟩
    intro p hp
    rcases mem_cons.1 hp with rfl | hp
    · exact hclosed
    · exact h.shared.freed p hp
  · intro t' ht'
    obtain ⟨hown, hcloses, huses⟩ := After.next_spec t' ht'
    have hgood : t'.Good s := h.self.goesOn hown hcloses (.inl huses)
    refine ⟨hgood.nodup, hgood.made, hgood.own, hgood.uses, hgood.marking, ?_⟩
    intro p after' heq
    rw [heq] at hcloses
    cases hcloses
  · intro t' ht' u _ p hp
    obtain ⟨hown, hcloses, huses⟩ := After.next_spec t' ht'
    rw [mem_holds_iff, hcloses, huses, hown] at hp
    exact .inl (mem_holds_of_own (hp.resolve_right (by simp)))
  · intro t' ht' u _ p hp
    obtain ⟨hown, hcloses, -⟩ := After.next_spec t' ht'
    rw [hown, hcloses] at hp
    exact .inl (.inl (hp.resolve_right (fun hnone => nomatch hnone)))

theorem Inv.step {s' : State} {x : Input} (h : Inv ⟨s, pre ++ t :: post⟩)
    (hc : findsIdle ⟨s, pre ++ t :: post⟩ (.step pre.length x) = true)
    (hstep : t.next x s = some (s', next)) : Inv ⟨s', pre ++ (next.toList ++ post)⟩ := by
  obtain ⟨hclose, huse⟩ := findsIdle_step hc
  cases next_outcome hstep with
  | goesOn _ hnext => exact h.goesOn hnext
  | makes did t' hown hcloses huses => exact h.makes hown hcloses huses
  | puts o _ hown hnext => exact h.puts hown hnext
  | clears => exact h.clears
  | findsToClose o after hfind hown => exact h.findsToClose hfind hown (hclose o hfind)
  | findsToUse o _ hfind hnext => exact h.findsToUse hfind (huse o hfind).1 (huse o hfind).2 hnext
  | closesOwn o hown => exact h.closesOwn hown
  | tests o after heq hopen =>
    subst heq
    exact h.tests hopen
  | marks o after heq =>
    subst heq
    exact h.marks
  | frees o after heq =>
    subst heq
    exact h.frees

end Steps

theorem Inv.call (h : Inv w) (c : Call) (hc : collects w (.call c) = true) :
    Inv (w.call program c) := by
  -- all but a finalizer start with nothing in hand
  have hidle : ∀ t : Task, t.own = [] → t.closes = none → t.uses = none →
      Inv ⟨w.shared, w.threads ++ [t]⟩ := by
    intro t hown hcloses huses
    have hgood : t.Good w.shared := .of_uses hown hcloses (by rw [huses]; exact fun _ hp => nomatch hp)
    refine ⟨h.shared, ?_, h.exclusive.append_idle ?_⟩
    · intro u hu
      rcases mem_append.1 hu with hu | hu
      · exact h.tasks u hu
      · exact mem_singleton.1 hu ▸ hgood
    · intro o ho
      simpa [hown, hcloses, huses] using mem_holds_iff.1 ho
  cases c with
  | finalize o =>
    simp only [collects, Bool.and_eq_true, decide_eq_true_eq, all_eq_true] at hc
    obtain ⟨⟨hmade, -⟩, hunheld⟩ := hc
    refine ⟨h.shared, ?_, ?_⟩
    · intro u hu
      rcases mem_append.1 hu with hu | hu
      · exact h.tasks u hu
      rw [mem_singleton.1 hu]
      refine .closing (nodup_singleton o) ?_ (fun _ hp => absurd hp not_mem_nil)
      intro p hp
      exact mem_singleton.1 hp ▸ hmade
    · refine .iff_middle.2 ⟨?_, by simpa using h.exclusive⟩
      intro u hu p
      rw [append_nil] at hu
      constructor
      · rintro (hp | hp)
        · exact absurd hp not_mem_nil
        · exact Option.some.inj hp ▸ hunheld u hu
      · intro hown hp
        obtain rfl : p = o := mem_singleton.1 hp
        exact hunheld u hu (claims.holds_of_owns u p hown)
  | _ => exact hidle _ rfl rfl rfl

theorem inv_of_reach (h : Reach program exclusive init w) : Inv w := by
  refine Reach.invariant ?_ ?_ ?_ h
  · rintro _ rfl
    refine ⟨⟨?_, ?_, ?_, nodup_nil⟩, ?_, List.Pairwise.nil⟩
    all_goals exact fun _ hp => absurd hp not_mem_nil
  · intro w c _ hw hc
    exact hw.call c (Bool.and_eq_true_iff.1 hc).1
  intro s pre t post x s' ts _ hw hc hstep
  obtain ⟨⟨s', next⟩, hnext, heq⟩ := Option.map_eq_some_iff.1 hstep
  cases heq
  exact hw.step (Bool.and_eq_true_iff.1 hc).2 hnext

theorem Inv.safe (h : Inv w) : Safe w where
  unclosed t ht o ho := by
    refine ⟨(h.tasks t ht).uses o ho, ?_⟩
    intro u hu hcloses
    obtain ⟨pre, post, heq⟩ := append_of_mem ht
    have hapart := (Claims.Exclusive.iff_middle.1 (heq ▸ h.exclusive)).1
    rw [heq, mem_append, mem_cons] at hu
    have hother : u = t ∨ u ∈ pre ++ post := by
      rcases hu with hu | rfl | hu
      · exact .inr (mem_append_left _ hu)
      · exact .inl rfl
      · exact .inr (mem_append_right _ hu)
    rcases hother with rfl | hother
    · rw [closes_of_uses ho] at hcloses
      cases hcloses
    · exact (hapart u hother o).2 (.inr hcloses) (mem_holds_of_uses ho)
  freed := h.shared.nodup

/-- In every run in which a task that replaces an entry or empties the cache overlaps with no other task on
    the same object, no identity is closed in use, and no handle is freed twice. -/
theorem not_closed_in_use {w : Pool State Task} (h : Reach program exclusive init w) : Safe w :=
  (inv_of_reach h).safe

/-! ## Short runs -/

def did : Did := "did:zhtp:5f2d"

/-- An identity is generated, stored and restored, and then signs. -/
def restoredThenSigned : List (Move Call Input) :=
  [.call .generateLocalIdentity, .step 0 (.made did), .step 0 .go, .step 0 .go,
    .call (.storeProvisionedIdentity did), .step 0 .go, .step 0 .returned,
    .call .restoreIdentityToHandleStore, .step 0 (.made did), .step 0 .go, .step 0 .go, .step 0 .go,
    .step 0 .go, .step 0 .go, .call .signMessage, .step 0 .go]

/-- Two restores find the same object, which is in the hands of a signer. -/
def restoredWhileSigning : List (Move Call Input) :=
  [.call .generateLocalIdentity, .step 0 (.made did), .step 0 .go, .step 0 .go,
    .call .signMessage, .step 0 .go,
    .call .restoreIdentityToHandleStore, .step 1 (.made did), .step 1 .go,
    .call .restoreIdentityToHandleStore, .step 2 (.made did), .step 2 .go,
    .step 1 .go, .step 2 .go, .step 1 .go, .step 2 .go, .step 1 .go, .step 2 .go]

/-- What a run leaves: the closed and the freed objects, and where the tasks stand. -/
def leaves (C : Cond State Task Call Input) (ms : List (Move Call Input)) :
    Option (List Nat × List Nat × List Task) :=
  (Pool.run program C ⟨.initial, []⟩ ms).map fun w => (w.shared.closed, w.shared.freed, w.threads)

theorem not_closed_in_use_restored :
    ∃ w : Pool State Task, w.shared.freed = [0] ∧ w.threads = [.inUse 1 [.signMessage]] ∧ Safe w := by
  have hrun : leaves exclusive restoredThenSigned = some ([0], [0], [.inUse 1 [.signMessage]]) := by
    decide
  obtain ⟨w, hw, hleft⟩ := Option.map_eq_some_iff.1 hrun
  obtain ⟨-, hleft⟩ := Prod.mk.inj hleft
  obtain ⟨hfreed, hthreads⟩ := Prod.mk.inj hleft
  exact ⟨w, hfreed, hthreads, not_closed_in_use (.of_run rfl hw)⟩

/-- The signer is in a native call on a handle that has been freed, and that twice. -/
theorem closed_in_use : ¬ ∀ w : Pool State Task, Reach program collects init w → Safe w := by
  intro hsafe
  have hrun : leaves collects restoredWhileSigning = some ([0, 0], [0, 0],
      [.inUse 0 [.signMessage], .putting 1, .putting 2]) := by
    decide
  obtain ⟨w, hw, hleft⟩ := Option.map_eq_some_iff.1 hrun
  obtain ⟨hclosed, hleft⟩ := Prod.mk.inj hleft
  obtain ⟨-, hthreads⟩ := Prod.mk.inj hleft
  have hw' := (hsafe w (.of_run rfl hw)).unclosed (.inUse 0 [.signMessage])
    (by rw [hthreads]; exact mem_cons_self) 0 rfl
  exact hw'.1 (by rw [hclosed]; exact mem_cons_self)

end CachedIdentities
