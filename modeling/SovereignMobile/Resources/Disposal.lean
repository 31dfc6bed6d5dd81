import Mathlib.Data.List.Count
import Mathlib.Data.List.Perm.Basic

/-! # Resources that are disposed of once

A trace says which resources were started and which were disposed of, in which way. `DisposedOnce` asks
for one disposal of each: none is left, none is disposed of twice. It depends on no order of the events,
so the traces of several owners can be looked at one by one (`disposedOnce_tagged`). -/

namespace Resources

open List

variable {H H' D : Type} [DecidableEq H] [DecidableEq H']

inductive Event (H D : Type) where
  | started (h : H)
  | disposed (h : H) (how : D)
deriving DecidableEq

def Event.map (f : H → H') : Event H D → Event H' D
  | .started h => .started (f h)
  | .disposed h how => .disposed (f h) how

def Event.disposes (h : H) : Event H D → Bool
  | .started _ => false
  | .disposed h' _ => h' = h

/-- How often `h` was disposed of. -/
def disposals (h : H) (tr : List (Event H D)) : Nat := tr.countP (Event.disposes h)

def DisposedOnce (tr : List (Event H D)) : Prop := ∀ h, .started h ∈ tr → disposals h tr = 1

theorem disposals_append (h : H) (tr tr' : List (Event H D)) :
    disposals h (tr ++ tr') = disposals h tr + disposals h tr' :=
  countP_append ..

variable {tr tr' : List (Event H D)} {f : H → H'}

/-- One resource, which nothing else starts. -/
theorem disposedOnce_cons {h : H} (hone : ∀ h', .started h' ∉ tr) :
    DisposedOnce (.started h :: tr) ↔ disposals h tr = 1 := by
  have hcount : disposals h (.started h :: tr) = disposals h tr := by
    rw [disposals]
    rfl
  constructor
  · intro hall
    rw [← hcount]
    exact hall h mem_cons_self
  intro h1 h' hmem
  rcases mem_cons.1 hmem with heq | hmem
  · obtain rfl := Event.started.inj heq
    exact hcount.trans h1
  · exact absurd hmem (hone h')

/-- The order of the events is of no account. -/
theorem DisposedOnce.perm (hp : tr.Perm tr') : DisposedOnce tr ↔ DisposedOnce tr' := by
  unfold DisposedOnce disposals
  exact forall_congr' fun h => by rw [hp.mem_iff, hp.countP_eq]

/-- Traces about different resources. -/
theorem disposedOnce_append (hl : ∀ h, .started h ∈ tr → disposals h tr' = 0)
    (hr : ∀ h, .started h ∈ tr' → disposals h tr = 0) :
    DisposedOnce (tr ++ tr') ↔ DisposedOnce tr ∧ DisposedOnce tr' := by
  constructor
  · intro hall
    refine ⟨fun h hmem => ?_, fun h hmem => ?_⟩
    · have h1 := hall h (mem_append_left _ hmem)
      rwa [disposals_append, hl h hmem] at h1
    · have h1 := hall h (mem_append_right _ hmem)
      rwa [disposals_append, hr h hmem, Nat.zero_add] at h1
  · intro ⟨hall, hall'⟩ h hmem
    rw [disposals_append]
    rcases mem_append.1 hmem with hmem | hmem
    · rw [hall h hmem, hl h hmem]
    · rw [hall' h hmem, hr h hmem]

/-! ## Several owners -/

theorem disposals_map (hf : Function.Injective f) (h : H) (tr : List (Event H D)) :
    disposals (f h) (tr.map (.map f)) = disposals h tr := by
  rw [disposals, countP_map]
  refine countP_congr fun e _ => ?_
  cases e with
  | started h' => simp [Event.map, Event.disposes]
  | disposed h' how => simp [Event.map, Event.disposes, hf.eq_iff]

omit [DecidableEq H] in
theorem disposals_map_eq_zero {f : H → H'} {h' : H'} (hf : ∀ h, f h ≠ h') (tr : List (Event H D)) :
    disposals h' (tr.map (.map f)) = 0 := by
  rw [disposals, countP_map, countP_eq_zero]
  intro e _
  cases e with
  | started h => simp [Event.map, Event.disposes]
  | disposed h how => simp [Event.map, Event.disposes, hf h]

omit [DecidableEq H] [DecidableEq H'] in
theorem started_mem_map {f : H → H'} {h' : H'} {tr : List (Event H D)} :
    .started h' ∈ tr.map (Event.map f) ↔ ∃ h, .started h ∈ tr ∧ f h = h' := by
  rw [mem_map]
  constructor
  · rintro ⟨e, hmem, he⟩
    cases e with
    | started h => exact ⟨h, hmem, Event.started.inj he⟩
    | disposed h how => simp [Event.map] at he
  · rintro ⟨h, hmem, rfl⟩
    exact ⟨_, hmem, rfl⟩

theorem disposedOnce_map (hf : Function.Injective f) (tr : List (Event H D)) :
    DisposedOnce (tr.map (.map f)) ↔ DisposedOnce tr := by
  constructor
  · intro hall h hmem
    rw [← disposals_map hf]
    exact hall (f h) (started_mem_map.2 ⟨h, hmem, rfl⟩)
  intro hall h' hmem'
  obtain ⟨h, hmem, rfl⟩ := started_mem_map.1 hmem'
  rw [disposals_map hf]
  exact hall h hmem

/-- The traces of owners `n`, `n + 1` and so on, each resource with its owner. -/
def tagged : Nat → List (List (Event H D)) → List (Event (Nat × H) D)
  | _, [] => []
  | n, tr :: trs => tr.map (Event.map fun h => (n, h)) ++ tagged (n + 1) trs

omit [DecidableEq H] in
theorem owner_le_of_started {n : Nat} {trs : List (List (Event H D))} {x : Nat × H}
    (hmem : .started x ∈ tagged n trs) : n ≤ x.1 := by
  induction trs generalizing n with
  | nil => simp [tagged] at hmem
  | cons tr trs ih =>
    rcases mem_append.1 hmem with hmem | hmem
    · obtain ⟨h, -, rfl⟩ := started_mem_map.1 hmem
      exact Nat.le_refl n
    · exact Nat.le_of_succ_le (ih hmem)

theorem disposals_tagged_eq_zero {n m : Nat} (hlt : m < n) (h : H) (trs : List (List (Event H D))) :
    disposals (m, h) (tagged n trs) = 0 := by
  induction trs generalizing n with
  | nil => rfl
  | cons tr trs ih =>
    rw [tagged, disposals_append, ih (Nat.lt_succ_of_lt hlt),
      disposals_map_eq_zero (fun h' he => ?_)]
    exact absurd (Prod.mk.inj he).1 (Nat.ne_of_gt hlt)

/-- All resources are disposed of once if each owner disposes of its own once. -/
theorem disposedOnce_tagged (n : Nat) (trs : List (List (Event H D))) :
    DisposedOnce (tagged n trs) ↔ ∀ tr ∈ trs, DisposedOnce tr := by
  induction trs generalizing n with
  | nil => simp [tagged, DisposedOnce]
  | cons tr trs ih =>
    have hinj : Function.Injective fun h : H => (n, h) := fun _ _ he => (Prod.mk.inj he).2
    rw [tagged, disposedOnce_append, disposedOnce_map hinj, ih, forall_mem_cons]
    · intro x hmem
      obtain ⟨h, -, rfl⟩ := started_mem_map.1 hmem
      exact disposals_tagged_eq_zero (Nat.lt_succ_self n) h trs
    intro x hmem
    refine disposals_map_eq_zero (fun h he => ?_) tr
    have hle := owner_le_of_started hmem
    rw [← he] at hle
    exact absurd hle (Nat.not_succ_le_self n)

end Resources
