import Mathlib.Data.List.Nodup
import Mathlib.Data.List.Basic

/-! # Tables with a primary key

A table is a list of rows in the order of their insertion, of which no two have the same key
(`Keyed`). `replace` is an insertion that replaces the row in its way, `updateWhere` an update of the
rows that satisfy a condition, and deletions are filters. Each of them is described by what `lookup`
finds afterwards. -/

namespace KeyedTable

open List Function

variable {ρ κ : Type} [DecidableEq κ] {key : ρ → κ} {rows : List ρ}

/-- No two rows have the same key. -/
def Keyed (key : ρ → κ) (rows : List ρ) : Prop := (rows.map key).Nodup

def lookup (key : ρ → κ) (k : κ) (rows : List ρ) : Option ρ := rows.find? fun r => key r = k

/-- Insert `x` in place of the row with its key, if there is one; the new row comes last. -/
def replace (key : ρ → κ) (x : ρ) (rows : List ρ) : List ρ :=
  (rows.filter fun r => key r ≠ key x) ++ [x]

def updateWhere (p : ρ → Bool) (f : ρ → ρ) (rows : List ρ) : List ρ :=
  rows.map fun r => if p r then f r else r

/-! ## Rows -/

variable {x r : ρ} {p : ρ → Bool} {f : ρ → ρ} {k : κ}

theorem mem_replace : r ∈ replace key x rows ↔ (r ∈ rows ∧ key r ≠ key x) ∨ r = x := by
  simp [replace]

theorem mem_updateWhere :
    r ∈ updateWhere p f rows ↔ ∃ r0 ∈ rows, (if p r0 then f r0 else r0) = r := by
  simp [updateWhere]

theorem lookup_eq_some (h : lookup key k rows = some r) : r ∈ rows ∧ key r = k :=
  ⟨mem_of_find?_eq_some h, by simpa using find?_some h⟩

theorem Keyed.lookup_iff (h : Keyed key rows) :
    lookup key k rows = some r ↔ r ∈ rows ∧ key r = k := by
  refine ⟨lookup_eq_some, ?_⟩
  rintro ⟨hr, rfl⟩
  cases hl : lookup key (key r) rows with
  | none =>
    have hnone := find?_eq_none.1 hl r hr
    simp at hnone
  | some r' =>
    obtain ⟨hr', hk⟩ := lookup_eq_some hl
    rw [inj_on_of_nodup_map h hr' hr hk]

theorem lookup_eq_none : lookup key k rows = none ↔ ∀ r ∈ rows, key r ≠ k := by
  simp [lookup]

/-! ## Keys stay unique -/

omit [DecidableEq κ] in
theorem Keyed.filter (h : Keyed key rows) (p : ρ → Bool) : Keyed key (rows.filter p) :=
  h.sublist (filter_sublist.map _)

theorem Keyed.replace (h : Keyed key rows) (x : ρ) : Keyed key (replace key x rows) := by
  unfold Keyed KeyedTable.replace
  rw [map_append]
  refine (h.filter _).append (nodup_singleton _) ?_
  intro k hk hx
  obtain rfl := mem_singleton.1 hx
  obtain ⟨r, hr, hkey⟩ := mem_map.1 hk
  have hne := (mem_filter.1 hr).2
  simp [hkey] at hne

omit [DecidableEq κ] in
theorem map_updateWhere {p : ρ → Bool} {f : ρ → ρ} (hf : ∀ r, key (f r) = key r) :
    (updateWhere p f rows).map key = rows.map key := by
  simp only [updateWhere, map_map]
  refine map_congr_left fun r _ => ?_
  simp only [comp]
  split
  · exact hf r
  · rfl

omit [DecidableEq κ] in
theorem Keyed.updateWhere (h : Keyed key rows) (p : ρ → Bool) {f : ρ → ρ}
    (hf : ∀ r, key (f r) = key r) : Keyed key (updateWhere p f rows) := by
  unfold Keyed
  rw [map_updateWhere hf]
  exact h

/-! ## What is found afterwards -/

theorem lookup_replace_self (x : ρ) (rows : List ρ) :
    lookup key (key x) (replace key x rows) = some x := by
  unfold lookup replace
  rw [find?_append]
  have hnone : (rows.filter fun r => key r ≠ key x).find? (fun r => key r = key x) = none := by
    simp
  rw [hnone]
  simp

theorem lookup_replace_other (h : key x ≠ k) (rows : List ρ) :
    lookup key k (replace key x rows) = lookup key k rows := by
  unfold lookup replace
  rw [find?_append]
  have hx : [x].find? (fun r => key r = k) = none := by simp [h]
  rw [hx, Option.or_none, find?_filter]
  congr 1
  funext r
  by_cases hr : key r = k
  · simp [hr, Ne.symm h]
  · simp [hr]

theorem lookup_updateWhere (hf : ∀ r, key (f r) = key r) : lookup key k (updateWhere p f rows) =
      (lookup key k rows).map fun r => if p r then f r else r := by
  unfold lookup updateWhere
  rw [find?_map]
  congr 2
  funext r
  simp only [comp]
  split
  · rw [hf]
  · rfl

/-- An update that does not touch the row with the key `k`. -/
theorem lookup_updateWhere_other (hf : ∀ r, key (f r) = key r) (hp : ∀ r, key r = k → p r = false) :
    lookup key k (updateWhere p f rows) = lookup key k rows := by
  rw [lookup_updateWhere hf]
  cases hl : lookup key k rows with
  | none => rfl
  | some r => simp [hp r (lookup_eq_some hl).2]

/-- A deletion that spares the row with the key `k`. -/
theorem lookup_filter (hp : ∀ r, lookup key k rows = some r → p r = true) (h : Keyed key rows) :
    lookup key k (rows.filter p) = lookup key k rows := by
  cases hl : lookup key k rows with
  | none =>
    rw [lookup_eq_none] at hl ⊢
    exact fun r hr => hl r (mem_filter.1 hr).1
  | some r =>
    obtain ⟨hr, hk⟩ := lookup_eq_some hl
    exact (h.filter p).lookup_iff.2 ⟨mem_filter.2 ⟨hr, hp r hl⟩, hk⟩

end KeyedTable
