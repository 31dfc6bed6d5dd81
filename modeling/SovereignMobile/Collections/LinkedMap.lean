import Mathlib.Data.List.Induction
import Mathlib.Data.List.Nodup
import Mathlib.Data.List.Basic

/-! # Insertion-ordered maps

A `LinkedHashMap` as the list of its entries, in the order in which `values` yields them: a new key
goes to the end, and an assignment to a key that is there keeps its place. -/

structure LinkedMap (κ ν : Type) where
  entries : List (κ × ν)
deriving DecidableEq, Repr

namespace LinkedMap

open List Option Prod

variable {κ ν : Type}

def empty : LinkedMap κ ν := ⟨[]⟩

def keys (m : LinkedMap κ ν) : List κ := m.entries.map Prod.fst

def lastOrNull (m : LinkedMap κ ν) : Option ν := m.entries.getLast?.map Prod.snd

def lastKey (m : LinkedMap κ ν) : Option κ := m.keys.getLast?

variable [DecidableEq κ]

def get (m : LinkedMap κ ν) (k : κ) : Option ν := (m.entries.find? (·.1 = k)).map Prod.snd

def putEntry (k : κ) (v : ν) : List (κ × ν) → List (κ × ν)
  | [] => [(k, v)]
  | e :: es => if e.1 = k then (k, v) :: es else e :: putEntry k v es

def put (m : LinkedMap κ ν) (k : κ) (v : ν) : LinkedMap κ ν := ⟨putEntry k v m.entries⟩

@[simp] theorem lastKey_empty : (empty : LinkedMap κ ν).lastKey = none := rfl

variable {k : κ} {v : ν} {m : LinkedMap κ ν}

theorem mem_putEntry {e : κ × ν} {es : List (κ × ν)} (h : e ∈ putEntry k v es) :
    e = (k, v) ∨ e ∈ es := by
  induction es with
  | nil => exact .inl (by simpa [putEntry] using h)
  | cons e' es ih =>
    unfold putEntry at h
    split at h
    · rcases mem_cons.1 h with h | h
      · exact .inl h
      · exact .inr (mem_cons_of_mem _ h)
    · rcases mem_cons.1 h with h | h
      · exact .inr (h ▸ mem_cons_self)
      · exact (ih h).imp id (mem_cons_of_mem _)

theorem keys_putEntry (k : κ) (v : ν) (es : List (κ × ν)) : (putEntry k v es).map fst =
      if k ∈ es.map fst then es.map fst else es.map fst ++ [k] := by
  induction es with
  | nil => simp [putEntry]
  | cons e es ih =>
    unfold putEntry
    by_cases h : e.1 = k
    · simp [h]
    · simp only [h, if_false, map_cons, ih, mem_cons, Ne.symm h, false_or]
      split <;> rfl

/-- An assignment changes the last key only when its own key is new. -/
theorem lastKey_put (m : LinkedMap κ ν) (k : κ) (v : ν) :
    (m.put k v).lastKey = if k ∈ m.keys then m.lastKey else some k := by
  unfold lastKey keys put
  rw [keys_putEntry]
  split <;> simp

omit [DecidableEq κ] in
theorem lastKey_eq_none_iff (m : LinkedMap κ ν) : m.lastKey = none ↔ m.lastOrNull = none := by
  simp [lastKey, keys, lastOrNull]

omit [DecidableEq κ] in
theorem exists_lastKey {m : LinkedMap κ ν} {k : κ} (h : k ∈ m.keys) : ∃ l, m.lastKey = some l := by
  rw [← ne_none_iff_exists']
  intro hl
  rw [getLast?_eq_none_iff.1 hl] at h
  simp at h

theorem mem_entries_of_get (h : m.get k = some v) : (k, v) ∈ m.entries := by
  obtain ⟨e, he, rfl⟩ := map_eq_some_iff.1 h
  have hk : e.1 = k := by simpa using find?_some he
  exact hk ▸ mem_of_find?_eq_some he

/-! ## Removal and what is found afterwards -/

def remove (m : LinkedMap κ ν) (k : κ) : LinkedMap κ ν := ⟨m.entries.filter (·.1 ≠ k)⟩

omit [DecidableEq κ] in
def values (m : LinkedMap κ ν) : List ν := m.entries.map Prod.snd

theorem mem_values_put {w : ν} (h : w ∈ (m.put k v).values) : w = v ∨ w ∈ m.values := by
  obtain ⟨e, he, rfl⟩ := mem_map.1 h
  rcases mem_putEntry he with rfl | he
  · exact .inl rfl
  · exact .inr (mem_map_of_mem he)

theorem mem_values_of_get (h : m.get k = some v) : v ∈ m.values :=
  mem_map_of_mem (mem_entries_of_get h)

theorem get_put (m : LinkedMap κ ν) (k k' : κ) (v : ν) :
    (m.put k v).get k' = if k = k' then some v else m.get k' := by
  obtain ⟨es⟩ := m
  unfold put get
  induction es with
  | nil => by_cases h : k = k' <;> simp [putEntry]
  | cons e es ih =>
    unfold putEntry
    by_cases he : e.1 = k
    · rw [if_pos he]
      by_cases h : k = k' <;> simp [h, he]
    rw [if_neg he]
    by_cases h : e.1 = k'
    · have hne : k ≠ k' := fun hk => he (h.trans hk.symm)
      simp [h, hne]
    · simpa [h] using ih

/-- A map that is filled from a list has the last of the values that come with a key. -/
theorem get_foldl_put (key : ν → κ) (vs : List ν) (k : κ) :
    (vs.foldl (fun m v => m.put (key v) v) empty).get k = vs.reverse.find? (key · = k) := by
  induction vs using reverseRecOn with
  | nil => rfl
  | append_singleton vs v ih =>
    rw [foldl_append, foldl_cons, foldl_nil, get_put, ih]
    by_cases h : key v = k <;> simp [h]

theorem get_remove (m : LinkedMap κ ν) (k k' : κ) :
    (m.remove k).get k' = if k = k' then none else m.get k' := by
  unfold remove get
  rw [find?_filter]
  split
  · rename_i h
    simp [h]
  rename_i h
  congr 2
  funext e
  by_cases he : e.1 = k'
  · simp [he, Ne.symm h]
  · simp [he]

/-- No key has two entries, as is so of a map. -/
def Keyed (m : LinkedMap κ ν) : Prop := m.keys.Nodup

omit [DecidableEq κ] in
theorem keyed_empty : (empty : LinkedMap κ ν).Keyed := nodup_nil

theorem Keyed.put (h : m.Keyed) (k : κ) (v : ν) : (m.put k v).Keyed := by
  unfold Keyed keys LinkedMap.put
  rw [keys_putEntry]
  split
  · exact h
  rename_i hk
  refine List.Nodup.append h (nodup_singleton k) fun x hx hxk => ?_
  exact hk (mem_singleton.1 hxk ▸ hx)

theorem Keyed.remove (h : m.Keyed) (k : κ) : (m.remove k).Keyed :=
  h.sublist (filter_sublist.map _)

theorem Keyed.get_of_mem (h : m.Keyed) (hmem : (k, v) ∈ m.entries) : m.get k = some v := by
  cases hf : m.entries.find? (·.1 = k) with
  | none => exact absurd hmem (by simpa using find?_eq_none.1 hf (k, v))
  | some e =>
    have hk : e.1 = k := by simpa using find?_some hf
    have he : e = (k, v) := inj_on_of_nodup_map h (mem_of_find?_eq_some hf) hmem hk
    rw [get, hf, he]
    rfl

/-! ## Maps to lists -/

section Lists
variable {α : Type} [DecidableEq α]

/-- An assignment takes the old list out of the values and puts the new one in. -/
theorem values_put_perm (m : LinkedMap κ (List α)) (k : κ) (v : List α) :
    ((m.put k v).values.flatten ++ (m.get k).getD []).Perm (m.values.flatten ++ v) := by
  rw [perm_iff_count]
  intro a
  obtain ⟨es⟩ := m
  unfold put get values
  induction es with
  | nil => simp [putEntry]
  | cons e es ih =>
    unfold putEntry
    by_cases he : e.1 = k
    · simp only [he, if_true, map_cons, flatten_cons, count_append, decide_true,
        find?_cons_of_pos, map_some, getD_some]
      omega
    · simp only [he, if_false, map_cons, flatten_cons, count_append, decide_false,
        Bool.false_eq_true, not_false_eq_true, find?_cons_of_neg] at ih ⊢
      omega

theorem Keyed.values_remove_perm {m : LinkedMap κ (List α)} (h : m.Keyed) (k : κ) :
    ((m.remove k).values.flatten ++ (m.get k).getD []).Perm m.values.flatten := by
  rw [perm_iff_count]
  intro a
  obtain ⟨es⟩ := m
  unfold LinkedMap.remove get values
  induction es with
  | nil => simp
  | cons e es ih =>
    obtain ⟨hnot, hes⟩ := nodup_cons.1 h
    by_cases he : e.1 = k
    · have hrest : es.filter (·.1 ≠ k) = es := by
        refine filter_eq_self.2 fun e' he' => ?_
        have hne : e'.1 ≠ k := fun hk => hnot (mem_map.2 ⟨e', he', hk.trans he.symm⟩)
        simpa using hne
      have hcons : (e :: es).filter (·.1 ≠ k) = es := by
        rw [filter_cons_of_neg (by simpa using he), hrest]
      rw [hcons]
      simp [he, Nat.add_comm]
    · have := ih hes
      rw [filter_cons_of_pos (by simpa using he)]
      simp only [map_cons, flatten_cons, count_append, he, decide_false,
        Bool.false_eq_true, not_false_eq_true, find?_cons_of_neg] at this ⊢
      omega

end Lists

end LinkedMap
