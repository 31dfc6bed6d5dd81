import Mathlib.Data.List.Basic

/-! # Lower case

Text is lower-cased one character after the other. Beyond ASCII, a character may become several, and which
ones may depend on its neighbours; only the dotted capital I and the Kelvin sign become texts that begin
with an ASCII letter. A prefix of other ASCII letters is therefore found in the lower-cased text exactly
where it is found in the text itself, in some case. -/

/-- What a character becomes between the characters before and after it. -/
structure LowerCasing where
  char : List Char → Char → List Char → List Char
  ascii : ∀ before c after, c.val < 0x80 → char before c after = [c.toLower]
  other : ∀ before c after, 0x80 ≤ c.val →
    ∃ d ds, char before c after = d :: ds ∧ (0x80 ≤ d.val ∨ d = 'i' ∨ d = 'k')

namespace LowerCasing

open List Char

def lowerAfter (L : LowerCasing) (before : List Char) : List Char → List Char
  | [] => []
  | c :: cs => L.char before c cs ++ L.lowerAfter (before ++ [c]) cs

def toLowerCase (L : LowerCasing) (cs : List Char) : List Char := L.lowerAfter [] cs

theorem toLower_of_not_ascii {c : Char} (h : 0x80 ≤ c.val) : c.toLower = c := by
  refine dif_neg ?_
  rintro ⟨-, hle⟩
  exact nomatch UInt32.le_trans h hle

/-- Letters beyond ASCII stay as they are. -/
def asciiOnly : LowerCasing where
  char _ c _ := [c.toLower]
  ascii _ _ _ _ := rfl
  other _ c _ h := ⟨c, [], by rw [toLower_of_not_ascii h], .inl h⟩

variable (L : LowerCasing)

theorem toLowerCase_ascii {cs : List Char} (h : ∀ c ∈ cs, c.val < 0x80) :
    L.toLowerCase cs = cs.map toLower := by
  have hafter : ∀ before, L.lowerAfter before cs = cs.map toLower := by
    induction cs with
    | nil => exact fun _ => rfl
    | cons c cs ih =>
      intro before
      rw [lowerAfter, L.ascii _ _ _ (h c mem_cons_self),
        ih (fun d hd => h d (mem_cons_of_mem _ hd))]
      rfl
  exact hafter []

/-- A prefix of ASCII letters, none of which another character becomes. -/
theorem prefix_toLowerCase_iff {p : List Char} (hp : ∀ c ∈ p, c.val < 0x80 ∧ c ≠ 'i' ∧ c ≠ 'k')
    (cs : List Char) : p <+: L.toLowerCase cs ↔ p <+: cs.map toLower := by
  have hafter : ∀ before cs, p <+: L.lowerAfter before cs ↔ p <+: cs.map toLower := by
    induction p with
    | nil => simp
    | cons d p ih =>
      intro before cs
      have ih := ih fun c hc => hp c (mem_cons_of_mem _ hc)
      cases cs with
      | nil => simp [lowerAfter]
      | cons c cs =>
        by_cases hc : c.val < 0x80
        · rw [lowerAfter, L.ascii _ _ _ hc, map_cons, singleton_append, cons_prefix_cons,
            cons_prefix_cons, ih]
        -- neither what the character becomes nor the character itself is in the prefix
        obtain ⟨hd, hi, hk⟩ := hp d mem_cons_self
        have hge : 0x80 ≤ c.val := UInt32.not_lt.1 hc
        obtain ⟨e, es, hchar, he⟩ := L.other before c cs hge
        have hne : d ≠ e := by
          rintro rfl
          rcases he with he | he | he
          · exact absurd hd (UInt32.not_lt.2 he)
          · exact hi he
          · exact hk he
        have hne' : d ≠ c.toLower := by
          rw [toLower_of_not_ascii hge]
          rintro rfl
          exact hc hd
        rw [lowerAfter, hchar]
        simp [hne, hne']
  exact hafter [] cs

end LowerCasing
