import Mathlib.Algebra.Order.Field.Rat
import Mathlib.Data.List.DropRight
import Mathlib.Tactic.FieldSimp
import Mathlib.Tactic.Ring

/-! # Decimal texts

The number that a row of digits stands for, what padding, cutting and stripping of zeros do to it, and
texts with a point: their value, and their canonical form. -/

namespace Decimals

open List

/-! ## Rows of digits -/

def Digits (cs : List Char) : Prop := ∀ c ∈ cs, c.isDigit = true

instance (cs : List Char) : Decidable (Digits cs) :=
  decidable_of_iff (cs.all Char.isDigit = true) List.all_eq_true

def number (cs : List Char) : Nat := Nat.ofDigitChars 10 cs 0

/-- The row without leading zeros, but with one digit at least. -/
def canonical (cs : List Char) : List Char :=
  if cs.dropWhile (· = '0') = [] then ['0'] else cs.dropWhile (· = '0')

section
variable {xs ys : List Char} {c : Char}

@[simp] theorem number_nil : number [] = 0 := Nat.ofDigitChars_nil

theorem number_append : number (xs ++ ys) = number xs * 10 ^ ys.length + number ys := by
  rw [number, Nat.ofDigitChars_append, Nat.ofDigitChars_eq_ofDigitChars_zero, Nat.mul_comm]
  rfl

theorem number_singleton : number [c] = c.toNat - 48 := by
  rw [number, Nat.ofDigitChars_cons, Nat.zero_add]
  rfl

theorem number_replicate_zero (n : Nat) : number (replicate n '0') = 0 := by
  rw [number, Nat.ofDigitChars_replicate_zero, Nat.mul_zero]

theorem digits_nil : Digits [] := by
  intro c hc
  cases hc

theorem Digits.of_append_left (h : Digits (xs ++ ys)) : Digits xs :=
  fun c hc => h c (mem_append_left _ hc)

theorem Digits.take (h : Digits xs) (n : Nat) : Digits (xs.take n) :=
  fun c hc => h c (mem_of_mem_take hc)

theorem Digits.drop (h : Digits xs) (n : Nat) : Digits (xs.drop n) :=
  fun c hc => h c (mem_of_mem_drop hc)

theorem Digits.append (hx : Digits xs) (hy : Digits ys) : Digits (xs ++ ys) := by
  intro c hc
  rcases mem_append.1 hc with hc | hc
  · exact hx c hc
  · exact hy c hc

theorem digits_replicate_zero (n : Nat) : Digits (replicate n '0') := by
  intro c hc
  rw [eq_of_mem_replicate hc]
  decide

theorem digits_toDigits (n : Nat) : Digits (Nat.toDigits 10 n) :=
  fun _ hc => Nat.isDigit_of_mem_toDigits (by decide) (by decide) hc

theorem digitChar_of_isDigit (h : c.isDigit = true) :
    c.toNat - 48 < 10 ∧ (c.toNat - 48).digitChar = c := by
  have hrange : 48 ≤ c.toNat ∧ c.toNat ≤ 57 := Char.isDigit_iff_toNat.1 h
  have hlt : c.toNat - 48 < 10 := by omega
  refine ⟨hlt, Char.toNat_inj.1 ?_⟩
  rw [Nat.toNat_digitChar_of_lt_ten hlt]
  omega

theorem number_lt (h : Digits xs) : number xs < 10 ^ xs.length := by
  induction xs using reverseRecOn with
  | nil => exact Nat.one_pos
  | append_singleton xs c ih =>
    have hc := (digitChar_of_isDigit (h c (mem_append_right _ mem_cons_self))).1
    have hx := ih h.of_append_left
    rw [number_append, number_singleton, length_append, length_singleton]
    omega

/-- Cutting off the last digits divides. -/
theorem number_div (hy : Digits ys) : number (xs ++ ys) / 10 ^ ys.length = number xs := by
  have hpos : 0 < 10 ^ ys.length := Nat.pow_pos (by decide)
  rw [number_append, Nat.mul_comm, Nat.mul_add_div hpos, Nat.div_eq_of_lt (number_lt hy), Nat.add_zero]

theorem number_mod (hy : Digits ys) : number (xs ++ ys) % 10 ^ ys.length = number ys := by
  rw [number_append, Nat.mul_comm, Nat.mul_add_mod, Nat.mod_eq_of_lt (number_lt hy)]

variable {k : Nat}

theorem number_take_sub (h : Digits xs) (hk : k ≤ xs.length) :
    number (xs.take (xs.length - k)) = number xs / 10 ^ k := by
  have hsplit := take_append_drop (xs.length - k) xs
  have hlen : (xs.drop (xs.length - k)).length = k := by
    rw [length_drop]
    omega
  calc number (xs.take (xs.length - k))
      = number (xs.take (xs.length - k) ++ xs.drop (xs.length - k)) /
          10 ^ (xs.drop (xs.length - k)).length :=
        (number_div (h.drop _)).symm
    _ = number xs / 10 ^ k := by rw [hsplit, hlen]

theorem number_take (h : Digits xs) (n : Nat) :
    number (xs.take n) = number xs / 10 ^ (xs.length - min xs.length n) := by
  have hle : xs.length - min xs.length n ≤ xs.length := Nat.sub_le _ _
  have htake : xs.take n = xs.take (xs.length - (xs.length - min xs.length n)) := by
    rw [take_eq_take_iff]
    omega
  rw [htake, number_take_sub h hle]

theorem number_drop_sub (h : Digits xs) (hk : k ≤ xs.length) :
    number (xs.drop (xs.length - k)) = number xs % 10 ^ k := by
  have hsplit := take_append_drop (xs.length - k) xs
  have hlen : (xs.drop (xs.length - k)).length = k := by
    rw [length_drop]
    omega
  calc number (xs.drop (xs.length - k))
      = number (xs.take (xs.length - k) ++ xs.drop (xs.length - k)) %
          10 ^ (xs.drop (xs.length - k)).length :=
        (number_mod (h.drop _)).symm
    _ = number xs % 10 ^ k := by rw [hsplit, hlen]

/-- What is cut off at a place behind the point. -/
theorem mul_pow_div {places decimals : Nat} (a : Nat) (h : places ≤ decimals) :
    a * 10 ^ places / 10 ^ decimals =
      a / 10 ^ decimals * 10 ^ places + a % 10 ^ decimals / 10 ^ (decimals - places) := by
  have hpow : 10 ^ (decimals - places) * 10 ^ places = 10 ^ decimals := by
    rw [← Nat.pow_add, Nat.sub_add_cancel h]
  have hpos : 0 < 10 ^ (decimals - places) := Nat.pow_pos (by decide)
  have hwhole : 10 ^ (decimals - places) * (a / 10 ^ decimals * 10 ^ places) =
      10 ^ decimals * (a / 10 ^ decimals) := by
    rw [← hpow]
    ring
  calc a * 10 ^ places / 10 ^ decimals = a / 10 ^ (decimals - places) := by
        rw [← hpow, Nat.mul_div_mul_right _ _ (Nat.pow_pos (by decide))]
    _ = (10 ^ (decimals - places) * (a / 10 ^ decimals * 10 ^ places) + a % 10 ^ decimals) /
          10 ^ (decimals - places) := by rw [hwhole, Nat.div_add_mod]
    _ = _ := Nat.mul_add_div hpos _ _

theorem number_dropWhile_zero (cs : List Char) : number (cs.dropWhile (· = '0')) = number cs := by
  induction cs with
  | nil => rfl
  | cons c cs ih =>
    rw [dropWhile_cons]
    split
    · rename_i hc
      have hcons : number ('0' :: cs) = number cs := Nat.ofDigitChars_cons
      rw [of_decide_eq_true hc, ih, hcons]
    · rfl

theorem number_leftpad (n : Nat) : number (xs.leftpad n '0') = number xs := by
  rw [List.leftpad, number_append, number_replicate_zero, Nat.zero_mul, Nat.zero_add]

theorem Digits.leftpad (h : Digits xs) (n : Nat) : Digits (xs.leftpad n '0') :=
  (digits_replicate_zero _).append h

/-- The row without leading zeros is the numeral of its number. -/
theorem toDigits_number (h : Digits xs) : Nat.toDigits 10 (number xs) = canonical xs := by
  induction xs using List.reverseRecOn with
  | nil => rfl
  | append_singleton xs c ih =>
    obtain ⟨hlt, hchar⟩ := digitChar_of_isDigit (h c (List.mem_append_right _ List.mem_cons_self))
    have hx := ih h.of_append_left
    rw [number_append, number_singleton, List.length_singleton, pow_one]
    by_cases hzeros : xs.dropWhile (· = '0') = []
    · -- nothing but zeros before the last digit
      have hzero : number xs = 0 := by
        rw [← number_dropWhile_zero, hzeros, number_nil]
      rw [hzero, Nat.zero_add, Nat.toDigits_of_lt_base hlt, hchar, canonical, List.dropWhile_append,
        hzeros, List.isEmpty_nil, if_pos rfl]
      by_cases hc : c = '0'
      · rw [hc]
        rfl
      · have hkeep : [c].dropWhile (· = '0') = [c] := by
          rw [List.dropWhile_cons, if_neg (by rw [decide_eq_true_eq]; exact hc)]
        rw [hkeep, if_neg (List.cons_ne_nil _ _)]
    · -- the first digit that is no zero is in front
      have hpos : number xs ≠ 0 := by
        intro hzero
        rw [hzero, canonical, if_neg hzeros] at hx
        have hhead := List.head?_dropWhile_not (· = '0') xs
        rw [← hx] at hhead
        cases hhead
      rw [canonical, if_neg hzeros] at hx
      have hstrip : (xs ++ [c]).dropWhile (· = '0') = xs.dropWhile (· = '0') ++ [c] := by
        rw [List.dropWhile_append, if_neg (by rw [List.isEmpty_iff]; exact hzeros)]
      rw [Nat.toDigits_of_base_le (by decide) (show 10 ≤ number xs * 10 + (c.toNat - 48) by omega),
        show (number xs * 10 + (c.toNat - 48)) / 10 = number xs by omega,
        show (number xs * 10 + (c.toNat - 48)) % 10 = c.toNat - 48 by omega, hx, hchar, canonical,
        hstrip, if_neg (List.append_ne_nil_of_left_ne_nil hzeros _)]

end

/-! ## Texts with a point -/

def whole (text : List Char) : List Char := text.takeWhile (· ≠ '.')

/-- Everything behind the first point. -/
def fraction (text : List Char) : List Char := (text.dropWhile (· ≠ '.')).drop 1

def value (text : List Char) : ℚ :=
  number (whole text) + number (fraction text) / 10 ^ (fraction text).length

/-- Digits, and at most `places` digits behind a point. -/
structure Amount (places : Nat) (text : List Char) : Prop where
  whole_ne : whole text ≠ []
  whole_digits : Digits (whole text)
  fraction_digits : Digits (fraction text)
  fraction_le : (fraction text).length ≤ places

/-- No leading zeros, no trailing zeros, and no point without digits behind it. -/
structure Canonical (text : List Char) : Prop where
  whole_numeral : ∃ n, whole text = Nat.toDigits 10 n
  fraction_digits : Digits (fraction text)
  no_trailing_zero : (fraction text).getLast? ≠ some '0'
  no_bare_point : '.' ∈ text → fraction text ≠ []

/-- Digits, and a point only with digits behind it. -/
structure Numeral (text : List Char) : Prop where
  whole_ne : whole text ≠ []
  whole_digits : Digits (whole text)
  fraction_digits : Digits (fraction text)
  no_bare_point : '.' ∈ text → fraction text ≠ []

def join (w f : List Char) : List Char := if f = [] then w else w ++ '.' :: f

section
variable {w f text : List Char}

theorem Digits.point_not_mem (h : Digits w) : '.' ∉ w := fun hmem => nomatch h '.' hmem

theorem takeWhile_append_point (h : '.' ∉ w) (rest : List Char) :
    (w ++ '.' :: rest).takeWhile (· ≠ '.') = w := by
  have hall : ∀ c ∈ w, decide (c ≠ '.') = true := fun c hc =>
    decide_eq_true fun heq => h (heq ▸ hc)
  rw [takeWhile_append_of_pos hall, takeWhile_cons_of_neg (by simp), append_nil]

theorem dropWhile_append_point (h : '.' ∉ w) (rest : List Char) :
    (w ++ '.' :: rest).dropWhile (· ≠ '.') = '.' :: rest := by
  have hall : ∀ c ∈ w, decide (c ≠ '.') = true := fun c hc =>
    decide_eq_true fun heq => h (heq ▸ hc)
  rw [dropWhile_append_of_pos hall, dropWhile_cons_of_neg (by simp)]

theorem whole_append_point (h : '.' ∉ w) (rest : List Char) : whole (w ++ '.' :: rest) = w :=
  takeWhile_append_point h rest

theorem fraction_append_point (h : '.' ∉ w) (rest : List Char) :
    fraction (w ++ '.' :: rest) = rest := by
  rw [fraction, dropWhile_append_point h, drop_one, tail_cons]

theorem whole_of_not_mem (h : '.' ∉ w) : whole w = w := by
  rw [whole, takeWhile_eq_self_iff]
  intro c hc
  exact decide_eq_true fun heq => h (heq ▸ hc)

theorem fraction_of_not_mem (h : '.' ∉ w) : fraction w = [] := by
  have hnil : w.dropWhile (· ≠ '.') = [] := by
    rw [dropWhile_eq_nil_iff]
    intro c hc
    exact decide_eq_true fun heq => h (heq ▸ hc)
  rw [fraction, hnil]
  rfl

theorem whole_join (h : '.' ∉ w) : whole (join w f) = w := by
  unfold join
  split
  · exact whole_of_not_mem h
  · exact whole_append_point h f

theorem fraction_join (h : '.' ∉ w) : fraction (join w f) = f := by
  unfold join
  split
  · rename_i hf
    rw [hf]
    exact fraction_of_not_mem h
  · exact fraction_append_point h f

theorem value_join (h : '.' ∉ w) : value (join w f) = number w + number f / 10 ^ f.length := by
  rw [value, whole_join h, fraction_join h]

theorem numeral_append_point (hne : w ≠ []) (hw : Digits w) (hf : Digits f) :
    Numeral (w ++ '.' :: f) ↔ f ≠ [] := by
  have hwhole := whole_append_point hw.point_not_mem f
  have hfraction := fraction_append_point hw.point_not_mem f
  constructor
  · intro h
    have hbare := h.no_bare_point (mem_append_right _ mem_cons_self)
    rwa [hfraction] at hbare
  intro hnot
  constructor
  · rwa [hwhole]
  · rwa [hwhole]
  · rwa [hfraction]
  · intro _
    rwa [hfraction]

/-- Trailing zeros are worth nothing behind the point. -/
theorem fraction_value_rdropWhile (cs : List Char) :
    (number (cs.rdropWhile (· = '0')) : ℚ) / 10 ^ (cs.rdropWhile (· = '0')).length =
      number cs / 10 ^ cs.length := by
  induction cs using reverseRecOn with
  | nil => rfl
  | append_singleton cs c ih =>
    by_cases hc : c = '0'
    · -- the zero makes numerator and denominator ten times as large
      have hzero : number ['0'] = 0 := number_replicate_zero 1
      rw [rdropWhile_concat_pos (· = '0') _ c (decide_eq_true hc), ih, hc, number_append,
        hzero, length_append]
      push_cast
      field_simp
      ring
    · rw [rdropWhile_concat_neg (· = '0') _ c (by rw [decide_eq_true_eq]; exact hc)]

theorem fraction_value_rightpad (n : Nat) (cs : List Char) :
    (number (cs.rightpad n '0') : ℚ) / 10 ^ (cs.rightpad n '0').length =
      number cs / 10 ^ cs.length := by
  rw [List.rightpad, number_append, number_replicate_zero, length_append]
  push_cast
  field_simp
  ring

theorem rdropWhile_append_zeros (cs : List Char) :
    ∃ k, cs.rdropWhile (· = '0') ++ replicate k '0' = cs := by
  have hzeros : cs.rtakeWhile (· = '0') = replicate (cs.rtakeWhile (· = '0')).length '0' := by
    refine eq_replicate_iff.2 ⟨rfl, fun c hc => ?_⟩
    have hc := mem_rtakeWhile_imp hc
    exact of_decide_eq_true hc
  exact ⟨_, by rw [← hzeros, rdropWhile_append_rtakeWhile]⟩

/-- Zeros that are stripped and padded again. -/
theorem rightpad_rdropWhile {n : Nat} {cs : List Char} (h : cs.length ≤ n) :
    (cs.rdropWhile (· = '0')).rightpad n '0' = cs.rightpad n '0' := by
  obtain ⟨k, hk⟩ := rdropWhile_append_zeros cs
  generalize cs.rdropWhile (· = '0') = ds at hk ⊢
  rw [← hk, length_append, length_replicate] at h
  rw [← hk, List.rightpad, List.rightpad, append_assoc, replicate_append_replicate,
    length_append, length_replicate]
  congr 2
  omega

theorem Digits.rightpad (h : Digits f) (n : Nat) : Digits (f.rightpad n '0') :=
  h.append (digits_replicate_zero _)

/-- A row is worth nothing exactly if it is stripped to the end. -/
theorem rdropWhile_eq_nil_iff_number (h : Digits f) :
    f.rdropWhile (· = '0') = [] ↔ number f = 0 := by
  induction f using reverseRecOn with
  | nil => exact iff_of_true rfl rfl
  | append_singleton cs c ih =>
    have hc := h c (mem_append_right _ mem_cons_self)
    rw [number_append, number_singleton, length_singleton]
    by_cases hzero : c = '0'
    · rw [rdropWhile_concat_pos (· = '0') _ c (decide_eq_true hzero), ih h.of_append_left, hzero]
      have hcode : '0'.toNat - 48 = 0 := rfl
      omega
    rw [rdropWhile_concat_neg (· = '0') _ c (by rw [decide_eq_true_eq]; exact hzero)]
    refine iff_of_false (append_ne_nil_of_right_ne_nil _ (cons_ne_nil _ _)) ?_
    intro hnone
    have hdigit : c.toNat - 48 = 0 := by omega
    have hchar := (digitChar_of_isDigit hc).2
    rw [hdigit] at hchar
    exact hzero hchar.symm

theorem Digits.rdropWhile (h : Digits f) (p : Char → Bool) : Digits (f.rdropWhile p) :=
  fun c hc => h c (( rdropWhile_prefix p f).subset hc)

theorem getLast?_rdropWhile (cs : List Char) : (cs.rdropWhile (· = '0')).getLast? ≠ some '0' := by
  intro hlast
  have hne : cs.rdropWhile (· = '0') ≠ [] := by
    intro hnil
    rw [hnil] at hlast
    cases hlast
  have hnot := rdropWhile_last_not (· = '0') cs hne
  rw [getLast?_eq_some_getLast hne] at hlast
  exact hnot (decide_eq_true (Option.some.inj hlast))

end

end Decimals
