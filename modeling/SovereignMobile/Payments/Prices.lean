import SovereignMobile.Payments.TokenUnits

/-! # Prices

`formatAtomicPrice` divides two amounts of atoms and writes the quotient digit by digit. -/

namespace TokenUnits

open Auth (trim)
open SendTokensScreen (isDigits splitPoint)
open Decimals List
open Nat (mod_lt toDigits zero_mul)
open String (toList_append toList_ofList)

structure FormatAtomicPriceOptions where
  minFractionDigits : Option Nat := none
  maxFractionDigits : Option Nat := none

def PRICE_DEFAULT_MIN_FRAC : Nat := 8

def PRICE_DEFAULT_MAX_FRAC : Nat := 18

def padZero (whole : String) (minFrac : Nat) : String :=
  if minFrac ≤ 0 then whole else whole ++ "." ++ String.ofList (List.replicate minFrac '0')

/-- The digits of the fraction, `places` at most. -/
def longDivide (denom : Nat) : (places : Nat) → (remainder : Nat) → List Char
  | 0, _ => []
  | places + 1, remainder =>
    if remainder = 0 then []
    else
      let digit := remainder * 10 / denom
      Nat.toDigits 10 digit ++ longDivide denom places (remainder * 10 % denom)

/-- `padEnd` and `replace(/0+$/, '')` -/
def padFraction (frac : List Char) (minFrac : Nat) : List Char :=
  if frac.length < minFrac then frac.rightpad minFrac '0'
  else if minFrac < frac.length then
    let stripped := frac.rdropWhile (· = '0')
    if stripped.length < minFrac then stripped.rightpad minFrac '0' else stripped
  else frac

def formatAtomicPrice (numStr denomStr : Option String)
    (opts : Option FormatAtomicPriceOptions := none) : String :=
  let minFrac := (opts.bind (·.minFractionDigits)).getD PRICE_DEFAULT_MIN_FRAC
  let maxFrac := max minFrac ((opts.bind (·.maxFractionDigits)).getD PRICE_DEFAULT_MAX_FRAC)
  match numStr, denomStr with
  | some numStr, some denomStr =>
    if numStr = "" || denomStr = "" then padZero "0" minFrac
    else
      let n := (trim numStr).toList
      let d := (trim denomStr).toList
      if !isDigits n || !isDigits d then padZero "0" minFrac
      else
        let denom := number d
        if denom = 0 then padZero "0" minFrac
        else
          let num := number n
          let frac := padFraction (longDivide denom maxFrac (num % denom)) minFrac
          String.ofList (Nat.toDigits 10 (num / denom) ++ '.' :: frac)
  | _, _ => padZero "0" minFrac

def formatAtomicPriceDisplay (numStr denomStr : Option String) (currencyPrefix : String := "$")
    (opts : Option FormatAtomicPriceOptions := none) : String :=
  let plain := formatAtomicPrice numStr denomStr opts
  let (whole, frac) := splitPoint plain.toList
  let wholeWithSep := String.ofList (insertCommas none whole)
  if frac.isEmpty then currencyPrefix ++ wholeWithSep
  else currencyPrefix ++ wholeWithSep ++ "." ++ String.ofList frac

/-! ## Long division -/

section
variable {num denom remainder places minFrac maxFrac : Nat}

theorem toDigits_digit (hpos : 0 < denom) (hlt : remainder < denom) :
    toDigits 10 (remainder * 10 / denom) = [(remainder * 10 / denom).digitChar] ∧
      remainder * 10 / denom < 10 := by
  have hdigit : remainder * 10 / denom < 10 := by
    rw [Nat.div_lt_iff_lt_mul hpos]
    omega
  exact ⟨Nat.toDigits_of_lt_base hdigit, hdigit⟩

theorem digits_longDivide (denom places : Nat) :
    ∀ remainder, Digits (longDivide denom places remainder) := by
  induction places with
  | zero =>
    intro remainder
    exact digits_nil
  | succ places ih =>
    intro remainder
    rw [longDivide]
    split
    · exact digits_nil
    · exact (digits_toDigits _).append (ih _)

theorem length_longDivide (hpos : 0 < denom) :
    ∀ remainder, remainder < denom → (longDivide denom places remainder).length ≤ places := by
  induction places with
  | zero =>
    intro remainder _
    exact Nat.le_refl 0
  | succ places ih =>
    intro remainder hlt
    rw [longDivide]
    split
    · exact Nat.zero_le _
    dsimp only
    rw [(toDigits_digit hpos hlt).1, length_append, Nat.add_comm]
    exact Nat.succ_le_succ (ih _ (mod_lt _ hpos))

/-- The digits are the quotient's. -/
theorem number_longDivide (hpos : 0 < denom) : ∀ remainder, remainder < denom →
    number (longDivide denom places remainder) *
        10 ^ (places - (longDivide denom places remainder).length) =
      remainder * 10 ^ places / denom := by
  induction places with
  | zero =>
    intro remainder hlt
    rw [longDivide, number_nil, pow_zero, Nat.mul_one, Nat.div_eq_of_lt hlt, zero_mul]
  | succ places ih =>
    intro remainder hlt
    rw [longDivide]
    split
    · -- the division has come out even
      rename_i hzero
      rw [hzero, number_nil, zero_mul, zero_mul, Nat.zero_div]
    have hnext : remainder * 10 % denom < denom := mod_lt _ hpos
    have hlen := @length_longDivide denom places hpos _ hnext
    have hrest := ih _ hnext
    obtain ⟨htext, hdigit⟩ := toDigits_digit hpos hlt
    have hcode : (remainder * 10 / denom).digitChar.toNat - 48 = remainder * 10 / denom := by
      rw [Nat.toNat_digitChar_of_lt_ten hdigit, Nat.add_sub_cancel_left]
    dsimp only
    rw [htext, number_append, number_singleton, hcode, length_append, length_singleton,
      Nat.add_comm 1, Nat.add_sub_add_right]
    have hsplit : remainder * 10 ^ (places + 1) =
        remainder * 10 % denom * 10 ^ places + remainder * 10 / denom * 10 ^ places * denom := by
      calc remainder * 10 ^ (places + 1)
          = (denom * (remainder * 10 / denom) + remainder * 10 % denom) * 10 ^ places := by
            rw [Nat.div_add_mod]
            ring
        _ = _ := by ring
    rw [hsplit, Nat.add_mul_div_right _ _ hpos, ← hrest, Nat.add_mul, Nat.mul_assoc, ← Nat.pow_add,
      Nat.add_sub_cancel' hlen, Nat.add_comm]

/-- Quotients and remainders of equal fractions. -/
theorem div_mod_of_cross {a b c d : Nat} (hb : 0 < b) (hd : 0 < d) (h : a * d = c * b) :
    a / b = c / d ∧ a % b * d = c % d * b := by
  constructor
  · calc a / b = a * d / (b * d) := (Nat.mul_div_mul_right _ _ hd).symm
      _ = c * b / (d * b) := by rw [h, Nat.mul_comm b d]
      _ = c / d := Nat.mul_div_mul_right _ _ hb
  · calc a % b * d = a * d % (b * d) := (Nat.mul_mod_mul_right _ _ _).symm
      _ = c * b % (d * b) := by rw [h, Nat.mul_comm b d]
      _ = c % d * b := Nat.mul_mod_mul_right _ _ _

theorem longDivide_congr {denom' : Nat} (hpos : 0 < denom) (hpos' : 0 < denom') :
    ∀ remainder remainder', remainder * denom' = remainder' * denom →
      longDivide denom places remainder = longDivide denom' places remainder' := by
  induction places with
  | zero =>
    intro remainder remainder' _
    rfl
  | succ places ih =>
    intro remainder remainder' hcross
    have hzero : remainder = 0 ↔ remainder' = 0 := by
      constructor
      · intro h
        rw [h, zero_mul, eq_comm, Nat.mul_eq_zero] at hcross
        omega
      · intro h
        rw [h, zero_mul, Nat.mul_eq_zero] at hcross
        omega
    have hten : remainder * 10 * denom' = remainder' * 10 * denom := by
      rw [Nat.mul_right_comm, hcross, Nat.mul_right_comm]
    obtain ⟨hdigit, hrest⟩ := div_mod_of_cross hpos hpos' hten
    rw [longDivide]
    refine if_congr hzero rfl ?_
    rw [hdigit, ih _ _ hrest]

/-! ## What is written -/

/-- Stripped to the end, then filled up to the minimum. -/
theorem padFraction_eq (frac : List Char) (minFrac : Nat) :
    padFraction frac minFrac = (frac.rdropWhile (· = '0')).rightpad minFrac '0' := by
  rw [padFraction]
  split
  · rename_i hshort
    exact (rightpad_rdropWhile (Nat.le_of_lt hshort)).symm
  split
  · dsimp only
    split
    · rfl
    rename_i hlong
    rw [List.rightpad, Nat.sub_eq_zero_of_le (Nat.not_lt.1 hlong), replicate_zero, append_nil]
  · rename_i hge hle
    have hlen : minFrac - frac.length = 0 := by omega
    rw [rightpad_rdropWhile (by omega), List.rightpad, hlen, replicate_zero, append_nil]

/-- The fraction that is written. -/
def fractionDigits (num denom minFrac maxFrac : Nat) : List Char :=
  padFraction (longDivide denom maxFrac (num % denom)) minFrac

theorem digits_fractionDigits : Digits (fractionDigits num denom minFrac maxFrac) := by
  rw [fractionDigits, padFraction_eq]
  exact ((digits_longDivide _ _ _).rdropWhile _).rightpad _

theorem length_fractionDigits (hpos : 0 < denom) (hle : minFrac ≤ maxFrac) :
    minFrac ≤ (fractionDigits num denom minFrac maxFrac).length ∧
      (fractionDigits num denom minFrac maxFrac).length ≤ maxFrac := by
  have hlen := @length_longDivide denom maxFrac hpos _ (mod_lt num hpos)
  have hstrip := ( rdropWhile_prefix (· = '0') (longDivide denom maxFrac (num % denom))).length_le
  rw [fractionDigits, padFraction_eq, List.rightpad, length_append, length_replicate]
  omega

theorem fractionDigits_no_zero (hlong : minFrac < (fractionDigits num denom minFrac maxFrac).length) :
    (fractionDigits num denom minFrac maxFrac).getLast? ≠ some '0' := by
  rw [fractionDigits, padFraction_eq, List.rightpad, length_append, length_replicate] at hlong
  rw [fractionDigits, padFraction_eq, List.rightpad]
  generalize hstrip : (longDivide denom maxFrac (num % denom)).rdropWhile (· = '0') = stripped
    at hlong ⊢
  have hnone : minFrac - stripped.length = 0 := by omega
  rw [hnone, replicate_zero, append_nil, ← hstrip]
  exact getLast?_rdropWhile _

theorem fractionDigits_value (hpos : 0 < denom) :
    (number (fractionDigits num denom minFrac maxFrac) : ℚ) /
        10 ^ (fractionDigits num denom minFrac maxFrac).length =
      (num % denom * 10 ^ maxFrac / denom : Nat) / 10 ^ maxFrac := by
  have hlt := mod_lt num hpos
  have hlen := @length_longDivide denom maxFrac hpos _ hlt
  rw [fractionDigits, padFraction_eq, fraction_value_rightpad, fraction_value_rdropWhile,
    ← number_longDivide hpos _ hlt]
  generalize longDivide denom maxFrac (num % denom) = digits at hlen ⊢
  have hpow : (10 : ℚ) ^ maxFrac = 10 ^ digits.length * 10 ^ (maxFrac - digits.length) := by
    rw [← pow_add, Nat.add_sub_cancel' hlen]
  rw [hpow]
  push_cast
  field_simp

/-- What stands behind the point, with all its places. -/
theorem mul_pow_div_denom (hpos : 0 < denom) :
    num * 10 ^ maxFrac / denom = num / denom * 10 ^ maxFrac + num % denom * 10 ^ maxFrac / denom := by
  have hsplit : num * 10 ^ maxFrac =
      num % denom * 10 ^ maxFrac + num / denom * 10 ^ maxFrac * denom := by
    calc num * 10 ^ maxFrac = (denom * (num / denom) + num % denom) * 10 ^ maxFrac := by
          rw [Nat.div_add_mod]
      _ = _ := by ring
  rw [hsplit, Nat.add_mul_div_right _ _ hpos, Nat.add_comm]

/-- Nothing stands behind the point exactly without a minimum and with nothing but zeros to write. -/
theorem fractionDigits_ne_nil_iff (hpos : 0 < denom) :
    fractionDigits num denom minFrac maxFrac ≠ [] ↔
      0 < minFrac ∨ ¬ 10 ^ maxFrac ∣ num * 10 ^ maxFrac / denom := by
  have hlt := mod_lt num hpos
  have hsmall : num % denom * 10 ^ maxFrac / denom < 10 ^ maxFrac := by
    rw [Nat.div_lt_iff_lt_mul hpos, Nat.mul_comm]
    exact Nat.mul_lt_mul_of_pos_left hlt (Nat.pow_pos (by decide))
  have hzero : 10 ^ maxFrac ∣ num * 10 ^ maxFrac / denom ↔
      num % denom * 10 ^ maxFrac / denom = 0 := by
    rw [mul_pow_div_denom hpos, Nat.dvd_add_right (Nat.dvd_mul_left _ _)]
    constructor
    · exact fun h => Nat.eq_zero_of_dvd_of_lt h hsmall
    · exact fun h => h ▸ Nat.dvd_zero _
  have hnil : (longDivide denom maxFrac (num % denom)).rdropWhile (· = '0') = [] ↔
      num % denom * 10 ^ maxFrac / denom = 0 := by
    rw [rdropWhile_eq_nil_iff_number (digits_longDivide _ _ _), ← number_longDivide hpos _ hlt,
      Nat.mul_eq_zero, or_iff_left (Nat.pow_pos (by decide)).ne']
  rw [fractionDigits, padFraction_eq, List.rightpad, ne_eq, append_eq_nil_iff, hnil, hzero,
    replicate_eq_nil_iff]
  by_cases hmin : minFrac = 0
  · simp [hmin]
  have hcut : num % denom * 10 ^ maxFrac / denom = 0 →
      (longDivide denom maxFrac (num % denom)).rdropWhile (· = '0') = [] := hnil.2
  constructor
  · intro _
    exact .inl (Nat.pos_of_ne_zero hmin)
  · rintro _ ⟨hz, hle⟩
    rw [hcut hz, length_nil] at hle
    omega

/-! ## Prices are exact -/

/-- The quotient as a decimal number, cut off after the last place; equal quotients look the same. -/
structure ExactPrice (num den : String) (minFrac maxFrac : Nat) (price : String) : Prop where
  numeral : Numeral price.toList
  value_eq : value price.toList =
    (⌊(number num.toList : ℚ) * 10 ^ maxFrac / number den.toList⌋₊ : ℚ) / 10 ^ maxFrac
  min_le : minFrac ≤ (fraction price.toList).length
  le_max : (fraction price.toList).length ≤ maxFrac
  no_trailing_zero : minFrac < (fraction price.toList).length →
    (fraction price.toList).getLast? ≠ some '0'
  same_of_equal_ratio : ∀ num' den' : String, isDigits num'.toList = true → isDigits den'.toList = true →
    0 < number den'.toList →
    number num.toList * number den'.toList = number num'.toList * number den.toList →
    formatAtomicPrice (some num') (some den') (some ⟨some minFrac, some maxFrac⟩) = price

theorem trim_of_isDigits {s : String} (h : isDigits s.toList = true) : trim s = s := by
  refine NativeIdentityProvisioning.trimWith_eq_self fun c hc => ?_
  exact isSpace_of_isDigit ((isDigits_iff.1 h).2 c hc)

/-- What is written of a price. -/
theorem formatAtomicPrice_eq {num den : String} (hnum : isDigits num.toList = true)
    (hden : isDigits den.toList = true) (hpos : 0 < number den.toList) (hle : minFrac ≤ maxFrac) :
    (formatAtomicPrice (some num) (some den) (some ⟨some minFrac, some maxFrac⟩)).toList =
      toDigits 10 (number num.toList / number den.toList) ++
        '.' :: fractionDigits (number num.toList) (number den.toList) minFrac maxFrac := by
  have hne : ∀ s : String, isDigits s.toList = true → s ≠ "" := by
    rintro s hs rfl
    exact (isDigits_iff.1 hs).1 rfl
  have hempty : ¬ (decide (num = "") || decide (den = "")) = true := by
    rw [Bool.or_eq_true, decide_eq_true_eq, decide_eq_true_eq, not_or]
    exact ⟨hne _ hnum, hne _ hden⟩
  have hmax : max minFrac maxFrac = maxFrac := Nat.max_eq_right hle
  rw [formatAtomicPrice]
  dsimp only [Option.bind_some, Option.getD_some]
  rw [if_neg hempty, trim_of_isDigits hnum, trim_of_isDigits hden, hnum, hden, hmax,
    if_neg (Nat.ne_of_gt hpos)]
  exact toList_ofList

theorem formatAtomicPrice_value {num den : String} (hnum : isDigits num.toList = true)
    (hden : isDigits den.toList = true) (hpos : 0 < number den.toList) (hle : minFrac ≤ maxFrac) :
    value (formatAtomicPrice (some num) (some den) (some ⟨some minFrac, some maxFrac⟩)).toList =
      (number num.toList * 10 ^ maxFrac / number den.toList : Nat) / 10 ^ maxFrac := by
  have hpoint := (digits_toDigits (number num.toList / number den.toList)).point_not_mem
  rw [formatAtomicPrice_eq hnum hden hpos hle, value, whole_append_point hpoint,
    fraction_append_point hpoint, fractionDigits_value hpos,
    @mul_pow_div_denom (number num.toList) (number den.toList) maxFrac hpos]
  rw [number, Nat.ofDigitChars_ten_toDigits]
  push_cast
  field_simp

theorem same_of_equal_ratio {num den num' den' : String} (hnum : isDigits num.toList = true)
    (hden : isDigits den.toList = true) (hpos : 0 < number den.toList)
    (hnum' : isDigits num'.toList = true) (hden' : isDigits den'.toList = true)
    (hpos' : 0 < number den'.toList) (hle : minFrac ≤ maxFrac)
    (hcross : number num.toList * number den'.toList = number num'.toList * number den.toList) :
    formatAtomicPrice (some num') (some den') (some ⟨some minFrac, some maxFrac⟩) =
      formatAtomicPrice (some num) (some den) (some ⟨some minFrac, some maxFrac⟩) := by
  obtain ⟨hwhole, hrest⟩ := div_mod_of_cross hpos hpos' hcross
  apply String.toList_inj.1
  rw [formatAtomicPrice_eq hnum hden hpos hle, formatAtomicPrice_eq hnum' hden' hpos' hle, hwhole,
    fractionDigits, fractionDigits, longDivide_congr hpos hpos' _ _ hrest]

theorem price_exact_iff (num den : String) (minFrac maxFrac : Nat) (hnum : isDigits num.toList = true)
    (hden : isDigits den.toList = true) (hpos : 0 < number den.toList) (hle : minFrac ≤ maxFrac) :
    ExactPrice num den minFrac maxFrac
        (formatAtomicPrice (some num) (some den) (some ⟨some minFrac, some maxFrac⟩)) ↔
      0 < minFrac ∨ ¬ 10 ^ maxFrac ∣ number num.toList * 10 ^ maxFrac / number den.toList := by
  have htext := formatAtomicPrice_eq hnum hden hpos hle
  have hwhole := digits_toDigits (number num.toList / number den.toList)
  have hfrac := @digits_fractionDigits (number num.toList) (number den.toList) minFrac maxFrac
  have hfraction := fraction_append_point hwhole.point_not_mem
    (fractionDigits (number num.toList) (number den.toList) minFrac maxFrac)
  have hnumeral := numeral_append_point Nat.toDigits_ne_nil hwhole hfrac
  rw [← fractionDigits_ne_nil_iff hpos, ← hnumeral, ← htext]
  rw [← htext] at hfraction
  constructor
  · exact ExactPrice.numeral
  · intro h
    -- only the bare point can go wrong
    constructor
    · exact h
    · rw [formatAtomicPrice_value hnum hden hpos hle, ← Nat.floor_div_eq_div (K := ℚ)]
      push_cast
      rfl
    · rw [hfraction]
      exact (length_fractionDigits hpos hle).1
    · rw [hfraction]
      exact (length_fractionDigits hpos hle).2
    · rw [hfraction]
      exact fractionDigits_no_zero
    · intro num' den' hnum' hden' hpos' hcross
      exact same_of_equal_ratio hnum hden hpos hnum' hden' hpos' hle hcross

end

/-- 1/3 to four places. -/
theorem price_exact_third : ExactPrice "1" "3" 2 4 "0.3333" := by
  have htext : formatAtomicPrice (some "1") (some "3") (some ⟨some 2, some 4⟩) = "0.3333" := by decide
  have h := price_exact_iff "1" "3" 2 4 (by decide) (by decide) (by decide) (by decide)
  rw [htext] at h
  exact h.2 (.inl (by decide))

/-- Five whole units without a minimum of digits are written `5.`, where `padZero` writes no point. -/
theorem price_bare_point :
    formatAtomicPrice (some "5") (some "1") (some ⟨some 0, some 2⟩) = "5." ∧
    padZero "5" 0 = "5" ∧
    ¬ ∀ (num den : String) (minFrac maxFrac : Nat), isDigits num.toList = true →
      isDigits den.toList = true → 0 < number den.toList → minFrac ≤ maxFrac →
      ExactPrice num den minFrac maxFrac
        (formatAtomicPrice (some num) (some den) (some ⟨some minFrac, some maxFrac⟩)) := by
  have htext : formatAtomicPrice (some "5") (some "1") (some ⟨some 0, some 2⟩) = "5." := by decide
  refine ⟨htext, rfl, fun hall => ?_⟩
  have hprice := hall "5" "1" 0 2 (by decide) (by decide) (by decide) (by decide)
  rw [htext] at hprice
  exact hprice.numeral.no_bare_point (by decide) (by decide)

/-! ## Prices on the screen -/

/-- A point without digits is not shown, and the whole part has commas. -/
theorem formatAtomicPriceDisplay_eq {numStr denomStr : Option String} {currencyPrefix : String}
    {opts : Option FormatAtomicPriceOptions} {w f : List Char} (hw : Digits w) (hf : Digits f)
    (h : (formatAtomicPrice numStr denomStr opts).toList = w ++ '.' :: f) :
    (formatAtomicPriceDisplay numStr denomStr currencyPrefix opts).toList =
      currencyPrefix.toList ++ join (insertCommas none w) f := by
  have hsplit : splitPoint (w ++ '.' :: f) = (w, f) := by
    have hwhole : whole (w ++ '.' :: f) = w := whole_append_point hw.point_not_mem f
    have hfraction : whole (fraction (w ++ '.' :: f)) = f := by
      rw [fraction_append_point hw.point_not_mem, whole_of_not_mem hf.point_not_mem]
    exact Prod.ext hwhole hfraction
  rw [formatAtomicPriceDisplay, h, hsplit]
  dsimp only
  by_cases hnone : f = []
  · rw [if_pos (List.isEmpty_iff.2 hnone), join, if_pos hnone, toList_append, toList_ofList]
  rw [if_neg (by rw [List.isEmpty_iff]; exact hnone), join, if_neg hnone, toList_append,
    toList_append, toList_append, toList_ofList, toList_ofList,
    List.append_assoc, List.append_assoc, List.singleton_append, toList_ofList]

theorem display_grouped {num den : String} {minFrac maxFrac : Nat} (currencyPrefix : String)
    (hnum : isDigits num.toList = true) (hden : isDigits den.toList = true)
    (hpos : 0 < number den.toList) (hle : minFrac ≤ maxFrac) :
    ∃ grouped, Grouped (toDigits 10 (number num.toList / number den.toList)) grouped ∧
      (formatAtomicPriceDisplay (some num) (some den) currencyPrefix
          (some ⟨some minFrac, some maxFrac⟩)).toList =
        currencyPrefix.toList ++
          join grouped (fractionDigits (number num.toList) (number den.toList) minFrac maxFrac) := by
  have hwhole := digits_toDigits (number num.toList / number den.toList)
  have htext := formatAtomicPrice_eq hnum hden hpos hle
  exact ⟨_, insertCommas_grouped Nat.toDigits_ne_nil hwhole,
    formatAtomicPriceDisplay_eq hwhole digits_fractionDigits htext⟩

theorem display_grouped_thousands :
    ∃ grouped, Grouped (toDigits 10 (number "12345".toList / number "10".toList)) grouped ∧
      (formatAtomicPriceDisplay (some "12345") (some "10") "$" (some ⟨some 2, some 4⟩)).toList =
        "$".toList ++ join grouped (fractionDigits (number "12345".toList) (number "10".toList) 2 4) :=
  display_grouped "$" (by decide) (by decide) (by decide) (by decide)

end TokenUnits
