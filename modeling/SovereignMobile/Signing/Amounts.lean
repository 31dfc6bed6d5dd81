import SovereignMobile.Payments.Programs
import SovereignMobile.Signing.PassedOn

/-! # Amounts

`TokenService.ts` turns every amount into a string of decimal digits of at most 128 bits
(`coerceAmountAtoms`, `validateAtomsString`). `ZhtpClient.swift` reads such a string into two 64-bit
halves, `lib.rs` into a `u128`. -/

namespace NativeIdentityProvisioning

open Payments AssetService List

/-! ## JavaScript -/

/-- What a caller may pass as an amount. -/
inductive Amount where
  | stringOrNumber (v : StringOrNumber)
  | bigint (n : Int)

/-- `BigInt.prototype.toString` -/
def bigintToString (n : Int) : String :=
  if n < 0 then String.ofList ('-' :: Nat.toDigits 10 n.natAbs) else toDecimal n.toNat

def coerceAmount : Amount → Option String
  | .stringOrNumber v => coerceAmountAtoms v
  | .bigint n => validateAtomsString (bigintToString n)

variable {atoms s : String} {c : Char} {n : Int}

theorem validateAtomsString_eq_some :
    validateAtomsString atoms = some s ↔ trim atoms = s ∧ Decimal128 s.toList := by
  have hdecimal : ∀ cs : List Char, (cs ≠ [] ∧ cs.all Char.isDigit ∧ bigInt cs < 2 ^ 128) ↔
      Decimal128 cs := fun cs => by rw [Decimal128, all_eq_true]
  unfold validateAtomsString
  simp only [hdecimal]
  split
  · rename_i h
    rw [Option.some.injEq]
    constructor
    · rintro rfl
      exact ⟨rfl, h⟩
    · exact And.left
  · rename_i h
    constructor
    · exact fun hs => nomatch hs
    · rintro ⟨rfl, hs⟩
      exact absurd hs h

/-- A number that is passed on is a natural number, written in decimal. -/
theorem coerceAmountAtoms_number {x : JsNumber} (h : coerceAmountAtoms (.number x) = some s) :
    ∃ n : Nat, x = .finite n ∧ validateAtomsString (toDecimal n) = some s := by
  cases x with
  | nan | infinity => simp [coerceAmountAtoms] at h
  | finite q =>
    rw [coerceAmountAtoms] at h
    split at h
    · rename_i hq
      obtain ⟨hnonneg, hden, _⟩ := hq
      refine ⟨q.num.toNat, ?_, h⟩
      have hnum : q.num.toNat = q.num := Int.toNat_of_nonneg (Rat.num_nonneg.2 hnonneg)
      have hq : (q.num : ℚ) = q := Rat.den_eq_one_iff q |>.1 hden
      rw [← Int.cast_natCast, hnum, hq]
    · simp at h

theorem js_trim_of_digits (h : ∀ c ∈ s.toList, c.isDigit = true) : trim s = s := by
  refine trimWith_eq_self fun c hc => ?_
  have hdigits : ['0', '1', '2', '3', '4', '5', '6', '7', '8', '9'].all (fun c =>
      !((0x09 ≤ c.val && c.val ≤ 0x0D) || c.val = 0xFEFF || isSeparator c)) = true := by decide
  simpa only [Bool.not_eq_true'] using
    all_eq_true.1 hdigits c (Check.mem_digits_of_isDigit (h c hc))

theorem isDigit_toDecimal (n : Nat) : ∀ c ∈ (toDecimal n).toList, c.isDigit = true := by
  intro c hc
  rw [toDecimal, String.toList_ofList] at hc
  exact Nat.isDigit_of_mem_toDigits (by decide) (by decide) hc

theorem bigInt_toDecimal (n : Nat) : bigInt (toDecimal n).toList = n := by
  rw [toDecimal, String.toList_ofList]
  exact Nat.ofDigitChars_toDigits (by decide) (by decide)

/-- What is validated of a number in decimal is that number. -/
theorem bigInt_of_validated {n : Nat} (h : validateAtomsString (toDecimal n) = some s) :
    bigInt s.toList = n := by
  obtain ⟨rfl, _⟩ := validateAtomsString_eq_some.1 h
  rw [js_trim_of_digits (isDigit_toDecimal n), bigInt_toDecimal]

theorem mem_dropWhile {p : Char → Bool} {cs : List Char} (hc : c ∈ cs) (hp : p c = false) :
    c ∈ cs.dropWhile p := by
  induction cs with
  | nil => simp at hc
  | cons d cs ih =>
    rw [dropWhile_cons]
    split
    · rename_i hd
      rcases mem_cons.1 hc with rfl | hc
      · exact nomatch hp.symm.trans hd
      · exact ih hc
    · exact hc

/-- What is no space stays. -/
theorem mem_trimWith {isSpace : Char → Bool} (hc : c ∈ s.toList) (hspace : isSpace c = false) :
    c ∈ (trimWith isSpace s).toList := by
  rw [trimWith, String.toList_ofList, mem_reverse]
  exact mem_dropWhile (mem_reverse.2 (mem_dropWhile hc hspace)) hspace

/-- No negative number is validated. -/
theorem nonneg_of_validated (h : validateAtomsString (bigintToString n) = some s) : 0 ≤ n := by
  by_contra hneg
  rw [not_le] at hneg
  obtain ⟨rfl, _, hdigits, _⟩ := validateAtomsString_eq_some.1 h
  rw [bigintToString, if_pos hneg] at hdigits
  have hminus : '-' ∈ (trim (String.ofList ('-' :: Nat.toDigits 10 n.natAbs))).toList :=
    mem_trimWith (by simp) (by decide)
  exact nomatch hdigits _ hminus

/-- What is validated of a `bigint` is that number. -/
theorem bigInt_of_bigint (h : validateAtomsString (bigintToString n) = some s) :
    (bigInt s.toList : Int) = n := by
  have hnonneg := nonneg_of_validated h
  rw [bigintToString, if_neg (not_lt.2 hnonneg)] at h
  rw [bigInt_of_validated h, Int.toNat_of_nonneg hnonneg]

/-! ## Android -/

namespace Android

/-- `str::trim` of Rust -/
def strTrim : String → String :=
  trimWith fun c => (0x09 ≤ c.val && c.val ≤ 0x0D) || c.val = 0x85 || isSeparator c

/-- The loop of `u128::from_str`, with `checked_mul` and `checked_add`. -/
def u128Loop (result : Nat) : List Char → Option Nat
  | [] => some result
  | c :: cs =>
    if 2 ^ 128 ≤ result * 10 then none
    else if c.isDigit then
      if 2 ^ 128 ≤ result * 10 + (c.toNat - 48) then none
      else u128Loop (result * 10 + (c.toNat - 48)) cs
    else none

/-- `str::parse::<u128>`: a plus may stand before the digits. -/
def parseU128 (s : String) : Option Nat :=
  match s.toList with
  | [] => none
  | ['+'] => none
  | '+' :: cs => u128Loop 0 cs
  | cs => u128Loop 0 cs

/-- `parse_amount_atoms_provisioning` of `lib.rs` -/
def parseAmountAtomsProvisioning (amount : String) : Option Nat := parseU128 (strTrim amount)

theorem u128Loop_eq (cs : List Char) : ∀ n < 2 ^ 128, (∀ c ∈ cs, c.isDigit = true) → u128Loop n cs =
        if Nat.ofDigitChars 10 cs n < 2 ^ 128 then some (Nat.ofDigitChars 10 cs n) else none := by
  induction cs with
  | nil =>
    intro n hn _
    rw [Nat.ofDigitChars_nil, if_pos hn]
    rfl
  | cons c cs ih =>
    intro n hn hcs
    have hle := Check.ofDigitChars_le cs (10 * n + (c.toNat - 48))
    rw [u128Loop, Nat.ofDigitChars_cons, show '0'.toNat = 48 from rfl, Nat.mul_comm n 10,
      if_pos (hcs c (by simp))]
    split
    · exact (if_neg (by omega)).symm
    split
    · exact (if_neg (by omega)).symm
    · exact ih _ (by omega) fun c' hc' => hcs c' (by simp [hc'])

variable {s : String}

theorem strTrim_of_digits (h : ∀ c ∈ s.toList, c.isDigit = true) : strTrim s = s := by
  refine trimWith_eq_self fun c hc => ?_
  have hdigits : ['0', '1', '2', '3', '4', '5', '6', '7', '8', '9'].all (fun c =>
      !((0x09 ≤ c.val && c.val ≤ 0x0D) || c.val = 0x85 || isSeparator c)) = true := by decide
  simpa only [Bool.not_eq_true'] using
    all_eq_true.1 hdigits c (Check.mem_digits_of_isDigit (h c hc))

theorem parseAmountAtomsProvisioning_eq (hne : s.toList ≠ [])
    (hdigits : ∀ c ∈ s.toList, c.isDigit = true) :
    parseAmountAtomsProvisioning s =
      if bigInt s.toList < 2 ^ 128 then some (bigInt s.toList) else none := by
  have hloop := u128Loop_eq s.toList 0 (by decide) hdigits
  rw [parseAmountAtomsProvisioning, strTrim_of_digits hdigits, parseU128]
  split
  · rename_i hnil
    exact absurd hnil hne
  iterate 2
    · rename_i hplus
      exact nomatch hdigits '+' (by simp [hplus])
  · exact hloop

end Android

/-! ## Both sides of the bridge -/

/-- iOS and Android read the string as the number `n`. -/
structure ReadAs (F : Ios.Foundation) (s : String) (n : Nat) : Prop where
  ios : ∃ lo hi, Ios.parseU128Halves F.wholeNumberValue s = some (lo, hi) ∧ lo < 2 ^ 64 ∧
    hi < 2 ^ 64 ∧ hi * 2 ^ 64 + lo = n
  android : Android.parseAmountAtomsProvisioning s = some n

theorem readAs_of_validated (F : Ios.Foundation) (h : validateAtomsString atoms = some s) :
    ReadAs F s (bigInt s.toList) := by
  obtain ⟨_, hne, hdigits, hlt⟩ := validateAtomsString_eq_some.1 h
  constructor
  · refine ⟨bigInt s.toList % 2 ^ 64, bigInt s.toList / 2 ^ 64, ?_, ?_, ?_, ?_⟩
    · rw [Check.parseU128Halves_eq F.wholeNumberValue_digit hne hdigits, if_pos hlt]
    · exact Nat.mod_lt _ (by decide)
    · omega
    · exact Nat.div_add_mod' _ _
  · rw [Android.parseAmountAtomsProvisioning_eq hne hdigits, if_pos hlt]

theorem readAs_of_coerced (F : Ios.Foundation) {a : Amount} (h : coerceAmount a = some s) :
    ReadAs F s (bigInt s.toList) := by
  cases a with
  | bigint n =>
    rw [coerceAmount] at h
    exact readAs_of_validated F h
  | stringOrNumber v =>
    rw [coerceAmount] at h
    cases v with
    | string atoms =>
      rw [coerceAmountAtoms] at h
      exact readAs_of_validated F h
    | number x =>
      obtain ⟨n, -, hn⟩ := coerceAmountAtoms_number h
      exact readAs_of_validated F hn

/-- **Amounts.** Whatever string JavaScript passes on as an amount, iOS and Android read the number
    that it says, which is the number that was passed if it was one. A number that is too large is
    rejected by all three. -/
theorem amounts_readAs (F : Ios.Foundation) :
    (∀ atoms s, validateAtomsString atoms = some s → ReadAs F s (bigInt s.toList)) ∧
    (∀ a s, coerceAmount a = some s → ReadAs F s (bigInt s.toList)) ∧
    (∀ x s, coerceAmount (.stringOrNumber (.number x)) = some s → x = .finite (bigInt s.toList : Nat)) ∧
    (∀ n s, coerceAmount (.bigint n) = some s → n = (bigInt s.toList : Nat)) ∧
    ∀ s : String, s.toList ≠ [] → (∀ c ∈ s.toList, c.isDigit = true) → 2 ^ 128 ≤ bigInt s.toList →
      validateAtomsString s = none ∧ Ios.parseU128Halves F.wholeNumberValue s = none ∧
        Android.parseAmountAtomsProvisioning s = none := by
  refine ⟨fun _ _ => readAs_of_validated F, fun _ _ => readAs_of_coerced F, fun x s h => ?_,
    fun n s h => ?_, fun s hne hdigits hle => ⟨?_, ?_, ?_⟩⟩
  · rw [coerceAmount] at h
    obtain ⟨n, rfl, hn⟩ := coerceAmountAtoms_number h
    rw [bigInt_of_validated hn]
  · rw [coerceAmount] at h
    exact (bigInt_of_bigint h).symm
  · rw [Option.eq_none_iff_forall_ne_some]
    intro s' h
    obtain ⟨rfl, _, _, hlt⟩ := validateAtomsString_eq_some.1 h
    rw [js_trim_of_digits hdigits] at hlt
    exact absurd hlt (not_lt.2 hle)
  · rw [Check.parseU128Halves_eq F.wholeNumberValue_digit hne hdigits, if_neg (not_lt.2 hle)]
  · rw [Android.parseAmountAtomsProvisioning_eq hne hdigits, if_neg (not_lt.2 hle)]

end NativeIdentityProvisioning
