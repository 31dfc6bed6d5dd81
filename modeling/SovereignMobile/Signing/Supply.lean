import SovereignMobile.Identity.HandleStore
import SovereignMobile.Signing.Addresses
import Mathlib.Data.Rat.Cast.Order
import Mathlib.Tactic.FieldSimp
import Mathlib.Tactic.Linarith
import Mathlib.Tactic.Positivity
import Mathlib.Tactic.NormNum

/-! # The supply of a launched asset

`AssetService.ts` turns the whole units that a user enters into atoms and splits the number into two
64-bit halves, written in decimal; `signAssetLaunchTransaction` reads the halves back, on Android
into signed 64-bit integers. -/

/-- A JavaScript number: a double, by its exact value. -/
inductive JsNumber where
  | nan
  | infinity (negative : Bool)
  | finite (value : ℚ)
deriving DecidableEq

def JsNumber.truncate (q : ℚ) : Int := if 0 ≤ q then q.floor else q.ceil

/-- A parameter that JavaScript may pass in either form. -/
inductive StringOrNumber where
  | string (s : String)
  | number (x : JsNumber)
deriving DecidableEq

namespace AssetService

/-! ## JavaScript -/

/-- `String.prototype.trim` -/
def trim : String → String :=
  NativeIdentityProvisioning.trimWith fun c =>
    (0x09 ≤ c.val && c.val ≤ 0x0D) || c.val = 0xFEFF || NativeIdentityProvisioning.isSeparator c

/-- `/^\d+(\.\d+)?$/` with `split('.')`: the digits before and after the point. -/
def decimalParts (wholeStr : String) : Option (List Char × List Char) :=
  let intPart := wholeStr.toList.takeWhile Char.isDigit
  if intPart = [] then none
  else
    match wholeStr.toList.dropWhile Char.isDigit with
    | [] => some (intPart, [])
    | '.' :: fracPart =>
      if fracPart ≠ [] ∧ fracPart.all Char.isDigit then some (intPart, fracPart) else none
    | _ => none

inductive LaunchError where
  | notANumber
  | tooManyDecimalPlaces
  | belowMinimum
deriving DecidableEq

/-- `BigInt` of a string of digits. -/
def bigInt (digits : List Char) : Nat := Nat.ofDigitChars 10 digits 0

def toDecimal (n : Nat) : String := String.ofList (Nat.toDigits 10 n)

def wholeSupplyToAtomsLoHi (whole : String) (decimals : Nat) :
    Except LaunchError (String × String) :=
  match decimalParts (trim whole) with
  | none => .error .notANumber
  | some (intPart, fracPart) =>
    if decimals < fracPart.length then .error .tooManyDecimalPlaces
    else
      let fracPadded := fracPart ++ List.replicate (decimals - fracPart.length) '0'
      let atoms := bigInt (intPart ++ fracPadded)
      .ok (toDecimal (atoms % 2 ^ 64), toDecimal (atoms / 2 ^ 64))

/-- The number that the digits say. -/
def valueOf (parts : List Char × List Char) : ℚ :=
  bigInt parts.1 + bigInt parts.2 / 10 ^ parts.2.length

/-- `Number.isFinite(wholeNum) && wholeNum >= 1000` for the double next to `value`: below 1000 the
    doubles lie 2^-43 apart, and half way between two of them goes to the even one, 1000; from
    2^1024 - 2^970 on, the next double is infinite. -/
def passesMinimum (value : ℚ) : Bool := 1000 - 1 / 2 ^ 44 ≤ value && value < 2 ^ 1024 - 2 ^ 970

/-- `launchAsset` up to the signer, which gets the two halves. A string that is no decimal number
    fails one of the first two checks, whatever `Number` makes of it. -/
def launchAsset {α : Type} (sign : StringOrNumber → Option StringOrNumber → Option α)
    (initialSupplyWhole : String) (decimals : Nat) : Except LaunchError (Option α) :=
  match decimalParts (trim initialSupplyWhole) with
  | none => .error .notANumber
  | some parts =>
    if passesMinimum (valueOf parts) then
      match wholeSupplyToAtomsLoHi initialSupplyWhole decimals with
      | .error e => .error e
      | .ok (lo, hi) => .ok (sign (.string lo) (some (.string hi)))
    else .error .belowMinimum

end AssetService

namespace NativeIdentityProvisioning

/-! ## The native halves -/

/-- The digits of a number in base ten, at least one, by a reader of single digits. -/
def digits10 (digit : Char → Option Nat) : List Char → Option Nat
  | [] => none
  | cs => cs.foldl (fun n c => match n, digit c with
    | some n, some d => some (10 * n + d)
    | _, _ => none) (some 0)

namespace Android

/-- `Character.digit(c, 10)` -/
def characterDigit10 (c : Char) : Option Nat :=
  (decimalZeros.find? fun z => z ≤ c.toNat && c.toNat < z + 10).map (c.toNat - ·)

/-- `String.toLong()` -/
def toLong (s : String) : Option Int :=
  let parsed : Option Int := match s.toList with
    | '-' :: cs => (digits10 characterDigit10 cs).map fun n => -(n : Int)
    | '+' :: cs => (digits10 characterDigit10 cs).map Int.ofNat
    | cs => (digits10 characterDigit10 cs).map Int.ofNat
  parsed.filter fun n => -2 ^ 63 ≤ n && n < 2 ^ 63

/-- `Double.toLong()`: towards zero, within the range of `Long`. -/
def doubleToLong : JsNumber → Int
  | .nan => 0
  | .infinity negative => if negative then -2 ^ 63 else 2 ^ 63 - 1
  | .finite q => max (-2 ^ 63) (min (2 ^ 63 - 1) (JsNumber.truncate q))

def parseAmount : StringOrNumber → Option Int
  | .string s => toLong s
  | .number x => some (doubleToLong x)

/-- A low half that cannot be parsed rejects the call, a high half that cannot is 0. -/
def supplyHalves (initialSupplyAtomsLo : StringOrNumber)
    (initialSupplyAtomsHi : Option StringOrNumber) : Option (Int × Int) :=
  match parseAmount initialSupplyAtomsLo with
  | none => none
  | some supplyLo => some (supplyLo, ((initialSupplyAtomsHi.bind parseAmount).getD 0))

/-- The u128 that two `Long` halves stand for. -/
def supply (initialSupplyAtomsLo : StringOrNumber) (initialSupplyAtomsHi : Option StringOrNumber) :
    Option Nat :=
  (supplyHalves initialSupplyAtomsLo initialSupplyAtomsHi).map fun (lo, hi) =>
    (hi % 2 ^ 64).toNat * 2 ^ 64 + (lo % 2 ^ 64).toNat

end Android

namespace Ios

/-- The conversions of `NSNumber`. -/
structure NSNumber where
  uint64Value : JsNumber → Nat
  intValue : JsNumber → Int
  uint8Value : JsNumber → Nat

def decimalDigit (c : Char) : Option Nat := if c.isDigit then some (c.toNat - 48) else none

/-- `UInt64(s)` -/
def uint64 (s : String) : Option Nat :=
  match s.toList with
  | '-' :: cs => (digits10 decimalDigit cs).filter fun n => n = 0
  | '+' :: cs => (digits10 decimalDigit cs).filter fun n => n < 2 ^ 64
  | cs => (digits10 decimalDigit cs).filter fun n => n < 2 ^ 64

variable (N : NSNumber)

def supplyHalf : StringOrNumber → Option Nat
  | .string s => uint64 s
  | .number x => some (N.uint64Value x)

/-- As on Android, with unsigned halves. -/
def supplyHalves (initialSupplyAtomsLo : StringOrNumber)
    (initialSupplyAtomsHi : Option StringOrNumber) : Option (Nat × Nat) :=
  match supplyHalf N initialSupplyAtomsLo with
  | none => none
  | some supplyLo => some (supplyLo, ((initialSupplyAtomsHi.bind (supplyHalf N)).getD 0))

def supply (initialSupplyAtomsLo : StringOrNumber) (initialSupplyAtomsHi : Option StringOrNumber) :
    Option Nat :=
  (supplyHalves N initialSupplyAtomsLo initialSupplyAtomsHi).map fun (lo, hi) =>
    hi * 2 ^ 64 + lo

end Ios

end NativeIdentityProvisioning

/-! ## Decimal strings -/

namespace NativeIdentityProvisioning

open List Option

variable {digit : Char → Option Nat}

theorem digits10_of_isDigit (hdigit : ∀ c, c.isDigit = true → digit c = some (c.toNat - 48))
    {cs : List Char} (hne : cs ≠ []) (hcs : ∀ c ∈ cs, c.isDigit = true) :
    digits10 digit cs = some (Nat.ofDigitChars 10 cs 0) := by
  have hfold : ∀ cs n, (∀ c ∈ cs, c.isDigit = true) → cs.foldl (fun n c => match n, digit c with
        | some n, some d => some (10 * n + d)
        | _, _ => none) (some n) = some (Nat.ofDigitChars 10 cs n) := by
    intro cs
    induction cs with
    | nil => intro n _; simp
    | cons c cs ih =>
      intro n hcs
      rw [foldl_cons, hdigit c (hcs c (by simp))]
      exact ih _ fun c' hc' => hcs c' (by simp [hc'])
  obtain ⟨c, cs, rfl⟩ := exists_cons_of_ne_nil hne
  exact hfold (c :: cs) 0 hcs

theorem digits10_toDigits (hdigit : ∀ c, c.isDigit = true → digit c = some (c.toNat - 48)) (n : Nat)
    :
    digits10 digit (Nat.toDigits 10 n) = some n := by
  rw [digits10_of_isDigit hdigit Nat.toDigits_ne_nil
    (fun c hc => Nat.isDigit_of_mem_toDigits (by omega) (by omega) hc),
    Nat.ofDigitChars_toDigits (by omega) (by omega)]

/-- A decimal number does not start with a sign. -/
theorem exists_toDigits_eq_cons (n : Nat) :
    ∃ c cs, Nat.toDigits 10 n = c :: cs ∧ c ≠ '-' ∧ c ≠ '+' := by
  obtain ⟨c, cs, hcs⟩ := exists_cons_of_ne_nil (Nat.toDigits_ne_nil (n := n) (b := 10))
  have hc : c.isDigit = true :=
    Nat.isDigit_of_mem_toDigits (b := 10) (n := n) (by omega) (by omega) (by simp [hcs])
  refine ⟨c, cs, hcs, ?_, ?_⟩
  · rintro rfl
    exact nomatch hc
  · rintro rfl
    exact nomatch hc

theorem Android.characterDigit10_of_isDigit (c : Char) (h : c.isDigit = true) :
    Android.characterDigit10 c = some (c.toNat - 48) := by
  have hrange : 48 ≤ c.toNat ∧ c.toNat ≤ 57 := by
    rw [Char.isDigit, Bool.and_eq_true, decide_eq_true_iff, decide_eq_true_iff] at h
    exact ⟨UInt32.le_iff_toNat_le.mp h.1, UInt32.le_iff_toNat_le.mp h.2⟩
  unfold Android.characterDigit10
  generalize c.toNat = k at hrange
  obtain ⟨h1, h2⟩ := hrange
  interval_cases k <;> decide

theorem Ios.decimalDigit_of_isDigit (c : Char) (h : c.isDigit = true) :
    Ios.decimalDigit c = some (c.toNat - 48) := by
  simp [Ios.decimalDigit, h]

theorem Android.toLong_toDecimal (n : Nat) :
    Android.toLong (AssetService.toDecimal n) = if n < 2 ^ 63 then some (n : Int) else none := by
  obtain ⟨c, cs, hcs, hminus, hplus⟩ := exists_toDigits_eq_cons n
  have hdigits := digits10_toDigits Android.characterDigit10_of_isDigit n
  unfold Android.toLong AssetService.toDecimal
  rw [String.toList_ofList, hcs] at *
  split
  · rename_i heq
    exact absurd (cons.inj heq).1 hminus
  · rename_i heq
    exact absurd (cons.inj heq).1 hplus
  rw [hdigits, map_some, filter_some]
  refine if_congr ?_ rfl rfl
  rw [Int.ofNat_eq_natCast, Bool.and_eq_true, decide_eq_true_iff, decide_eq_true_iff]
  omega

theorem Ios.uint64_toDecimal (n : Nat) :
    Ios.uint64 (AssetService.toDecimal n) = if n < 2 ^ 64 then some n else none := by
  obtain ⟨c, cs, hcs, hminus, hplus⟩ := exists_toDigits_eq_cons n
  have hdigits := digits10_toDigits Ios.decimalDigit_of_isDigit n
  unfold Ios.uint64 AssetService.toDecimal
  rw [String.toList_ofList, hcs] at *
  split
  · rename_i heq
    exact absurd (cons.inj heq).1 hminus
  · rename_i heq
    exact absurd (cons.inj heq).1 hplus
  · rw [hdigits]
    simp [Option.filter]

/-! ## What the signer gets -/

/-- A high half of 2^63 or more becomes 0, a low half of that size rejects the call. -/
theorem Android.supply_toDecimal (lo hi : Nat) :
    Android.supply (.string (AssetService.toDecimal lo)) (some (.string (AssetService.toDecimal hi))) =
      if lo < 2 ^ 63 then some ((if hi < 2 ^ 63 then hi else 0) * 2 ^ 64 + lo) else none := by
  unfold Android.supply Android.supplyHalves
  simp only [Android.parseAmount, bind_some, Android.toLong_toDecimal]
  by_cases hlo : lo < 2 ^ 63
  · rw [if_pos hlo, if_pos hlo]
    by_cases hhi : hi < 2 ^ 63
    · rw [if_pos hhi, if_pos hhi, getD_some, map_some, some.injEq]
      omega
    · rw [if_neg hhi, if_neg hhi, getD_none, map_some, some.injEq]
      omega
  · rw [if_neg hlo, if_neg hlo]
    rfl

theorem Ios.supply_toDecimal (N : Ios.NSNumber) (lo hi : Nat) (hlo : lo < 2 ^ 64) :
    Ios.supply N (.string (AssetService.toDecimal lo)) (some (.string (AssetService.toDecimal hi))) =
      some ((if hi < 2 ^ 64 then hi else 0) * 2 ^ 64 + lo) := by
  unfold Ios.supply Ios.supplyHalves
  simp only [Ios.supplyHalf, bind_some, Ios.uint64_toDecimal, if_pos hlo]
  by_cases hhi : hi < 2 ^ 64
  · rw [if_pos hhi, if_pos hhi]
    rfl
  · rw [if_neg hhi, if_neg hhi]
    rfl

end NativeIdentityProvisioning

namespace AssetService

open NativeIdentityProvisioning List

theorem bigInt_append_replicate (intPart fracPart : List Char) (k : Nat) :
    bigInt (intPart ++ (fracPart ++ replicate k '0')) =
      10 ^ k * (10 ^ fracPart.length * bigInt intPart + bigInt fracPart) := by
  unfold bigInt
  rw [Nat.ofDigitChars_append, Nat.ofDigitChars_append, Nat.ofDigitChars_replicate_zero,
    Nat.ofDigitChars_eq_ofDigitChars_zero]

variable {parts : List Char × List Char} {decimals : Nat}

/-- The padded digits are the value in atoms. -/
theorem bigInt_padded (h : parts.2.length ≤ decimals) :
    (bigInt (parts.1 ++ (parts.2 ++ replicate (decimals - parts.2.length) '0')) : ℚ) =
      valueOf parts * 10 ^ decimals := by
  have hpow : (10 : ℚ) ^ decimals = 10 ^ (decimals - parts.2.length) * 10 ^ parts.2.length := by
    rw [← pow_add, Nat.sub_add_cancel h]
  rw [bigInt_append_replicate, valueOf, hpow]
  push_cast
  field_simp

/-- The split gives the two halves of the number of atoms. -/
theorem wholeSupplyToAtomsLoHi_eq {whole : String} (hparts : decimalParts (trim whole) = some parts)
    (hfrac : parts.2.length ≤ decimals) :
    ∃ atoms : Nat, (atoms : ℚ) = valueOf parts * 10 ^ decimals ∧
      wholeSupplyToAtomsLoHi whole decimals =
        .ok (toDecimal (atoms % 2 ^ 64), toDecimal (atoms / 2 ^ 64)) := by
  refine ⟨_, bigInt_padded hfrac, ?_⟩
  unfold wholeSupplyToAtomsLoHi
  rw [hparts]
  exact if_neg (by omega)

/-- The property of one launch, on both platforms. -/
structure SupplyKept (N : Ios.NSNumber) (whole : String) (decimals : Nat) : Prop where
  split : ∀ lo hi, wholeSupplyToAtomsLoHi whole decimals = .ok (lo, hi) →
    ∃ parts l h, decimalParts (trim whole) = some parts ∧ lo = toDecimal l ∧ hi = toDecimal h ∧
      l < 2 ^ 64 ∧ ((h * 2 ^ 64 + l : Nat) : ℚ) = valueOf parts * 10 ^ decimals
  signed : ∀ supply ∈ [Android.supply, Ios.supply N], ∀ n,
    launchAsset supply whole decimals = .ok (some n) →
    ∃ parts, decimalParts (trim whole) = some parts ∧ (n : ℚ) = valueOf parts * 10 ^ decimals ∧
      n < 2 ^ 128 ∧ 1000 ≤ valueOf parts
  accepted : ∀ supply ∈ [Android.supply, Ios.supply N], ∀ parts (n : Nat),
    decimalParts (trim whole) = some parts → (n : ℚ) = valueOf parts * 10 ^ decimals →
    n < 2 ^ 128 → 1000 ≤ valueOf parts →
    ∃ m, launchAsset supply whole decimals = .ok (some m)

/-- What the entered number has to meet: one that passes for 1000 is at least 1000, its atoms fit
    into 127 bits with the 64th bit clear, and a number to accept has no digits (zeros) past the
    decimals. -/
def SupplyFits (whole : String) (decimals : Nat) : Prop :=
  ∀ parts, decimalParts (trim whole) = some parts →
    ∀ atoms : Nat, (atoms : ℚ) = valueOf parts * 10 ^ decimals →
      (parts.2.length ≤ decimals → passesMinimum (valueOf parts) = true →
        1000 ≤ valueOf parts ∧ atoms < 2 ^ 127 ∧ atoms % 2 ^ 64 < 2 ^ 63) ∧
      (1000 ≤ valueOf parts → atoms < 2 ^ 128 → parts.2.length ≤ decimals)

section Launch

variable {whole : String} {decimals atoms : Nat} {parts : List Char × List Char}

variable {α : Type} {N : Ios.NSNumber}

theorem launchAsset_eq (sign : StringOrNumber → Option StringOrNumber → Option α)
    (hparts : decimalParts (trim whole) = some parts)
    (hatoms : (atoms : ℚ) = valueOf parts * 10 ^ decimals) (hfrac : parts.2.length ≤ decimals) :
    launchAsset sign whole decimals = if passesMinimum (valueOf parts) then
        .ok (sign (.string (toDecimal (atoms % 2 ^ 64))) (some (.string (toDecimal (atoms / 2 ^ 64)))))
      else .error .belowMinimum := by
  obtain ⟨atoms', hatoms', hsplit⟩ := wholeSupplyToAtomsLoHi_eq hparts hfrac
  have hsame := Nat.cast_injective (hatoms'.trans hatoms.symm)
  subst hsame
  unfold launchAsset
  rw [hparts, hsplit]

theorem decimalParts_of_launchAsset {sign : StringOrNumber → Option StringOrNumber → Option α}
    {a : Option α} (h : launchAsset sign whole decimals = .ok a) :
    ∃ parts, decimalParts (trim whole) = some parts ∧ parts.2.length ≤ decimals ∧
      passesMinimum (valueOf parts) = true := by
  unfold launchAsset at h
  split at h
  · simp at h
  rename_i parts hparts
  refine ⟨parts, hparts, ?_⟩
  split at h
  · rename_i hmin
    refine ⟨?_, hmin⟩
    by_contra hfrac
    unfold wholeSupplyToAtomsLoHi at h
    rw [hparts] at h
    simp only [if_pos (show decimals < parts.2.length by omega)] at h
    simp at h
  · simp at h

/-- Supplies that fit into 128 bits are finite doubles. -/
theorem passesMinimum_of_lt (hatoms : (atoms : ℚ) = valueOf parts * 10 ^ decimals)
    (hlt : atoms < 2 ^ 128) (hmin : 1000 ≤ valueOf parts) :
    passesMinimum (valueOf parts) = true := by
  have hone : (1 : ℚ) ≤ 10 ^ decimals := one_le_pow₀ (by norm_num)
  have hle : valueOf parts ≤ atoms := by
    rw [hatoms]
    exact le_mul_of_one_le_right (by linarith) hone
  have hlt' : (atoms : ℚ) < 2 ^ 128 := by exact_mod_cast hlt
  have hbound : (2 : ℚ) ^ 128 ≤ 2 ^ 1024 - 2 ^ 970 := by
    rw [le_sub_iff_add_le]
    calc (2 : ℚ) ^ 128 + 2 ^ 970 ≤ 2 ^ 970 + 2 ^ 970 := by
          have := pow_le_pow_right₀ (a := (2 : ℚ)) (by norm_num) (show 128 ≤ 970 by norm_num)
          gcongr
      _ = 2 ^ 971 := by rw [← two_mul, ← pow_succ']
      _ ≤ 2 ^ 1024 := pow_le_pow_right₀ (by norm_num) (by norm_num)
  rw [passesMinimum, Bool.and_eq_true, decide_eq_true_iff, decide_eq_true_iff]
  refine ⟨?_, (hle.trans_lt hlt').trans_le hbound⟩
  linarith

theorem split_kept {lo hi : String} (h : wholeSupplyToAtomsLoHi whole decimals = .ok (lo, hi)) :
    ∃ parts l h, decimalParts (trim whole) = some parts ∧ lo = toDecimal l ∧ hi = toDecimal h ∧
      l < 2 ^ 64 ∧ ((h * 2 ^ 64 + l : Nat) : ℚ) = valueOf parts * 10 ^ decimals := by
  have hfits : ∃ parts, decimalParts (trim whole) = some parts ∧ parts.2.length ≤ decimals := by
    unfold wholeSupplyToAtomsLoHi at h
    split at h
    · simp at h
    rename_i intPart fracPart hparts
    split at h
    · simp at h
    · rename_i hfrac
      exact ⟨_, hparts, not_lt.mp hfrac⟩
  obtain ⟨parts, hparts, hfrac⟩ := hfits
  obtain ⟨atoms, hatoms, hsplit⟩ := wholeSupplyToAtomsLoHi_eq hparts hfrac
  rw [hsplit, Except.ok.injEq, Prod.mk.injEq] at h
  refine ⟨parts, atoms % 2 ^ 64, atoms / 2 ^ 64, hparts, h.1.symm, h.2.symm, by omega, ?_⟩
  rw [← hatoms, Nat.div_add_mod']

/-- On iOS a high half that does not fit is dropped without a word. -/
theorem launchAsset_ios (N : Ios.NSNumber) (hparts : decimalParts (trim whole) = some parts)
    (hatoms : (atoms : ℚ) = valueOf parts * 10 ^ decimals) (hfrac : parts.2.length ≤ decimals)
    (hmin : passesMinimum (valueOf parts) = true) :
    launchAsset (Ios.supply N) whole decimals =
      .ok (some ((if atoms / 2 ^ 64 < 2 ^ 64 then atoms / 2 ^ 64 else 0) * 2 ^ 64 + atoms % 2 ^ 64)) := by
  rw [launchAsset_eq _ hparts hatoms hfrac, if_pos hmin, Ios.supply_toDecimal N _ _ (by omega)]

theorem launchAsset_android (hparts : decimalParts (trim whole) = some parts)
    (hatoms : (atoms : ℚ) = valueOf parts * 10 ^ decimals) (hfrac : parts.2.length ≤ decimals)
    (hmin : passesMinimum (valueOf parts) = true) :
    launchAsset Android.supply whole decimals = .ok (if atoms % 2 ^ 64 < 2 ^ 63 then
        some ((if atoms / 2 ^ 64 < 2 ^ 63 then atoms / 2 ^ 64 else 0) * 2 ^ 64 + atoms % 2 ^ 64)
      else none) := by
  rw [launchAsset_eq _ hparts hatoms hfrac, if_pos hmin, Android.supply_toDecimal]

theorem supplyFits_of_kept (h : SupplyKept N whole decimals) : SupplyFits whole decimals := by
  intro parts hparts atoms hatoms
  refine ⟨fun hfrac hmin => ?_, fun hmin hlt => ?_⟩
  · -- iOS signs whatever passes the minimum, so its number has to be the right one.
    obtain ⟨parts1, hparts1, hn, hlt, hvalue⟩ := h.signed _ (by simp) _
      (launchAsset_ios N hparts hatoms hfrac hmin)
    cases hparts.symm.trans hparts1
    have hios := Nat.cast_injective (hn.trans hatoms.symm)
    rw [hios] at hlt
    -- Then Android has to sign it as well.
    obtain ⟨m, hm⟩ := h.accepted Android.supply (by simp) parts atoms hparts hatoms hlt hvalue
    obtain ⟨parts2, hparts2, hm', -, -⟩ := h.signed _ (by simp) m hm
    cases hparts.symm.trans hparts2
    have hsame := Nat.cast_injective (hm'.trans hatoms.symm)
    rw [launchAsset_android hparts hatoms hfrac hmin, Except.ok.injEq] at hm
    split at hm
    · rename_i hlo
      refine ⟨hvalue, ?_, hlo⟩
      rw [Option.some.injEq] at hm
      split at hm
      · omega
      · omega
    · simp at hm
  · obtain ⟨m, hm⟩ := h.accepted Android.supply (by simp) parts atoms hparts hatoms hlt hmin
    obtain ⟨parts1, hparts1, hfrac, -⟩ := decimalParts_of_launchAsset hm
    cases hparts.symm.trans hparts1
    exact hfrac

theorem signed_of_fits (h : SupplyFits whole decimals)
    (hparts : decimalParts (trim whole) = some parts) (hfrac : parts.2.length ≤ decimals)
    (hmin : passesMinimum (valueOf parts) = true) {supply}
    (hsupply : supply ∈ [Android.supply, Ios.supply N]) :
    ∃ n : Nat, (n : ℚ) = valueOf parts * 10 ^ decimals ∧ n < 2 ^ 128 ∧ 1000 ≤ valueOf parts ∧
      launchAsset supply whole decimals = .ok (some n) := by
  obtain ⟨atoms, hatoms, -⟩ := wholeSupplyToAtomsLoHi_eq hparts hfrac
  obtain ⟨hvalue, hlt, hlo⟩ := (h parts hparts atoms hatoms).1 hfrac hmin
  refine ⟨atoms, hatoms, by omega, hvalue, ?_⟩
  rcases mem_pair.mp hsupply with rfl | rfl
  · rw [launchAsset_android hparts hatoms hfrac hmin, if_pos hlo, if_pos (by omega),
      Nat.div_add_mod']
  · rw [launchAsset_ios N hparts hatoms hfrac hmin, if_pos (by omega), Nat.div_add_mod']

/-- The launched supply is the requested one on both platforms, and no supply of 128 bits is turned
    away, exactly for the numbers that fit. -/
theorem supplyKept_iff (N : Ios.NSNumber) (whole : String) (decimals : Nat) :
    SupplyKept N whole decimals ↔ SupplyFits whole decimals := by
  refine ⟨supplyFits_of_kept, fun h => ⟨fun _ _ => split_kept, ?_, ?_⟩⟩
  · intro supply hsupply n hn
    obtain ⟨parts, hparts, hfrac, hmin⟩ := decimalParts_of_launchAsset hn
    obtain ⟨m, hm, hlt, hvalue, hlaunch⟩ := signed_of_fits h hparts hfrac hmin hsupply
    rw [hlaunch, Except.ok.injEq, Option.some.injEq] at hn
    subst hn
    exact ⟨parts, hparts, hm, hlt, hvalue⟩
  · intro supply hsupply parts n hparts hn hlt hvalue
    have hfrac := (h parts hparts n hn).2 hvalue hlt
    have hmin := passesMinimum_of_lt hn hlt hvalue
    obtain ⟨m, -, -, -, hlaunch⟩ := signed_of_fits h hparts hfrac hmin hsupply
    exact ⟨m, hlaunch⟩

end Launch

/-- 1010 units of the default 18 decimals: their low half does not fit into a `Long`, so Android
    refuses to sign. -/
theorem supply_1010_not_kept :
    (¬ ∃ N, SupplyKept N "1010" 18) ∧ launchAsset Android.supply "1010" 18 = .ok none := by
  have hparts : decimalParts (trim "1010") = some (['1', '0', '1', '0'], []) := by decide
  have hvalue : valueOf (['1', '0', '1', '0'], []) = 1010 := by
    norm_num [valueOf, show bigInt ['1', '0', '1', '0'] = 1010 by decide,
      show bigInt [] = 0 by decide]
  have hatoms : ((1010 * 10 ^ 18 : Nat) : ℚ) = valueOf (['1', '0', '1', '0'], []) * 10 ^ 18 := by
    rw [hvalue]
    norm_num
  have hmin : 1000 ≤ valueOf (['1', '0', '1', '0'], []) := by
    rw [hvalue]
    norm_num
  have hpass := passesMinimum_of_lt hatoms (by norm_num) hmin
  refine ⟨?_, ?_⟩
  · rintro ⟨N, h⟩
    have hlow := ((supplyFits_of_kept h _ hparts _ hatoms).1 (by simp) hpass).2.2
    exact absurd hlow (by norm_num)
  · rw [launchAsset_android hparts hatoms (by simp) hpass, if_neg (by norm_num)]

end AssetService
