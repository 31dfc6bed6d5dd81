import Mathlib.Algebra.Order.Floor.Semifield
import Mathlib.Data.Rat.Floor
import Mathlib.Tactic.GCongr
import SovereignMobile.Payments.SendScreen
import SovereignMobile.Text.Decimals

/-! # Token units

`tokenUnits.ts` turns the amount that a user has typed into atoms, and atoms into the amount that is
shown, digit by digit. -/

namespace TokenUnits

open Auth (trim isSpace)
open SendTokensScreen (humanToAtomic isDigits splitPoint)
open Decimals List Char
open String (ofList toList_ofList)

/-! ## Shown amounts -/

/-- `cs.replace(/^0+/, '') || '0'` -/
def stripZeros (cs : List Char) : List Char :=
  let stripped := cs.dropWhile (· = '0')
  if stripped.isEmpty then ['0'] else stripped

def atomsToDisplay (atoms : String) (decimals : Nat) (fractionDigits : Nat := 4) : String :=
  if !isDigits atoms.toList then "0"
  else if decimals ≤ 0 then atoms
  else
    -- one digit at least stays in front of the point
    let padded := atoms.toList.leftpad (decimals + 1) '0'
    let whole := padded.take (padded.length - decimals)
    let frac := padded.drop (padded.length - decimals)
    let wholeTrimmed := stripZeros whole
    if fractionDigits ≤ 0 then String.ofList wholeTrimmed
    else
      let fracTrimmed := (frac.take fractionDigits).rdropWhile (· = '0')
      String.ofList (if fracTrimmed.isEmpty then wholeTrimmed else wholeTrimmed ++ '.' :: fracTrimmed)

/-- `\w` -/
def isWord (c : Char) : Bool := c.isAlphanum || c = '_'

/-- `(?=(\d{3})+(?!\d))`: a row of digits begins here, whose length is a multiple of three. -/
def threesAhead (cs : List Char) : Bool :=
  let run := (cs.takeWhile Char.isDigit).length
  0 < run && run % 3 = 0

/-- `\B` -/
def noBoundary (before : Option Char) (cs : List Char) : Bool :=
  before.any isWord = cs.head?.any isWord

/-- `replace(/\B(?=(\d{3})+(?!\d))/g, ',')` -/
def insertCommas (before : Option Char) : List Char → List Char
  | [] => if noBoundary before [] && threesAhead [] then [','] else []
  | c :: cs =>
    if noBoundary before (c :: cs) && threesAhead (c :: cs) then ',' :: c :: insertCommas (some c) cs
    else c :: insertCommas (some c) cs

def atomsToDisplayLocale (atoms : String) (decimals : Nat) (fractionDigits : Nat := 4) : String :=
  let plain := atomsToDisplay atoms decimals fractionDigits
  let (whole, frac) := splitPoint plain.toList
  let withSep := insertCommas none whole
  String.ofList (if frac.isEmpty then withSep else withSep ++ '.' :: frac)

/-! ## What is shown -/

section
variable {atoms : String} {cs : List Char} {decimals fractionDigits : Nat}

theorem isDigits_iff : isDigits cs = true ↔ cs ≠ [] ∧ Digits cs := by
  rw [isDigits, Bool.and_eq_true, all_eq_true, Bool.not_eq_true', isEmpty_eq_false_iff]
  refine and_congr_right fun _ => forall₂_congr fun c _ => ?_
  rw [Bool.and_eq_true, decide_eq_true_eq, decide_eq_true_eq, isDigit_iff_toNat]
  rfl

theorem stripZeros_eq (cs : List Char) : stripZeros cs = canonical cs := by
  rw [stripZeros]
  refine if_congr ?_ rfl rfl
  exact isEmpty_iff

/-- The whole part and the fraction of what is shown. -/
theorem atomsToDisplay_eq (ha : isDigits atoms.toList = true) (hd : 0 < decimals) :
    ∃ frac, Digits frac ∧ frac.length ≤ decimals ∧ frac.getLast? ≠ some '0' ∧
      (atomsToDisplay atoms decimals fractionDigits).toList =
        join (Nat.toDigits 10 (number atoms.toList / 10 ^ decimals)) frac ∧
      (number frac : ℚ) / 10 ^ frac.length =
        (number atoms.toList % 10 ^ decimals / 10 ^ (decimals - min decimals fractionDigits) : Nat) /
          10 ^ min decimals fractionDigits := by
  obtain ⟨-, hdigits⟩ := isDigits_iff.1 ha
  have hpadded := hdigits.leftpad (decimals + 1)
  have hlong : decimals ≤ (atoms.toList.leftpad (decimals + 1) '0').length := by
    rw [length_leftpad]
    omega
  have hwhole := number_take_sub hpadded hlong
  have hfrac := number_drop_sub hpadded hlong
  rw [number_leftpad] at hwhole hfrac
  unfold atomsToDisplay
  rw [ha, Bool.not_true, if_neg Bool.false_ne_true, if_neg (Nat.not_le.2 hd)]
  dsimp only
  rw [stripZeros_eq, ← toDigits_number (hpadded.take _), hwhole]
  have hcut : ((atoms.toList.leftpad (decimals + 1) '0').drop
      ((atoms.toList.leftpad (decimals + 1) '0').length - decimals)).length = decimals := by
    rw [length_drop]
    omega
  have hcutdigits := hpadded.drop ((atoms.toList.leftpad (decimals + 1) '0').length - decimals)
  generalize (atoms.toList.leftpad (decimals + 1) '0').drop
    ((atoms.toList.leftpad (decimals + 1) '0').length - decimals) = cut at hfrac hcut hcutdigits ⊢
  refine ⟨(cut.take fractionDigits).rdropWhile (· = '0'), (hcutdigits.take _).rdropWhile _, ?_,
    getLast?_rdropWhile _, ?_, ?_⟩
  · have hle := ( rdropWhile_prefix (· = '0') (cut.take fractionDigits)).length_le
    rw [length_take] at hle
    omega
  · by_cases hnone : fractionDigits ≤ 0
    · rw [if_pos hnone, Nat.le_zero.1 hnone, toList_ofList]
      rfl
    · rw [if_neg hnone, toList_ofList]
      exact if_congr isEmpty_iff rfl rfl
  · rw [fraction_value_rdropWhile, number_take hcutdigits, length_take, hcut, hfrac, Nat.min_comm]

theorem atomsToDisplay_value (ha : isDigits atoms.toList = true) (hd : 0 < decimals) :
    value (atomsToDisplay atoms decimals fractionDigits).toList =
      (number atoms.toList * 10 ^ min decimals fractionDigits / 10 ^ decimals : Nat) /
        10 ^ min decimals fractionDigits := by
  obtain ⟨frac, -, -, -, htext, hfrac⟩ := @atomsToDisplay_eq atoms decimals fractionDigits ha hd
  rw [htext, value_join (digits_toDigits _).point_not_mem, hfrac,
    mul_pow_div _ (Nat.min_le_left decimals fractionDigits), number, Nat.ofDigitChars_ten_toDigits]
  push_cast
  field_simp

theorem atomsToDisplay_canonical (ha : isDigits atoms.toList = true) (hd : 0 < decimals) :
    Canonical (atomsToDisplay atoms decimals fractionDigits).toList := by
  obtain ⟨frac, hdigits, -, hlast, htext, -⟩ := @atomsToDisplay_eq atoms decimals fractionDigits ha hd
  have hpoint := (digits_toDigits (number atoms.toList / 10 ^ decimals)).point_not_mem
  rw [htext]
  exact {
    whole_numeral := ⟨_, whole_join hpoint⟩
    fraction_digits := by rw [fraction_join hpoint]; exact hdigits
    no_trailing_zero := by rw [fraction_join hpoint]; exact hlast
    no_bare_point := by
      rw [fraction_join hpoint]
      rintro hmem rfl
      exact hpoint hmem }

end

/-! ## Commas -/

/-- Commas in front of all but the first of the groups, which have three digits each. -/
def Grouped (digits grouped : List Char) : Prop :=
  ∃ (first : List Char) (groups : List (List Char)), digits = first ++ groups.flatten ∧
    0 < first.length ∧ first.length ≤ 3 ∧ (∀ g ∈ groups, g.length = 3) ∧
    grouped = first ++ groups.flatMap fun g => ',' :: g

theorem isWord_of_isDigit {c : Char} (h : c.isDigit = true) : isWord c = true := by
  rw [isWord, isAlphanum, h, Bool.or_true, Bool.true_or]

variable {cs w f : List Char}

theorem threesAhead_of_digits (h : Digits cs) :
    threesAhead cs = (0 < cs.length && cs.length % 3 = 0) := by
  have hall : cs.takeWhile isDigit = cs := takeWhile_eq_self_iff.2 h
  rw [threesAhead, hall]

theorem insertCommas_some : ∀ {before : Char}, before.isDigit = true → Digits cs →
    ∃ (first : List Char) (groups : List (List Char)), cs = first ++ groups.flatten ∧
      first.length = cs.length % 3 ∧ (∀ g ∈ groups, g.length = 3) ∧
      insertCommas (some before) cs = first ++ groups.flatMap fun g => ',' :: g := by
  induction cs with
  | nil =>
    intro before _ _
    refine ⟨[], [], rfl, rfl, ?_, ?_⟩
    · intro g hg
      cases hg
    · rw [insertCommas, threesAhead_of_digits digits_nil]
      simp
  | cons c cs ih =>
    -- whether a comma stands here depends on how many digits are left, not on those before
    intro before hbefore hdigits
    have hc := hdigits c mem_cons_self
    obtain ⟨first, groups, hcs, hfirst, hgroups, heq⟩ :=
      ih hc fun d hd => hdigits d (mem_cons_of_mem _ hd)
    have hinner : noBoundary (some before) (c :: cs) = true := by
      rw [noBoundary, head?_cons, Option.any_some, Option.any_some, isWord_of_isDigit hbefore,
        isWord_of_isDigit hc]
      rfl
    rw [insertCommas, hinner, threesAhead_of_digits hdigits, heq, length_cons]
    by_cases hthree : (cs.length + 1) % 3 = 0
    · -- a group of three begins
      refine ⟨[], (c :: first) :: groups, ?_, ?_, ?_, ?_⟩
      · rw [flatten_cons, cons_append, ← hcs]
        rfl
      · rw [hthree]
        rfl
      · intro g hg
        rcases mem_cons.1 hg with rfl | hg
        · rw [length_cons]
          omega
        · exact hgroups g hg
      · simp [hthree]
    · refine ⟨c :: first, groups, ?_, ?_, hgroups, ?_⟩
      · rw [cons_append, ← hcs]
      · rw [length_cons]
        omega
      · simp [hthree]

theorem insertCommas_grouped (hne : cs ≠ []) (h : Digits cs) :
    Grouped cs (insertCommas none cs) := by
  cases cs with
  | nil => exact absurd rfl hne
  | cons c cs =>
    have hc := h c mem_cons_self
    obtain ⟨first, groups, hcs, hfirst, hgroups, heq⟩ :=
      insertCommas_some hc fun d hd => h d (mem_cons_of_mem _ hd)
    have hedge : noBoundary none (c :: cs) = false := by
      rw [noBoundary, head?_cons, Option.any_some, isWord_of_isDigit hc]
      rfl
    rw [insertCommas, hedge, heq]
    refine ⟨c :: first, groups, ?_, Nat.succ_pos _, ?_, hgroups, rfl⟩
    · rw [cons_append, ← hcs]
    · rw [length_cons]
      omega

theorem splitPoint_join (hw : '.' ∉ w) (hf : '.' ∉ f) : splitPoint (join w f) = (w, f) := by
  have hwhole : whole (join w f) = w := whole_join hw
  have hfraction : whole (fraction (join w f)) = f := by
    rw [fraction_join hw, whole_of_not_mem hf]
  exact Prod.ext hwhole hfraction

/-- Commas come into the whole part only. -/
theorem atomsToDisplayLocale_eq {atoms : String} {decimals fractionDigits : Nat} (hw : '.' ∉ w)
    (hf : '.' ∉ f) (h : (atomsToDisplay atoms decimals fractionDigits).toList = join w f) :
    (atomsToDisplayLocale atoms decimals fractionDigits).toList =
      insertCommas none w ++ (join w f).dropWhile (· ≠ '.') := by
  rw [atomsToDisplayLocale, h, splitPoint_join hw hf]
  rw [toList_ofList, join]
  by_cases hnone : f = []
  · have hdrop : w.dropWhile (· ≠ '.') = [] := List.dropWhile_eq_nil_iff.2 fun c hc =>
      decide_eq_true fun heq => hw (heq ▸ hc)
    rw [hnone, List.isEmpty_nil, if_pos rfl, if_pos rfl, hdrop, List.append_nil]
  · rw [if_neg (by rw [List.isEmpty_iff]; exact hnone), if_neg hnone, dropWhile_append_point hw]

theorem display_truncates (atoms : String) (decimals fractionDigits : Nat)
    (ha : isDigits atoms.toList = true) (hd : 1 ≤ decimals) :
    Canonical (atomsToDisplay atoms decimals fractionDigits).toList ∧
    value (atomsToDisplay atoms decimals fractionDigits).toList =
      (⌊(number atoms.toList : ℚ) * 10 ^ min decimals fractionDigits / 10 ^ decimals⌋₊ : ℚ) /
        10 ^ min decimals fractionDigits ∧
    (∀ more : String, isDigits more.toList = true → number atoms.toList ≤ number more.toList →
      value (atomsToDisplay atoms decimals fractionDigits).toList ≤
        value (atomsToDisplay more decimals fractionDigits).toList) ∧
    ∃ grouped, Grouped (whole (atomsToDisplay atoms decimals fractionDigits).toList) grouped ∧
      (atomsToDisplayLocale atoms decimals fractionDigits).toList =
        grouped ++ (atomsToDisplay atoms decimals fractionDigits).toList.dropWhile (· ≠ '.') := by
  refine ⟨atomsToDisplay_canonical ha hd, ?_, ?_, ?_⟩
  · rw [atomsToDisplay_value ha hd, ← Nat.floor_div_eq_div (K := ℚ)]
    push_cast
    rfl
  · intro more hmore hle
    rw [atomsToDisplay_value ha hd, atomsToDisplay_value hmore hd]
    gcongr
  · obtain ⟨frac, hdigits, -, -, htext, -⟩ := @atomsToDisplay_eq atoms decimals fractionDigits ha hd
    have hwhole := digits_toDigits (number atoms.toList / 10 ^ decimals)
    rw [htext, atomsToDisplayLocale_eq hwhole.point_not_mem hdigits.point_not_mem htext,
      whole_join hwhole.point_not_mem]
    exact ⟨_, insertCommas_grouped Nat.toDigits_ne_nil hwhole, rfl⟩

theorem display_truncates_oneToken :
    Canonical "1.2345".toList ∧
    value "1.2345".toList =
      (⌊((1234567890000000000 : Nat) : ℚ) * 10 ^ min 18 4 / 10 ^ 18⌋₊ : ℚ) / 10 ^ min 18 4 := by
  have htext : atomsToDisplay "1234567890000000000" 18 4 = "1.2345" := by decide
  have hnumber : number "1234567890000000000".toList = 1234567890000000000 := by decide
  have h := display_truncates "1234567890000000000" 18 4 (by decide) (by decide)
  rw [htext] at h
  exact ⟨h.1, h.2.1⟩

/-! ## Typed amounts -/

/-- The text in front of a second point, with a point. -/
def beforeSecondPoint (text : List Char) : List Char :=
  whole text ++ '.' :: whole (fraction text)

/-- Exactly the amounts are accepted, and each is the numeral of what it is worth in atoms; an amount
    that is shown in full is read back. -/
structure Exact (amountStr : String) (decimals : Nat) : Prop where
  accepts : humanToAtomic amountStr decimals ≠ none ↔ Amount decimals (trim amountStr).toList
  worth : Amount decimals (trim amountStr).toList → ∃ n : Nat,
    humanToAtomic amountStr decimals = some (String.ofList (Nat.toDigits 10 n)) ∧
    (n : ℚ) = value (trim amountStr).toList * 10 ^ decimals
  round_trip : ∀ atoms : String, isDigits atoms.toList = true →
    humanToAtomic (atomsToDisplay atoms decimals decimals) decimals =
      some (String.ofList (Nat.toDigits 10 (number atoms.toList)))

section
variable {amountStr : String} {text : List Char} {decimals : Nat}

theorem whole_point_not_mem (text : List Char) : '.' ∉ whole text := by
  intro hmem
  exact nomatch mem_takeWhile_imp hmem

theorem amount_beforeSecondPoint_iff : Amount decimals (beforeSecondPoint text) ↔
      isDigits (whole text) = true ∧ Digits (whole (fraction text)) ∧
        (whole (fraction text)).length ≤ decimals := by
  have hw := whole_append_point (whole_point_not_mem text) (whole (fraction text))
  have hf := fraction_append_point (whole_point_not_mem text) (whole (fraction text))
  rw [isDigits_iff, beforeSecondPoint]
  constructor
  · rintro ⟨hne, hdigits, hfrac, hle⟩
    rw [hw] at hne hdigits
    rw [hf] at hfrac hle
    exact ⟨⟨hne, hdigits⟩, hfrac, hle⟩
  rintro ⟨⟨hne, hdigits⟩, hfrac, hle⟩
  constructor
  · rwa [hw]
  · rwa [hw]
  · rwa [hf]
  · rwa [hf]

variable {w f : List Char} {atoms : String}

theorem refused_iff :
    (!isDigits w || (!f.isEmpty && !isDigits f)) = true ↔ ¬ (isDigits w = true ∧ Digits f) := by
  cases hw : isDigits w with
  | false => simp
  | true =>
    by_cases hf : f = []
    · rw [hf]
      simp [digits_nil]
    have hdigits : isDigits f = true ↔ Digits f := by
      rw [isDigits_iff]
      exact and_iff_right hf
    simp [← hdigits, hf]

/-- The parts are accepted if they are digits and fit. -/
theorem humanToAtomic_cases (amountStr : String) (decimals : Nat) :
    humanToAtomic amountStr decimals = if isDigits (whole (trim amountStr).toList) = true ∧
          Digits (whole (fraction (trim amountStr).toList)) ∧
          (whole (fraction (trim amountStr).toList)).length ≤ decimals then
        some (ofList (stripZeros (whole (trim amountStr).toList ++
          whole (fraction (trim amountStr).toList) ++
          replicate (decimals - (whole (fraction (trim amountStr).toList)).length) '0')))
      else none := by
  have hsplit : splitPoint (trim amountStr).toList =
      (whole (trim amountStr).toList, whole (fraction (trim amountStr).toList)) := rfl
  rw [humanToAtomic]
  dsimp only
  rw [hsplit]
  by_cases hempty : trim amountStr = ""
  · have hnone : ¬ isDigits (whole "".toList) = true := by decide
    rw [if_pos hempty, hempty, if_neg fun h => hnone h.1]
  rw [if_neg hempty]
  generalize (trim amountStr).toList = text
  generalize whole (fraction text) = f
  generalize whole text = w
  by_cases hgood : isDigits w = true ∧ Digits f
  · rw [if_neg (by rw [refused_iff, not_not]; exact hgood)]
    by_cases hle : f.length ≤ decimals
    · have hall : isDigits w = true ∧ Digits f ∧ f.length ≤ decimals := ⟨hgood.1, hgood.2, hle⟩
      rw [if_neg (Nat.not_lt.2 hle), stripZeros]
      split <;> rfl
    · rw [if_pos (Nat.lt_of_not_le hle), if_neg fun h => hle h.2.2]
  · rw [if_pos (refused_iff.2 hgood), if_neg fun h => hgood ⟨h.1, h.2.1⟩]

/-- What the text in front of a second point is worth. -/
theorem humanToAtomic_eq (h : Amount decimals (beforeSecondPoint (trim amountStr).toList)) :
    humanToAtomic amountStr decimals = some (ofList (Nat.toDigits 10
      (number (whole (trim amountStr).toList) * 10 ^ decimals +
        number (whole (fraction (trim amountStr).toList)) *
          10 ^ (decimals - (whole (fraction (trim amountStr).toList)).length)))) := by
  rw [amount_beforeSecondPoint_iff] at h
  rw [humanToAtomic_cases, if_pos h]
  generalize (trim amountStr).toList = text at h ⊢
  generalize whole (fraction text) = f at h ⊢
  generalize whole text = w at h ⊢
  obtain ⟨hwhole, hfrac, hle⟩ := h
  have hdigits : Digits (w ++ f ++ replicate (decimals - f.length) '0') :=
    ((isDigits_iff.1 hwhole).2.append hfrac).append (digits_replicate_zero _)
  have hpow : 10 ^ decimals = 10 ^ f.length * 10 ^ (decimals - f.length) := by
    rw [← Nat.pow_add, Nat.add_sub_cancel' hle]
  rw [stripZeros_eq, ← toDigits_number hdigits, number_append, number_append, number_replicate_zero,
    length_replicate, hpow, Nat.add_zero, Nat.add_mul, Nat.mul_assoc]

theorem humanToAtomic_ne_none_iff : humanToAtomic amountStr decimals ≠ none ↔
      Amount decimals (beforeSecondPoint (trim amountStr).toList) := by
  rw [amount_beforeSecondPoint_iff, humanToAtomic_cases]
  split
  · rename_i h
    exact ⟨fun _ => h, fun _ => Option.some_ne_none _⟩
  · rename_i h
    exact ⟨fun hne => absurd rfl hne, fun hgood => absurd hgood h⟩

theorem amount_iff : Amount decimals text ↔ isDigits (whole text) = true ∧ Digits (fraction text) ∧
      (fraction text).length ≤ decimals := by
  rw [isDigits_iff]
  constructor
  · rintro ⟨hne, hdigits, hfrac, hle⟩
    exact ⟨⟨hne, hdigits⟩, hfrac, hle⟩
  · rintro ⟨⟨hne, hdigits⟩, hfrac, hle⟩
    exact ⟨hne, hdigits, hfrac, hle⟩

/-- Without a second point it is the whole text. -/
theorem amount_of_one_point (h : '.' ∉ fraction text) :
    Amount decimals (beforeSecondPoint text) ↔ Amount decimals text := by
  rw [amount_beforeSecondPoint_iff, amount_iff, whole_of_not_mem h]

theorem humanToAtomic_worth (h : Amount decimals (trim amountStr).toList) : ∃ n : Nat,
    humanToAtomic amountStr decimals = some (ofList (Nat.toDigits 10 n)) ∧
    (n : ℚ) = value (trim amountStr).toList * 10 ^ decimals := by
  have hpoint := h.fraction_digits.point_not_mem
  refine ⟨_, humanToAtomic_eq ((amount_of_one_point hpoint).2 h), ?_⟩
  rw [whole_of_not_mem hpoint]
  generalize (trim amountStr).toList = text at h ⊢
  have hpow : (10 : ℚ) ^ decimals =
      10 ^ (fraction text).length * 10 ^ (decimals - (fraction text).length) := by
    rw [← pow_add, Nat.add_sub_cancel' h.fraction_le]
  rw [value]
  push_cast
  rw [hpow]
  field_simp

theorem isSpace_of_isDigit {c : Char} (h : c.isDigit = true) : isSpace c = false := by
  obtain ⟨hlt, hchar⟩ := digitChar_of_isDigit h
  have hall : ∀ n < 10, isSpace n.digitChar = false := by decide
  rw [← hchar]
  exact hall _ hlt

theorem trim_join (hw : Digits w) (hf : Digits f) :
    trim (ofList (join w f)) = ofList (join w f) := by
  refine NativeIdentityProvisioning.trimWith_eq_self fun c hc => ?_
  rw [toList_ofList, join] at hc
  split at hc
  · exact isSpace_of_isDigit (hw c hc)
  rcases mem_append.1 hc with hc | hc
  · exact isSpace_of_isDigit (hw c hc)
  rcases mem_cons.1 hc with rfl | hc
  · decide
  · exact isSpace_of_isDigit (hf c hc)

theorem amount_join (hne : w ≠ []) (hw : Digits w) (hf : Digits f) (hle : f.length ≤ decimals) :
    Amount decimals (join w f) := by
  rw [amount_iff, whole_join hw.point_not_mem, fraction_join hw.point_not_mem]
  exact ⟨isDigits_iff.2 ⟨hne, hw⟩, hf, hle⟩

/-- Shown in full, atoms are an amount that is worth as much. -/
theorem display_amount (ha : isDigits atoms.toList = true) (decimals : Nat) :
    ∃ w f, atomsToDisplay atoms decimals decimals = ofList (join w f) ∧ Digits w ∧ Digits f ∧
      Amount decimals (join w f) ∧ value (join w f) * 10 ^ decimals = number atoms.toList := by
  obtain ⟨hne, hdigits⟩ := isDigits_iff.1 ha
  rcases Nat.eq_zero_or_pos decimals with rfl | hd
  · -- without decimals the atoms are shown as they are
    have htext : atomsToDisplay atoms 0 0 = atoms := by
      rw [atomsToDisplay, ha]
      rfl
    refine ⟨atoms.toList, [], ?_, hdigits, digits_nil, ?_, ?_⟩
    · rw [htext]
      exact String.ofList_toList.symm
    · exact amount_join hne hdigits digits_nil le_rfl
    · rw [value_join hdigits.point_not_mem]
      simp
  · obtain ⟨frac, hfrac, hle, -, htext, -⟩ := @atomsToDisplay_eq atoms decimals decimals ha hd
    have hvalue := @atomsToDisplay_value atoms decimals decimals ha hd
    have hwhole := digits_toDigits (number atoms.toList / 10 ^ decimals)
    refine ⟨_, frac, ?_, hwhole, hfrac, amount_join Nat.toDigits_ne_nil hwhole hfrac hle, ?_⟩
    · rw [← htext, String.ofList_toList]
    · rw [← htext, hvalue, Nat.min_self, Nat.mul_div_cancel _ (Nat.pow_pos (by decide))]
      field_simp

theorem humanToAtomic_atomsToDisplay (ha : isDigits atoms.toList = true) :
    humanToAtomic (atomsToDisplay atoms decimals decimals) decimals =
      some (ofList (Nat.toDigits 10 (number atoms.toList))) := by
  obtain ⟨w, f, htext, hw, hf, hamount, hvalue⟩ := display_amount ha decimals
  have htrim := trim_join hw hf
  rw [htext]
  have hworth : Amount decimals (trim (ofList (join w f))).toList := by
    rw [htrim, toList_ofList]
    exact hamount
  obtain ⟨n, heq, hn⟩ := humanToAtomic_worth hworth
  rw [htrim, toList_ofList, hvalue, Nat.cast_inj] at hn
  rw [heq, hn]

end

theorem exact_iff (amountStr : String) (decimals : Nat) :
    Exact amountStr decimals ↔ '.' ∉ fraction (trim amountStr).toList ∨
      ¬ Amount decimals (beforeSecondPoint (trim amountStr).toList) := by
  constructor
  · intro h
    by_cases hpoint : '.' ∈ fraction (trim amountStr).toList
    · -- a second point: no amount, so the text in front of it must be refused
      right
      rw [← humanToAtomic_ne_none_iff, h.accepts]
      intro hamount
      exact hamount.fraction_digits.point_not_mem hpoint
    · exact .inl hpoint
  · intro h
    refine ⟨?_, humanToAtomic_worth, fun _ => humanToAtomic_atomsToDisplay⟩
    rw [humanToAtomic_ne_none_iff]
    rcases h with hpoint | hrefused
    · exact amount_of_one_point hpoint
    · by_cases hpoint : '.' ∈ fraction (trim amountStr).toList
      · constructor
        · intro hamount
          exact absurd hamount hrefused
        · intro hamount
          exact absurd hpoint hamount.fraction_digits.point_not_mem
      · exact amount_of_one_point hpoint

/-- `1.2.3` is taken for 1.2. -/
theorem two_points_accepted :
    humanToAtomic "1.2.3" 18 = some "1200000000000000000" ∧
    ¬ ∀ (amountStr : String) (decimals : Nat), Exact amountStr decimals := by
  have haccepted : humanToAtomic "1.2.3" 18 = some "1200000000000000000" := by decide
  refine ⟨haccepted, fun hall => ?_⟩
  have hamount := (hall "1.2.3" 18).accepts.1 (by rw [haccepted]; exact Option.some_ne_none _)
  exact nomatch hamount.fraction_digits

end TokenUnits
