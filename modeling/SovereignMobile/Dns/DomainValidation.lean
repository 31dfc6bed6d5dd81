import SovereignMobile.Auth.Types
import SovereignMobile.Quic.RequestTargets

/-! # Names that can be registered

`domainValidation.ts`: the format of a `.sov` domain, its classification, and which domains are
reserved. -/

namespace DomainValidation

open Char
open Auth (trim isSpace utf16Length)
open NativeIdentityProvisioning (endsWith)
open String (ofList toList)

/-- `String.prototype.toLowerCase`, with what it does to ASCII text, to the case of ASCII letters and to
    spaces at either end. What it does to other letters is up to the Unicode tables. -/
structure LowerCase where
  lower : List Char → List Char
  ascii : ∀ cs, (∀ c ∈ cs, c.val < 0x80) → lower cs = cs.map Char.toLower
  ignores_case : ∀ cs, lower (cs.map Char.toLower) = lower cs
  space_cons : ∀ c cs, isSpace c = true → lower (c :: cs) = c :: lower cs
  append_space : ∀ cs c, isSpace c = true → lower (cs ++ [c]) = lower cs ++ [c]

def LowerCase.toLowerCase (L : LowerCase) (s : String) : String := String.ofList (L.lower s.toList)

inductive Classification where
  | commercial | welfare_delegated | reserved_welfare | reserved_meta
  deriving DecidableEq

structure DomainValidationResult where
  valid : Bool
  errors : List String
  classification : Option Classification := none
  isReserved : Option Bool := none
  deriving DecidableEq

def RESERVED_WELFARE_SECTORS : List String := ["food", "health", "edu", "housing", "energy"]

def META_GOVERNANCE_ROOT : String := "dao"

/-- `[a-z0-9-]` -/
def isLabelChar (c : Char) : Bool :=
  ('a' ≤ c && c ≤ 'z') || ('0' ≤ c && c ≤ '9') || c = '-'

/-- What is wrong with the label at index `i`. -/
def labelError (i : Nat) (label : String) : Option String :=
  if utf16Length label = 0 then some ("Label " ++ toString (i + 1) ++ ": Cannot be empty")
  else if 63 < utf16Length label then
    some ("Label " ++ toString (i + 1) ++ ": Cannot exceed 63 characters")
  else if !label.toList.all isLabelChar then
    some ("Label " ++ toString (i + 1) ++
      ": Contains invalid characters (only lowercase a-z, 0-9, and hyphens allowed)")
  else if label.toList.head? = some '-' || label.toList.getLast? = some '-' then
    some ("Label " ++ toString (i + 1) ++ ": Cannot start or end with hyphen")
  else none

/-- Rules 2 to 4. -/
def formatErrors (labels : List String) (normalizedDomain : String) : List String :=
  (if 8 < labels.length then ["Domain can have maximum 8 levels (labels)"] else []) ++
  (labels.zipIdx.filterMap fun (label, i) => labelError i label) ++
  (if 253 < utf16Length normalizedDomain then ["Domain cannot exceed 253 characters"] else [])

def classifyDomain (labels : List String) : Classification :=
  if labels.length = 0 then .commercial
  else if labels.length = 1 && labels[0]? = some META_GOVERNANCE_ROOT then .reserved_meta
  else if labels.length = 2 && labels[1]? = some META_GOVERNANCE_ROOT &&
      labels[0]?.any RESERVED_WELFARE_SECTORS.contains then .reserved_welfare
  else if 2 ≤ labels.length && labels[labels.length - 1]?.any RESERVED_WELFARE_SECTORS.contains then
    .welfare_delegated
  else .commercial

def isReservedDomain (L : LowerCase) (domain : String) : Bool :=
  let normalizedDomain := trim (L.toLowerCase domain)
  normalizedDomain = "dao.sov" ||
    RESERVED_WELFARE_SECTORS.any fun sector => normalizedDomain = sector ++ ".dao.sov"

def reservationReason (normalizedDomain : String) (labels : List String) : String :=
  if normalizedDomain = "dao.sov" then "Reserved for meta-governance root"
  else if endsWith normalizedDomain ".dao.sov" then
    "Reserved welfare sector - cannot register under .dao.sov"
  else if 1 < labels.length && labels[0]? = some META_GOVERNANCE_ROOT then
    "Requires ownership of the parent domain"
  else ""

/-- `slice(0, -4)` -/
def withoutSuffix (normalizedDomain : String) : List Char :=
  normalizedDomain.toList.take (normalizedDomain.toList.length - 4)

/-- `split('.')` -/
def labelsOf (normalizedDomain : String) : List String :=
  ((withoutSuffix normalizedDomain).splitOn '.').map String.ofList

def validateDomainFormat (L : LowerCase) (domain : String) : DomainValidationResult :=
  if domain = "" then { valid := false, errors := ["Domain is required"] }
  else
    let normalizedDomain := trim (L.toLowerCase domain)
    if !endsWith normalizedDomain ".sov" then
      { valid := false, errors := ["Domain must end with .sov"] }
    else if (withoutSuffix normalizedDomain).isEmpty then
      { valid := false, errors := ["Domain cannot be just \".sov\""] }
    else
      let labels := labelsOf normalizedDomain
      let errors := formatErrors labels normalizedDomain
      if !errors.isEmpty then { valid := false, errors := errors }
      else
        let classification := classifyDomain labels
        if isReservedDomain L normalizedDomain then
          { valid := false
            errors := ["Reserved domain: " ++ reservationReason normalizedDomain labels]
            classification := some classification
            isReserved := some true }
        else
          { valid := true
            errors := []
            classification := some classification
            isReserved := some false }

/-! ## The grammar -/

/-- 1 to 63 letters, digits and hyphens, and no hyphen at either end. -/
structure Label (cs : List Char) : Prop where
  ne_nil : cs ≠ []
  length_le : cs.length ≤ 63
  chars : ∀ c ∈ cs, isLabelChar c = true
  head_ne : cs.head? ≠ some '-'
  last_ne : cs.getLast? ≠ some '-'

/-- 1 to 8 labels, and `.sov`. -/
def Format (cs : List Char) : Prop :=
  ∃ labels : List (List Char), cs = ['.'].intercalate labels ++ ".sov".toList ∧ labels ≠ [] ∧
    labels.length ≤ 8 ∧ (∀ l ∈ labels, Label l) ∧ cs.length ≤ 253

/-! ## Characters -/

section
variable {c : Char} {s : String} {cs : List Char}

theorem isLabelChar_iff : isLabelChar c = true ↔
    (97 ≤ c.val ∧ c.val ≤ 122) ∨ (48 ≤ c.val ∧ c.val ≤ 57) ∨ c = '-' := by
  rw [isLabelChar, Bool.or_eq_true, Bool.or_eq_true, Bool.and_eq_true, Bool.and_eq_true,
    decide_eq_true_eq, decide_eq_true_eq, decide_eq_true_eq, decide_eq_true_eq, decide_eq_true_eq, or_assoc]
  rfl

/-- The characters of a well-formed domain. -/
def isDomainChar (c : Char) : Bool := isLabelChar c || c = '.'

theorem isDomainChar_ascii (h : isDomainChar c = true) : c.val < 0x80 := by
  rw [isDomainChar, Bool.or_eq_true, isLabelChar_iff, decide_eq_true_eq] at h
  rcases h with (h | h | rfl) | rfl
  · exact UInt32.lt_of_le_of_lt h.2 (by decide)
  · exact UInt32.lt_of_le_of_lt h.2 (by decide)
  · decide
  · decide

theorem domainChars_plain : ∀ n < 128, isDomainChar (Char.ofNat n) = true →
    (Char.ofNat n).toLower = Char.ofNat n ∧ isSpace (Char.ofNat n) = false := by decide

theorem plain_of_isDomainChar (h : isDomainChar c = true) : c.toLower = c ∧ isSpace c = false := by
  have hlt : c.toNat < 128 := UInt32.lt_iff_toNat_lt.1 (isDomainChar_ascii h)
  have hplain := domainChars_plain c.toNat hlt
  rw [ofNat_toNat] at hplain
  exact hplain h

theorem utf16Length_eq (h : ∀ c ∈ s.toList, isDomainChar c = true) :
    utf16Length s = s.toList.length := by
  have hone : ∀ c ∈ s.toList, (if c.val < 0x10000 then 1 else 2) = 1 := by
    intro c hc
    exact if_pos (UInt32.lt_trans (isDomainChar_ascii (h c hc)) (by decide))
  rw [utf16Length, List.map_congr_left hone, List.map_const', List.sum_replicate_nat, Nat.mul_one]

theorem Label.isDomainChar (h : Label cs) : ∀ c ∈ cs, isDomainChar c = true := by
  intro c hc
  rw [DomainValidation.isDomainChar, h.chars c hc, Bool.true_or]

theorem Label.no_point (h : Label cs) : '.' ∉ cs := by
  intro hmem
  exact nomatch h.chars '.' hmem

/-- One error for whatever is wrong with a label. -/
theorem labelError_eq_none_iff (i : Nat) : labelError i s = none ↔ Label s.toList := by
  have hlen : (∀ c ∈ s.toList, isLabelChar c = true) → utf16Length s = s.toList.length := by
    intro hchars
    refine utf16Length_eq fun c hc => ?_
    rw [DomainValidation.isDomainChar, hchars c hc, Bool.true_or]
  rw [labelError]
  constructor
  · intro h
    split at h
    · cases h
    rename_i hne
    split at h
    · cases h
    rename_i hle
    split at h
    · cases h
    rename_i hchars
    split at h
    · cases h
    rename_i hends
    rw [Bool.not_eq_true, Bool.not_eq_false', List.all_eq_true] at hchars
    rw [Bool.not_eq_true, Bool.or_eq_false_iff, decide_eq_false_iff_not,
      decide_eq_false_iff_not] at hends
    rw [hlen hchars] at hne hle
    exact {
      ne_nil := fun hnil => hne (by rw [hnil]; rfl)
      length_le := Nat.le_of_not_lt hle
      chars := hchars
      head_ne := hends.1
      last_ne := hends.2 }
  · intro h
    have hpos : 0 < s.toList.length := List.length_pos_iff.2 h.ne_nil
    rw [hlen h.chars, if_neg (Nat.ne_of_gt hpos), if_neg (Nat.not_lt.2 h.length_le),
      List.all_eq_true.2 h.chars, Bool.not_true, if_neg Bool.false_ne_true,
      decide_eq_false h.head_ne, decide_eq_false h.last_ne, Bool.or_false, if_neg Bool.false_ne_true]

end

/-! ## Acceptance -/

section
variable {s : String} {labels : List String} {cs : List Char}

theorem formatErrors_eq_nil_iff : formatErrors labels s = [] ↔
    labels.length ≤ 8 ∧ (∀ l ∈ labels, Label l.toList) ∧ utf16Length s ≤ 253 := by
  have hif : ∀ p [Decidable p] (e : String), (if p then [e] else []) = [] ↔ ¬p := by
    intro p _ e
    by_cases h : p <;> simp
  have hall : (labels.zipIdx.filterMap fun x => labelError x.2 x.1) = [] ↔
      ∀ l ∈ labels, Label l.toList := by
    rw [List.filterMap_eq_nil_iff]
    constructor
    · intro h l hl
      obtain ⟨i, hi⟩ := List.mem_iff_getElem?.1 hl
      exact (labelError_eq_none_iff _).1 (h _ (List.mk_mem_zipIdx_iff_getElem?.2 hi))
    · intro h x hx
      exact (labelError_eq_none_iff _).2 (h _ (List.fst_mem_of_mem_zipIdx hx))
  rw [formatErrors, List.append_eq_nil_iff, List.append_eq_nil_iff, hif, hif, hall, Nat.not_lt,
    Nat.not_lt, and_assoc]

theorem withoutSuffix_append (h : s.toList = cs ++ ".sov".toList) : withoutSuffix s = cs := by
  have hlen : (cs ++ ".sov".toList).length - 4 = cs.length := by
    rw [List.length_append]
    exact Nat.add_sub_cancel cs.length 4
  rw [withoutSuffix, h, hlen, List.take_left']
  rfl

theorem isDomainChar_of_labels {labels : List (List Char)} (hlabels : ∀ l ∈ labels, Label l) :
    ∀ c ∈ ['.'].intercalate labels ++ ".sov".toList, isDomainChar c = true := by
  intro c hc
  rcases List.mem_append.1 hc with hc | hc
  · rcases QuicUrls.mem_intercalate hc with rfl | ⟨l, hl, hc⟩
    · decide
    · exact (hlabels l hl).isDomainChar c hc
  · have hall : ".sov".toList.all isDomainChar = true := by decide
    exact List.all_eq_true.1 hall c hc

theorem Format.isDomainChar (h : Format cs) : ∀ c ∈ cs, isDomainChar c = true := by
  obtain ⟨labels, rfl, -, -, hlabels, -⟩ := h
  exact isDomainChar_of_labels hlabels

/-- The labels of a well-formed domain are those of the grammar. -/
theorem labelsOf_eq {labels : List (List Char)} (h : s.toList = ['.'].intercalate labels ++ ".sov".toList)
    (hne : labels ≠ []) (hlabels : ∀ l ∈ labels, Label l) : labelsOf s = labels.map ofList := by
  rw [labelsOf, withoutSuffix_append h,
    List.splitOn_intercalate '.' (fun l hl => (hlabels l hl).no_point) hne]

/-- The rules accept the grammar. -/
theorem format_iff : Format s.toList ↔
    endsWith s ".sov" = true ∧ withoutSuffix s ≠ [] ∧ formatErrors (labelsOf s) s = [] := by
  rw [endsWith, List.isSuffixOf_iff_suffix, formatErrors_eq_nil_iff]
  constructor
  · intro h
    have hchars := h.isDomainChar
    obtain ⟨labels, heq, hne, hcount, hlabels, hlen⟩ := h
    rw [labelsOf_eq heq hne hlabels, withoutSuffix_append heq, List.length_map, utf16Length_eq hchars]
    refine ⟨⟨_, heq.symm⟩, ?_, hcount, ?_, hlen⟩
    · intro hnil
      obtain ⟨l, hl⟩ := List.exists_mem_of_ne_nil labels hne
      obtain ⟨c, hc⟩ := List.exists_mem_of_ne_nil l (hlabels l hl).ne_nil
      exact absurd (QuicUrls.mem_intercalate_of_mem hl hc) (by rw [hnil]; exact List.not_mem_nil)
    · intro l hl
      obtain ⟨l', hl', rfl⟩ := List.mem_map.1 hl
      rw [String.toList_ofList]
      exact hlabels l' hl'
  · rintro ⟨⟨front, hfront⟩, hne, hcount, hlabels, hlen⟩
    have hfront := hfront.symm
    have hwithout := withoutSuffix_append hfront
    rw [labelsOf, hwithout] at hcount hlabels
    have hall : ∀ l ∈ front.splitOn '.', Label l := by
      intro l hl
      have hlabel := hlabels _ (List.mem_map_of_mem hl)
      rwa [String.toList_ofList] at hlabel
    rw [List.length_map] at hcount
    have heq : s.toList = ['.'].intercalate (front.splitOn '.') ++ ".sov".toList := by
      rw [List.intercalate_splitOn, hfront]
    have hne' : front.splitOn '.' ≠ [] := List.splitOn_ne_nil '.' front
    refine ⟨_, heq, hne', hcount, hall, ?_⟩
    -- a text of such labels has no surrogates
    have hchars : ∀ c ∈ s.toList, isDomainChar c = true := by
      rw [heq]
      exact isDomainChar_of_labels hall
    rwa [utf16Length_eq hchars] at hlen

end

/-! ## Case and spaces -/

section
variable {L : LowerCase} {s t : String}

theorem lower_spaces {cs : List Char} : ∀ {front back : List Char}, (∀ c ∈ front, isSpace c = true) →
    (∀ c ∈ back, isSpace c = true) → L.lower (front ++ cs ++ back) = front ++ L.lower cs ++ back := by
  intro front back hfront hback
  induction front with
  | nil =>
    rw [List.nil_append, List.nil_append]
    induction back using List.reverseRecOn with
    | nil => rw [List.append_nil, List.append_nil]
    | append_singleton back c ih =>
      have hc := hback c (List.mem_append_right _ List.mem_cons_self)
      rw [← List.append_assoc, L.append_space _ c hc,
        ih fun d hd => hback d (List.mem_append_left _ hd), List.append_assoc]
  | cons c front ih =>
    have hc := hfront c List.mem_cons_self
    rw [List.cons_append, List.cons_append, L.space_cons c _ hc,
      ih fun d hd => hfront d (List.mem_cons_of_mem _ hd)]
    rfl

/-- Spaces can be trimmed first. -/
theorem trim_toLowerCase (L : LowerCase) (s : String) :
    trim (L.toLowerCase s) = trim (L.toLowerCase (trim s)) := by
  obtain ⟨front, back, hsplit, hfront, hback⟩ := NativeIdentityProvisioning.trimWith_split isSpace s
  rw [LowerCase.toLowerCase, hsplit, lower_spaces hfront hback]
  exact NativeIdentityProvisioning.trimWith_spaces hfront hback

/-- What is validated depends on neither case nor spaces around. -/
theorem normalized_congr (h : Auth.toLowerCase (trim s) = Auth.toLowerCase (trim t)) :
    trim (L.toLowerCase s) = trim (L.toLowerCase t) := by
  have hlower : L.toLowerCase (trim s) = L.toLowerCase (trim t) := by
    rw [LowerCase.toLowerCase, LowerCase.toLowerCase, ← L.ignores_case, ← L.ignores_case (trim t).toList]
    rw [Auth.toLowerCase, Auth.toLowerCase, String.ofList_inj] at h
    rw [h]
  rw [trim_toLowerCase, hlower, ← trim_toLowerCase]

theorem normalized_of_format (h : Format s.toList) : trim (L.toLowerCase s) = s := by
  have hascii : ∀ c ∈ s.toList, c.val < 0x80 := fun c hc => isDomainChar_ascii (h.isDomainChar c hc)
  have hmap : s.toList.map toLower = s.toList := by
    rw [List.map_congr_left fun c hc => (plain_of_isDomainChar (h.isDomainChar c hc)).1, List.map_id']
  rw [LowerCase.toLowerCase, L.ascii _ hascii, hmap, String.ofList_toList]
  exact NativeIdentityProvisioning.trimWith_eq_self fun c hc =>
    (plain_of_isDomainChar (h.isDomainChar c hc)).2

end

/-! ## The results -/

variable {L : LowerCase} {d s : String} {c : Char}

theorem validateDomainFormat_of_format (h : Format (trim (L.toLowerCase d)).toList) :
    validateDomainFormat L d =
      if isReservedDomain L d then
        { valid := false
          errors := ["Reserved domain: " ++
            reservationReason (trim (L.toLowerCase d)) (labelsOf (trim (L.toLowerCase d)))]
          classification := some (classifyDomain (labelsOf (trim (L.toLowerCase d))))
          isReserved := some true }
      else
        { valid := true
          errors := []
          classification := some (classifyDomain (labelsOf (trim (L.toLowerCase d))))
          isReserved := some false } := by
  have hne : d ≠ "" := by
    rintro rfl
    have hempty : L.toLowerCase "" = "" := by
      have hascii : ∀ c ∈ "".toList, c.val < 0x80 := by
        intro c hc
        cases hc
      rw [LowerCase.toLowerCase, L.ascii _ hascii]
      rfl
    rw [hempty] at h
    exact absurd (format_iff.1 h).1 (by decide)
  have hsame : isReservedDomain L (trim (L.toLowerCase d)) = isReservedDomain L d := by
    rw [isReservedDomain, isReservedDomain, normalized_of_format h]
  obtain ⟨hsuffix, hwithout, herrors⟩ := format_iff.1 h
  rw [validateDomainFormat, if_neg hne]
  dsimp only
  rw [hsuffix, herrors, hsame, Bool.not_true, if_neg Bool.false_ne_true,
    if_neg (by rw [List.isEmpty_iff]; exact hwithout), List.isEmpty_nil, Bool.not_true,
    if_neg Bool.false_ne_true]

theorem validateDomainFormat_of_not_format (h : ¬Format (trim (L.toLowerCase d)).toList) :
    (validateDomainFormat L d).valid = false ∧ (validateDomainFormat L d).isReserved = none := by
  rw [format_iff] at h
  rw [validateDomainFormat]
  dsimp only
  split
  · exact ⟨rfl, rfl⟩
  split
  · exact ⟨rfl, rfl⟩
  rename_i hsuffix
  split
  · exact ⟨rfl, rfl⟩
  rename_i hwithout
  split
  · exact ⟨rfl, rfl⟩
  rename_i herrors
  rw [Bool.not_eq_true, Bool.not_eq_false'] at hsuffix herrors
  rw [List.isEmpty_iff] at hwithout
  exact absurd ⟨hsuffix, hwithout, List.isEmpty_iff.1 herrors⟩ h

/-- A reserved domain, by its labels. -/
def Reserved (k : Classification) : Prop := k = .reserved_meta ∨ k = .reserved_welfare

theorem not_reserved_delegated (p : Prop) [Decidable p] :
    ¬Reserved (if p then .welfare_delegated else .commercial) := by
  rintro (h | h)
  · split at h <;> cases h
  · split at h <;> cases h

theorem reserved_iff (labels : List String) : Reserved (classifyDomain labels) ↔
    labels = [META_GOVERNANCE_ROOT] ∨
      ∃ sector ∈ RESERVED_WELFARE_SECTORS, labels = [sector, META_GOVERNANCE_ROOT] := by
  rw [classifyDomain]
  split
  · rename_i hnone
    rw [List.length_eq_zero_iff.1 hnone]
    simp [Reserved]
  split
  · -- the root
    rename_i hroot
    rw [Bool.and_eq_true, decide_eq_true_eq, decide_eq_true_eq, List.length_eq_one_iff] at hroot
    obtain ⟨⟨a, rfl⟩, ha⟩ := hroot
    refine iff_of_true (.inl rfl) (.inl ?_)
    rw [Option.some.inj ha]
  · rename_i hroot
    split
    · -- a sector
      rename_i hsector
      rw [Bool.and_eq_true, Bool.and_eq_true, decide_eq_true_eq, decide_eq_true_eq,
        List.length_eq_two] at hsector
      obtain ⟨⟨⟨a, b, rfl⟩, hb⟩, ha⟩ := hsector
      refine iff_of_true (.inr rfl) (.inr ⟨a, List.contains_iff_mem.1 ha, ?_⟩)
      rw [Option.some.inj hb]
    · rename_i hsector
      refine iff_of_false (not_reserved_delegated _) ?_
      rintro (rfl | ⟨sector, hmem, rfl⟩)
      · exact hroot rfl
      · exact hsector (by simp [hmem])

/-- The labels and the text determine each other. -/
theorem labelsOf_eq_iff (h : Format s.toList) {ls : List String} (hne : ls ≠ [])
    (hpoint : ∀ l ∈ ls, '.' ∉ l.toList) :
    labelsOf s = ls ↔ s.toList = ['.'].intercalate (ls.map toList) ++ ".sov".toList := by
  have hto : ofList ∘ toList = id := funext fun l => String.ofList_toList
  have hof : toList ∘ ofList = id := funext fun l => String.toList_ofList
  constructor
  · rintro rfl
    obtain ⟨labels, heq, hlne, -, hlabels, -⟩ := h
    rw [labelsOf_eq heq hlne hlabels, List.map_map, hof, List.map_id, heq]
  intro heq
  rw [labelsOf, withoutSuffix_append heq, List.splitOn_intercalate '.' ?_ ?_, List.map_map, hto,
    List.map_id]
  · intro l hl
    obtain ⟨l', hl', rfl⟩ := List.mem_map.1 hl
    exact hpoint l' hl'
  · rw [ne_eq, List.map_eq_nil_iff]
    exact hne

/-- The two ways to tell a reserved domain agree. -/
theorem isReservedDomain_iff (L : LowerCase) (h : Format s.toList) :
    isReservedDomain L s = true ↔ Reserved (classifyDomain (labelsOf s)) := by
  have hroot : labelsOf s = [META_GOVERNANCE_ROOT] ↔ s = "dao.sov" := by
    rw [labelsOf_eq_iff h (by simp) (by decide), ← String.toList_inj]
    rfl
  have hsector : ∀ sector ∈ RESERVED_WELFARE_SECTORS,
      (labelsOf s = [sector, META_GOVERNANCE_ROOT] ↔ s = sector ++ ".dao.sov") := by
    intro sector hmem
    have hpoint : ∀ sector ∈ RESERVED_WELFARE_SECTORS,
        ∀ l ∈ [sector, META_GOVERNANCE_ROOT], '.' ∉ l.toList := by decide
    rw [labelsOf_eq_iff h (by simp) (hpoint sector hmem), ← String.toList_inj]
    simp [META_GOVERNANCE_ROOT]
  rw [reserved_iff, hroot, isReservedDomain, normalized_of_format h, Bool.or_eq_true, decide_eq_true_eq,
    List.any_eq_true]
  refine or_congr_right (exists_congr fun sector => and_congr_right fun hmem => ?_)
  rw [decide_eq_true_eq, hsector sector hmem]

theorem validateDomainFormat_valid_iff (L : LowerCase) (d : String) :
    (validateDomainFormat L d).valid = true ↔
      Format (trim (L.toLowerCase d)).toList ∧ isReservedDomain L d = false := by
  by_cases h : Format (trim (L.toLowerCase d)).toList
  · rw [validateDomainFormat_of_format h, and_iff_right h]
    cases isReservedDomain L d with
    | false => exact iff_of_true rfl rfl
    | true => exact iff_of_false Bool.false_ne_true (by decide)
  · rw [(validateDomainFormat_of_not_format h).1]
    exact iff_of_false Bool.false_ne_true fun hvalid => h hvalid.1

/-- Neither case nor spaces around a domain change the answer, but a blank domain is not an empty one. -/
theorem validateDomainFormat_congr {d' : String}
    (h : Auth.toLowerCase (trim d') = Auth.toLowerCase (trim d)) (hempty : d' = "" ↔ d = "") :
    validateDomainFormat L d' = validateDomainFormat L d := by
  have hnormalized := @normalized_congr L _ _ h
  rw [validateDomainFormat, hnormalized]
  exact if_congr hempty rfl rfl

theorem validateDomainFormat_reserved (h : Format (trim (L.toLowerCase d)).toList) :
    ∃ k reserved, (validateDomainFormat L d).classification = some k ∧
      (validateDomainFormat L d).isReserved = some reserved ∧ (reserved = true ↔ Reserved k) := by
  have hsame : isReservedDomain L (trim (L.toLowerCase d)) = isReservedDomain L d := by
    rw [isReservedDomain, isReservedDomain, normalized_of_format h]
  have hiff := isReservedDomain_iff L h
  rw [hsame] at hiff
  rw [validateDomainFormat_of_format h]
  refine ⟨_, isReservedDomain L d, ?_, ?_, hiff⟩
  · split <;> rfl
  split
  · rename_i hreserved
    rw [hreserved]
  · rename_i hreserved
    rw [Bool.not_eq_true] at hreserved
    rw [hreserved]

theorem accepts_grammar (L : LowerCase) (d : String) :
    ((validateDomainFormat L d).valid = true ↔
      Format (trim (L.toLowerCase d)).toList ∧ isReservedDomain L d = false) ∧
    (∀ d', Auth.toLowerCase (trim d') = Auth.toLowerCase (trim d) →
      (validateDomainFormat L d').valid = (validateDomainFormat L d).valid ∧
      ((d' = "" ↔ d = "") → validateDomainFormat L d' = validateDomainFormat L d)) ∧
    (Format (trim (L.toLowerCase d)).toList →
      ∃ k reserved, (validateDomainFormat L d).classification = some k ∧
        (validateDomainFormat L d).isReserved = some reserved ∧ (reserved = true ↔ Reserved k)) := by
  refine ⟨validateDomainFormat_valid_iff L d, fun d' h => ⟨?_, validateDomainFormat_congr h⟩,
    validateDomainFormat_reserved⟩
  have hnormalized := @normalized_congr L _ _ h
  rw [Bool.eq_iff_iff, validateDomainFormat_valid_iff, validateDomainFormat_valid_iff,
    isReservedDomain, isReservedDomain, hnormalized]

/-! ## ASCII only -/

theorem toLower_cases (c : Char) : (65 ≤ c.toNat ∧ c.toNat ≤ 90) ∨ c.toLower = c := by
  by_cases h : c.val ≥ 'A'.val ∧ c.val ≤ 'Z'.val
  · exact .inl ⟨UInt32.le_iff_toNat_le.1 h.1, UInt32.le_iff_toNat_le.1 h.2⟩
  · exact .inr (dif_neg h)

theorem capitals : ∀ n < 128, 65 ≤ n ∧ n ≤ 90 →
    (Char.ofNat n).toLower.toLower = (Char.ofNat n).toLower ∧ isSpace (Char.ofNat n) = false := by
  decide

theorem capital (h : 65 ≤ c.toNat ∧ c.toNat ≤ 90) :
    c.toLower.toLower = c.toLower ∧ isSpace c = false := by
  have hcapital := capitals c.toNat (Nat.lt_of_le_of_lt h.2 (by decide)) h
  rwa [ofNat_toNat] at hcapital

theorem toLower_toLower (c : Char) : c.toLower.toLower = c.toLower := by
  rcases toLower_cases c with h | h
  · exact (capital h).1
  · rw [h, h]

theorem toLower_of_isSpace (hspace : isSpace c = true) : c.toLower = c := by
  rcases toLower_cases c with h | h
  · exact nomatch hspace.symm.trans (capital h).2
  · exact h

/-- Only the ASCII letters have two cases. -/
def asciiLowerCase : LowerCase where
  lower cs := cs.map Char.toLower
  ascii _ _ := rfl
  ignores_case cs := by
    rw [List.map_map]
    exact List.map_congr_left fun c _ => toLower_toLower c
  space_cons c cs h := by rw [List.map_cons, toLower_of_isSpace h]
  append_space cs c h := by rw [List.map_append, List.map_singleton, toLower_of_isSpace h]

/-- An empty domain is missing, a blank one has the wrong end. -/
theorem blank_domain :
    validateDomainFormat asciiLowerCase "" = { valid := false, errors := ["Domain is required"] } ∧
    validateDomainFormat asciiLowerCase " " =
      { valid := false, errors := ["Domain must end with .sov"] } ∧
    ¬ ∀ (L : LowerCase) (d d' : String), Auth.toLowerCase (trim d') = Auth.toLowerCase (trim d) →
      validateDomainFormat L d' = validateDomainFormat L d := by
  have hempty : validateDomainFormat asciiLowerCase "" =
      { valid := false, errors := ["Domain is required"] } := by decide
  have hblank : validateDomainFormat asciiLowerCase " " =
      { valid := false, errors := ["Domain must end with .sov"] } := by decide
  refine ⟨hempty, hblank, fun hall => ?_⟩
  have hsame := hall asciiLowerCase "" " " (by decide)
  rw [hempty] at hsame
  exact nomatch hsame

end DomainValidation
