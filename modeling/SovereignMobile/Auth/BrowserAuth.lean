import Mathlib.Data.Bool.AllAny
import SovereignMobile.Auth.Types
import SovereignMobile.Quic.RequestTargets
import SovereignMobile.Signing.Addresses
import SovereignMobile.Text.LowerCase

/-! # Browser authentication links

`parseBrowserAuthLink` of `BrowserAuthService.ts`: the challenge on its own, or a link
`zhtp://auth?challenge=…&node=…` whose query is split and decoded by hand. -/

namespace BrowserAuthService

open List Option
open Auth (trim isSpace truthy)
open NativeIdentityProvisioning (Hex64)
open PercentEncoding (octets encodeOctet encodeChar)
open QuicUrls (encodeURIComponent)
open Auth (toLowerCase)
open NativeIdentityProvisioning (hexValue trimWith trimWith_eq_self)
open QuicUrls (unreserved)
open String (ofList toList_ofList)

structure BrowserAuthChallenge where
  challengeHex : String
  node : Option String
  deriving DecidableEq

/-! ## The parser -/

/-- Every `%` is followed by two hexadecimal digits. -/
def wholeEscapes : List Char → Bool
  | [] => true
  | c :: cs =>
    if c = '%' then
      match cs with
      | a :: b :: cs => (PercentEncoding.hexValue a).isSome && (PercentEncoding.hexValue b).isSome &&
          wholeEscapes cs
      | _ => false
    else wholeEscapes cs

/-- `none` stands for the `URIError`. -/
def decodeURIComponent (cs : List Char) : Option (List Char) :=
  if wholeEscapes cs then PercentEncoding.decode cs else none

/-- `rawKey` and `rawVal` -/
def splitPart (part : List Char) : List Char × List Char :=
  (part.takeWhile (· ≠ '='), (part.dropWhile (· ≠ '=')).drop 1)

/-- What a part assigns, to which property: both sides decoded, or neither. -/
def assignment (part : List Char) : List Char × List Char :=
  let (rawKey, rawVal) := splitPart part
  match decodeURIComponent rawKey, decodeURIComponent rawVal with
  | some key, some val => (key, val)
  | _, _ => (rawKey, rawVal)

/-- `params[key]` after the loop. -/
def params (query key : List Char) : Option (List Char) :=
  (query.splitOn '&').foldl (fun found part =>
    if part.isEmpty then found
    else if (assignment part).1 = key then some (assignment part).2
    else found) none

def authPrefix : List Char := "zhtp://auth".toList

variable (L : LowerCasing)

def validateChallenge (raw : String) : Except String String :=
  let trimmed := trim raw
  if Hex64 trimmed.toList then .ok (String.ofList (L.toLowerCase trimmed.toList))
  else .error "Challenge must be exactly 64 hex characters (32 bytes)"

/-- The property of `params`, unless it is missing or empty. -/
def param (query : List Char) (key : String) : Option String :=
  truthy ((params query key.toList).map String.ofList)

def parseBrowserAuthLink (url : Option String) : Except String (Option BrowserAuthChallenge) :=
  match truthy url with
  | none => .ok none
  | some url =>
    let trimmed := (trim url).toList
    if Hex64 trimmed then .ok (some ⟨String.ofList (L.toLowerCase trimmed), none⟩)
    else if !authPrefix.isPrefixOf (L.toLowerCase trimmed) then .ok none
    else
      let query := (trimmed.dropWhile (· ≠ '?')).drop 1
      match param query "challenge" with
      | none => .error "Auth link is missing the challenge parameter"
      | some challengeRaw =>
        match validateChallenge L challengeRaw with
        | .error message => .error message
        | .ok challengeHex => .ok (some ⟨challengeHex, (param query "node").map trim⟩)

/-! ## The grammar -/

/-- `zhtp://auth` in any case. -/
def Begins (trimmed : List Char) : Prop := (trimmed.take 11).map Char.toLower = authPrefix

instance : DecidablePred Begins := fun _ => inferInstanceAs (Decidable (_ = _))

/-- What stands between `zhtp://auth` and the first question mark, or the end. -/
def between (trimmed : List Char) : List Char := (trimmed.drop 11).takeWhile (· ≠ '?')

/-- The challenge, or the link with a challenge, which may have spaces around it. -/
def Grammar (trimmed : List Char) : Prop :=
  Hex64 trimmed ∨ ∃ front slash query challenge, trimmed = front ++ slash ++ '?' :: query ∧
    front.map Char.toLower = authPrefix ∧ (slash = [] ∨ slash = ['/']) ∧
    params query "challenge".toList = some challenge ∧ Hex64 (trim (String.ofList challenge)).toList

/-- A part of the query assigns another property, also if the spaces behind it are trimmed. -/
def Other (key : String) (part : List Char) : Prop :=
  (assignment part).1 ≠ key.toList ∧ (assignment (part.rdropWhile isSpace)).1 ≠ key.toList

structure Extra (part : List Char) : Prop where
  single : '&' ∉ part
  challenge : Other "challenge" part
  node : Other "node" part

def parameter (key value : String) : List Char :=
  key.toList ++ '=' :: encodeURIComponent value.toList

def link (parts : List (List Char)) : String :=
  String.ofList (authPrefix ++ '?' :: ['&'].intercalate parts)

/-! ## Percent escapes -/

section
variable {c : Char} {cs : List Char}

theorem wholeEscapes_cons (hc : c ≠ '%') : wholeEscapes (c :: cs) = wholeEscapes cs := by
  rcases cs with _ | ⟨a, _ | ⟨b, cs⟩⟩ <;> simp [wholeEscapes, hc]

theorem wholeEscapes_encodeOctet (b : UInt8) (rest : List Char) :
    wholeEscapes (encodeOctet b ++ rest) = wholeEscapes rest := by
  have hlt : b.toNat < 256 := b.toNat_lt
  have hhigh := PercentEncoding.hexValue_hexDigit (n := b.toNat / 16) (by omega)
  have hlow := PercentEncoding.hexValue_hexDigit (n := b.toNat % 16) (by omega)
  simp [encodeOctet, wholeEscapes, hhigh, hlow]

theorem wholeEscapes_encode (cs : List Char) : wholeEscapes (encodeURIComponent cs) = true := by
  have hoctets : ∀ (bs : List UInt8) rest,
      wholeEscapes (bs.flatMap encodeOctet ++ rest) = wholeEscapes rest := by
    intro bs rest
    induction bs with
    | nil => rfl
    | cons b bs ih => rw [flatMap_cons, append_assoc, wholeEscapes_encodeOctet, ih]
  induction cs with
  | nil => rfl
  | cons c cs ih =>
    have hcons : encodeURIComponent (c :: cs) =
        encodeChar unreserved c ++ encodeURIComponent cs := rfl
    rw [hcons, encodeChar]
    split
    · rename_i hc
      have hne : c ≠ '%' := by
        rintro rfl
        rw [QuicUrls.unreserved_percent] at hc
        cases hc
      rw [singleton_append, wholeEscapes_cons hne, ih]
    · rw [hoctets, ih]

/-- **Round trip** of a component. -/
theorem decodeURIComponent_encode (cs : List Char) :
    decodeURIComponent (encodeURIComponent cs) = some cs := by
  rw [decodeURIComponent, if_pos (wholeEscapes_encode cs)]
  exact (QuicUrls.spells_encodeURIComponent cs).decode

theorem assignment_parameter {key : String} (hkey : key.toList.all unreserved = true)
    (value : String) : assignment (parameter key value) = (key.toList, value.toList) := by
  have heq : ∀ d ∈ key.toList, decide (d ≠ '=') = true := by
    intro d hd
    refine decide_eq_true ?_
    rintro rfl
    exact nomatch all_eq_true.1 hkey _ hd
  have hsplit : splitPart (parameter key value) = (key.toList, encodeURIComponent value.toList) := by
    rw [splitPart, parameter, takeWhile_append_of_pos heq, dropWhile_append_of_pos heq]
    simp
  have hdecode : decodeURIComponent key.toList = some key.toList := by
    have hencode := decodeURIComponent_encode key.toList
    rwa [QuicUrls.encodeURIComponent_of_all hkey] at hencode
  rw [assignment, hsplit]
  simp only [hdecode, decodeURIComponent_encode]

end

/-! ## Parts of the query -/

/-- The parts that are left of a link when the spaces behind it are trimmed. -/
def trimLast : List (List Char) → List (List Char)
  | [] => []
  | [part] => [part.rdropWhile isSpace]
  | part :: next :: parts => part :: trimLast (next :: parts)

variable {c : Char} {part t : List Char} {url : String}

theorem rdropWhile_append_cons {xs ys : List Char} (hc : isSpace c = false) :
    (xs ++ c :: ys).rdropWhile isSpace = xs ++ c :: ys.rdropWhile isSpace := by
  induction ys using reverseRecOn with
  | nil => rw [rdropWhile_concat_neg _ _ _ (by simp [hc]), rdropWhile_nil]
  | append_singleton ys d ih =>
    rw [← cons_append, ← append_assoc]
    by_cases hd : isSpace d = true
    · rw [rdropWhile_concat_pos _ _ _ hd, rdropWhile_concat_pos _ _ _ hd, ih]
    · rw [rdropWhile_concat_neg _ _ _ hd, rdropWhile_concat_neg _ _ _ hd]
      simp

theorem rdropWhile_intercalate (parts : List (List Char)) : ∀ (xs : List Char) (c : Char),
    isSpace c = false → (xs ++ c :: ['&'].intercalate parts).rdropWhile isSpace =
      xs ++ c :: ['&'].intercalate (trimLast parts) := by
  induction parts with
  | nil =>
    intro xs c hc
    rw [rdropWhile_append_cons hc]
    rfl
  | cons part parts ih =>
    intro xs c hc
    cases parts with
    | nil =>
      rw [rdropWhile_append_cons hc]
      simp [trimLast]
    | cons next parts =>
      have hnext := ih (xs ++ c :: part) '&' (by decide)
      have hne : trimLast (next :: parts) ≠ [] := by
        cases parts <;> simp [trimLast]
      obtain ⟨head, tail, htail⟩ := exists_cons_of_ne_nil hne
      rw [htail] at hnext
      simpa [trimLast, htail] using hnext

theorem rdropWhile_of_no_space (h : ∀ c ∈ part, isSpace c = false) :
    part.rdropWhile isSpace = part := by
  rw [rdropWhile_eq_self_iff]
  intro hne
  rw [h _ (getLast_mem hne)]
  decide

/-- Up to a part without spaces, nothing is trimmed. -/
theorem trimLast_append (h : ∀ c ∈ part, isSpace c = false) (before after : List (List Char)) :
    trimLast (before ++ part :: after) = before ++ part :: trimLast after := by
  have hhead : ∀ after, trimLast (part :: after) = part :: trimLast after := by
    intro after
    cases after with
    | nil => rw [trimLast, trimLast, rdropWhile_of_no_space h]
    | cons next after => rfl
  induction before with
  | nil => exact hhead after
  | cons first before ih =>
    have hne : before ++ part :: after ≠ [] := by simp
    obtain ⟨next, rest, hrest⟩ := exists_cons_of_ne_nil hne
    rw [cons_append, cons_append, ← ih, hrest]
    rfl

theorem mem_trimLast {parts : List (List Char)} (h : part ∈ trimLast parts) :
    ∃ whole ∈ parts, part = whole ∨ part = whole.rdropWhile isSpace := by
  induction parts with
  | nil => exact absurd h not_mem_nil
  | cons first parts ih =>
    cases parts with
    | nil => exact ⟨first, mem_cons_self, .inr (mem_singleton.1 h)⟩
    | cons next parts =>
      rcases mem_cons.1 h with rfl | h
      · exact ⟨part, mem_cons_self, .inl rfl⟩
      · obtain ⟨whole, hmem, heq⟩ := ih h
        exact ⟨whole, mem_cons_of_mem _ hmem, heq⟩

/-- The last assignment is the one that counts. -/
theorem params_intercalate {before after : List (List Char)} {key value : List Char}
    (hpart : part ≠ []) (hassign : assignment part = (key, value))
    (hsingle : ∀ p ∈ before ++ part :: after, '&' ∉ p)
    (hafter : ∀ p ∈ after, (assignment p).1 ≠ key) :
    params (['&'].intercalate (before ++ part :: after)) key = some value := by
  have hkeep : ∀ found : Option (List Char), after.foldl (fun found part =>
      if part.isEmpty then found
      else if (assignment part).1 = key then some (assignment part).2
      else found) found = found := by
    induction after with
    | nil => exact fun _ => rfl
    | cons p after ih =>
      intro found
      have hp := hafter p mem_cons_self
      rw [foldl_cons, if_neg hp, ite_self]
      refine ih (fun q hq => ?_) (fun q hq => hafter q (mem_cons_of_mem _ hq)) found
      refine hsingle q ?_
      simp only [mem_append, mem_cons] at hq ⊢
      tauto
  unfold params
  rw [splitOn_intercalate '&' hsingle (by simp), foldl_append, foldl_cons, hkeep, hassign,
    if_neg (by simpa using hpart), if_pos rfl]

/-! ## A parameter in its place -/

section
variable {key value : String}

variable {c : Char}

theorem unreserved_ascii (h : unreserved c = true) : c.toNat < 128 := by
  rw [unreserved, Bool.or_eq_true] at h
  rcases h with h | h
  · change (decide ('A'.val ≤ c.val ∧ c.val ≤ 'Z'.val) || ('a'.val ≤ c.val && c.val ≤ 'z'.val) ||
      ('0'.val ≤ c.val && c.val ≤ '9'.val)) = true at h
    simp only [Bool.or_eq_true, Bool.and_eq_true, decide_eq_true_eq, UInt32.le_iff_toNat_le] at h
    have hz : 'z'.val.toNat = 122 := rfl
    have hZ : 'Z'.val.toNat = 90 := rfl
    have h9 : '9'.val.toNat = 57 := rfl
    have hval : c.val.toNat = c.toNat := rfl
    omega
  · have hall : ∀ d ∈ "-_.!~*'()".toList, d.toNat < 128 :=
      all_iff_forall_prop.1 (by decide)
    exact hall c (contains_iff_mem.1 h)

theorem unreserved_not_space (h : unreserved c = true) : isSpace c = false := by
  have hall : ∀ n < 128, unreserved (Char.ofNat n) = true → isSpace (Char.ofNat n) = false := by
    decide
  have hc := hall c.toNat (unreserved_ascii h)
  rw [Char.ofNat_toNat] at hc
  exact hc h

theorem mem_parameter (hkey : key.toList.all unreserved = true)
    (h : c ∈ parameter key value) : unreserved c = true ∨ c = '=' ∨ c = '%' := by
  rcases mem_append.1 h with h | h
  · exact .inl (all_eq_true.1 hkey c h)
  rcases mem_cons.1 h with h | h
  · exact .inr (.inl h)
  · exact (QuicUrls.mem_encodeURIComponent h).imp_right .inr

theorem parameter_no_space (hkey : key.toList.all unreserved = true) :
    ∀ c ∈ parameter key value, isSpace c = false := by
  intro c hc
  rcases mem_parameter hkey hc with h | rfl | rfl
  · exact unreserved_not_space h
  · decide
  · decide

theorem parameter_single (hkey : key.toList.all unreserved = true) : '&' ∉ parameter key value := by
  intro h
  rcases mem_parameter hkey h with h | h | h
  · exact nomatch h
  · exact nomatch h
  · exact nomatch h

theorem other_parameter {key' : String} (hkey : key.toList.all unreserved = true)
    (hne : key ≠ key') : Other key' (parameter key value) := by
  have hname : (assignment (parameter key value)).1 ≠ key'.toList := by
    rw [assignment_parameter hkey]
    exact fun h => hne (String.toList_injective h)
  constructor
  · exact hname
  · rwa [rdropWhile_of_no_space (parameter_no_space hkey)]

theorem param_parts {parts before after : List (List Char)}
    (hkey : key.toList.all unreserved = true) (hparts : parts = before ++ parameter key value :: after)
    (hsingle : ∀ p ∈ parts, '&' ∉ p) (hafter : ∀ p ∈ after, Other key p) :
    param (['&'].intercalate (trimLast parts)) key = truthy (some value) := by
  subst hparts
  rw [trimLast_append (parameter_no_space hkey), param, params_intercalate
    (by simp [parameter]) (assignment_parameter hkey value), map_some,
    String.ofList_toList]
  · intro p hp hmem
    -- trimming adds no separator
    have htrim : ∃ whole ∈ before ++ parameter key value :: after, '&' ∈ whole := by
      rcases mem_append.1 hp with hp | hp
      · exact ⟨p, mem_append_left _ hp, hmem⟩
      rcases mem_cons.1 hp with rfl | hp
      · exact ⟨_, mem_append_right _ mem_cons_self, hmem⟩
      obtain ⟨whole, hwhole, heq⟩ := mem_trimLast hp
      refine ⟨whole, mem_append_right _ (mem_cons_of_mem _ hwhole), ?_⟩
      rcases heq with rfl | rfl
      · exact hmem
      · exact ( rdropWhile_prefix _ _).mem hmem
    obtain ⟨whole, hwhole, hand⟩ := htrim
    exact hsingle whole hwhole hand
  · intro p hp
    obtain ⟨whole, hwhole, rfl | rfl⟩ := mem_trimLast hp
    · exact (hafter p hwhole).1
    · exact (hafter whole hwhole).2

theorem params_single (hkey : key.toList.all unreserved = true) (name : List Char) :
    params (parameter key value) name = if key.toList = name then some value.toList else none := by
  have hsplit : (parameter key value).splitOn '&' = [parameter key value] := by
    have hsingle := splitOn_intercalate '&' (fun p (hp : p ∈ [parameter key value]) => by
      rw [mem_singleton.1 hp]; exact parameter_single hkey) (by simp)
    rwa [intercalate_singleton] at hsingle
  have hpart : (parameter key value).isEmpty = false := by simp [parameter]
  rw [params, hsplit, foldl_cons, hpart, assignment_parameter hkey]
  rfl

theorem param_single (hkey : key.toList.all unreserved = true) :
    param (parameter key value) key = truthy (some value) := by
  rw [param, params_single hkey, if_pos rfl, map_some, String.ofList_toList]

theorem param_single_other {name : String} (hkey : key.toList.all unreserved = true)
    (hne : key ≠ name) : param (parameter key value) name = none := by
  rw [param, params_single hkey, if_neg fun h => hne (String.toList_injective h)]
  rfl

end

theorem hexDigit_ascii (h : (hexValue c).isSome = true) :
    c.toNat < 128 ∧ isSpace c = false ∧ c.toLower ≠ 'z' := by
  have hall : ∀ n < 128, (hexValue (Char.ofNat n)).isSome = true →
      isSpace (Char.ofNat n) = false ∧ (Char.ofNat n).toLower ≠ 'z' := by decide
  have hlt : c.toNat < 128 := by
    unfold hexValue at h
    split_ifs at h
    all_goals first | omega | simp at h
  have hc := hall c.toNat hlt
  rw [Char.ofNat_toNat] at hc
  exact ⟨hlt, hc h⟩

/-! ## The shape of a link -/

section
variable {t front rest query : List Char}

def queryOf (t : List Char) : List Char := (t.dropWhile (· ≠ '?')).drop 1

theorem length_front (h : front.map Char.toLower = authPrefix) : front.length = 11 := by
  have hlength := congrArg List.length h
  rwa [length_map] at hlength

theorem begins_append (h : front.map Char.toLower = authPrefix) : Begins (front ++ rest) := by
  rw [Begins, take_left' (length_front h)]
  exact h

theorem front_no_question (h : front.map Char.toLower = authPrefix) : '?' ∉ front := by
  intro hmem
  have hlower : '?' ∈ authPrefix := by
    rw [← h]
    exact mem_map.2 ⟨'?', hmem, by decide⟩
  exact nomatch hlower

theorem queryOf_append (h : '?' ∉ front) : queryOf (front ++ rest) = queryOf rest := by
  rw [queryOf, dropWhile_append_of_pos]
  · rfl
  intro c hc
  refine decide_eq_true ?_
  rintro rfl
  exact h hc

theorem begins_iff_prefix (t : List Char) : authPrefix.isPrefixOf (L.toLowerCase t) = true ↔ Begins t := by
  rw [ isPrefixOf_iff_prefix, L.prefix_toLowerCase_iff (all_iff_forall_prop.1 (by decide)),
    prefix_iff_eq_take, Begins, map_take]
  exact eq_comm

theorem Begins.not_hex64 (h : Begins t) : ¬Hex64 t := by
  intro hhex
  cases t with
  | nil => exact nomatch h
  | cons c cs =>
    have hz : c.toLower = 'z' := by
      rw [Begins, take_succ_cons] at h
      exact (cons.inj h).1
    exact (hexDigit_ascii (hhex.2 c mem_cons_self)).2.2 hz

theorem params_nil (key : List Char) : params [] key = none := rfl

end

/-! ## What is accepted -/

theorem truthy_some {s : String} (h : s ≠ "") : truthy (some s) = some s := by
  simp [truthy, h]

theorem trim_empty : trim "" = "" := by decide

theorem parse_hex64 (h : Hex64 (trim url).toList) : parseBrowserAuthLink L (some url) =
    .ok (some ⟨ofList (L.toLowerCase (trim url).toList), none⟩) := by
  have hne : url ≠ "" := by
    rintro rfl
    rw [trim_empty] at h
    exact nomatch h.1
  rw [parseBrowserAuthLink, truthy_some hne]
  exact if_pos h

theorem parse_elsewhere (hhex : ¬Hex64 (trim url).toList) (h : ¬Begins (trim url).toList) :
    parseBrowserAuthLink L (some url) = .ok none := by
  by_cases hne : url = ""
  · rw [hne]
    rfl
  have hprefix : authPrefix.isPrefixOf (L.toLowerCase (trim url).toList) = false := by
    rw [← Bool.not_eq_true, begins_iff_prefix]
    exact h
  rw [parseBrowserAuthLink, truthy_some hne]
  dsimp only
  rw [if_neg hhex, hprefix]
  rfl

theorem parse_begins (h : Begins (trim url).toList) : parseBrowserAuthLink L (some url) =
      match param (queryOf (trim url).toList) "challenge" with
      | none => .error "Auth link is missing the challenge parameter"
      | some challengeRaw =>
        match validateChallenge L challengeRaw with
        | .error message => .error message
        | .ok challengeHex =>
          .ok (some ⟨challengeHex, (param (queryOf (trim url).toList) "node").map trim⟩) := by
  have hne : url ≠ "" := by
    rintro rfl
    rw [trim_empty] at h
    exact nomatch h
  have hprefix := ( begins_iff_prefix L _).2 h
  rw [parseBrowserAuthLink, truthy_some hne]
  simp only [if_neg h.not_hex64, hprefix, Bool.not_true, Bool.false_eq_true, if_false, queryOf]

/-- A link is accepted for its challenge, whatever stands in front of the query. -/
theorem accepts_begins_iff (h : Begins (trim url).toList) :
    (∃ r, parseBrowserAuthLink L (some url) = .ok (some r)) ↔
      ∃ challenge, params (queryOf (trim url).toList) "challenge".toList = some challenge ∧
        Hex64 (trim (ofList challenge)).toList := by
  rw [parse_begins L h, param]
  cases params (queryOf (trim url).toList) "challenge".toList with
  | none => simp [truthy]
  | some challenge =>
    by_cases hempty : ofList challenge = ""
    · have hnot : ¬Hex64 (trim (ofList challenge)).toList := by
        rw [hempty]
        exact fun hhex => nomatch hhex.1
      have hnone : truthy (some "") = none := by simp [truthy]
      rw [map_some, hempty, hnone]
      simpa using hnot
    · rw [map_some, truthy_some hempty]
      by_cases hhex : Hex64 (trim (ofList challenge)).toList
      · simp [validateChallenge, hhex]
      · simp [validateChallenge, hhex]

/-- The parts of a link in which nothing but a slash stands in front of the question mark. -/
theorem split_of_between (hbegins : Begins t) (hquery : queryOf t ≠ [])
    (h : between t = [] ∨ between t = ['/']) :
    ∃ front slash, t = front ++ slash ++ '?' :: queryOf t ∧
      front.map Char.toLower = authPrefix ∧ (slash = [] ∨ slash = ['/']) := by
  have hno := front_no_question hbegins
  have hrest : queryOf t = queryOf (t.drop 11) := by
    conv_lhs => rw [← take_append_drop 11 t, queryOf_append hno]
  refine ⟨t.take 11, between t, ?_, hbegins, h⟩
  have hmark : (t.drop 11).dropWhile (· ≠ '?') = '?' :: queryOf t := by
    rw [hrest] at hquery ⊢
    unfold queryOf at hquery ⊢
    cases hdrop : (t.drop 11).dropWhile (· ≠ '?') with
    | nil =>
      rw [hdrop] at hquery
      exact absurd rfl hquery
    | cons c cs =>
      have hc := head?_dropWhile_not (fun c : Char => decide (c ≠ '?')) (t.drop 11)
      rw [hdrop] at hc
      obtain rfl : c = '?' := by simpa using hc
      rfl
  rw [← hmark, append_assoc, between, takeWhile_append_dropWhile, take_append_drop]

theorem grammar_iff (hbegins : Begins t) (h : between t = [] ∨ between t = ['/']) :
    Grammar t ↔ ∃ challenge, params (queryOf t) "challenge".toList = some challenge ∧
      Hex64 (trim (ofList challenge)).toList := by
  constructor
  · rintro (hhex | ⟨front, slash, query, challenge, rfl, hfront, hslash, hparams, hhex⟩)
    · exact absurd hhex hbegins.not_hex64
    refine ⟨challenge, ?_, hhex⟩
    have hno : '?' ∉ front ++ slash := by
      rw [mem_append, not_or]
      refine ⟨front_no_question hfront, ?_⟩
      rcases hslash with rfl | rfl <;> decide
    rw [queryOf_append hno]
    exact hparams
  · rintro ⟨challenge, hparams, hhex⟩
    have hquery : queryOf t ≠ [] := by
      intro hnil
      rw [hnil, params_nil] at hparams
      simp at hparams
    obtain ⟨front, slash, heq, hfront, hslash⟩ := split_of_between hbegins hquery h
    exact .inr ⟨front, slash, queryOf t, challenge, heq, hfront, hslash, hparams, hhex⟩

/-- What the grammar describes begins as a link or is the challenge alone. -/
theorem not_grammar (hhex : ¬Hex64 t) (hbegins : ¬Begins t) : ¬Grammar t := by
  rintro (h | ⟨front, slash, query, challenge, rfl, hfront, -⟩)
  · exact hhex h
  · rw [append_assoc] at hbegins
    exact hbegins (begins_append hfront)

/-! ## Links that are built -/

section
variable {c n : String}

theorem trim_hex64 (hc : Hex64 c.toList) : trim c = c := by
  refine trimWith_eq_self fun d hd => ?_
  exact (hexDigit_ascii (hc.2 d hd)).2.1

theorem validateChallenge_hex64 (hc : Hex64 c.toList) :
    validateChallenge L c = .ok (toLowerCase c) := by
  have hascii : ∀ d ∈ c.toList, d.val < 0x80 := by
    intro d hd
    rw [UInt32.lt_iff_toNat_lt]
    exact (hexDigit_ascii (hc.2 d hd)).1
  rw [validateChallenge, trim_hex64 hc, if_pos hc, L.toLowerCase_ascii hascii, toLowerCase]

theorem trim_link (parts : List (List Char)) :
    (trim (link parts)).toList = authPrefix ++ '?' :: ['&'].intercalate (trimLast parts) := by
  have hdrop : (link parts).toList.dropWhile isSpace = (link parts).toList := by
    rw [link, toList_ofList]
    rfl
  have htrim : (trim (link parts)).toList = ((link parts).toList.dropWhile isSpace).rdropWhile isSpace := by
    rw [trim, trimWith, toList_ofList]
    rfl
  rw [htrim, hdrop, link, toList_ofList, rdropWhile_intercalate _ _ _ (by decide)]

/-- What a link with both parameters is read as, in either order. -/
theorem parse_parts {parts before after before' after' : List (List Char)} (hc : Hex64 c.toList)
    (hchallenge : parts = before ++ parameter "challenge" c :: after)
    (hnode : parts = before' ++ parameter "node" n :: after') (hsingle : ∀ p ∈ parts, '&' ∉ p)
    (hafter : ∀ p ∈ after, Other "challenge" p) (hafter' : ∀ p ∈ after', Other "node" p) :
    parseBrowserAuthLink L (some (link parts)) =
      .ok (some ⟨toLowerCase c, (truthy (some n)).map trim⟩) := by
  have hfront : authPrefix.map Char.toLower = authPrefix := by decide
  have hbegins : Begins (trim (link parts)).toList := by
    rw [trim_link]
    exact begins_append hfront
  have hquery : queryOf (trim (link parts)).toList = ['&'].intercalate (trimLast parts) := by
    rw [trim_link]
    rfl
  have hne : c ≠ "" := by
    rintro rfl
    exact nomatch hc.1
  rw [parse_begins L hbegins, hquery, param_parts (by decide) hchallenge hsingle hafter,
    param_parts (by decide) hnode hsingle hafter', truthy_some hne]
  dsimp only
  rw [validateChallenge_hex64 L hc]

end

/-- A link with one parameter, and whatever stands in front of the question mark. -/
theorem parse_single {tail : List Char} {value : String} (htail : ∀ d ∈ tail, isSpace d = false ∧ d ≠ '?')
    (hvalue : value ≠ "") :
    parseBrowserAuthLink L
        (some (ofList (authPrefix ++ (tail ++ '?' :: parameter "challenge" value)))) =
      (validateChallenge L value).map fun challengeHex => some ⟨challengeHex, none⟩ := by
  have hkey : "challenge".toList.all unreserved = true := by decide
  have hspace : ∀ d ∈ authPrefix ++ (tail ++ '?' :: parameter "challenge" value), isSpace d = false := by
    simp only [forall_mem_append, forall_mem_cons]
    exact ⟨all_iff_forall_prop.1 (by decide), fun d hd => (htail d hd).1, by decide, parameter_no_space hkey⟩
  have htrim : (trim (ofList (authPrefix ++ (tail ++ '?' :: parameter "challenge" value)))).toList =
      authPrefix ++ (tail ++ '?' :: parameter "challenge" value) := by
    have hself := trimWith_eq_self (fun d hd => hspace d (by rwa [toList_ofList] at hd))
    rw [trim, hself, toList_ofList]
  have hquery : queryOf (authPrefix ++ (tail ++ '?' :: parameter "challenge" value)) =
      parameter "challenge" value := by
    rw [queryOf_append (by decide), queryOf_append fun h => (htail _ h).2 rfl]
    rfl
  have hbegins : Begins (trim (ofList
      (authPrefix ++ (tail ++ '?' :: parameter "challenge" value)))).toList := by
    rw [htrim]
    exact begins_append (by decide)
  have hname : "challenge" ≠ "node" := by decide
  rw [parse_begins L hbegins, htrim, hquery, param_single hkey, truthy_some hvalue,
    param_single_other hkey hname]
  dsimp only
  cases validateChallenge L value with
  | error message => simp only [Except.map]
  | ok challengeHex => simp only [Except.map, map_none]

/-- **Which links are accepted**, unless something other than a slash stands between `zhtp://auth` and the
    question mark, and what they are read as. -/
theorem accepts_links (L : LowerCasing) :
    (∀ url : String, (Begins (trim url).toList →
        between (trim url).toList = [] ∨ between (trim url).toList = ['/']) →
      ((∃ r, parseBrowserAuthLink L (some url) = .ok (some r)) ↔ Grammar (trim url).toList)) ∧
    (∀ url : String, ¬Hex64 (trim url).toList → ¬Begins (trim url).toList →
      parseBrowserAuthLink L (some url) = .ok none) ∧
    ∀ (c n : String) (front mid back : List (List Char)), Hex64 c.toList →
      (∀ p ∈ front ++ mid ++ back, Extra p) →
      parseBrowserAuthLink L
          (some (link (front ++ parameter "challenge" c :: mid ++ parameter "node" n :: back))) =
        .ok (some ⟨Auth.toLowerCase c, if n = "" then none else some (trim n)⟩) ∧
      parseBrowserAuthLink L
          (some (link (front ++ parameter "node" n :: mid ++ parameter "challenge" c :: back))) =
        .ok (some ⟨Auth.toLowerCase c, if n = "" then none else some (trim n)⟩) := by
  refine ⟨fun url hbetween => ?_, fun url hhex hbegins => parse_elsewhere L hhex hbegins, ?_⟩
  · by_cases hhex : Hex64 (trim url).toList
    · rw [parse_hex64 L hhex]
      exact iff_of_true ⟨_, rfl⟩ (.inl hhex)
    by_cases hbegins : Begins (trim url).toList
    · rw [accepts_begins_iff L hbegins, grammar_iff hbegins (hbetween hbegins)]
    · rw [parse_elsewhere L hhex hbegins]
      exact iff_of_false (by simp) (not_grammar hhex hbegins)
  · intro c n front mid back hc hextra
    have hchallenge : "challenge".toList.all unreserved = true := by decide
    have hnode : "node".toList.all unreserved = true := by decide
    have htrim : (truthy (some n)).map trim = if n = "" then none else some (trim n) := by
      split
      · rename_i hn
        rw [hn]
        rfl
      · rename_i hn
        rw [truthy_some hn, map_some]
    have hfront : ∀ p ∈ front, Extra p := fun p hp => hextra p (by simp [hp])
    have hmid : ∀ p ∈ mid, Extra p := fun p hp => hextra p (by simp [hp])
    have hback : ∀ p ∈ back, Extra p := fun p hp => hextra p (by simp [hp])
    rw [← htrim]
    constructor
    · refine parse_parts L hc
        (show _ = front ++ parameter "challenge" c :: (mid ++ parameter "node" n :: back) by simp)
        (show _ = (front ++ parameter "challenge" c :: mid) ++ parameter "node" n :: back by simp)
        ?_ ?_ ?_
      · simp only [forall_mem_append, forall_mem_cons]
        exact ⟨⟨fun p hp => (hfront p hp).single, parameter_single hchallenge,
          fun p hp => (hmid p hp).single⟩, parameter_single hnode, fun p hp => (hback p hp).single⟩
      · simp only [forall_mem_append, forall_mem_cons]
        exact ⟨fun p hp => (hmid p hp).challenge, other_parameter hnode (by decide),
          fun p hp => (hback p hp).challenge⟩
      · exact fun p hp => (hback p hp).node
    · refine parse_parts L hc
        (show _ = (front ++ parameter "node" n :: mid) ++ parameter "challenge" c :: back by simp)
        (show _ = front ++ parameter "node" n :: (mid ++ parameter "challenge" c :: back) by simp)
        ?_ ?_ ?_
      · simp only [forall_mem_append, forall_mem_cons]
        exact ⟨⟨fun p hp => (hfront p hp).single, parameter_single hnode,
          fun p hp => (hmid p hp).single⟩, parameter_single hchallenge, fun p hp => (hback p hp).single⟩
      · exact fun p hp => (hback p hp).challenge
      · simp only [forall_mem_append, forall_mem_cons]
        exact ⟨fun p hp => (hmid p hp).node, other_parameter hchallenge (by decide),
          fun p hp => (hback p hp).node⟩

def zeros : String := String.ofList (List.replicate 64 '0')

theorem hex64_zeros : Hex64 zeros.toList := by decide

theorem accepts_links_zeros :
    ((∃ r, parseBrowserAuthLink .asciiOnly (some " ZHTP://Auth/ ") = .ok (some r)) ↔
      Grammar (trim " ZHTP://Auth/ ").toList) ∧
    parseBrowserAuthLink .asciiOnly (some "zhtp://node") = .ok none ∧
    parseBrowserAuthLink .asciiOnly (some (link ([] ++ parameter "challenge" zeros ::
      [parameter "page" "1"] ++ parameter "node" "n" :: []))) =
        .ok (some ⟨Auth.toLowerCase zeros, some (trim "n")⟩) := by
  have hpage : "page".toList.all unreserved = true := by decide
  refine ⟨(accepts_links .asciiOnly).1 _ fun _ => by decide,
    (accepts_links .asciiOnly).2.1 _ (by decide) (by decide), ?_⟩
  refine ((accepts_links .asciiOnly).2.2 zeros "n" [] [parameter "page" "1"] [] hex64_zeros ?_).1
  intro p hp
  obtain rfl : p = parameter "page" "1" := by simpa using hp
  exact ⟨parameter_single hpage, other_parameter hpage (by decide), other_parameter hpage (by decide)⟩

/-- The host `author` is taken for `auth`, a challenge in spaces is accepted, and an empty node is no node. -/
theorem beyond_grammar :
    parseBrowserAuthLink .asciiOnly (some (String.ofList
        (authPrefix ++ ("or".toList ++ '?' :: parameter "challenge" zeros)))) =
      .ok (some ⟨Auth.toLowerCase zeros, none⟩) ∧
    parseBrowserAuthLink .asciiOnly (some (String.ofList
        (authPrefix ++ ([] ++ '?' :: parameter "challenge" (" " ++ zeros))))) =
      .ok (some ⟨Auth.toLowerCase zeros, none⟩) ∧ ¬Hex64 (" " ++ zeros).toList ∧
    parseBrowserAuthLink .asciiOnly
        (some (link [parameter "challenge" zeros, parameter "node" ""])) ≠
      .ok (some ⟨Auth.toLowerCase zeros, some (trim "")⟩) := by
  have hvalid := validateChallenge_hex64 .asciiOnly hex64_zeros
  have hpadded : trim (" " ++ zeros) = trim zeros := by decide
  refine ⟨?_, ?_, by decide, ?_⟩
  · rw [parse_single _ (all_iff_forall_prop.1 (by decide)) (by decide), hvalid]
    rfl
  · rw [parse_single _ (by simp) (by decide), validateChallenge, hpadded, ← validateChallenge, hvalid]
    rfl
  · have hchallenge : "challenge".toList.all unreserved = true := by decide
    have hnode : "node".toList.all unreserved = true := by decide
    rw [parse_parts .asciiOnly hex64_zeros
      (show [parameter "challenge" zeros, parameter "node" ""] = [] ++ _ :: [_] from rfl)
      (show _ = [_] ++ _ :: [] from rfl)]
    · simp [truthy]
    · simp only [forall_mem_cons]
      exact ⟨parameter_single hchallenge, parameter_single hnode, by simp⟩
    · simp only [forall_mem_cons]
      exact ⟨other_parameter hnode (by decide), by simp⟩
    · simp

end BrowserAuthService
