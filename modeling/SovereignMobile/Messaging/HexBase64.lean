import Mathlib.Data.Bool.AllAny
import SovereignMobile.Pouw.HexAsBase64
import SovereignMobile.Text.ScriptLiterals

/-! # Hexadecimal digits and base64 in messaging

`hexToBase64` and `bytesToHex` of `MessagingService.ts`, over the code units of their strings.
`hexToBase64` reads each pair of units with `parseInt`, which takes a sign, a space or a single digit too
and gives `NaN` for the rest, and never asks whether the string is one of hexadecimal digits. -/

namespace MessagingService

open List
open ScriptLiterals (Text hexValue isHex ofDigits)
open Base64 (encode symbol)

/-! ## The language and its runtime -/

def units (cs : List Char) : Text := cs.map fun c => UInt16.ofNat c.toNat

/-- A lone surrogate, which is none of the characters asked for, is read as U+0000. -/
def char (u : UInt16) : Char := Char.ofNat u.toNat

/-- The base64 of bytes -/
def base64 (bytes : List UInt8) : Text := units (Base64.encode Base64.symbol ['='] bytes)

/-- The digits of a number after `0x`, up to the first unit that is none. -/
def parseDigits (s : Text) : Option Nat :=
  let s := match s with
    | 48 :: 120 :: rest => rest
    | 48 :: 88 :: rest => rest
    | _ => s
  let digits := s.takeWhile isHex
  if digits = [] then none else some (ofDigits 16 digits)

/-- `parseInt(s, 16)`; `none` is `NaN`. -/
def parseInt16 (s : Text) : Option Int :=
  match s.dropWhile fun u => Auth.isSpace (char u) with
  | 45 :: rest => (parseDigits rest).map fun n => -(n : Int)
  | 43 :: rest => (parseDigits rest).map fun n => (n : Int)
  | s => (parseDigits s).map fun n => (n : Int)

/-- `String.fromCharCode` -/
def fromCharCode (n : Option Int) : UInt16 := UInt16.ofInt (n.getD 0)

inductive Failure where
  | invalidCharacter
  | typeError
deriving DecidableEq

def btoa (s : Text) : Except Failure Text :=
  if s.any fun u => 255 < u then .error .invalidCharacter else .ok (base64 (s.map UInt16.toUInt8))

/-- `Buffer.from(s, 'base64')`, which may read what no encoder writes as it likes. -/
structure Buffer where
  fromBase64 : Text → List UInt8
  fromBase64_base64 : ∀ bytes, fromBase64 (base64 bytes) = bytes

/-- What the runtime ships. Where `atob` or `btoa` is absent the source relies on `Buffer`. -/
structure Runtime where
  atob : Bool
  btoa : Bool
  buffer : Option Buffer
  ships : atob = true ∧ btoa = true ∨ buffer.isSome = true

/-! ## The conversions -/

/-- `hex.startsWith('0x') ? hex.slice(2) : hex` -/
def trimmed : Text → Text
  | 48 :: 120 :: rest => rest
  | hex => hex

/-- `trimmed.slice(i, i + 2)` for every other `i` -/
def slices : Text → List Text
  | [] => []
  | [a] => [[a]]
  | a :: b :: rest => [a, b] :: slices rest

def rawUnits (hex : Text) : Text :=
  (slices (trimmed hex)).map fun slice => fromCharCode (parseInt16 slice)

/-- `binary` keeps the low byte of each unit. -/
def Runtime.hexToBase64 (g : Runtime) (hex : Text) : Except Failure Text :=
  if g.btoa then MessagingService.btoa (rawUnits hex)
  else match g.buffer with
    | some _ => .ok (base64 ((rawUnits hex).map UInt16.toUInt8))
    | none => .error .typeError

def hexDigit (n : Nat) : UInt16 := UInt16.ofNat (if n < 10 then 48 + n else 87 + n)

/-- `raw.charCodeAt(i).toString(16).padStart(2, '0')`, for a unit that is a byte -/
def hexDigits (b : UInt8) : Text := [hexDigit (b.toNat / 16), hexDigit (b.toNat % 16)]

def Runtime.bytesToHex (g : Runtime) (b64 : Text) : Except Failure Text :=
  if g.atob then
    match Pouw.atob (String.ofList (b64.map char)) with
    | some raw => .ok (raw.flatMap hexDigits)
    | none => .error .invalidCharacter
  else match g.buffer with
    | some buffer => .ok ((buffer.fromBase64 b64).flatMap hexDigits)
    | none => .error .typeError

/-! ## Pairs of digits -/

/-- The bytes of an even number of hexadecimal digits -/
def octets : Text → Option (List UInt8)
  | [] => some []
  | [_] => none
  | a :: b :: rest =>
    match hexValue a, hexValue b, octets rest with
    | some x, some y, some bytes => some (UInt8.ofNat (16 * x + y) :: bytes)
    | _, _, _ => none

def IsHexString (s : Text) : Prop := s.length % 2 = 0 ∧ ∀ u ∈ s, isHex u = true

/-- A minus sign and a digit other than zero -/
def Negative (slice : Text) : Prop := ∃ d n, slice = [45, d] ∧ hexValue d = some n ∧ 0 < n

variable {a b : UInt16} {x y : Nat} {s slice : Text} {g : Runtime}

theorem hexValue_some (h : hexValue a = some x) :
    x < 16 ∧ (48 ≤ a.toNat ∧ a.toNat ≤ 57 ∨ 65 ≤ a.toNat ∧ a.toNat ≤ 70 ∨
      97 ≤ a.toNat ∧ a.toNat ≤ 102) := by
  unfold hexValue at h
  split_ifs at h <;> cases h <;> omega

theorem ofDigits_lt (ds : Text) (hd : ∀ d ∈ ds, isHex d = true) :
    ofDigits 16 ds < 16 ^ ds.length := by
  induction ds using reverseRecOn with
  | nil => simp [ofDigits]
  | append_singleton ds d ih =>
    obtain ⟨n, hn⟩ := Option.isSome_iff_exists.mp (hd d (by simp))
    have hlt := (hexValue_some hn).1
    have := ih fun d hd' => hd d (by simp [hd'])
    rw [ofDigits, foldl_append, ← ofDigits, length_append, length_singleton,
      foldl_cons, foldl_nil, hn, Option.getD_some]
    omega

theorem parseDigits_lt (h : parseDigits s = some x) : x < 16 ^ s.length := by
  obtain ⟨t, ht, hlen⟩ : ∃ t : Text, x = ofDigits 16 (t.takeWhile isHex) ∧ t.length ≤ s.length := by
    simp only [parseDigits] at h
    split_ifs at h
    refine ⟨_, (Option.some.inj h).symm, ?_⟩
    split <;> simp <;> omega
  rw [ht]
  refine Nat.lt_of_lt_of_le (ofDigits_lt _ fun d hd => mem_takeWhile_imp hd) ?_
  exact Nat.pow_le_pow_right (by decide) (Nat.le_trans (ScriptLiterals.takeWhile_le _ _) hlen)

theorem parseDigits_one (d : UInt16) : parseDigits [d] = hexValue d := by
  cases h : hexValue d with
  | none => simp [parseDigits, isHex, h]
  | some n => simp [parseDigits, isHex, h, ofDigits]

/-- What a slice may be read as. -/
theorem parseInt16_cases (hlen : slice.length ≤ 2) :
    parseInt16 slice = none ∨ (∃ n : Nat, n < 256 ∧ parseInt16 slice = some (n : Int)) ∨
    ∃ (d : UInt16) (n : Nat), slice = [45, d] ∧ hexValue d = some n ∧ parseInt16 slice = some (-(n : Int)) := by
  have hsuffix := dropWhile_suffix (fun u => Auth.isSpace (char u)) (l := slice)
  have hle := hsuffix.length_le
  have hpos : ∀ t : Text, t.length ≤ 2 → (parseDigits t).map (fun n => (n : Int)) = none ∨
      ∃ n : Nat, n < 256 ∧ (parseDigits t).map (fun n => (n : Int)) = some n := by
    intro t ht
    cases h : parseDigits t with
    | none => exact .inl rfl
    | some n =>
      have := parseDigits_lt h
      exact .inr ⟨n, Nat.lt_of_lt_of_le this (Nat.pow_le_pow_right (by decide) ht), rfl⟩
  unfold parseInt16
  split
  · next rest heq =>
    rw [heq] at hsuffix hle
    match rest, hle with
    | [], _ => exact .inl rfl
    | [d], _ =>
      have hs : [45, d] = slice := hsuffix.eq_of_length_le hlen
      rw [parseDigits_one]
      cases h : hexValue d with
      | none => exact .inl rfl
      | some n => exact .inr (.inr ⟨d, n, hs.symm, h, rfl⟩)
    | _ :: _ :: _, h => simp at h; omega
  · next rest heq =>
    rw [heq, length_cons] at hle
    exact (hpos rest (by omega)).imp_right .inl
  · exact (hpos _ (by omega)).imp_right .inl

theorem fromCharCode_natCast {n : Nat} (h : n < 256) :
    fromCharCode (some (n : Int)) = UInt16.ofNat n := by
  have hall : ∀ i : Nat, i < 256 → fromCharCode (some i) = UInt16.ofNat i := by
    decide +kernel
  exact hall n h

theorem fromCharCode_gt_iff (hlen : slice.length ≤ 2) :
    255 < fromCharCode (parseInt16 slice) ↔ Negative slice := by
  have hsmall : ∀ n : Nat, n < 16 → (255 < fromCharCode (some (-n)) ↔ 0 < n) := by decide
  have hnone : parseInt16 slice = none → ¬Negative slice := by
    rintro h ⟨d, n, rfl, hd, hpos⟩
    simp [parseInt16, show Auth.isSpace (char 45) = false by decide, parseDigits_one, hd] at h
  have hnat : ∀ n : Nat, parseInt16 slice = some n → ¬Negative slice := by
    rintro m h ⟨d, n, rfl, hd, hpos⟩
    simp [parseInt16, show Auth.isSpace (char 45) = false by decide, parseDigits_one, hd] at h
    omega
  obtain h | ⟨n, hn, h⟩ | ⟨d, n, rfl, hd, h⟩ := parseInt16_cases hlen
  · rw [h]
    exact iff_of_false (by decide) (hnone h)
  · rw [h, fromCharCode_natCast hn, UInt16.lt_iff_toNat_lt, UInt16.toNat_ofNat']
    refine iff_of_false (fun hgt => ?_) (hnat n h)
    have : (255 : UInt16).toNat = 255 := rfl
    omega
  rw [h, hsmall n (hexValue_some hd).1]
  constructor
  · exact fun hpos => ⟨d, n, rfl, hd, hpos⟩
  rintro ⟨d', n', heq, hd', hpos⟩
  cases heq
  rw [hd] at hd'
  cases hd'
  exact hpos

theorem isSpace_char_of_hexValue (h : hexValue a = some x) : Auth.isSpace (char a) = false := by
  have hall : ∀ n < 103, 48 ≤ n → Auth.isSpace (Char.ofNat n) = false := by decide
  have hrange := (hexValue_some h).2
  exact hall a.toNat (by omega) (by omega)

theorem parseInt16_digits (ha : hexValue a = some x) (hb : hexValue b = some y) :
    parseInt16 [a, b] = some ((16 * x + y : Nat) : Int) := by
  have hdigits : parseDigits [a, b] = some (16 * x + y) := by
    unfold parseDigits
    split
    · next heq =>
      cases heq
      cases hb
    · next heq =>
      cases heq
      cases hb
    · simp [isHex, ha, hb, ofDigits]
  unfold parseInt16
  rw [dropWhile_cons_of_neg (by simp [isSpace_char_of_hexValue ha])]
  split
  · next heq =>
    cases heq
    cases ha
  · next heq =>
    cases heq
    cases ha
  · rw [hdigits]
    rfl

theorem slices_length_le : ∀ {s : Text}, slice ∈ slices s → slice.length ≤ 2
  | [], h => absurd h (by simp [slices])
  | [a], h => by simp [mem_singleton.mp h]
  | a :: b :: rest, h => by
    rcases mem_cons.mp h with rfl | h
    · simp
    · exact slices_length_le h

theorem octets_isSome : ∀ s : Text, (octets s).isSome = true ↔ IsHexString s
  | [] => by simp [octets, IsHexString]
  | [a] => by simp [octets, IsHexString]
  | a :: b :: rest => by
    have hsome : (octets (a :: b :: rest)).isSome = (isHex a && isHex b && (octets rest).isSome) := by
      rw [octets, isHex, isHex]
      cases hexValue a <;> cases hexValue b <;> cases octets rest <;> rfl
    have hlen : (a :: b :: rest).length % 2 = rest.length % 2 := Nat.add_mod_right rest.length 2
    rw [hsome, Bool.and_eq_true, Bool.and_eq_true, octets_isSome rest, IsHexString, IsHexString, hlen,
      forall_mem_cons, forall_mem_cons]
    tauto

/-! ## Exactly -/

/-- Digits are read as the bytes they are. -/
theorem slices_octets : ∀ {s : Text} {bytes : List UInt8}, octets s = some bytes →
    (slices s).map (fun slice => fromCharCode (parseInt16 slice)) = bytes.map UInt8.toUInt16
  | [], bytes, h => by cases h; rfl
  | [_], _, h => by cases h
  | a :: b :: rest, bytes, h => by
    unfold octets at h
    split at h
    · next x y tail ha hb htail =>
      cases h
      have hx := (hexValue_some ha).1
      have hy := (hexValue_some hb).1
      rw [slices, map_cons, slices_octets htail, parseInt16_digits ha hb,
        fromCharCode_natCast (by omega)]
      congr 1
      rw [← UInt16.toNat_inj, UInt16.toNat_ofNat', UInt8.toNat_toUInt16, UInt8.toNat_ofNat']
      omega
    · cases h

theorem hexToBase64_octets (g : Runtime) {bytes : List UInt8} (h : octets (trimmed s) = some bytes) :
    g.hexToBase64 s = .ok (base64 bytes) := by
  have hraw : rawUnits s = bytes.map UInt8.toUInt16 := slices_octets h
  have hlow : (rawUnits s).map UInt16.toUInt8 = bytes := by simp [hraw, Function.comp_def]
  have hany : (rawUnits s).any (fun u => 255 < u) = false := by
    rw [hraw, any_map, any_eq_false]
    intro b _
    have := b.toNat_lt
    simp only [Function.comp, decide_eq_true_eq, UInt16.lt_iff_toNat_lt]
    exact Nat.not_lt.mpr (Nat.le_of_lt_succ this)
  unfold Runtime.hexToBase64 btoa
  rw [hlow, hany]
  split
  · rfl
  next hb =>
  obtain ⟨-, hb'⟩ | hbuffer := g.ships
  · exact absurd hb' hb
  · obtain ⟨buffer, hbuffer⟩ := Option.isSome_iff_exists.mp hbuffer
    rw [hbuffer]

theorem hexToBase64_error_iff (g : Runtime) : (∃ e, g.hexToBase64 s = .error e) ↔
      g.btoa = true ∧ ∃ slice ∈ slices (trimmed s), Negative slice := by
  have hany : (rawUnits s).any (fun u => 255 < u) = true ↔ ∃ slice ∈ slices (trimmed s), Negative slice := by
    simp only [rawUnits, any_map, any_eq_true, Function.comp, decide_eq_true_eq]
    exact exists_congr fun slice => and_congr_right fun h => fromCharCode_gt_iff (slices_length_le h)
  unfold Runtime.hexToBase64 btoa
  rw [← hany]
  split
  · next hb =>
    split
    · next h => simp [hb, h]
    · next h => simp [h]
  · next hb =>
    obtain ⟨-, hb'⟩ | hbuffer := g.ships
    · exact absurd hb' hb
    · obtain ⟨buffer, hbuffer⟩ := Option.isSome_iff_exists.mp hbuffer
      simp [hbuffer, hb]

/-! ## The round trip -/

theorem octets_hexDigits (bytes : List UInt8) : octets (bytes.flatMap hexDigits) = some bytes := by
  have hvalue : ∀ n < 16, hexValue (hexDigit n) = some n := by decide
  induction bytes with
  | nil => rfl
  | cons b bytes ih =>
    have hb := b.toNat_lt
    rw [flatMap_cons, hexDigits, cons_append, cons_append, nil_append, octets,
      hvalue _ (by omega), hvalue _ (by omega), ih]
    simp only [Nat.div_add_mod, UInt8.ofNat_toNat]

theorem trimmed_of_octets {bytes : List UInt8} (h : octets s = some bytes) : trimmed s = s := by
  unfold trimmed
  split
  · cases h
  · rfl

theorem char_base64 (bytes : List UInt8) : (base64 bytes).map char = encode symbol ['='] bytes := by
  have hback : ∀ c ∈ encode symbol ['='] bytes, char (UInt16.ofNat c.toNat) = c :=
    Base64.forall_mem_encode (by decide) (all_iff_forall_prop.1 (by decide)) bytes
  rw [base64, units, map_map]
  exact (map_congr_left hback).trans (map_id _)

theorem atob_base64 (bytes : List UInt8) :
    Pouw.atob (String.ofList ((base64 bytes).map char)) = some bytes := by
  have hlen := Base64.length_sextets bytes
  have hpad : Base64.padLength bytes.length < 3 := Nat.mod_lt _ (by decide)
  have hdecode := Pouw.atob_decodes _ _ (Base64.sextets_lt bytes) (Nat.le_of_lt_succ hpad) (by omega)
  rw [char_base64, encode, flatten_replicate_singleton, hdecode, Base64.octets_sextets]

theorem bytesToHex_base64 (g : Runtime) (bytes : List UInt8) :
    g.bytesToHex (base64 bytes) = .ok (bytes.flatMap hexDigits) := by
  unfold Runtime.bytesToHex
  rw [atob_base64]
  split
  · rfl
  next ha =>
  obtain ⟨ha', -⟩ | hbuffer := g.ships
  · exact absurd ha' ha
  obtain ⟨buffer, hbuffer⟩ := Option.isSome_iff_exists.mp hbuffer
  rw [hbuffer]
  simp only [buffer.fromBase64_base64]

/-- Nothing that is no string of digits is converted. -/
def Rejects (g : Runtime) (s : Text) : Prop :=
  (∃ e, g.hexToBase64 s = .error e) ∨
    ∃ bytes, octets (trimmed s) = some bytes ∧ g.hexToBase64 s = .ok (base64 bytes)

/-- The base64 of bytes is converted to hexadecimal digits and back on every runtime. A string is either
    refused or converted to the bytes of its digits exactly if it is, without a `0x` in front, an even
    number of hexadecimal digits, or if there is a `btoa` and one of its pairs is a minus sign and a digit
    other than zero. -/
theorem hexToBase64_exact_iff (g : Runtime) (bytes : List UInt8) (s : Text) :
    ((g.bytesToHex (base64 bytes)).bind g.hexToBase64 = .ok (base64 bytes) ∧ Rejects g s) ↔
      IsHexString (trimmed s) ∨ g.btoa = true ∧ ∃ slice ∈ slices (trimmed s), Negative slice := by
  have hround : (g.bytesToHex (base64 bytes)).bind g.hexToBase64 = .ok (base64 bytes) := by
    have hoctets := octets_hexDigits bytes
    rw [bytesToHex_base64]
    exact hexToBase64_octets g (by rw [trimmed_of_octets hoctets, hoctets])
  rw [and_iff_right hround, Rejects, hexToBase64_error_iff, ← octets_isSome, Option.isSome_iff_exists,
    or_comm]
  exact or_congr_left (exists_congr fun bytes => and_iff_left_of_imp (hexToBase64_octets g))

def modern : Runtime := ⟨true, true, none, by decide⟩

/-- `hexToBase64('zz')` is `'AA=='`. -/
theorem hexToBase64_zz : ¬Rejects modern (units ['z', 'z']) := by
  rintro (⟨e, h⟩ | ⟨bytes, h, -⟩)
  · have hok : modern.hexToBase64 (units ['z', 'z']) = .ok (units ['A', 'A', '=', '=']) := by decide
    rw [hok] at h
    cases h
  · have hnone : octets (trimmed (units ['z', 'z'])) = none := by decide
    rw [hnone] at h
    cases h

end MessagingService
