import Mathlib.Data.List.Basic
import Mathlib.Tactic.IntervalCases
import Mathlib.Tactic.SplitIfs

/-! # Addresses on their way to the signature

Token ids, wallet ids and recipients come from JavaScript as hexadecimal strings, and each native
signer turns them into bytes in a way of its own: `hexToBytes` and the checks around it in
`NativeIdentityProvisioning.kt`, the copy into a 32-byte array in `identity_jni.rs`, and
`Data(fromHexString:)` in `NativeIdentityProvisioning.swift`. -/

namespace NativeIdentityProvisioning

open List Option

/-! ## What the string says -/

def hexValue (c : Char) : Option Nat :=
  if 48 ≤ c.toNat ∧ c.toNat ≤ 57 then some (c.toNat - 48)
  else if 97 ≤ c.toNat ∧ c.toNat ≤ 102 then some (c.toNat - 87)
  else if 65 ≤ c.toNat ∧ c.toNat ≤ 70 then some (c.toNat - 55)
  else none

/-- Two digits for each byte. -/
def hexBytes : List Char → Option (List UInt8)
  | [] => some []
  | [_] => none
  | a :: b :: cs =>
    match hexValue a, hexValue b, hexBytes cs with
    | some x, some y, some bs => some (UInt8.ofNat (16 * x + y) :: bs)
    | _, _, _ => none

def stripHexPrefix : List Char → List Char
  | '0' :: 'x' :: cs => cs
  | cs => cs

/-- The 32 bytes of an id: 64 hexadecimal digits after an optional `0x`. -/
def addressBytes (s : String) : Option (List UInt8) :=
  if (stripHexPrefix s.toList).length = 64 then hexBytes (stripHexPrefix s.toList) else none

/-- Exactly 64 hexadecimal digits. -/
def Hex64 (cs : List Char) : Prop := cs.length = 64 ∧ ∀ c ∈ cs, (hexValue c).isSome

instance (cs : List Char) : Decidable (Hex64 cs) :=
  decidable_of_iff (cs.length = 64 ∧ cs.all (fun c => (hexValue c).isSome) = true)
    (by rw [Hex64, List.all_eq_true])

/-- The methods that sign for an address. -/
inductive Signer where
  | tokenMint
  | tokenTransfer
  | walletTransfer
  | assetLaunch
deriving DecidableEq

/-! ## Android -/

namespace Android

/-- The zeros of the decimal digits of the basic multilingual plane. -/
def decimalZeros : List Nat :=
  [0x0030, 0x0660, 0x06F0, 0x07C0, 0x0966, 0x09E6, 0x0A66, 0x0AE6, 0x0B66, 0x0BE6, 0x0C66, 0x0CE6,
    0x0D66, 0x0DE6, 0x0E50, 0x0ED0, 0x0F20, 0x1040, 0x1090, 0x17E0, 0x1810, 0x1946, 0x19D0, 0x1A80,
    0x1A90, 0x1B50, 0x1BB0, 0x1C40, 0x1C50, 0xA620, 0xA8D0, 0xA900, 0xA9D0, 0xA9F0, 0xAA50, 0xABF0,
    0xFF10]

/-- `Character.digit(c, 16)`: decimal digits of any script, and Latin letters of both widths. -/
def characterDigit (c : Char) : Option Nat :=
  match decimalZeros.find? fun z => z ≤ c.toNat && c.toNat < z + 10 with
  | some z => some (c.toNat - z)
  | none =>
    if 97 ≤ c.toNat ∧ c.toNat ≤ 102 then some (c.toNat - 87)
    else if 65 ≤ c.toNat ∧ c.toNat ≤ 70 then some (c.toNat - 55)
    else if 0xFF41 ≤ c.toNat ∧ c.toNat ≤ 0xFF46 then some (c.toNat - 0xFF41 + 10)
    else if 0xFF21 ≤ c.toNat ∧ c.toNat ≤ 0xFF26 then some (c.toNat - 0xFF21 + 10)
    else none

/-- `String.toInt(16)` on a string of one or two characters: a sign may come before a digit. -/
def toInt16 : List Char → Option Int
  | [c] => (characterDigit c).map Int.ofNat
  | [c, d] =>
    if c = '+' then (characterDigit d).map Int.ofNat
    else if c = '-' then (characterDigit d).map fun n => -Int.ofNat n
    else
      match characterDigit c, characterDigit d with
      | some x, some y => some (16 * x + y)
      | _, _ => none
  | _ => none

/-- `Int.toByte()` -/
def toByte (n : Int) : UInt8 := UInt8.ofNat (n % 256).toNat

/-- `hex.chunked(2)` -/
def chunked : List Char → List (List Char)
  | [] => []
  | [c] => [[c]]
  | c :: d :: cs => [c, d] :: chunked cs

def mapBytes : List (List Char) → Option (List UInt8)
  | [] => some []
  | chunk :: chunks =>
    match toInt16 chunk, mapBytes chunks with
    | some n, some bs => some (toByte n :: bs)
    | _, _ => none

/-- `none` stands for the `NumberFormatException`. -/
def hexToBytes (hex : List Char) : Option (List UInt8) := mapBytes (chunked hex)

/-- `tid_arr[..len].copy_from_slice(&tid[..len])` with `len = min(tid.len(), 32)`. -/
def copyTo32 (bytes : List UInt8) : List UInt8 :=
  bytes.take 32 ++ List.replicate (32 - bytes.length) 0

/-- The bytes that lib-client gets for an id, or `none` where the call is rejected. Mint and
    transfer check nothing, a wallet transfer checks the string first, an asset launch checks the
    size of what was read. -/
def readId : Signer → String → Option (List UInt8)
  | .tokenMint, s | .tokenTransfer, s => (hexToBytes s.toList).map copyTo32
  | .walletTransfer, s =>
    if s.toList.length ≠ 64 ∨ ¬ s.toList.all (fun c => (hexValue c).isSome) then none
    else (hexToBytes s.toList).map copyTo32
  | .assetLaunch, s =>
    (hexToBytes (stripHexPrefix s.toList)).filter fun bytes => bytes.length = 32

end Android

/-! ## iOS -/

namespace Ios

/-- `UInt8(hex, radix: 16)` on two characters: a plus may come before a digit, a minus only
    before zero. -/
def uint8Radix16 (c d : Char) : Option UInt8 :=
  if c = '+' then (hexValue d).map UInt8.ofNat
  else if c = '-' then (hexValue d).bind fun n => if n = 0 then some 0 else none
  else
    match hexValue c, hexValue d with
    | some x, some y => some (UInt8.ofNat (16 * x + y))
    | _, _ => none

def pairBytes : List Char → Option (List UInt8)
  | [] => some []
  | [_] => none
  | c :: d :: cs =>
    match uint8Radix16 c d, pairBytes cs with
    | some b, some bs => some (b :: bs)
    | _, _ => none

/-- `Data(fromHexString:)` -/
def dataFromHexString (s : String) : Option (List UInt8) := pairBytes (stripHexPrefix s.toList)

/-- Mint and transfer hand over what was read; the other signers check its size. -/
def readId : Signer → String → Option (List UInt8)
  | .tokenMint, s | .tokenTransfer, s => dataFromHexString s
  | .walletTransfer, s | .assetLaunch, s =>
    (dataFromHexString s).filter fun bytes => bytes.length = 32

end Ios

/-! ## Which strings are read as what they say -/

/-- All ids of one call, or `none` if one of them is rejected. -/
def readIds (read : String → Option (List UInt8)) : List String → Option (List (List UInt8))
  | [] => some []
  | s :: ss =>
    match read s, readIds read ss with
    | some id, some ids => some (id :: ids)
    | _, _ => none

/-- Whenever the call gets as far as lib-client, each id is what its string says. -/
def Unaltered (read : String → Option (List UInt8)) (ids : List String) : Prop :=
  ∀ out, readIds read ids = some out → ids.map addressBytes = out.map some

/-- Strings that an Android signer rejects. -/
def Android.Malformed : Signer → String → Prop
  | .tokenMint, s | .tokenTransfer, s => ∃ chunk ∈ Android.chunked s.toList, Android.toInt16 chunk = none
  | .walletTransfer, s => ¬ Hex64 s.toList
  | .assetLaunch, s =>
    ((stripHexPrefix s.toList).length ≠ 63 ∧ (stripHexPrefix s.toList).length ≠ 64) ∨
      ∃ chunk ∈ Android.chunked (stripHexPrefix s.toList), Android.toInt16 chunk = none

/-- Strings that an Android signer should take. -/
def Android.WellFormed : Signer → String → Prop
  | .assetLaunch, s => Hex64 (stripHexPrefix s.toList)
  | _, s => Hex64 s.toList

/-- The characters two by two; `none` for a pair that is not a number. -/
def Ios.MalformedPair (cs : List Char) : Prop :=
  ∃ chunk ∈ Android.chunked cs, ∀ c d, chunk = [c, d] → Ios.uint8Radix16 c d = none

/-- Strings that an iOS signer rejects. -/
def Ios.Malformed : Signer → String → Prop
  | .tokenMint, s | .tokenTransfer, s => Ios.MalformedPair (stripHexPrefix s.toList)
  | .walletTransfer, s | .assetLaunch, s =>
    (stripHexPrefix s.toList).length ≠ 64 ∨ Ios.MalformedPair (stripHexPrefix s.toList)

def Ios.WellFormed (s : String) : Prop := Hex64 (stripHexPrefix s.toList)

/-! ### Digits -/

variable {c d : Char} {n x y : Nat} {read : String → Option (List UInt8)}

theorem hexValue_lt (h : hexValue c = some n) : n < 16 := by
  unfold hexValue at h
  split_ifs at h <;> (cases h; omega)

theorem characterDigit_of_hexValue (h : hexValue c = some n) :
    Android.characterDigit c = some n := by
  have hrange : (48 ≤ c.toNat ∧ c.toNat ≤ 57) ∨ (97 ≤ c.toNat ∧ c.toNat ≤ 102) ∨
      (65 ≤ c.toNat ∧ c.toNat ≤ 70) := by
    unfold hexValue at h
    split_ifs at h <;> omega
  rw [← h]
  unfold hexValue Android.characterDigit
  generalize c.toNat = k at hrange
  rcases hrange with ⟨h1, h2⟩ | ⟨h1, h2⟩ | ⟨h1, h2⟩ <;> interval_cases k <;> decide

/-- A hexadecimal digit is no sign. -/
theorem ne_sign_of_hexValue (h : hexValue c = some n) : c ≠ '+' ∧ c ≠ '-' := by
  constructor
  · rintro rfl
    simp [show hexValue '+' = none by decide] at h
  · rintro rfl
    simp [show hexValue '-' = none by decide] at h

theorem toInt16_of_hexValue (hc : hexValue c = some x) (hd : hexValue d = some y) :
    Android.toInt16 [c, d] = some ((16 * x + y : Nat) : Int) := by
  obtain ⟨hplus, hminus⟩ := ne_sign_of_hexValue hc
  simp [Android.toInt16, hplus, hminus, characterDigit_of_hexValue hc, characterDigit_of_hexValue hd]

theorem toByte_natCast (h : n < 256) : Android.toByte n = UInt8.ofNat n := by
  unfold Android.toByte
  congr 1
  omega

theorem uint8Radix16_of_hexValue (hc : hexValue c = some x) (hd : hexValue d = some y) :
    Ios.uint8Radix16 c d = some (UInt8.ofNat (16 * x + y)) := by
  obtain ⟨hplus, hminus⟩ := ne_sign_of_hexValue hc
  simp [Ios.uint8Radix16, hplus, hminus, hc, hd]

theorem hexBytes_eq_some : ∀ {cs : List Char} {bs : List UInt8}, hexBytes cs = some bs →
    cs.length = 2 * bs.length ∧ ∀ c ∈ cs, (hexValue c).isSome
  | [], bs, h => by
    have hbs : bs = [] := by simpa [hexBytes] using h.symm
    simp [hbs]
  | [_], _, h => absurd h (by simp [hexBytes])
  | a :: b :: cs, bs, h => by
    unfold hexBytes at h
    split at h
    · rename_i x y tail hx hy htail
      obtain ⟨hlen, hall⟩ := hexBytes_eq_some htail
      cases h
      refine ⟨by simp only [length_cons]; omega, ?_⟩
      simpa [hx, hy] using hall
    · simp at h

/-- Hexadecimal digits in pairs are bytes. -/
theorem exists_hexBytes : ∀ {cs : List Char}, cs.length % 2 = 0 → (∀ c ∈ cs, (hexValue c).isSome) →
    ∃ bs, hexBytes cs = some bs
  | [], _, _ => ⟨[], rfl⟩
  | [_], h, _ => nomatch h
  | a :: b :: cs, h, hall => by
    obtain ⟨x, hx⟩ := isSome_iff_exists.1 (hall a (by simp))
    obtain ⟨y, hy⟩ := isSome_iff_exists.1 (hall b (by simp))
    have heven : cs.length % 2 = 0 := by
      simp only [length_cons] at h
      omega
    obtain ⟨bs, hbs⟩ := exists_hexBytes heven fun c hc => hall c (by simp [hc])
    exact ⟨UInt8.ofNat (16 * x + y) :: bs, by simp only [hexBytes, hx, hy, hbs]⟩

/-- On hexadecimal digits all three readers agree. -/
theorem hexToBytes_of_hexBytes : ∀ {cs : List Char} {bs : List UInt8}, hexBytes cs = some bs →
    Android.hexToBytes cs = some bs
  | [], bs, h => h
  | [_], _, h => absurd h (by simp [hexBytes])
  | a :: b :: cs, bs, h => by
    unfold hexBytes at h
    split at h
    · rename_i x y tail hx hy htail
      cases h
      have hlt : 16 * x + y < 256 := by
        have := hexValue_lt hx
        have := hexValue_lt hy
        omega
      have ih := hexToBytes_of_hexBytes htail
      unfold Android.hexToBytes at ih ⊢
      simp only [Android.chunked, Android.mapBytes, toInt16_of_hexValue hx hy, ih,
        toByte_natCast hlt]
    · simp at h

theorem pairBytes_of_hexBytes : ∀ {cs : List Char} {bs : List UInt8}, hexBytes cs = some bs →
    Ios.pairBytes cs = some bs
  | [], bs, h => h
  | [_], _, h => absurd h (by simp [hexBytes])
  | a :: b :: cs, bs, h => by
    unfold hexBytes at h
    split at h
    · rename_i x y tail hx hy htail
      cases h
      simp only [Ios.pairBytes, uint8Radix16_of_hexValue hx hy, pairBytes_of_hexBytes htail]
    · simp at h

/-- 64 digits are 32 bytes. -/
theorem Hex64.exists_bytes {cs : List Char} (h : Hex64 cs) :
    ∃ bs, hexBytes cs = some bs ∧ bs.length = 32 := by
  obtain ⟨bs, hbs⟩ := exists_hexBytes (by rw [h.1]) h.2
  have hlen := (hexBytes_eq_some hbs).1
  exact ⟨bs, hbs, by have := h.1; omega⟩

theorem addressBytes_eq_some_iff {s : String} {id : List UInt8} : addressBytes s = some id ↔
      Hex64 (stripHexPrefix s.toList) ∧ hexBytes (stripHexPrefix s.toList) = some id := by
  unfold addressBytes
  split
  · rename_i hlen
    constructor
    · intro h
      exact ⟨⟨hlen, (hexBytes_eq_some h).2⟩, h⟩
    · exact fun h => h.2
  · rename_i hlen
    constructor
    · intro h
      simp at h
    · exact fun h => absurd h.1.1 hlen

/-! ### Android -/

namespace Android

variable {chunks : List (List Char)} {bs : List UInt8} {s : String}

theorem mapBytes_eq_none_iff : mapBytes chunks = none ↔ ∃ chunk ∈ chunks, toInt16 chunk = none := by
  induction chunks with
  | nil => simp [mapBytes]
  | cons chunk chunks ih =>
    unfold mapBytes
    cases h : toInt16 chunk with
    | none => simp [h]
    | some n =>
      cases hm : mapBytes chunks with
      | none => simpa [h] using ih.1 hm
      | some bs =>
        have := mt ih.2 (by simp [hm])
        simpa [h] using this

theorem length_mapBytes (h : mapBytes chunks = some bs) : bs.length = chunks.length := by
  induction chunks generalizing bs with
  | nil => simpa [mapBytes] using h.symm
  | cons chunk chunks ih =>
    unfold mapBytes at h
    split at h
    · rename_i n tail _ htail
      cases h
      simp [ih htail]
    · simp at h

theorem length_chunked : ∀ cs : List Char, (chunked cs).length = (cs.length + 1) / 2
  | [] => rfl
  | [_] => by simp [chunked]
  | _ :: _ :: cs => by
    simp only [chunked, length_cons, length_chunked cs]
    omega

theorem copyTo32_of_length {bytes : List UInt8} (h : bytes.length = 32) : copyTo32 bytes = bytes := by
  simp [copyTo32, h, take_of_length_le]

/-- A prefix `0x` is no number, so it does not get past `hexToBytes`. -/
theorem strip_eq_of_hexToBytes {cs : List Char} (h : hexToBytes cs = some bs) :
    stripHexPrefix cs = cs := by
  unfold stripHexPrefix
  split
  · rename_i rest
    have hnone : hexToBytes ('0' :: 'x' :: rest) = none :=
      mapBytes_eq_none_iff.2 ⟨['0', 'x'], by simp [chunked], by decide⟩
    rw [hnone] at h
    simp at h
  · rfl

theorem hex64_iff_checks (cs : List Char) :
    ¬ (cs.length ≠ 64 ∨ ¬ cs.all (fun c => (hexValue c).isSome)) ↔ Hex64 cs := by
  simp [Hex64, isSome_iff_ne_none]

theorem readId_walletTransfer_of_hex64 (h : Hex64 s.toList) :
    readId .walletTransfer s = (hexToBytes s.toList).map copyTo32 :=
  if_neg ((hex64_iff_checks _).2 h)

theorem readId_eq_none_iff (signer : Signer) (s : String) :
    readId signer s = none ↔ Malformed signer s := by
  cases signer with
  | tokenMint | tokenTransfer =>
    simp only [readId, map_eq_none_iff]
    exact mapBytes_eq_none_iff
  | walletTransfer =>
    by_cases h : Hex64 s.toList
    · obtain ⟨bs, hbs, _⟩ := h.exists_bytes
      rw [readId_walletTransfer_of_hex64 h, hexToBytes_of_hexBytes hbs]
      simp [Malformed, h]
    · have hnone : readId .walletTransfer s = none :=
        if_pos (not_not.1 (mt (hex64_iff_checks _).1 h))
      simp [hnone, Malformed, h]
  | assetLaunch =>
    simp only [readId, Malformed]
    cases hbs : hexToBytes (stripHexPrefix s.toList) with
    | none => simpa using .inr (mapBytes_eq_none_iff.1 hbs)
    | some bs =>
      have hlen := length_mapBytes hbs
      rw [length_chunked] at hlen
      have hchunks : ¬ ∃ chunk ∈ chunked (stripHexPrefix s.toList), toInt16 chunk = none :=
        mt mapBytes_eq_none_iff.2 (by unfold hexToBytes at hbs; simp [hbs])
      simp only [hchunks, or_false]
      rw [filter_eq_none_iff]
      simp only [some.injEq, forall_eq', decide_eq_true_eq]
      omega

/-- An id that is not rejected is what its string says exactly if the string is 64 digits. -/
theorem readId_exact_iff {signer : Signer} {id : List UInt8} (h : readId signer s = some id) :
    addressBytes s = some id ↔ WellFormed signer s := by
  have hplain : ∀ s : String, (hexToBytes s.toList).map copyTo32 = some id →
      (addressBytes s = some id ↔ Hex64 s.toList) := by
    intro s h
    obtain ⟨bs, hbs, hid⟩ := map_eq_some_iff.1 h
    rw [addressBytes_eq_some_iff, strip_eq_of_hexToBytes hbs]
    constructor
    · exact fun h => h.1
    intro h64
    obtain ⟨bs', hbs', hlen⟩ := h64.exists_bytes
    obtain rfl : bs = bs' := some.inj (hbs.symm.trans (hexToBytes_of_hexBytes hbs'))
    rw [copyTo32_of_length hlen] at hid
    exact ⟨h64, hid ▸ hbs'⟩
  cases signer with
  | tokenMint | tokenTransfer => exact hplain s h
  | walletTransfer =>
    have h64 : Hex64 s.toList := by
      by_contra hne
      rw [(readId_eq_none_iff .walletTransfer s).2 hne] at h
      simp at h
    rw [readId_walletTransfer_of_hex64 h64] at h
    exact hplain s h
  | assetLaunch =>
    obtain ⟨hbs, _⟩ := filter_eq_some_iff.1 h
    rw [addressBytes_eq_some_iff]
    constructor
    · exact fun h => h.1
    intro h64
    obtain ⟨bs', hbs', _⟩ := Hex64.exists_bytes h64
    obtain rfl : id = bs' := some.inj (hbs.symm.trans (hexToBytes_of_hexBytes hbs'))
    exact ⟨h64, hbs'⟩

end Android

/-! ### iOS -/

namespace Ios

theorem pairBytes_eq_none_iff : ∀ cs : List Char, pairBytes cs = none ↔ MalformedPair cs
  | [] => by simp [pairBytes, MalformedPair, Android.chunked]
  | [_] => by simp [pairBytes, MalformedPair, Android.chunked]
  | c :: d :: cs => by
    have ih := pairBytes_eq_none_iff cs
    have hcons : MalformedPair (c :: d :: cs) ↔ uint8Radix16 c d = none ∨ MalformedPair cs := by
      simp [MalformedPair, Android.chunked]
    have hpair : pairBytes (c :: d :: cs) = match uint8Radix16 c d, pairBytes cs with
        | some b, some bs => some (b :: bs)
        | _, _ => none := rfl
    rw [hcons, ← ih, hpair]
    cases uint8Radix16 c d with
    | none => simp
    | some b => cases pairBytes cs <;> simp

theorem length_pairBytes : ∀ {cs : List Char} {bs : List UInt8}, pairBytes cs = some bs →
    cs.length = 2 * bs.length
  | [], bs, h => by
    have hbs : bs = [] := by simpa [pairBytes] using h.symm
    simp [hbs]
  | [_], _, h => absurd h (by simp [pairBytes])
  | c :: d :: cs, bs, h => by
    unfold pairBytes at h
    split at h
    · rename_i b tail _ htail
      cases h
      simp only [length_cons, length_pairBytes htail]
      omega
    · simp at h

theorem readId_sized_eq_none_iff (s : String) :
    (dataFromHexString s).filter (fun bytes => bytes.length = 32) = none ↔
      (stripHexPrefix s.toList).length ≠ 64 ∨ MalformedPair (stripHexPrefix s.toList) := by
  rw [← pairBytes_eq_none_iff]
  unfold dataFromHexString
  cases hbs : pairBytes (stripHexPrefix s.toList) with
  | none => simp
  | some bs =>
    have hlen := length_pairBytes hbs
    simp only [reduceCtorEq, or_false]
    rw [filter_eq_none_iff]
    simp only [some.injEq, forall_eq', decide_eq_true_eq]
    omega

theorem readId_eq_none_iff (signer : Signer) (s : String) :
    readId signer s = none ↔ Malformed signer s := by
  cases signer with
  | tokenMint | tokenTransfer => exact pairBytes_eq_none_iff _
  | walletTransfer | assetLaunch => exact readId_sized_eq_none_iff s

variable {signer : Signer} {s : String} {id : List UInt8}

theorem dataFromHexString_of_readId (h : readId signer s = some id) :
    dataFromHexString s = some id := by
  cases signer with
  | tokenMint | tokenTransfer => exact h
  | walletTransfer | assetLaunch => exact (filter_eq_some_iff.1 h).1

theorem readId_exact_iff (h : readId signer s = some id) :
    addressBytes s = some id ↔ WellFormed s := by
  have hbs := dataFromHexString_of_readId h
  rw [addressBytes_eq_some_iff]
  constructor
  · exact fun h => h.1
  intro h64
  obtain ⟨bs, hbs', _⟩ := Hex64.exists_bytes h64
  obtain rfl : id = bs := some.inj (hbs.symm.trans (pairBytes_of_hexBytes hbs'))
  exact ⟨h64, hbs'⟩

end Ios

/-! ### Whole calls -/

theorem readIds_eq_none_iff {ids : List String} :
    readIds read ids = none ↔ ∃ s ∈ ids, read s = none := by
  induction ids with
  | nil => simp [readIds]
  | cons s ids ih =>
    unfold readIds
    cases h : read s with
    | none => simp [h]
    | some id =>
      cases hids : readIds read ids with
      | none => simpa [h] using ih.1 hids
      | some out =>
        have := mt ih.2 (by simp [hids])
        simpa [h] using this

/-- A reader that is exact on the good strings only leaves a call alone if it rejects one of its
    ids, or all of them are good. -/
theorem unaltered_iff {Bad Good : String → Prop} (hnone : ∀ s, read s = none ↔ Bad s)
    (hexact : ∀ s id, read s = some id → (addressBytes s = some id ↔ Good s)) (ids : List String) :
    Unaltered read ids ↔ (∃ s ∈ ids, Bad s) ∨ ∀ s ∈ ids, Good s := by
  by_cases hbad : ∃ s ∈ ids, Bad s
  · simp only [hbad, true_or, iff_true]
    intro out hout
    obtain ⟨s, hs, h⟩ := hbad
    rw [readIds_eq_none_iff.2 ⟨s, hs, (hnone s).2 h⟩] at hout
    simp at hout
  simp only [hbad]
  induction ids with
  | nil => simp [Unaltered, readIds]
  | cons s ids ih =>
    simp only [mem_cons, exists_eq_or_imp, not_or] at hbad
    obtain ⟨id, hid⟩ := ne_none_iff_exists'.1 (mt (hnone s).1 hbad.1)
    obtain ⟨out, hout⟩ : ∃ out, readIds read ids = some out := by
      rw [← ne_none_iff_exists', Ne, readIds_eq_none_iff]
      simpa only [hnone] using hbad.2
    have hcons : Unaltered read (s :: ids) ↔ addressBytes s = some id ∧ Unaltered read ids := by
      simp [Unaltered, readIds, hid, hout]
    rw [hcons, hexact s id hid, ih hbad.2]
    simp

/-- On both platforms, a call hands lib-client the ids its strings say exactly if one of the strings
    is rejected or all of them are 64 hexadecimal digits. -/
theorem signer_ids_unaltered_iff (signer : Signer) (ids : List String) :
    (Unaltered (Android.readId signer) ids ↔
      (∃ s ∈ ids, Android.Malformed signer s) ∨ ∀ s ∈ ids, Android.WellFormed signer s) ∧
    (Unaltered (Ios.readId signer) ids ↔
      (∃ s ∈ ids, Ios.Malformed signer s) ∨ ∀ s ∈ ids, Ios.WellFormed s) :=
  ⟨unaltered_iff (Android.readId_eq_none_iff signer) (fun _ _ => Android.readId_exact_iff) ids,
    unaltered_iff (Ios.readId_eq_none_iff signer) (fun _ _ => Ios.readId_exact_iff) ids⟩

/-- Android pads a short recipient with zeros, and iOS takes a sign inside a pair. -/
theorem signer_ids_altered :
    ¬ Unaltered (Android.readId .tokenTransfer) ["aabb"] ∧
    ¬ Unaltered (Ios.readId .walletTransfer)
      ["+f+f+f+f+f+f+f+f+f+f+f+f+f+f+f+f+f+f+f+f+f+f+f+f+f+f+f+f+f+f+f+f"] := by
  constructor
  · intro h
    have haltered := h [0xAA :: 0xBB :: replicate 30 0] (by decide)
    exact nomatch haltered
  · intro h
    have haltered := h [replicate 32 0x0F] (by decide)
    exact nomatch haltered

end NativeIdentityProvisioning
