import SovereignMobile.Codec.Items
import SovereignMobile.Quic.AuthEncoding

/-! # The three encoders of CBOR headers

`append_cbor_uint` of `zhtp_codec.rs`, `appendCborUInt` of `ZhtpCodec.swift` and the two encoders of
`ZhtpAuthRequest.swift`, of which one writes unsigned integers only and the other takes its argument as an
`Int`. -/

namespace ZhtpAuthRequest

/-- `appendCborLength` with the guard in front of it -/
def appendCborLengthChecked (majorType : UInt8) (length : Int64) : Except CodecError (List UInt8) :=
  if 0 ≤ length.toInt then .ok (appendCborLength majorType length.toInt.toNat)
  else .error ⟨2, "Invalid CBOR length"⟩

theorem appendCborLength_masked (majorType : UInt8) (length : Nat) :
    appendCborLength majorType length = Quic.appendCborUint length majorType := by
  -- the shift drops the bits that the other encoders mask
  have hmt : majorType <<< 5 = (majorType &&& 0x07) <<< 5 := by
    have h : ∀ x : BitVec 8, x <<< (5#8 % 8) = (x &&& 7#8) <<< (5#8 % 8) := by decide
    exact congrArg UInt8.ofBitVec (h majorType.toBitVec)
  simp only [appendCborLength, Quic.appendCborUint, hmt, Nat.lt_succ_iff]

end ZhtpAuthRequest

namespace ZhtpCodec

open List
open Quic (toBeBytes appendCborUint)
open ZhtpAuthRequest (appendCborLengthChecked appendCborLength_masked)

variable {n : UInt64} {mt : UInt8} {hd : List UInt8}

theorem byteOf_eq (n : UInt64) (k : Nat) (hk : k < 64) :
    (n >>> UInt64.ofNat k).toUInt8 = UInt8.ofNat (n.toNat / 2 ^ k) := by
  rw [← UInt8.toNat_inj, byteOf_toNat n k hk, UInt8.toNat_ofNat']

theorem appendCborUInt_eq (n : UInt64) (mt : UInt8) :
    appendCborUInt n mt = appendCborUint n.toNat mt := by
  have h8 := byteOf_eq n 8 (by decide)
  have h16 := byteOf_eq n 16 (by decide)
  have h24 := byteOf_eq n 24 (by decide)
  have h32 := byteOf_eq n 32 (by decide)
  have h40 := byteOf_eq n 40 (by decide)
  have h48 := byteOf_eq n 48 (by decide)
  have h56 := byteOf_eq n 56 (by decide)
  have h0 : n.toUInt8 = UInt8.ofNat n.toNat := by rw [← UInt8.toNat_inj]; simp
  simp only [UInt64.reduceOfNat] at h8 h16 h24 h32 h40 h48 h56
  unfold appendCborUInt appendCborUint
  simp only [UInt64.lt_iff_toNat_lt, lowByte_eq, h8, h16, h24, h32, h40, h48, h56, h0, toBeBytes,
    UInt64.reduceToNat, ← Nat.lt_succ_iff, Nat.reducePow, Nat.div_one]

/-! ## The shortest form -/

theorem appendCborUInt_masked (n : UInt64) (mt : UInt8) :
    appendCborUInt n (mt &&& 0x07) = appendCborUInt n mt := by
  rw [appendCborUInt, appendCborUInt, UInt8.and_assoc, UInt8.and_self]

theorem header_appendCborUInt (n : UInt64) (mt : UInt8) :
    Header (mt &&& 0x07).toNat n (appendCborUInt n mt) := by
  have hmt : (mt &&& 0x07).toNat < 8 := by
    rw [UInt8.toNat_and]
    exact Nat.lt_of_le_of_lt Nat.and_le_right (by decide)
  rw [← appendCborUInt_masked]
  obtain ⟨info, tail, happ, hwidth, harg⟩ := appendCborUInt_cases n (mt &&& 0x07)
  exact ⟨_, tail, info.toNat, happ, headerByte_toNat hmt (argumentReach_le hwidth).1, hwidth, harg⟩

theorem length_appendCborUint (n : Nat) (mt : UInt8) :
    (appendCborUint n mt).length = if n < 24 then 1 else if n < 256 then 2 else if n < 65536 then 3
      else if n < 4294967296 then 5 else 9 := by
  simp only [appendCborUint, ← Nat.lt_succ_iff]
  split_ifs <;> simp

/-- A header that carries the argument has room for it. -/
theorem Header.argument_lt {major : Nat} (h : Header major n hd) :
    (hd.length = 1 ∧ n.toNat < 24) ∨ (1 < hd.length ∧ n.toNat < 256 ^ (hd.length - 1) ∧
      hd.length ∈ [2, 3, 5, 9]) := by
  obtain ⟨b, tail, info, rfl, -, hwidth, harg⟩ := h
  have hlt := beNat_lt tail
  unfold argumentWidth at hwidth
  rw [length_cons]
  split_ifs at hwidth <;> simp only [Option.some.injEq] at hwidth <;> rw [← hwidth] at harg hlt ⊢
  · exact .inl ⟨rfl, by simpa [harg] using ‹info < 24›⟩
  all_goals exact .inr ⟨by decide, by simpa [harg] using hlt, by decide⟩

theorem appendCborUInt_shortest {major : Nat} (h : Header major n hd) (mt : UInt8) :
    (appendCborUInt n mt).length ≤ hd.length := by
  rw [appendCborUInt_eq, length_appendCborUint]
  obtain ⟨hl, hn⟩ | ⟨hl, hn, hw⟩ := h.argument_lt
  · rw [if_pos hn, hl]
  · simp only [mem_cons, not_mem_nil, or_false] at hw
    obtain hw | hw | hw | hw := hw <;> rw [hw] at hn ⊢ <;> split_ifs <;> omega

theorem decodeCborUInt_of_header {major : Nat} {data : Data} {before after : List UInt8}
    (h : Header major n hd) (hdata : data.bytes = before ++ (hd ++ after)) :
    decodeCborUInt (hd.headD 0 &&& 0x1F) data (before.length + 1) = .ok (n, before.length + hd.length) := by
  have hholds : data.Holds before.length hd := by
    rw [Data.Holds, hdata, drop_left]
    exact prefix_append _ _
  have hread := (headerAt_of_header h hholds).read
  have hat := hholds.at_eq h.length_pos
  rw [Nat.add_zero] at hat
  rwa [hat, getD_eq_getElem?_getD, ← head?_eq_getElem?, ← headD_eq_head?_getD] at hread

/-- The encoders of Rust and of `ZhtpCodec.swift` write the same header for every number and every major
    type, and so does `ZhtpAuthRequest.swift`, by `appendCborUInt` for major type 0 and for every number
    that is an `Int` by `appendCborLength`. No header for the number is shorter. Wherever the header
    stands and whatever follows, `decodeCborUInt` reads the number and stops right after it. -/
theorem uintEncoders_agree (n : UInt64) (mt : UInt8) :
    appendCborUInt n mt = appendCborUint n.toNat mt ∧
    ZhtpAuthRequest.appendCborUInt n.toNat = appendCborUint n.toNat 0 ∧
    (n.toNat < 2 ^ 63 →
      ZhtpAuthRequest.appendCborLengthChecked mt n.toInt64 = .ok (appendCborUint n.toNat mt)) ∧
    Header (mt &&& 0x07).toNat n (appendCborUint n.toNat mt) ∧
    (∀ hd, Header (mt &&& 0x07).toNat n hd → (appendCborUint n.toNat mt).length ≤ hd.length) ∧
    ∀ (data : Data) (before after : List UInt8),
      data.bytes = before ++ (appendCborUint n.toNat mt ++ after) →
      decodeCborUInt ((appendCborUint n.toNat mt).headD 0 &&& 0x1F) data (before.length + 1)
        = .ok (n, before.length + (appendCborUint n.toNat mt).length) := by
  refine ⟨appendCborUInt_eq n mt, ZhtpAuthRequest.appendCborUInt_eq n.toNat, fun hn => ?_, ?_, ?_, ?_⟩
  · have hint : n.toInt64.toInt = n.toNat :=
      BitVec.toInt_eq_toNat_of_lt (show 2 * n.toNat < 2 ^ 64 by omega)
    rw [appendCborLengthChecked, hint, if_pos (Int.natCast_nonneg _), Int.toNat_natCast,
      appendCborLength_masked]
  · rw [← appendCborUInt_eq]
    exact header_appendCborUInt n mt
  · intro hd h
    rw [← appendCborUInt_eq]
    exact appendCborUInt_shortest h mt
  · intro data before after hdata
    rw [← appendCborUInt_eq] at hdata ⊢
    exact decodeCborUInt_of_header (header_appendCborUInt n mt) hdata

theorem uintEncoders_agree_500 :
    ZhtpAuthRequest.appendCborLengthChecked 2 500 = .ok (appendCborUint 500 2) ∧
    decodeCborUInt ((appendCborUint 500 2).headD 0 &&& 0x1F) ⟨[0xff, 0x59, 1, 0xf4, 7], by decide⟩ 2
      = .ok (500, 4) :=
  ⟨(uintEncoders_agree 500 2).2.2.1 (by decide),
    (uintEncoders_agree 500 2).2.2.2.2.2 ⟨[0xff, 0x59, 1, 0xf4, 7], by decide⟩ [0xff] [7] rfl⟩

/-- No `Int` is the number `2 ^ 63`: `appendCborLength` never writes the header that the other encoders
    write for it. -/
theorem uintEncoders_disagree :
    ¬ ∃ length : Int64,
      ZhtpAuthRequest.appendCborLengthChecked 2 length = .ok (appendCborUint (2 ^ 63) 2) := by
  rintro ⟨length, h⟩
  rw [appendCborLengthChecked, appendCborLength_masked] at h
  split at h
  · have hlt := length.toInt_lt
    have heq := Except.ok.inj h
    have hlen := congrArg List.length heq
    rw [length_appendCborUint, length_appendCborUint] at hlen
    have hbig : 4294967295 < length.toInt.toNat := by
      split_ifs at hlen <;> omega
    simp only [appendCborUint, if_neg (show ¬ length.toInt.toNat ≤ 23 by omega),
      if_neg (show ¬ length.toInt.toNat ≤ 255 by omega),
      if_neg (show ¬ length.toInt.toNat ≤ 65535 by omega), if_neg (Nat.not_le.mpr hbig)] at heq
    have := Quic.toBeBytes_inj (by omega) (by decide) (cons.inj heq).2
    omega
  · cases h

end ZhtpCodec
