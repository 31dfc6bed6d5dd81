import SovereignMobile.Codec.BigEndian

/-! # Message framing

`zhtp_framing.rs` (Android) and `ZhtpWireFraming.swift` (iOS): a payload with its length in front of
it, as four big-endian bytes, and on Android the wire format with a magic number before that. -/

namespace Quic

open List
open ZhtpCodec (beNat)

/-! ## Android -/

def MAX_MESSAGE_SIZE : Nat := 16 * 1024 * 1024

/-- "ZHTP" -/
def ZHTP_MAGIC : List UInt8 := [0x5A, 0x48, 0x54, 0x50]

def ZHTP_VERSION : UInt8 := 0x01

def tooLarge (size : Nat) (unit : String) : String :=
  "Message too large: " ++ toString size ++ " > " ++ toString MAX_MESSAGE_SIZE ++ unit

def frameEncode (payload : List UInt8) : Except String (List UInt8) :=
  if payload.length > MAX_MESSAGE_SIZE then .error (tooLarge payload.length " bytes")
  else .ok (toBeBytes 4 payload.length ++ payload)

def wireEncode (payload : List UInt8) : Except String (List UInt8) :=
  if payload.length > MAX_MESSAGE_SIZE then .error (tooLarge payload.length " bytes")
  else .ok (ZHTP_MAGIC ++ ZHTP_VERSION :: (toBeBytes 4 payload.length ++ payload))

/-- What both decoders ask of an announced length. -/
def checkLength (length : Nat) : Except String Unit :=
  if length = 0 then .error "Message length cannot be zero"
  else if length > MAX_MESSAGE_SIZE then .error (tooLarge length "")
  else .ok ()

def frameDecodeHeader (data : List UInt8) : Except String (Nat × List UInt8) :=
  if data.length < 4 then
    .error ("Not enough bytes for length header: " ++ toString data.length)
  else
    let length := beNat (data.take 4)
    match checkLength length with
    | .error e => .error e
    | .ok _ => .ok (length, data.drop 4)

def frameDecodeMessage (data : List UInt8) : Except String (List UInt8 × List UInt8) :=
  match frameDecodeHeader data with
  | .error e => .error e
  | .ok (length, remainder) =>
    if remainder.length < length then
      .error ("Incomplete message: expected " ++ toString length ++ " bytes, have "
        ++ toString remainder.length ++ " bytes")
    else .ok (remainder.take length, remainder.drop length)

def wireDecodeMessage (data : List UInt8) : Except String (List UInt8 × List UInt8) :=
  if data.length < 9 then
    .error ("Not enough bytes for ZHTP wire header: " ++ toString data.length)
  else if data.take 4 ≠ ZHTP_MAGIC then .error "Missing ZHTP magic header"
  else if data.getD 4 0 ≠ ZHTP_VERSION then
    .error ("Unsupported ZHTP version: " ++ toString (data.getD 4 0))
  else
    let length := beNat ((data.drop 5).take 4)
    match checkLength length with
    | .error e => .error e
    | .ok _ =>
      if data.length < 9 + length then
        .error ("Incomplete wire message: expected " ++ toString length ++ " bytes, have "
          ++ toString (data.length - 9) ++ " bytes")
      else .ok ((data.drop 9).take length, data.drop (9 + length))

def decodeWireOrFrameMessage (data : List UInt8) : Except String (List UInt8 × List UInt8) :=
  if data.length ≥ 5 ∧ data.take 4 = ZHTP_MAGIC then wireDecodeMessage data
  else frameDecodeMessage data

/-! ### What the decoders accept -/

variable {length n : Nat} {data payload rest f : List UInt8}

theorem checkLength_eq_ok {u : Unit} :
    checkLength length = .ok u ↔ 0 < length ∧ length ≤ MAX_MESSAGE_SIZE := by
  unfold checkLength
  split
  · simp_all
  split
  · simp_all
  · simp_all only [true_iff]
    omega

theorem lt_of_le_max (h : n ≤ MAX_MESSAGE_SIZE) : n < 256 ^ 4 := by
  have : MAX_MESSAGE_SIZE < 256 ^ 4 := by decide
  omega

theorem frameDecodeHeader_eq_ok {remainder : List UInt8} :
    frameDecodeHeader data = .ok (length, remainder) ↔
      0 < length ∧ length ≤ MAX_MESSAGE_SIZE ∧ data = toBeBytes 4 length ++ remainder := by
  unfold frameDecodeHeader
  constructor
  · intro h
    split at h
    · simp at h
    rename_i hlen
    simp only at h
    split at h
    · simp at h
    rename_i u hc
    cases h
    obtain ⟨hpos, hmax⟩ := checkLength_eq_ok.1 hc
    have htake : (data.take 4).length = 4 := by
      rw [length_take]
      omega
    exact ⟨hpos, hmax, by rw [toBeBytes_beNat htake, take_append_drop]⟩
  · rintro ⟨hpos, hmax, rfl⟩
    have htake : (toBeBytes 4 length ++ remainder).take 4 = toBeBytes 4 length :=
      take_left' (length_toBeBytes 4 length)
    have hdrop : (toBeBytes 4 length ++ remainder).drop 4 = remainder :=
      drop_left' (length_toBeBytes 4 length)
    have hc : checkLength length = .ok () := checkLength_eq_ok.2 ⟨hpos, hmax⟩
    rw [if_neg (by simp)]
    simp only [htake, hdrop, beNat_toBeBytes (lt_of_le_max hmax), hc]

/-- A frame is its payload's length, the payload and whatever follows. -/
theorem frameDecodeMessage_eq_ok : frameDecodeMessage data = .ok (payload, rest) ↔
      payload ≠ [] ∧ payload.length ≤ MAX_MESSAGE_SIZE ∧
        data = toBeBytes 4 payload.length ++ payload ++ rest := by
  unfold frameDecodeMessage
  constructor
  · intro h
    split at h
    · simp at h
    rename_i length remainder hd
    obtain ⟨hpos, hmax, rfl⟩ := frameDecodeHeader_eq_ok.1 hd
    split at h
    · simp at h
    rename_i hlen
    cases h
    have htake : (remainder.take length).length = length := by
      rw [length_take]
      omega
    refine ⟨fun hnil => ?_, by omega, ?_⟩
    · rw [hnil] at htake
      exact absurd htake (by simp; omega)
    · rw [htake, append_assoc, take_append_drop]
  · rintro ⟨hne, hmax, rfl⟩
    have hpos := length_pos_iff.2 hne
    have hd : frameDecodeHeader (toBeBytes 4 payload.length ++ (payload ++ rest)) =
        .ok (payload.length, payload ++ rest) :=
      frameDecodeHeader_eq_ok.2 ⟨hpos, hmax, rfl⟩
    rw [append_assoc, hd]
    simp

/-- After magic and version, a wire message is a frame. -/
theorem wireDecodeMessage_header {tail : List UInt8} {x : List UInt8 × List UInt8} :
    wireDecodeMessage (ZHTP_MAGIC ++ ZHTP_VERSION :: tail) = .ok x ↔
      frameDecodeMessage tail = .ok x := by
  unfold wireDecodeMessage frameDecodeMessage frameDecodeHeader
  simp only [ZHTP_MAGIC, cons_append, nil_append, length_cons, take_succ_cons,
    take_zero, getD_cons_succ, getD_cons_zero, drop_succ_cons, drop_zero,
    ne_eq, not_true_eq_false, if_false]
  by_cases hlen : tail.length < 4
  · rw [if_pos (by omega), if_pos hlen]
    simp
  rw [if_neg (by omega), if_neg hlen]
  cases hc : checkLength (beNat (tail.take 4)) with
  | error e => simp
  | ok u =>
    simp only [length_drop]
    by_cases hshort : tail.length - 4 < beNat (tail.take 4)
    · rw [if_pos (by omega), if_pos hshort]
      simp
    rw [if_neg (by omega), if_neg hshort, drop_drop]
    have hadd : 9 + beNat (tail.take 4) = 4 + beNat (tail.take 4) + 1 + 1 + 1 + 1 + 1 := by omega
    rw [hadd]
    simp only [drop_succ_cons]

theorem wireDecodeMessage_eq_ok : wireDecodeMessage data = .ok (payload, rest) ↔
      payload ≠ [] ∧ payload.length ≤ MAX_MESSAGE_SIZE ∧
        data = ZHTP_MAGIC ++ ZHTP_VERSION :: (toBeBytes 4 payload.length ++ payload) ++ rest := by
  constructor
  · intro h
    have hdata : data = ZHTP_MAGIC ++ ZHTP_VERSION :: data.drop 5 := by
      unfold wireDecodeMessage at h
      split at h
      · simp at h
      rename_i hlen
      split at h
      · simp at h
      rename_i hmagic
      split at h
      · simp at h
      rename_i hversion
      rw [not_not] at hmagic hversion
      have hget : data.getD 4 0 = data[4] := by
        rw [getD_eq_getElem?_getD, getElem?_eq_getElem (by omega), Option.getD_some]
      rw [← hmagic, ← hversion, hget, getElem_cons_drop, take_append_drop]
    rw [hdata, wireDecodeMessage_header, frameDecodeMessage_eq_ok] at h
    obtain ⟨hne, hmax, hdrop⟩ := h
    refine ⟨hne, hmax, ?_⟩
    rw [hdata, hdrop]
    simp
  · rintro ⟨hne, hmax, rfl⟩
    have hframe := frameDecodeMessage_eq_ok.2
      ⟨hne, hmax, (rfl : toBeBytes 4 payload.length ++ payload ++ rest = _)⟩
    rw [append_assoc, cons_append, wireDecodeMessage_header]
    exact hframe

/-- No frame starts with the magic number: its length would be above the cap. -/
theorem frame_take_ne_magic (bs : List UInt8) (h : n ≤ MAX_MESSAGE_SIZE) :
    (toBeBytes 4 n ++ bs).take 4 ≠ ZHTP_MAGIC := by
  intro hm
  rw [take_left' (length_toBeBytes 4 n)] at hm
  have hn := beNat_toBeBytes (lt_of_le_max h)
  rw [hm] at hn
  have : MAX_MESSAGE_SIZE < beNat ZHTP_MAGIC := by decide
  omega

theorem frameEncode_eq_ok : frameEncode payload = .ok f ↔
      payload.length ≤ MAX_MESSAGE_SIZE ∧ f = toBeBytes 4 payload.length ++ payload := by
  rw [frameEncode, guard_eq_ok, Nat.not_lt, Except.ok.injEq, eq_comm]

theorem wireEncode_eq_ok : wireEncode payload = .ok f ↔ payload.length ≤ MAX_MESSAGE_SIZE ∧
      f = ZHTP_MAGIC ++ ZHTP_VERSION :: (toBeBytes 4 payload.length ++ payload) := by
  rw [wireEncode, guard_eq_ok, Nat.not_lt, Except.ok.injEq, eq_comm]

theorem decodeWireOrFrame_frame (hne : payload ≠ []) (hmax : payload.length ≤ MAX_MESSAGE_SIZE) :
    decodeWireOrFrameMessage (toBeBytes 4 payload.length ++ payload ++ rest) =
      .ok (payload, rest) := by
  unfold decodeWireOrFrameMessage
  rw [if_neg fun h => frame_take_ne_magic _ hmax (by rw [← append_assoc]; exact h.2)]
  exact frameDecodeMessage_eq_ok.2 ⟨hne, hmax, rfl⟩

theorem decodeWireOrFrame_wire (hne : payload ≠ []) (hmax : payload.length ≤ MAX_MESSAGE_SIZE) :
    decodeWireOrFrameMessage
      (ZHTP_MAGIC ++ ZHTP_VERSION :: (toBeBytes 4 payload.length ++ payload) ++ rest) =
        .ok (payload, rest) := by
  unfold decodeWireOrFrameMessage
  rw [if_pos ⟨by simp [ZHTP_MAGIC], by simp [ZHTP_MAGIC]⟩]
  exact wireDecodeMessage_eq_ok.2 ⟨hne, hmax, rfl⟩

/-- **Framing on Android.** Both formats come back as they were written, whatever follows them, and
    what the auto-detecting decoder accepts was written in one of the two. -/
theorem decodeWireOrFrameMessage_roundTrip :
    (∀ payload rest : List UInt8, payload ≠ [] → payload.length ≤ MAX_MESSAGE_SIZE →
      ∃ frame wire, frameEncode payload = .ok frame ∧ wireEncode payload = .ok wire ∧
        decodeWireOrFrameMessage (frame ++ rest) = .ok (payload, rest) ∧
        decodeWireOrFrameMessage (wire ++ rest) = .ok (payload, rest)) ∧
    ∀ data payload rest : List UInt8, decodeWireOrFrameMessage data = .ok (payload, rest) →
      (∃ frame, frameEncode payload = .ok frame ∧ data = frame ++ rest) ∨
        ∃ wire, wireEncode payload = .ok wire ∧ data = wire ++ rest := by
  constructor
  · intro payload rest hne hmax
    exact ⟨_, _, frameEncode_eq_ok.2 ⟨hmax, rfl⟩, wireEncode_eq_ok.2 ⟨hmax, rfl⟩,
      decodeWireOrFrame_frame hne hmax, decodeWireOrFrame_wire hne hmax⟩
  · intro data payload rest h
    unfold decodeWireOrFrameMessage at h
    split at h
    · obtain ⟨-, hmax, rfl⟩ := wireDecodeMessage_eq_ok.1 h
      exact .inr ⟨_, wireEncode_eq_ok.2 ⟨hmax, rfl⟩, rfl⟩
    · obtain ⟨-, hmax, rfl⟩ := frameDecodeMessage_eq_ok.1 h
      exact .inl ⟨_, frameEncode_eq_ok.2 ⟨hmax, rfl⟩, rfl⟩

/-- A payload followed by the start of the next frame, and a wire message that is accepted. -/
theorem decodeWireOrFrameMessage_sample :
    (∃ frame wire, frameEncode [1, 2, 3] = .ok frame ∧ wireEncode [1, 2, 3] = .ok wire ∧
      decodeWireOrFrameMessage (frame ++ [0, 0]) = .ok ([1, 2, 3], [0, 0]) ∧
      decodeWireOrFrameMessage (wire ++ [0, 0]) = .ok ([1, 2, 3], [0, 0])) ∧
    ((∃ frame, frameEncode [7] = .ok frame ∧
        [0x5A, 0x48, 0x54, 0x50, 1, 0, 0, 0, 1, 7, 9] = frame ++ [9]) ∨
      ∃ wire, wireEncode [7] = .ok wire ∧
        [0x5A, 0x48, 0x54, 0x50, 1, 0, 0, 0, 1, 7, 9] = wire ++ [9]) :=
  ⟨decodeWireOrFrameMessage_roundTrip.1 [1, 2, 3] [0, 0] (by decide) (by decide),
    decodeWireOrFrameMessage_roundTrip.2 [0x5A, 0x48, 0x54, 0x50, 1, 0, 0, 0, 1, 7, 9] [7] [9]
      (by decide)⟩

end Quic

/-! ## iOS -/

namespace ZhtpFraming

open List
open Quic (toBeBytes)

/-- An `NSError` of the domain "ZhtpFraming". -/
structure FramingError where
  code : Int
  description : String
  deriving DecidableEq, Repr

def MAX_MESSAGE_SIZE : UInt32 := 16 * 1024 * 1024

def zhtpFrameEncode (cborPayload : List UInt8) : Except FramingError (List UInt8) :=
  if cborPayload.length ≤ MAX_MESSAGE_SIZE.toNat then
    .ok (toBeBytes 4 cborPayload.length ++ cborPayload)
  else
    .error ⟨-1, "Message too large: " ++ toString cborPayload.length ++ " > "
      ++ toString MAX_MESSAGE_SIZE ++ " bytes"⟩

/-- `b << n` on `UInt8`: bits that are shifted out are lost, also when `n` is 8 or more. -/
def shiftLeft (b : UInt8) (n : Nat) : UInt8 := UInt8.ofNat (b.toNat <<< n)

/-- The shifts are on `UInt8`, and only their result is converted to `UInt32`. -/
def headerLength (b₀ b₁ b₂ b₃ : UInt8) : UInt32 :=
  (shiftLeft b₀ 24 ||| shiftLeft b₁ 16 ||| shiftLeft b₂ 8 ||| b₃).toUInt32

def zhtpFrameDecodeHeader (data : List UInt8) : Except FramingError (UInt32 × List UInt8) :=
  match data with
  | b₀ :: b₁ :: b₂ :: b₃ :: remainder =>
    let length := headerLength b₀ b₁ b₂ b₃
    if length = 0 then .error ⟨-3, "Message length cannot be zero"⟩
    else if length > MAX_MESSAGE_SIZE then
      .error ⟨-4, "Message too large: " ++ toString length ++ " > " ++ toString MAX_MESSAGE_SIZE⟩
    else .ok (length, remainder)
  | _ => .error ⟨-2, "Not enough bytes for length header: " ++ toString data.length⟩

def zhtpFrameDecodeMessage (data : List UInt8) :
    Except FramingError (List UInt8 × List UInt8) :=
  match zhtpFrameDecodeHeader data with
  | .error e => .error e
  | .ok (length, remainder) =>
    if remainder.length < length.toNat then
      .error ⟨-5, "Incomplete message: expected " ++ toString length ++ " bytes, have "
        ++ toString remainder.length ++ " bytes"⟩
    else .ok (remainder.take length.toNat, remainder.drop length.toNat)

/-- The payload comes back, with what follows it, and the header is read as it was written. -/
def RoundTrips (payload rest : List UInt8) : Prop :=
  ∃ frame, zhtpFrameEncode payload = .ok frame ∧
    zhtpFrameDecodeMessage (frame ++ rest) = .ok (payload, rest) ∧
    ∃ remainder, zhtpFrameDecodeHeader (frame ++ rest) =
      .ok (UInt32.ofNat payload.length, remainder)

/-- Shifting a byte by eight or more leaves nothing. -/
theorem shiftLeft_eq_zero (b : UInt8) {n : Nat} (h : 8 ≤ n) : shiftLeft b n = 0 := by
  apply UInt8.toNat_inj.1
  have hdvd : 2 ^ 8 ∣ b.toNat * 2 ^ n := Dvd.dvd.mul_left (Nat.pow_dvd_pow 2 h) _
  rw [shiftLeft, Nat.shiftLeft_eq]
  exact Nat.mod_eq_zero_of_dvd hdvd

/-- Only the last byte of the header survives. -/
theorem headerLength_eq (b0 b1 b2 b3 : UInt8) : headerLength b0 b1 b2 b3 = b3.toUInt32 := by
  rw [headerLength, shiftLeft_eq_zero b0 (by decide), shiftLeft_eq_zero b1 (by decide),
    shiftLeft_eq_zero b2 (by decide)]
  simp

theorem toBeBytes_four (n : Nat) :
    toBeBytes 4 n = [UInt8.ofNat (n / 256 ^ 3), UInt8.ofNat (n / 256 ^ 2),
      UInt8.ofNat (n / 256), UInt8.ofNat n] := by
  simp [toBeBytes]

theorem zhtpFrameDecodeHeader_toBeBytes (n : Nat) (bs : List UInt8) :
    zhtpFrameDecodeHeader (toBeBytes 4 n ++ bs) =
      if n % 256 = 0 then .error ⟨-3, "Message length cannot be zero"⟩
      else .ok (UInt32.ofNat (n % 256), bs) := by
  have hlast : (UInt8.ofNat n).toUInt32 = UInt32.ofNat (n % 256) := by
    apply UInt32.toNat_inj.1
    simp
    omega
  have hzero : UInt32.ofNat (n % 256) = 0 ↔ n % 256 = 0 := by
    rw [← UInt32.toNat_inj]
    simp
    omega
  have hmax : ¬ UInt32.ofNat (n % 256) > MAX_MESSAGE_SIZE := by
    rw [gt_iff_lt, UInt32.lt_iff_toNat_lt]
    simp [MAX_MESSAGE_SIZE]
    omega
  rw [toBeBytes_four]
  simp only [cons_append, nil_append, zhtpFrameDecodeHeader, headerLength_eq, hlast, hzero,
    hmax, if_false]

theorem zhtpFrameEncode_eq {payload : List UInt8} (h : payload.length ≤ MAX_MESSAGE_SIZE.toNat) :
    zhtpFrameEncode payload = .ok (toBeBytes 4 payload.length ++ payload) :=
  if_pos h

/-- **Framing on iOS.** A payload comes back exactly when it has less than 256 bytes. -/
theorem roundTrips_iff_short {payload : List UInt8} (rest : List UInt8) (hne : payload ≠ [])
    (hmax : payload.length ≤ MAX_MESSAGE_SIZE.toNat) :
    RoundTrips payload rest ↔ payload.length < 256 := by
  have hpos := length_pos_iff.2 hne
  have hheader := zhtpFrameDecodeHeader_toBeBytes payload.length (payload ++ rest)
  rw [← append_assoc] at hheader
  constructor
  · rintro ⟨frame, hframe, -, remainder, hr⟩
    rw [zhtpFrameEncode_eq hmax, Except.ok.injEq] at hframe
    rw [← hframe, hheader] at hr
    split at hr
    · simp at hr
    · simp only [Except.ok.injEq, Prod.mk.injEq] at hr
      have hlen := congrArg UInt32.toNat hr.1
      have hcap : MAX_MESSAGE_SIZE.toNat < 2 ^ 32 := by decide
      simp only [UInt32.toNat_ofNat'] at hlen
      omega
  · intro hshort
    have hmod : payload.length % 256 = payload.length := Nat.mod_eq_of_lt hshort
    rw [hmod, if_neg (by omega)] at hheader
    refine ⟨_, zhtpFrameEncode_eq hmax, ?_, payload ++ rest, hheader⟩
    have hlen : (UInt32.ofNat payload.length).toNat = payload.length :=
      UInt32.toNat_ofNat_of_lt' (by
        have : UInt32.size = 2 ^ 32 := rfl
        omega)
    rw [zhtpFrameDecodeMessage, hheader]
    simp [hlen]

/-- A payload of 300 bytes comes back as its first 44 bytes. -/
theorem not_roundTrips_long :
    ¬ ∀ payload rest : List UInt8, payload ≠ [] → payload.length ≤ MAX_MESSAGE_SIZE.toNat →
      RoundTrips payload rest := by
  intro hall
  have hne : replicate 300 (0 : UInt8) ≠ [] := by
    rw [Ne]
    decide
  have hmax : (replicate 300 (0 : UInt8)).length ≤ MAX_MESSAGE_SIZE.toNat := by
    rw [length_replicate]
    decide
  obtain ⟨frame, hframe, -, remainder, hr⟩ := hall _ [] hne hmax
  rw [zhtpFrameEncode_eq hmax, Except.ok.injEq] at hframe
  rw [← hframe, append_assoc, zhtpFrameDecodeHeader_toBeBytes, length_replicate] at hr
  simp only [Nat.reduceMod, Nat.reduceEqDiff, if_false, Except.ok.injEq, Prod.mk.injEq] at hr
  exact nomatch hr.1

theorem roundTrips_sample :
    ([1, 2, 3] : List UInt8) ≠ [] ∧ (RoundTrips [1, 2, 3] [0, 0] ↔ [1, 2, 3].length < 256) :=
  ⟨by decide, roundTrips_iff_short [0, 0] (by decide) (by decide)⟩

end ZhtpFraming
