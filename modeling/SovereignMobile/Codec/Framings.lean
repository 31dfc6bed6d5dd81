import SovereignMobile.Codec.Responses
import SovereignMobile.Quic.Framing

/-! # The framings of a response

`zhtp_decode_response` of `ZhtpCodec.swift` takes a response bare, behind its length, and behind the
ZHTP header, and tells which of them it has from the first bytes. A map cannot be taken for a length
or for the header: its first byte is above every length that is allowed, and above the magic. -/

namespace Responses.Ios

open ZhtpCodec Quic List

variable (P : Platform)

/-- Step 3: what becomes of the decoded value. -/
def decodedResponse (jsonValue : Decoded) : Except Failure ZhtpResponseWire :=
  if (asDict jsonValue).isNone && (asArray jsonValue).isNone then .ok (scalarResponse P jsonValue)
  else if !jsonValid jsonValue then .error .exception
  else
    (asDict jsonValue).elim (.error (.error "Response is not a dictionary")) fun dict =>
      .ok ((simplifiedError P dict).getD (regularResponse P dict))

/-- Steps 2 and 3. -/
def decodeActual (actualCbor : Data) : Except Failure ZhtpResponseWire :=
  ((decodeCborValue P.nfc actualCbor).mapError Failure.cbor).bind fun decoded =>
    decodedResponse P decoded.1

def zhtpDecodeResponseInternal (allowWireDetection : Bool) (data : Data) :
    Except Failure ZhtpResponseWire :=
  (if allowWireDetection then unwrap data else .ok data).bind (decodeActual P)

/-- A length prefix is taken off where it is the length of the rest. -/
def dropLengthPrefix (data : Data) : Data :=
  if 4 < data.count ∧ beNat (data.bytes.take 4) = data.count - 4 then
    ⟨data.bytes.drop 4, Nat.lt_of_le_of_lt (List.drop_sublist 4 data.bytes).length_le data.count_lt⟩
  else data

def zhtpDecodeResponseCbor (data : Data) : Except Failure ZhtpResponseWire :=
  zhtpDecodeResponseInternal P false (dropLengthPrefix data)

/-- `zhtp_decode_response` allows the detection. -/
theorem zhtpDecodeResponse_eq_internal (data : Data) :
    zhtpDecodeResponse P data = zhtpDecodeResponseInternal P true data := by
  unfold zhtpDecodeResponse zhtpDecodeResponseInternal
  rw [if_pos rfl]
  cases unwrap data with
  | error e => rfl
  | ok actualCbor =>
    dsimp only [Except.bind]
    unfold decodeActual
    cases decodeCborValue P.nfc actualCbor with
    | error stop => rfl
    | ok decoded =>
      obtain ⟨jsonValue, n⟩ := decoded
      dsimp only [Except.mapError, Except.bind]
      unfold decodedResponse
      cases hdict : asDict jsonValue with
      | none => cases asArray jsonValue <;> rfl
      | some dict =>
        dsimp only [Option.elim]
        cases jsonValid jsonValue with
        | false => rfl
        | true => cases simplifiedError P dict <;> rfl

/-! ## First bytes -/

/-- The first item of the data is a map. -/
def IsMap (data : Data) : Prop := ∃ b rest, data.bytes = b :: rest ∧ b.toNat / 32 = 5

theorem isMap_of_encodes {data : Data} {entries : List (Item × Item)}
    (h : Encodes (.map entries) data.bytes) : IsMap data := by
  obtain ⟨hd, n, body, hbytes, ⟨b, tail, info, hhd, hnat, hwidth, _⟩, _⟩ := h
  have hinfo : info < 32 := by
    by_contra hle
    simp only [argumentWidth] at hwidth
    rw [if_neg (by omega), if_neg (by omega), if_neg (by omega), if_neg (by omega),
      if_neg (by omega)] at hwidth
    simp at hwidth
  refine ⟨b, tail ++ body, ?_, ?_⟩
  · rw [hbytes, hhd, cons_append]
  · omega

variable {p : Data}

/-- Bytes that begin with a map are not as many as their first four bytes say. -/
theorem IsMap.beNat_gt (h : IsMap p) (hcount : 4 ≤ p.count) :
    MAX_MESSAGE_SIZE < beNat (p.bytes.take 4) := by
  obtain ⟨b, rest, hbytes, hmajor⟩ := h
  have hrest : (rest.take 3).length = 3 := by
    have hlen : p.bytes.length = p.count := rfl
    rw [hbytes, length_cons] at hlen
    rw [length_take]
    omega
  rw [hbytes, take_succ_cons, beNat_cons, hrest]
  -- the length that the first four bytes would be
  have hmax : MAX_MESSAGE_SIZE < 160 * 256 ^ 3 := by decide
  omega

theorem IsMap.not_magic (h : IsMap p) : p.bytes.take 4 ≠ ZHTP_MAGIC := by
  obtain ⟨b, rest, hbytes, hmajor⟩ := h
  rw [hbytes]
  intro heq
  have hb : b = 0x5A := (cons.inj heq).1
  -- the magic begins with the major type of a byte string
  rw [hb] at hmajor
  exact nomatch hmajor

section Detection
variable {p : Data}

theorem unwrap_map (h : IsMap p) (hmax : p.count ≤ MAX_MESSAGE_SIZE) :
    unwrap p = .ok p ∧ dropLengthPrefix p = p := by
  have hlength : ¬ (4 < p.count ∧ beNat (p.bytes.take 4) = p.count - 4) := by
    rintro ⟨hcount, heq⟩
    have hgt := h.beNat_gt (Nat.le_of_lt hcount)
    omega
  constructor
  · rw [unwrap, if_neg fun hm => h.not_magic hm.2, if_neg hlength]
  · rw [dropLengthPrefix, if_neg hlength]

/-- A length that is allowed does not begin like the magic. -/
theorem length_not_magic {n : Nat} (hmax : n ≤ MAX_MESSAGE_SIZE) : toBeBytes 4 n ≠ ZHTP_MAGIC := by
  intro heq
  have hn : beNat (toBeBytes 4 n) = n := by
    refine beNat_toBeBytes (Nat.lt_of_le_of_lt hmax ?_)
    decide
  rw [heq] at hn
  have hmagic : MAX_MESSAGE_SIZE < beNat ZHTP_MAGIC := by decide
  omega

variable {framed : Data}

theorem take_prefix (hframed : framed.bytes = toBeBytes 4 p.count ++ p.bytes) :
    framed.bytes.take 4 = toBeBytes 4 p.count ∧ framed.bytes.drop 4 = p.bytes ∧
      framed.count = 4 + p.count := by
  refine ⟨?_, ?_, ?_⟩
  · rw [hframed]
    exact take_left' (length_toBeBytes 4 _)
  · rw [hframed]
    exact drop_left' (length_toBeBytes 4 _)
  · rw [Data.count, hframed, length_append]
    rfl

/-- Behind its length it is found there. -/
theorem unwrap_prefixed (h : IsMap p) (hmax : p.count ≤ MAX_MESSAGE_SIZE)
    (hframed : framed.bytes = toBeBytes 4 p.count ++ p.bytes) :
    unwrap framed = .ok p ∧ dropLengthPrefix framed = p := by
  obtain ⟨htake, hdrop, hcount⟩ := take_prefix hframed
  have hpos : 0 < p.count := by
    obtain ⟨b, rest, hbytes, _⟩ := h
    rw [Data.count, hbytes]
    exact Nat.succ_pos _
  have hn : beNat (toBeBytes 4 p.count) = p.count := by
    refine beNat_toBeBytes (Nat.lt_of_le_of_lt hmax ?_)
    decide
  have hlength : 4 < framed.count ∧ beNat (framed.bytes.take 4) = framed.count - 4 := by
    rw [htake]
    omega
  constructor
  · rw [unwrap, if_neg fun hm => length_not_magic hmax (htake.symm.trans hm.2), if_pos hlength]
    simp only [hdrop]
  · rw [dropLengthPrefix, if_pos hlength]
    simp only [hdrop]

/-- Behind the header it is cut out, whatever follows it. -/
theorem unwrap_wire {wire : Data} {version : UInt8} {trailing : List UInt8}
    (hmax : p.count ≤ MAX_MESSAGE_SIZE)
    (hwire : wire.bytes =
      ZHTP_MAGIC ++ (version :: (toBeBytes 4 p.count ++ (p.bytes ++ trailing)))) :
    unwrap wire = .ok p := by
  have hn : beNat (toBeBytes 4 p.count) = p.count := by
    refine beNat_toBeBytes (Nat.lt_of_le_of_lt hmax ?_)
    decide
  have hmagic : wire.bytes.take 4 = ZHTP_MAGIC := by
    rw [hwire]
    exact take_left' rfl
  have hversion : wire.bytes.drop 5 = toBeBytes 4 p.count ++ (p.bytes ++ trailing) := by
    rw [hwire]
    rfl
  have hlength : (wire.bytes.drop 5).take 4 = toBeBytes 4 p.count := by
    rw [hversion]
    exact take_left' (length_toBeBytes 4 _)
  have hbody : (wire.bytes.drop 9).take p.count = p.bytes := by
    have hdrop : wire.bytes.drop 9 = (wire.bytes.drop 5).drop 4 := by rw [drop_drop]
    rw [hdrop, hversion]
    exact take_left' rfl
  have hcount : wire.count = 9 + p.count + trailing.length := by
    rw [Data.count, hwire]
    simp only [length_append, length_cons, length_toBeBytes, ZHTP_MAGIC, length_nil, Data.count]
    omega
  have hheader : 9 ≤ wire.count ∧ wire.bytes.take 4 = [0x5A, 0x48, 0x54, 0x50] := by
    constructor
    · omega
    · exact hmagic
  rw [unwrap, if_pos hheader]
  have hfits : 9 + beNat ((wire.bytes.drop 5).take 4) ≤ wire.count := by
    rw [hlength]
    omega
  rw [if_pos hfits]
  simp only [hlength, hn, hbody]

end Detection

/-- A map of at most 16 MiB is decoded alike by itself, behind its length, and behind the header of any
    version with anything after it; without the header also by `zhtp_decode_response_cbor`. -/
theorem framings_interchangeable {p framed wire : Data} (version : UInt8) (trailing : List UInt8)
    (hmap : IsMap p) (hmax : p.count ≤ MAX_MESSAGE_SIZE)
    (hframed : framed.bytes = toBeBytes 4 p.count ++ p.bytes)
    (hwire : wire.bytes =
      ZHTP_MAGIC ++ (version :: (toBeBytes 4 p.count ++ (p.bytes ++ trailing)))) :
    zhtpDecodeResponse P framed = zhtpDecodeResponse P p ∧
    zhtpDecodeResponse P wire = zhtpDecodeResponse P p ∧
    zhtpDecodeResponseCbor P p = zhtpDecodeResponse P p ∧
    zhtpDecodeResponseCbor P framed = zhtpDecodeResponse P p := by
  obtain ⟨hself, hselfCbor⟩ := unwrap_map hmap hmax
  obtain ⟨hprefixed, hprefixedCbor⟩ := unwrap_prefixed hmap hmax hframed
  have hactual : ∀ data, unwrap data = .ok p → zhtpDecodeResponse P data = decodeActual P p := by
    intro data hunwrap
    rw [zhtpDecodeResponse_eq_internal, zhtpDecodeResponseInternal, hunwrap]
    rfl
  have hactualCbor : ∀ data, dropLengthPrefix data = p →
      zhtpDecodeResponseCbor P data = decodeActual P p := by
    intro data hdrop
    rw [zhtpDecodeResponseCbor, hdrop]
    rfl
  rw [hactual p hself, hactual framed hprefixed, hactual wire (unwrap_wire hmax hwire),
    hactualCbor p hselfCbor, hactualCbor framed hprefixedCbor]
  exact ⟨rfl, rfl, rfl, rfl⟩

/-- A map of one entry, and three bytes behind it. -/
theorem framings_interchangeable_namedStatus :
    ∃ framed wire : Data,
      framed.bytes = toBeBytes 4 17 ++ namedStatusData.bytes ∧
      wire.bytes = ZHTP_MAGIC ++ (7 :: (toBeBytes 4 17 ++ (namedStatusData.bytes ++ [1, 2, 3]))) ∧
      zhtpDecodeResponse asciiPlatform framed = zhtpDecodeResponse asciiPlatform namedStatusData ∧
      zhtpDecodeResponse asciiPlatform wire = zhtpDecodeResponse asciiPlatform namedStatusData ∧
      zhtpDecodeResponseCbor asciiPlatform namedStatusData =
        zhtpDecodeResponse asciiPlatform namedStatusData ∧
      zhtpDecodeResponseCbor asciiPlatform framed =
        zhtpDecodeResponse asciiPlatform namedStatusData := by
  have hcount : namedStatusData.count = 17 := by decide
  refine ⟨⟨toBeBytes 4 17 ++ namedStatusData.bytes, by decide⟩,
    ⟨ZHTP_MAGIC ++ (7 :: (toBeBytes 4 17 ++ (namedStatusData.bytes ++ [1, 2, 3]))), by decide⟩,
    rfl, rfl, ?_⟩
  refine framings_interchangeable asciiPlatform 7 [1, 2, 3] (isMap_of_encodes encodes_namedStatus)
    (by decide) ?_ ?_
  · rw [hcount]
  · rw [hcount]

end Responses.Ios
