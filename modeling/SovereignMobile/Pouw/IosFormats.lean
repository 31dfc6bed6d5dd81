import SovereignMobile.Pouw.HexAsBase64
import SovereignMobile.Pouw.TokenCascade

/-! # Challenge formats on iOS

`parseChallengeToken` of `RCTPoUW.swift` trims the text and tries it as a payload, as base64, as
hexadecimal digits and as a JWT. Its protobuf reader can trap, which ends the attempts. -/

namespace Pouw

open List Option

namespace Ios

open NativeIdentityProvisioning.Ios (trim)

/-- What Foundation does: `JSONSerialization.jsonObject(with:)`, `String(data:encoding: .utf8)`,
    `Data(base64Encoded:options: [.ignoreUnknownCharacters])` and `String.count`. -/
structure Foundation where
  jsonObject : List UInt8 → Option (Json Float)
  utf8Text : List UInt8 → Option String
  base64Data : String → Option (List UInt8)
  count : String → Nat

namespace Foundation

variable (F : Foundation)

def decodeBase64Maybe (value : String) : Option (List UInt8) :=
  F.base64Data (normalizeBase64 F.count (trim value))

def parseChallengeTokenJSON (data : List UInt8) : Option ParsedToken := do
  let json ← F.jsonObject data
  let rawTask ← json.findStringValue (fun _ => true) ["task_id", "taskId"]
  let rawNonce ← json.findStringValue (fun _ => true) ["challenge_nonce", "challengeNonce"]
  let taskId ← normalizeIdentifier trim F.decodeBase64Maybe rawTask
  let challengeNonce ← normalizeIdentifier trim F.decodeBase64Maybe rawNonce
  some ⟨taskId, challengeNonce⟩

/-- A payload is read as JSON, and then as protobuf. -/
def read (payload : List UInt8) : Except Stop (Option (Option ParsedToken)) :=
  match F.parseChallengeTokenJSON payload with
  | some parsed => .ok (some (some parsed))
  | none =>
    match parseChallengeTokenProtobuf payload with
    | .ok parsed => .ok (some (some parsed))
    | .error .nil => .ok none
    | .error .trap => .error .trap

def innerText (payload : List UInt8) : Option String :=
  ((F.utf8Text payload).map trim).filter fun s => s ≠ ""

def decoders : Decoders Stop ParsedToken where
  read := F.read
  innerText := F.innerText
  decodeBase64 := F.decodeBase64Maybe
  decodeHex := decodeHexMaybe trim

theorem decoders_innerText : F.decoders.innerText = F.innerText := by rw [decoders]

theorem decoders_decodeBase64 : F.decoders.decodeBase64 = F.decodeBase64Maybe := by rw [decoders]

theorem decoders_decodeHex : F.decoders.decodeHex = decodeHexMaybe trim := by rw [decoders]

end Foundation

/-- The segments between dots that are not empty, the second first. -/
def jwtSegments (trimmed : String) : List String :=
  let segments := (trimmed.toList.splitOnP (· = '.')).filter (· ≠ [])
  if trimmed.toList.contains '.' then
    ([1, 0].filterMap (segments[·]?)).map String.ofList
  else []

def Foundation.parseChallengeToken (F : Foundation) (token : String) :
    Except Stop (Option ParsedToken) :=
  let D := F.decoders
  let trimmed := trim token
  if trimmed = "" then .ok none
  else
    firstOf (D.parseDecodedTokenPayload 2 (ZhtpCodec.utf8 trimmed))
      (D.decodeText trimmed (jwtSegments trimmed))

/-! ## What Foundation does with ASCII -/

/-- The first byte of JSON, in an encoding that it may have: ASCII that begins a value or is white space,
    zero, or a byte order mark. -/
def beginsJsonData (b : UInt8) : Bool :=
  (48 ≤ b.toNat && b.toNat ≤ 57) ||
    ([0x00, 0x09, 0x0A, 0x0D, 0x20, 0x22, 0x2D, 0x5B, 0x66, 0x6E, 0x74, 0x7B, 0xEF, 0xFE, 0xFF] :
      List Nat).contains b.toNat

/-- What is known of Foundation: JSON without quotes has no member names, and does not begin with any
    byte; text is UTF-8; base64 is decoded, or refused where its last symbol has bits that make no byte;
    and the characters of ASCII count as themselves. -/
structure Foundation.Documented (F : Foundation) : Prop where
  quoted : ∀ data v, (∀ b ∈ data, b.toNat ≠ 0x22) → F.jsonObject data = some v → v.bare = true
  starts : ∀ b data, beginsJsonData b = false → F.jsonObject (b :: data) = none
  text_ascii : ∀ data, (∀ b ∈ data, b.toNat < 128) →
    F.utf8Text data = some (String.ofList (data.map fun b => Char.ofNat b.toNat))
  text_utf8 : ∀ data s, F.utf8Text data = some s → ∃ t, ZhtpCodec.utf8 t = data
  base64 : ∀ bytes, F.base64Data (Format.base64.text bytes) = some bytes
  symbols : ∀ (ns : List Nat) (k : Nat) bytes, (∀ n ∈ ns, n < 64) → k ≤ 2 → (ns.length + k) % 4 = 0 →
    F.base64Data (String.ofList (ns.map Base64.symbol ++ List.replicate k '=')) = some bytes →
      bytes = Base64.octets ns
  count : Counts F.count

/-- What the message says. -/
def IsToken (m : Message) (t : ParsedToken) : Prop :=
  t = ⟨bytesToHex m.taskId, bytesToHex m.challengeNonce⟩

theorem trim_eq_self {s : String} (hs : ∀ c ∈ s.toList, isTextChar c = true) : trim s = s :=
  trimWith_isTextChar (by decide) hs

theorem trim_text (f : Format) (bytes : List UInt8) : trim (f.text bytes) = f.text bytes :=
  trim_eq_self (text_isTextChar f bytes)

/-! ## The first bytes -/

/-- The second byte of a character that is not ASCII. -/
theorem utf8_second {t : String} {g c : UInt8} {cs : List UInt8} (h : ZhtpCodec.utf8 t = g :: c :: cs)
    (hg : 128 ≤ g.toNat) : 128 ≤ c.toNat ∧ c.toNat < 192 := by
  have hcontinued : ∀ x : UInt8, 128 ≤ (x &&& 63 ||| 128).toNat ∧ (x &&& 63 ||| 128).toNat < 192 := by
    intro x
    have hall : ∀ n < 64, 128 ≤ n ||| 128 ∧ n ||| 128 < 192 := by decide
    have hlow : (x &&& 63).toNat < 64 := by
      rw [UInt8.toNat_and]
      exact Nat.lt_of_le_of_lt Nat.and_le_right (by decide)
    rw [UInt8.toNat_or]
    exact hall _ hlow
  rw [utf8_eq_flatMap] at h
  cases hchars : t.toList with
  | nil =>
    rw [hchars] at h
    cases h
  | cons d ds =>
    rw [hchars, flatMap_cons] at h
    rcases d.utf8Size_eq with hsize | hsize | hsize | hsize
    · have hascii : d.toNat < 128 :=
        Nat.lt_succ_of_le (UInt32.le_iff_toNat_le.1 (Char.utf8Size_eq_one_iff.1 hsize))
      rw [utf8EncodeChar_ascii hascii] at h
      rw [← (cons.inj h).1, UInt8.toNat_ofNat'] at hg
      omega
    · rw [String.utf8EncodeChar_eq_cons_cons hsize] at h
      rw [← (cons.inj (cons.inj h).2).1]
      exact hcontinued _
    · rw [String.utf8EncodeChar_eq_cons_cons_cons hsize] at h
      rw [← (cons.inj (cons.inj h).2).1]
      exact hcontinued _
    · rw [String.utf8EncodeChar_eq_cons_cons_cons_cons hsize] at h
      rw [← (cons.inj (cons.inj h).2).1]
      exact hcontinued _

/-! ## Tokens -/

/-- JSON without members is no token. -/
theorem Foundation.parseChallengeTokenJSON_bare (F : Foundation) {data : List UInt8} {v : Json Float}
    (hv : F.jsonObject data = some v) (h : v.bare = true) : F.parseChallengeTokenJSON data = none := by
  unfold Foundation.parseChallengeTokenJSON
  rw [hv, bind_eq_bind, bind_some, Json.findStringValue_bare _ _ v h]
  rfl

theorem beginsJsonData_eq_false {b : UInt8}
    (hb : (b.toNat % 128 = 8 ∨ b.toNat % 128 = 18 ∨ b.toNat % 128 = 26) ∨
      (208 ≤ b.toNat ∧ b.toNat < 248 ∧ b.toNat ≠ 239)) : beginsJsonData b = false := by
  simp only [beginsJsonData, contains_cons, contains_nil, Bool.or_false, Bool.or_eq_false_iff,
    beq_eq_false_iff_ne, Bool.and_eq_false_iff, decide_eq_false_iff_not]
  omega

namespace Foundation.Documented

variable {F : Foundation} {m : Message}

theorem parseChallengeTokenJSON_head (h : F.Documented) {b : UInt8} (hb : beginsJsonData b = false)
    (data : List UInt8) : F.parseChallengeTokenJSON (b :: data) = none := by
  unfold Foundation.parseChallengeTokenJSON
  rw [h.starts b data hb]
  rfl

theorem read_token (h : F.Documented) (hm : m.InSchemaOrder) :
    ∃ t, F.read m.bytes = .ok (some (some t)) ∧ IsToken m t := by
  obtain ⟨b, bs, hbytes, hb⟩ := hm.first
  have hjson : F.parseChallengeTokenJSON m.bytes = none := by
    rw [hbytes]
    exact h.parseChallengeTokenJSON_head
      (beginsJsonData_eq_false (.inl (hb.imp_right fun hb => hb.imp_right And.left))) bs
  refine ⟨_, ?_, rfl⟩
  unfold Foundation.read
  rw [hjson, (Ios.parse_iff m).2 hm.noGroups]

theorem read_text (h : F.Documented) (f : Format) {bytes : List UInt8} (hlen : bytes.length < 2 ^ 31)
    (wrapped : Bool) : F.read (ascii (wrap wrapped (f.text bytes))) = .ok none := by
  have hchars := wrap_isTextChar wrapped f bytes
  have hsmall : (ascii (wrap wrapped (f.text bytes))).length < 2 ^ 62 := by
    have htext := length_text_le f bytes
    cases wrapped with
    | false =>
      rw [wrap, if_neg (by decide)]
      omega
    | true =>
      have hwrapped := length_text_le .base64 (ascii (f.text bytes))
      rw [wrap, if_pos rfl]
      omega
  generalize wrap wrapped (f.text bytes) = s at hchars hsmall
  have hplain : ∀ b ∈ ascii s, b.toNat ≠ 0x22 := by
    intro b hb
    obtain ⟨c, hc, rfl⟩ := mem_map.1 hb
    exact of_isTextChar (P := fun c => (UInt8.ofNat c.toNat).toNat ≠ 0x22) (hchars c hc) (by decide)
  have hjson : F.parseChallengeTokenJSON (ascii s) = none := by
    cases hv : F.jsonObject (ascii s) with
    | none =>
      unfold Foundation.parseChallengeTokenJSON
      rw [hv]
      rfl
    | some v => exact F.parseChallengeTokenJSON_bare hv (h.quoted _ _ hplain hv)
  have hproto := Ios.parse_ascii (fun b hb => (ascii_isTextChar hchars b hb).1)
    (fun b hb => (ascii_isTextChar hchars b hb).2) hsmall
  unfold Foundation.read
  rw [hjson, hproto]

theorem sound (h : F.Documented) (hm : m.InSchemaOrder) : F.decoders.Sound (IsToken m) m.bytes where
  ne_nil := hm.bytes_ne_nil
  read := h.read_token hm
  inner := by
    intro f bs hbs
    have hlt : ∀ b ∈ ascii (f.text bs), b.toNat < 128 := fun b hb =>
      (ascii_isTextChar (text_isTextChar f bs) b hb).1
    rw [decoders_innerText, Foundation.innerText, h.text_ascii _ hlt, ofList_ascii (text_lt f bs),
      map_some, trim_text]
    exact if_pos (decide_eq_true (text_ne_empty hbs))
  base64 := by
    intro f hf bs _
    rw [decoders_decodeBase64, Foundation.decodeBase64Maybe, trim_text, normalizeBase64_text h.count hf]
    exact h.base64 bs
  hex := by
    intro bs hbs
    rw [decoders_decodeHex]
    exact decodeHexMaybe_bytesToHex (trim_text .hex bs) hbs

/-- Unless the token begins with `task_id`, the wrong reading is neither a token nor a text. -/
theorem undisturbed (h : F.Documented) (hm : m.InSchemaOrder) (hbegins : ¬ m.BeginsWithTaskId) (n : Nat)
    (f : Format) : F.decoders.Undisturbed (IsToken m) n f m.bytes := by
  intro _
  left
  obtain ⟨g, c, cs, hmisread, hg, hlt, hmark, hgroup⟩ := hm.misread_first
  obtain ⟨hkey, hsecond⟩ := hgroup hbegins
  have hread : F.read (misread m.bytes) = .ok none := by
    have hjson : F.parseChallengeTokenJSON (misread m.bytes) = none := by
      rw [hmisread]
      exact h.parseChallengeTokenJSON_head (beginsJsonData_eq_false (.inr ⟨hg, hlt, hmark⟩)) _
    unfold Foundation.read
    rw [hjson, hmisread, Ios.parse_groupKey hkey]
  have hinner : F.innerText (misread m.bytes) = none := by
    cases htext : F.utf8Text (misread m.bytes) with
    | none =>
      rw [Foundation.innerText, htext]
      rfl
    | some s =>
      obtain ⟨t, ht⟩ := h.text_utf8 _ _ htext
      rw [hmisread] at ht
      exact absurd (utf8_second ht (by omega)) hsecond
  have htrim : trim (bytesToHex m.bytes) = bytesToHex m.bytes := trim_text .hex m.bytes
  obtain ⟨k, hk, hlen, hdigits⟩ := normalizeBase64_bytesToHex h.count m.bytes
  rw [Decoders.asBase64, decoders_decodeBase64, Foundation.decodeBase64Maybe, htrim, hdigits]
  cases hdata : F.base64Data (String.ofList ((hexSextets m.bytes).map Base64.symbol ++
      replicate k '=')) with
  | none => rfl
  | some bytes =>
    have hbytes : bytes = misread m.bytes :=
      h.symbols _ k bytes (hexSextets_lt m.bytes) hk hlen hdata
    rw [hbytes]
    exact parse_of_no_text hread hinner n

/-- With a token in the schema's order, the text is taken for the token unless hexadecimal digits have a
    reading in base64 that comes before. -/
theorem gives_iff (h : F.Documented) (hm : m.InSchemaOrder) (wrapped : Bool) (f : Format) :
    Gives (IsToken m) (F.parseChallengeToken (wrap wrapped (f.text m.bytes))) ↔
      F.decoders.Undisturbed (IsToken m) (if wrapped then 0 else 1) f m.bytes := by
  have hsound := h.sound hm
  have hchars := wrap_isTextChar wrapped f m.bytes
  have hutf8 := utf8_eq_ascii fun c hc => isTextChar_lt (hchars c hc)
  unfold Foundation.parseChallengeToken
  rw [trim_eq_self hchars, if_neg (wrap_ne_empty wrapped hsound.ne_nil), hutf8]
  exact hsound.gives_payload_iff (h.read_text f m.small) wrapped _

end Foundation.Documented

end Ios

end Pouw
