import SovereignMobile.Pouw.Controller
import SovereignMobile.Pouw.HexAsBase64
import SovereignMobile.Pouw.TokenCascade
import SovereignMobile.Text.ScriptLiterals

/-! # Challenge formats in TypeScript

`parseChallengeAny` of `PoUWController.ts` looks for a challenge in a response: its own members, those of
`data` and `result`, and the strings that may be a token. It decodes base64 with `Buffer` where there is
one, and with `atob` where there is none. -/

namespace Pouw

open List Option
open String (ofList)

namespace TypeScript

open PoUWController (ProofType)

/-- `Buffer.from(s, 'base64')`, which skips what is no base64, `Buffer.from(s, 'utf-8')` and
    `toString('utf-8')`. -/
structure Buffer where
  fromBase64 : String → List UInt8
  fromUtf8 : String → List UInt8
  toUtf8 : List UInt8 → String

/-- What the engine has: `Buffer` or none, `JSON.parse`, which gives `none` where it throws, and
    `Math.floor(Date.now() / 1000)`. -/
structure Engine where
  buffer : Option Buffer
  jsonParse : String → Option (Json Float)
  now : Float

structure Policy where
  max_receipts : Float
  max_bytes_total : Float
  min_bytes_per_receipt : Float
  allowed_proof_types : List ProofType

structure ChallengeToken where
  version : Float
  node_id : String
  task_id : String
  challenge_nonce : String
  issued_at : Float
  expires_at : Float
  policy : Policy
  node_signature : String

/-! ## Challenge objects -/

def numberOr (otherwise : Float) : Option (Json Float) → Float
  | some (.number x) => x
  | _ => otherwise

def textOf (v : Option (Json Float)) : String := (v.bind Json.string?).getD ""

/-- The lower case of a character whose lower case is ASCII; U+212A is the sign of kelvins. -/
def toLowerAscii (c : Char) : Char := if c.val = 0x212A then 'k' else c.toLower

def normalizeProofType (value : String) : Option ProofType :=
  match String.ofList ((Auth.trim value).toList.map toLowerAscii) with
  | "hash" => some .hash
  | "merkle" => some .merkle
  | "signature" => some .signature
  | "web4manifestroute" => some .web4manifestroute
  | "web4contentserved" => some .web4contentserved
  | _ => none

/-- The proof types of a policy, with `hash` and what is requested where it names none. -/
def allowedProofTypes (requestedProofs : List ProofType) (policy : Json Float) : List ProofType :=
  let allowedFromPolicy := match policy.member "allowed_proof_types" with
    | some (.array items) => (items.filterMap Json.string?).filterMap normalizeProofType
    | _ => []
  if allowedFromPolicy = [] then (.hash :: requestedProofs).eraseDups else allowedFromPolicy

/-- Not the empty string. -/
def truthy (s : String) : Bool := s ≠ ""

namespace Engine

variable (R : Engine)

/-- It throws where there is no `Buffer` and `atob` throws. -/
def base64ToBytes (b64 : String) : Option (List UInt8) :=
  match R.buffer with
  | some buffer => some (buffer.fromBase64 (normalizeBase64 Auth.utf16Length b64))
  | none => atob (normalizeBase64 Auth.utf16Length b64)

/-- Each byte is a character where there is no `Buffer`. -/
def decodeUtf8 (bytes : List UInt8) : String :=
  match R.buffer with
  | some buffer => buffer.toUtf8 bytes
  | none => String.ofList (bytes.map fun b => Char.ofNat b.toNat)

def encodeUtf8 (value : String) : List UInt8 :=
  match R.buffer with
  | some buffer => buffer.fromUtf8 value
  | none => (value.toList.flatMap fun c => ScriptLiterals.utf16 c.toNat).map fun u => UInt8.ofNat u.toNat

def parseChallengeObject (requestedProofs : List ProofType) (candidate : Json Float) :
    Option ChallengeToken :=
  let taskRaw := candidate.findStringValue truthy
    ["task_id", "taskId", "task", "task_id_hex", "taskHex"]
  let nonceRaw := candidate.findStringValue truthy
    ["challenge_nonce", "challengeNonce", "nonce", "challenge_nonce_hex", "nonceHex"]
  let taskId := (taskRaw.filter truthy).bind (normalizeIdentifier Auth.trim R.base64ToBytes)
  let challengeNonce := (nonceRaw.filter truthy).bind (normalizeIdentifier Auth.trim R.base64ToBytes)
  match taskId.filter truthy, challengeNonce.filter truthy with
  | some taskId, some challengeNonce =>
    let issuedAt := numberOr R.now (candidate.member "issued_at")
    let rawPolicy := (candidate.member "policy").getD (.object [])
    some {
      version := numberOr 1 (candidate.member "version")
      node_id := textOf (candidate.member "node_id")
      task_id := taskId
      challenge_nonce := challengeNonce
      issued_at := issuedAt
      expires_at := numberOr (issuedAt + 60) (candidate.member "expires_at")
      policy := {
        max_receipts := numberOr 64 (rawPolicy.member "max_receipts")
        max_bytes_total := numberOr (10 * 1024 * 1024) (rawPolicy.member "max_bytes_total")
        min_bytes_per_receipt := numberOr 1024 (rawPolicy.member "min_bytes_per_receipt")
        allowed_proof_types := allowedProofTypes requestedProofs rawPolicy }
      node_signature := textOf (candidate.member "node_signature") }
  | _, _ => none

/-! ## Tokens -/

/-- A payload is read as JSON, and then as protobuf, whose fields go through `parseChallengeObject`. -/
def read (requestedProofs : List ProofType) (payload : List UInt8) :
    Except Empty (Option (Option ChallengeToken)) :=
  match (R.jsonParse (R.decodeUtf8 payload)).bind (R.parseChallengeObject requestedProofs) with
  | some parsedObj => .ok (some (some parsedObj))
  | none =>
    match parseChallengeTokenProtobuf payload with
    | some parsedProto =>
      .ok (some (R.parseChallengeObject requestedProofs (.object
        [("task_id", .string parsedProto.task_id),
          ("challenge_nonce", .string parsedProto.challenge_nonce)])))
    | none => .ok none

def innerText (payload : List UInt8) : Option String :=
  (some (Auth.trim (R.decodeUtf8 payload))).filter truthy

def decoders (requestedProofs : List ProofType) : Decoders Empty ChallengeToken where
  read := R.read requestedProofs
  innerText := R.innerText
  decodeBase64 := R.base64ToBytes
  decodeHex := decodeHexMaybe Auth.trim

theorem decoders_read (requestedProofs : List ProofType) :
    (R.decoders requestedProofs).read = R.read requestedProofs := by rw [decoders]

theorem decoders_innerText (requestedProofs : List ProofType) :
    (R.decoders requestedProofs).innerText = R.innerText := by rw [decoders]

theorem decoders_decodeBase64 (requestedProofs : List ProofType) :
    (R.decoders requestedProofs).decodeBase64 = R.base64ToBytes := by rw [decoders]

theorem decoders_decodeHex (requestedProofs : List ProofType) :
    (R.decoders requestedProofs).decodeHex = decodeHexMaybe Auth.trim := by rw [decoders]

end Engine

def tokenKeys : List String :=
  ["token", "challenge", "challenge_token", "challengeToken", "raw_token", "rawToken"]

mutual

def collectTokenStrings : Json Float → List String
  | .string s => [s]
  | .array items => collectItems items
  | .object members => collectMembers members
  | _ => []

def collectItems : List (Json Float) → List String
  | [] => []
  | v :: vs => collectTokenStrings v ++ collectItems vs

def collectMembers : List (String × Json Float) → List String
  | [] => []
  | (k, v) :: ms =>
    (if tokenKeys.contains k then collectTokenStrings v else []) ++ collectMembers ms

end

/-- `typeof v === 'object' && v !== null` -/
def isObject : Json Float → Bool
  | .array _ | .object _ => true
  | _ => false

namespace Engine

variable (R : Engine)

/-- One token: its own text, base64, hexadecimal digits, and the segments of a JWT. -/
def parseToken (requestedProofs : List ProofType) (token : String) :
    Except Empty (Option ChallengeToken) :=
  let D := R.decoders requestedProofs
  firstOf (D.parseDecodedTokenPayload 2 (R.encodeUtf8 token)) (D.decodeText token (jwtSegments token))

def parseChallengeAny (requestedProofs : List ProofType) (response : Json Float) :
    Except Empty (Option ChallengeToken) :=
  let nestedCandidates :=
    ([response.member "data", response.member "result"].filterMap id).filter isObject
  match (response :: nestedCandidates).findSome? (R.parseChallengeObject requestedProofs) with
  | some parsed => .ok (some parsed)
  | none =>
    ((response :: nestedCandidates).flatMap collectTokenStrings).foldr
      (fun token => firstOf (R.parseToken requestedProofs token)) (.ok none)

end Engine

/-! ## What the engine does with ASCII -/

/-- The first character of a JSON value, or white space before it. -/
def beginsJson (c : Char) : Bool :=
  c.isDigit ||
    ([0x09, 0x0A, 0x0D, 0x20, 0x22, 0x2D, 0x5B, 0x66, 0x6E, 0x74, 0x7B] : List Nat).contains c.toNat

/-- What is known of `Buffer`: the bytes before and after base64, and that bytes of ASCII, and no others,
    decode to characters of ASCII. -/
structure Buffer.Documented (B : Buffer) : Prop where
  base64 : Decodes fun s => some (B.fromBase64 s)
  utf8 : ∀ s, B.fromUtf8 s = ZhtpCodec.utf8 s
  ascii : ∀ bytes, (∀ b ∈ bytes, b.toNat < 128) →
    B.toUtf8 bytes = String.ofList (bytes.map fun b => Char.ofNat b.toNat)
  head : ∀ b bytes, ∃ c cs, B.toUtf8 (b :: bytes) = String.ofList (c :: cs) ∧
    (b.toNat < 128 → c = Char.ofNat b.toNat) ∧ (128 ≤ b.toNat → 128 ≤ c.toNat)

/-- What is known of the engine. `JSON.parse` finds no member names where there are no quotes, and throws
    if the first character begins no value. -/
structure Engine.Documented (R : Engine) : Prop where
  quoted : ∀ s v, (∀ c ∈ s.toList, c.toNat ≠ 0x22) → R.jsonParse s = some v → v.bare = true
  starts : ∀ c cs, beginsJson c = false → R.jsonParse (String.ofList (c :: cs)) = none
  buffer : ∀ B, R.buffer = some B → B.Documented

/-- The token has the two fields of the message. -/
def IsToken (m : Message) (t : ChallengeToken) : Prop :=
  t.task_id = bytesToHex m.taskId ∧ t.challenge_nonce = bytesToHex m.challengeNonce

theorem trim_text (f : Format) (bytes : List UInt8) : Auth.trim (f.text bytes) = f.text bytes :=
  trimWith_isTextChar (by decide) (text_isTextChar f bytes)

theorem beginsJson_of_le {c : Char} (h : 128 ≤ c.toNat) : beginsJson c = false := by
  have hdigit : c.isDigit = false := by
    rw [Char.isDigit, Bool.and_eq_false_iff]
    right
    rw [decide_eq_false_iff_not]
    intro hle
    exact nomatch Nat.le_trans h hle
  rw [beginsJson, hdigit, Bool.false_or, contains_eq_mem, decide_eq_false_iff_not]
  intro hmem
  have hall : ∀ n ∈ ([0x09, 0x0A, 0x0D, 0x20, 0x22, 0x2D, 0x5B, 0x66, 0x6E, 0x74, 0x7B]),
      n < 128 := by decide
  exact absurd (hall _ hmem) (Nat.not_lt.2 h)

/-- A JSON value without members is no challenge. -/
theorem Engine.parseChallengeObject_bare (R : Engine) (requestedProofs : List ProofType)
    {v : Json Float} (h : v.bare = true) : R.parseChallengeObject requestedProofs v = none := by
  unfold Engine.parseChallengeObject
  rw [Json.findStringValue_bare _ _ v h]
  rfl

namespace Engine.Documented

variable {R : Engine} {requestedProofs : List ProofType} {m : Message} {bytes : List UInt8}

variable {s : String}

theorem encodeUtf8_ascii (h : R.Documented) (hs : ∀ c ∈ s.toList, c.toNat < 128) :
    R.encodeUtf8 s = ascii s := by
  unfold Engine.encodeUtf8
  split
  · rename_i B hB
    rw [(h.buffer B hB).utf8, utf8_eq_ascii hs]
  rw [ascii]
  generalize s.toList = cs at hs
  induction cs with
  | nil => rfl
  | cons c cs ih =>
    rw [forall_mem_cons] at hs
    have hunit : ScriptLiterals.utf16 c.toNat = [UInt16.ofNat c.toNat] :=
      if_pos (Nat.lt_trans hs.1 (by decide))
    have hbyte : (UInt16.ofNat c.toNat).toNat = c.toNat := by
      rw [UInt16.toNat_ofNat']
      exact Nat.mod_eq_of_lt (Nat.lt_trans hs.1 (by decide))
    rw [flatMap_cons, map_append, ih hs.2, hunit, map_singleton, hbyte]
    rfl

theorem decodeUtf8_ascii (h : R.Documented) (hs : ∀ c ∈ s.toList, c.toNat < 128) :
    R.decodeUtf8 (ascii s) = s := by
  have hbytes : ∀ b ∈ ascii s, b.toNat < 128 := by
    intro b hb
    obtain ⟨c, hc, rfl⟩ := mem_map.1 hb
    have hlt := hs c hc
    rw [UInt8.toNat_ofNat']
    omega
  unfold Engine.decodeUtf8
  split
  · rename_i B hB
    rw [(h.buffer B hB).ascii _ hbytes, ofList_ascii hs]
  · exact ofList_ascii hs

/-- The first character of a payload. -/
theorem decodeUtf8_head (h : R.Documented) (b : UInt8) (bytes : List UInt8) : ∃ c cs,
    R.decodeUtf8 (b :: bytes) = ofList (c :: cs) ∧
      (b.toNat < 128 → c = Char.ofNat b.toNat) ∧ (128 ≤ b.toNat → 128 ≤ c.toNat) := by
  unfold Engine.decodeUtf8
  split
  · rename_i B hB
    exact (h.buffer B hB).head b bytes
  refine ⟨Char.ofNat b.toNat, _, by rw [map_cons], fun _ => rfl, ?_⟩
  intro hb
  rw [toNat_ofNat_toNat]
  exact hb

theorem decodes (h : R.Documented) : ∃ decode, Decodes decode ∧
    ∀ s, R.base64ToBytes s = decode (normalizeBase64 Auth.utf16Length s) := by
  unfold Engine.base64ToBytes
  split
  · rename_i B hB
    exact ⟨_, (h.buffer B hB).base64, fun _ => rfl⟩
  · exact ⟨atob, atob_decodes, fun _ => rfl⟩

theorem jsonParse_head (h : R.Documented) {b : UInt8}
    (hb : b.toNat % 128 = 8 ∨ b.toNat % 128 = 18 ∨ b.toNat % 128 = 26 ∨ 128 ≤ b.toNat) :
    R.jsonParse (R.decodeUtf8 (b :: bytes)) = none := by
  obtain ⟨c, cs, hdecode, hascii, hhigh⟩ := h.decodeUtf8_head b bytes
  rw [hdecode]
  refine h.starts c cs ?_
  by_cases hlt : b.toNat < 128
  · rw [hascii hlt]
    rw [Nat.mod_eq_of_lt hlt] at hb
    rcases hb with hb | hb | hb | hb
    · rw [hb]; decide
    · rw [hb]; decide
    · rw [hb]; decide
    · omega
  · exact beginsJson_of_le (hhigh (by omega))

/-- What the protobuf reader finds is a challenge. -/
theorem parseChallengeObject_parsed (R : Engine) (requestedProofs : List ProofType)
    {task nonce : List UInt8} (htask : task ≠ []) (hnonce : nonce ≠ []) :
    ∃ t, R.parseChallengeObject requestedProofs (.object [("task_id", .string (bytesToHex task)),
        ("challenge_nonce", .string (bytesToHex nonce))]) = some t ∧
      t.task_id = bytesToHex task ∧ t.challenge_nonce = bytesToHex nonce := by
  have htruthy : ∀ bs : List UInt8, bs ≠ [] → truthy (bytesToHex bs) = true := fun bs hbs =>
    decide_eq_true (text_ne_empty (f := .hex) hbs)
  have hnormal : ∀ bs : List UInt8, bs ≠ [] →
      normalizeIdentifier Auth.trim R.base64ToBytes (bytesToHex bs) = some (bytesToHex bs) :=
    fun bs hbs => normalizeIdentifier_bytesToHex R.base64ToBytes (trim_text .hex bs) hbs
  have htaskRaw : (Json.object [("task_id", .string (bytesToHex task)),
      ("challenge_nonce", .string (bytesToHex nonce))] : Json Float).findStringValue truthy
        ["task_id", "taskId", "task", "task_id_hex", "taskHex"] = some (bytesToHex task) := by
    rw [Json.findStringValue]
    rfl
  have hnonceRaw : (Json.object [("task_id", .string (bytesToHex task)),
      ("challenge_nonce", .string (bytesToHex nonce))] : Json Float).findStringValue truthy
        ["challenge_nonce", "challengeNonce", "nonce", "challenge_nonce_hex", "nonceHex"] =
          some (bytesToHex nonce) := by
    rw [Json.findStringValue]
    rfl
  unfold Engine.parseChallengeObject
  dsimp only
  rw [htaskRaw, hnonceRaw, filter_some, filter_some, if_pos (htruthy task htask),
    if_pos (htruthy nonce hnonce), bind_some, bind_some, hnormal task htask,
    hnormal nonce hnonce, filter_some, filter_some, if_pos (htruthy task htask),
    if_pos (htruthy nonce hnonce)]
  exact ⟨_, rfl, rfl, rfl⟩

theorem read_token (h : R.Documented) (hm : m.InSchemaOrder) :
    ∃ t, R.read requestedProofs m.bytes = .ok (some (some t)) ∧ IsToken m t := by
  obtain ⟨b, bs, hbytes, hb⟩ := hm.first
  have hjson : R.jsonParse (R.decodeUtf8 m.bytes) = none := by
    rw [hbytes]
    exact h.jsonParse_head (hb.imp_right fun hb => hb.imp_right fun hb => .inl hb.1)
  obtain ⟨t, ht, htoken⟩ := parseChallengeObject_parsed R requestedProofs m.taskId_ne_nil
    m.challengeNonce_ne_nil
  refine ⟨t, ?_, htoken⟩
  unfold Engine.read
  rw [hjson, (TypeScript.parse_iff m).2 hm.noGroups]
  exact congrArg (fun r => Except.ok (some r)) ht

/-- A text of symbols is neither JSON that says anything nor a token. -/
theorem read_text (h : R.Documented) (f : Format) (bytes : List UInt8) (wrapped : Bool) :
    R.read requestedProofs (ascii (wrap wrapped (f.text bytes))) = .ok none := by
  have hchars := wrap_isTextChar wrapped f bytes
  generalize wrap wrapped (f.text bytes) = s at hchars
  have hplain : ∀ c ∈ s.toList, c.toNat ≠ 0x22 := fun c hc =>
    of_isTextChar (P := fun c => c.toNat ≠ 0x22) (hchars c hc) (by decide)
  have hjson : (R.jsonParse s).bind (R.parseChallengeObject requestedProofs) = none := by
    cases hv : R.jsonParse s with
    | none => rfl
    | some v => exact R.parseChallengeObject_bare requestedProofs (h.quoted _ _ hplain hv)
  unfold Engine.read
  rw [h.decodeUtf8_ascii fun c hc => isTextChar_lt (hchars c hc), hjson,
    TypeScript.parse_offNonce fun b hb => (ascii_isTextChar hchars b hb).2]

theorem sound (h : R.Documented) (hm : m.InSchemaOrder) :
    (R.decoders requestedProofs).Sound (IsToken m) m.bytes where
  ne_nil := hm.bytes_ne_nil
  read := h.read_token hm
  inner := by
    intro f bs hbs
    rw [Engine.decoders_innerText, Engine.innerText, h.decodeUtf8_ascii (text_lt f bs), trim_text]
    exact if_pos (decide_eq_true (text_ne_empty hbs))
  base64 := by
    intro f hf bs _
    obtain ⟨decode, hdecode, heq⟩ := h.decodes
    rw [Engine.decoders_decodeBase64, heq]
    exact hdecode.text utf16Length_counts hf bs
  hex := by
    intro bs hbs
    rw [Engine.decoders_decodeHex]
    exact decodeHexMaybe_bytesToHex (trim_text .hex bs) hbs

/-- The wrong reading is neither JSON nor a token. -/
theorem read_misread (h : R.Documented) (hm : m.InSchemaOrder) :
    R.read requestedProofs (misread m.bytes) = .ok none := by
  obtain ⟨g, c, cs, hmisread, hg, _, _, _⟩ := hm.misread_first
  have hjson : R.jsonParse (R.decodeUtf8 (misread m.bytes)) = none := by
    rw [hmisread]
    exact h.jsonParse_head (.inr (.inr (.inr (by omega))))
  unfold Engine.read
  rw [hjson, TypeScript.parse_offNonce (misread_offNonce m.bytes)]
  rfl

theorem asBase64_hex (h : R.Documented) (n : Nat) :
    (R.decoders requestedProofs).asBase64 n (bytesToHex m.bytes) =
      (R.decoders requestedProofs).parseDecodedTokenPayload n (misread m.bytes) := by
  obtain ⟨decode, hdecode, heq⟩ := h.decodes
  rw [Decoders.asBase64, Engine.decoders_decodeBase64, heq, hdecode.hex utf16Length_counts]
  rfl

/-- Nothing of the wrong reading is decoded once more. -/
theorem undisturbed_wrapped (h : R.Documented) (hm : m.InSchemaOrder) (f : Format) :
    (R.decoders requestedProofs).Undisturbed (IsToken m) 0 f m.bytes := by
  intro _
  left
  rw [h.asBase64_hex]
  exact parse_zero (h.read_misread hm)

/-- Without `Buffer` the wrong reading is a text that `atob` and the hexadecimal digits throw on. -/
theorem undisturbed_of_no_buffer (h : R.Documented) (hbuffer : R.buffer = none) (hm : m.InSchemaOrder)
    (n : Nat) (f : Format) :
    (R.decoders requestedProofs).Undisturbed (IsToken m) n f m.bytes := by
  intro _
  left
  rw [h.asBase64_hex]
  obtain ⟨g, c, cs, hmisread, hg, _, _, _⟩ := hm.misread_first
  have hread : (R.decoders requestedProofs).read (misread m.bytes) = .ok none := by
    rw [Engine.decoders_read, h.read_misread hm]
  cases n with
  | zero => exact parse_zero hread
  | succ n =>
    cases htext : R.innerText (misread m.bytes) with
    | none =>
      have hnone : (R.decoders requestedProofs).innerText (misread m.bytes) = none := by
        rw [Engine.decoders_innerText, htext]
      exact parse_of_no_text hread hnone (n + 1)
    | some text =>
      -- the first byte is a character that is neither white space nor ASCII
      have hall : ∀ i < 48, 128 ≤ (Char.ofNat (208 + i)).toNat ∧
          Auth.isSpace (Char.ofNat (208 + i)) = false := by decide
      have hchar := hall (g.toNat - 208) (by omega)
      rw [Nat.add_sub_cancel' hg] at hchar
      obtain ⟨hhigh, hspace⟩ := hchar
      have hdecode : R.decodeUtf8 (misread m.bytes) =
          ofList ((misread m.bytes).map fun b => Char.ofNat b.toNat) := by
        rw [Engine.decodeUtf8, hbuffer]
      have hmem : Char.ofNat g.toNat ∈ (R.decodeUtf8 (misread m.bytes)).toList := by
        rw [hdecode, String.toList_ofList, hmisread]
        exact mem_cons_self
      have htrim : Auth.trim (R.decodeUtf8 (misread m.bytes)) = text := by
        rw [Engine.innerText, filter_some] at htext
        split at htext
        · exact some.inj htext
        · cases htext
      have hinner : Char.ofNat g.toNat ∈ text.toList := by
        rw [← htrim]
        exact mem_trimWith hmem hspace
      have hbase64 : R.base64ToBytes text = none := by
        rw [Engine.base64ToBytes, hbuffer]
        exact atob_eq_none (mem_normalizeBase64 _ hinner hhigh) hhigh
      have hhex : decodeHexMaybe Auth.trim text = none :=
        decodeHexMaybe_eq_none (mem_trimWith hinner hspace) hhigh
      rw [Decoders.parseDecodedTokenPayload, hread]
      rw [Engine.decoders_innerText, htext]
      dsimp only
      rw [Engine.decoders_decodeBase64, hbase64, Engine.decoders_decodeHex, hhex]
      rfl

end Engine.Documented

/-- The response `{ token: s }`. -/
def tokenResponse (s : String) : Json Float := .object [("token", .string s)]

theorem Engine.parseChallengeAny_token (R : Engine) (requestedProofs : List ProofType) (s : String) :
    R.parseChallengeAny requestedProofs (tokenResponse s) =
      firstOf (R.parseToken requestedProofs s) (.ok none) := by
  have htask : (tokenResponse s).findStringValue truthy
      ["task_id", "taskId", "task", "task_id_hex", "taskHex"] = none := by
    rw [tokenResponse]
    rfl
  have hdirect : R.parseChallengeObject requestedProofs (tokenResponse s) = none := by
    unfold Engine.parseChallengeObject
    rw [htask]
    rfl
  have hnested : (([(tokenResponse s).member "data", (tokenResponse s).member "result"].filterMap
      id).filter isObject) = [] := rfl
  unfold Engine.parseChallengeAny
  rw [hnested]
  dsimp only
  rw [findSome?_cons]
  rfl

/-- With a token in the schema's order, the text is taken for the token unless hexadecimal digits have a
    reading in base64 that comes before. -/
theorem Engine.Documented.gives_iff {R : Engine} (h : R.Documented) (requestedProofs : List ProofType)
    {m : Message} (hm : m.InSchemaOrder) (wrapped : Bool) (f : Format) :
    Gives (IsToken m) (R.parseChallengeAny requestedProofs
        (tokenResponse (wrap wrapped (f.text m.bytes)))) ↔
      (wrapped = false → (R.decoders requestedProofs).Undisturbed (IsToken m) 1 f m.bytes) := by
  have hlt : ∀ c ∈ (wrap wrapped (f.text m.bytes)).toList, c.toNat < 128 := fun c hc =>
    isTextChar_lt (wrap_isTextChar wrapped f m.bytes c hc)
  rw [R.parseChallengeAny_token, Engine.parseToken, h.encodeUtf8_ascii hlt, firstOf_assoc,
    (h.sound hm).gives_payload_iff (h.read_text f m.bytes)]
  cases wrapped with
  | false =>
    rw [if_neg (by decide)]
    exact ⟨fun hquiet _ => hquiet, fun hquiet => hquiet rfl⟩
  | true =>
    rw [if_pos rfl]
    exact iff_of_true (h.undisturbed_wrapped hm f) fun hfalse => nomatch hfalse

end TypeScript

end Pouw
