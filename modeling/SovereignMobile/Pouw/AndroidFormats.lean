import SovereignMobile.Pouw.HexAsBase64
import SovereignMobile.Pouw.TokenCascade
import SovereignMobile.Pouw.TruncatedTokens

/-! # Challenge formats on Android

`parseChallengeTokenFlexible` of `SubmissionClient.kt` tries the text as JSON, as base64, as hexadecimal
digits and as a JWT. An exception of its protobuf reader ends the attempts, and so does a loop of it that
does not end. -/

namespace Pouw

open List

namespace Android

open NativeIdentityProvisioning.Android (trim)

/-- The platform: `JSONObject(raw)`, which is `none` where it throws, `optLong` of a member with 0 for
    its default, `toString(StandardCharsets.UTF_8)`, and `Base64.decode` with the default flags. -/
structure Platform where
  jsonObject : String → Option (Json Float)
  optLong : Option (Json Float) → BitVec 64
  toUtf8 : List UInt8 → String
  base64Decode : String → Option (List UInt8)

inductive Failure where
  | abort (a : Abort)
  | illegalArgument (message : String)
  | illegalState (message : String)
deriving DecidableEq

namespace Platform

variable (A : Platform)

def decodeBase64Maybe (value : String) : Option (List UInt8) :=
  A.base64Decode (normalizeBase64 Auth.utf16Length (trim value))

def normalizeIdentifierToBytes (value : String) : Option (List UInt8) :=
  let trimmed := trim value
  if trimmed = "" then none
  else
    let noPrefix := withoutPrefix trimmed
    match decodeHexMaybe trim noPrefix with
    | some bytes => some bytes
    | none => (A.decodeBase64Maybe noPrefix).filter (· ≠ [])

def parseChallengeTokenJson (raw : String) : Option ChallengeToken := do
  let root ← A.jsonObject raw
  let taskRaw := root.findStringValue (fun _ => true) ["task_id", "taskId"]
  let nonceRaw := root.findStringValue (fun _ => true) ["challenge_nonce", "challengeNonce"]
  let taskId ← A.normalizeIdentifierToBytes (← taskRaw)
  let challengeNonce ← A.normalizeIdentifierToBytes (← nonceRaw)
  if taskId = [] ∨ challengeNonce = [] then none
  else some ⟨taskId, challengeNonce, A.optLong (root.member "expires_at"), none⟩

/-- A payload is read as JSON, and then as protobuf. -/
def read (payload : List UInt8) : Except Abort (Option (Option ChallengeToken)) :=
  match A.parseChallengeTokenJson (A.toUtf8 payload) with
  | some token => .ok (some (some token))
  | none =>
    match parseChallengeToken payload with
    | .error a => .error a
    | .ok (some token) => .ok (some (some token))
    | .ok none => .ok none

def innerText (payload : List UInt8) : Option String :=
  (some (trim (A.toUtf8 payload))).filter fun s => s ≠ ""

def decoders : Decoders Abort ChallengeToken where
  read := A.read
  innerText := A.innerText
  decodeBase64 := A.decodeBase64Maybe
  decodeHex := decodeHexMaybe trim

theorem decoders_read : A.decoders.read = A.read := by rw [decoders]

theorem decoders_innerText : A.decoders.innerText = A.innerText := by rw [decoders]

theorem decoders_decodeBase64 : A.decoders.decodeBase64 = A.decodeBase64Maybe := by rw [decoders]

theorem decoders_decodeHex : A.decoders.decodeHex = decodeHexMaybe trim := by rw [decoders]

/-- The attempts, one after the other. -/
def attempts (trimmed : String) : Except Abort (Option ChallengeToken) :=
  firstOf (.ok (A.parseChallengeTokenJson trimmed))
    (A.decoders.decodeText trimmed (jwtSegments trimmed))

def parseChallengeTokenFlexible (token : String) : Except Failure ChallengeToken :=
  let trimmed := trim token
  if trimmed = "" then .error (.illegalArgument "Empty challenge token")
  else
    match A.attempts trimmed with
    | .error a => .error (.abort a)
    | .ok (some token) => .ok token
    | .ok none => .error (.illegalState "Unsupported challenge token format")

end Platform

/-! ## What the platform does with ASCII -/

/-- The first character of a JSON object: white space, a comment, a brace or a byte order mark. -/
def beginsJsonObject (c : Char) : Bool :=
  ([0x09, 0x0A, 0x0D, 0x20, 0x23, 0x2F, 0x7B, 0xFEFF] : List Nat).contains c.toNat

/-- What is known of the platform: a JSON object has a brace, and does not begin with any character;
    malformed UTF-8 is replaced; and base64 is decoded. -/
structure Platform.Documented (A : Platform) : Prop where
  braces : ∀ s, (∀ c ∈ s.toList, c.toNat ≠ 0x7B) → A.jsonObject s = none
  starts : ∀ c cs, beginsJsonObject c = false → A.jsonObject (String.ofList (c :: cs)) = none
  characters : ∀ bytes, (∀ b ∈ bytes, b.toNat < 128) →
    A.toUtf8 bytes = String.ofList (bytes.map fun b => Char.ofNat b.toNat)
  head : ∀ b bytes, b.toNat < 192 → ∃ cs, A.toUtf8 (b :: bytes) =
    String.ofList ((if b.toNat < 128 then Char.ofNat b.toNat else Char.ofNat 0xFFFD) :: cs)
  base64 : ∀ bytes, A.base64Decode (Format.base64.text bytes) = some bytes

/-- The token has the two fields of the message. -/
def IsToken (m : Message) (t : ChallengeToken) : Prop :=
  t.taskId = m.taskId ∧ t.challengeNonce = m.challengeNonce

variable {s : String}

theorem trim_eq_self (hs : ∀ c ∈ s.toList, isTextChar c = true) : trim s = s :=
  trimWith_isTextChar (by decide) hs

theorem trim_text (f : Format) (bytes : List UInt8) : trim (f.text bytes) = f.text bytes :=
  trim_eq_self (text_isTextChar f bytes)

/-! ## Texts as payloads -/

/-- A round that reads another tag keeps the nonce. -/
theorem step_keepsNonce {s s' : Reading} {tag : UInt8} {input rest : List UInt8}
    (htag : ¬ ReadsChallengeNonce tag) (h : step s (tag :: input) = .ok (s', rest)) :
    s'.challengeNonce = s.challengeNonce := by
  have htask : s.readTaskId input = .ok (s', rest) → s'.challengeNonce = s.challengeNonce := by
    intro h
    unfold Reading.readTaskId at h
    split at h
    · cases h
    · cases h
      rfl
  have hsame : ∀ input : List UInt8, Except.ok (s, input) = (.ok (s', rest) : Except Abort _) →
      s'.challengeNonce = s.challengeNonce := by
    intro input h
    cases h
    rfl
  unfold step at h
  dsimp only at h
  split at h
  · split at h
    · exact htask h
    · exact hsame _ h
  · rename_i h4
    rw [if_neg fun hw => htag ⟨hw, .inl h4⟩] at h
    exact hsame _ h
  · split at h
    · split at h
      · cases h
      · cases h
        rfl
    · exact hsame _ h
  · split at h
    · split at h
      · cases h
      split at h
      · cases h
      · cases h
        rfl
    · exact hsame _ h
  · split at h
    · exact htask h
    · exact hsame _ h
  · rename_i h2
    rw [if_neg fun hw => htag ⟨hw, .inr h2⟩] at h
    exact hsame _ h
  · split at h
    · cases h
    · exact hsame _ h

/-- Bytes among which there is no tag of a nonce make no token. -/
theorem parse_noNonce {bytes : List UInt8} (h : ∀ b ∈ bytes, ¬ ReadsChallengeNonce b)
    {r : Option ChallengeToken} (hok : parseChallengeToken bytes = .ok r) : r = none := by
  unfold parseChallengeToken at hok
  split at hok
  · cases hok
  rename_i s hs
  cases hok
  obtain ⟨_, hnone, _⟩ := readAll_keeps
    (P := fun (s : Reading) bytes => s.challengeNonce = none ∧ ∀ b ∈ bytes, ¬ ReadsChallengeNonce b)
    (by
      intro s bytes s' rest hinv hstep
      cases bytes with
      | nil =>
        cases hstep
        exact hinv
      | cons tag input =>
        have htag := hinv.2 tag mem_cons_self
        refine ⟨(step_keepsNonce htag hstep).trans hinv.1, fun b hb => hinv.2 b ?_⟩
        exact mem_cons_of_mem _ (((step_takes s input).1 _ _ hstep).mem hb)) ⟨rfl, h⟩ hs
  unfold Reading.finish
  rw [hnone]
  cases s.taskId <;> rfl

/-- No character of a text is the tag of a nonce. -/
theorem noNonce_text (h : ∀ c ∈ s.toList, isTextChar c = true) :
    ∀ b ∈ ascii s, ¬ ReadsChallengeNonce b := by
  intro b hb
  obtain ⟨c, hc, rfl⟩ := mem_map.1 hb
  exact of_isTextChar (P := fun c => ¬((UInt8.ofNat c.toNat).toNat % 8 = 2 ∧
    ((UInt8.ofNat c.toNat).toNat / 8 = 4 ∨ (UInt8.ofNat c.toNat).toNat / 8 = 2))) (h c hc) (by decide)

/-! ## Tokens -/

namespace Platform.Documented

variable {A : Platform} {m : Message}

theorem decodes (h : A.Documented) {f : Format} (hf : f ≠ .hex) (bytes : List UInt8) :
    A.decodeBase64Maybe (f.text bytes) = some bytes := by
  rw [Platform.decodeBase64Maybe, trim_text, normalizeBase64_text utf16Length_counts hf]
  exact h.base64 bytes

variable {s : String}

theorem parseChallengeTokenJson_text (h : A.Documented) (hs : ∀ c ∈ s.toList, isTextChar c = true) :
    A.parseChallengeTokenJson s = none := by
  have hbraces : ∀ c ∈ s.toList, c.toNat ≠ 0x7B := fun c hc =>
    of_isTextChar (P := fun c => c.toNat ≠ 0x7B) (hs c hc) (by decide)
  unfold Platform.parseChallengeTokenJson
  rw [h.braces s hbraces]
  rfl

theorem toUtf8_ascii (h : A.Documented) (hs : ∀ c ∈ s.toList, isTextChar c = true) :
    A.toUtf8 (ascii s) = s := by
  rw [h.characters _ fun b hb => (ascii_isTextChar hs b hb).1,
    ofList_ascii fun c hc => isTextChar_lt (hs c hc)]

theorem read_token (h : A.Documented) (hm : m.InSchemaOrder) (hreads : m.AndroidReads) :
    ∃ t, A.read m.bytes = .ok (some (some t)) ∧ IsToken m t := by
  obtain ⟨b, bs, hbytes, hb⟩ := hm.first
  have hlt := b.toNat_lt
  obtain ⟨cs, hhead⟩ := h.head b bs (by omega)
  have hobject : beginsJsonObject
      (if b.toNat < 128 then Char.ofNat b.toNat else Char.ofNat 0xFFFD) = false := by
    split
    · rename_i hascii
      rw [Nat.mod_eq_of_lt hascii] at hb
      rcases hb with hb | hb | ⟨hb, _⟩
      · rw [hb]; decide
      · rw [hb]; decide
      · rw [hb]; decide
    · decide
  have hjson : A.parseChallengeTokenJson (A.toUtf8 m.bytes) = none := by
    unfold Platform.parseChallengeTokenJson
    rw [hbytes, hhead, h.starts _ cs hobject]
    rfl
  obtain ⟨t, ht, htoken⟩ := Android.parse_of_reads hreads
  refine ⟨t, ?_, htoken⟩
  unfold Platform.read
  rw [hjson, ht]

/-- Of a text as a payload the reader makes nothing, if it gets through it. -/
theorem read_text (h : A.Documented) (hs : ∀ c ∈ s.toList, isTextChar c = true) :
    (parseChallengeToken (ascii s) = .ok none ∧ A.read (ascii s) = .ok none) ∨
      ∃ a, parseChallengeToken (ascii s) = .error a ∧ A.read (ascii s) = .error a := by
  unfold Platform.read
  rw [h.toUtf8_ascii hs, h.parseChallengeTokenJson_text hs]
  cases hparse : parseChallengeToken (ascii s) with
  | error a => exact .inr ⟨a, rfl, rfl⟩
  | ok r =>
    rw [parse_noNonce (noNonce_text hs) hparse]
    exact .inl ⟨rfl, rfl⟩

theorem sound (h : A.Documented) (hm : m.InSchemaOrder) (hreads : m.AndroidReads) :
    A.decoders.Sound (IsToken m) m.bytes where
  ne_nil := hm.bytes_ne_nil
  read := h.read_token hm hreads
  inner := by
    intro f bs hbs
    rw [decoders_innerText, Platform.innerText, h.toUtf8_ascii (text_isTextChar f bs), trim_text]
    exact if_pos (decide_eq_true (text_ne_empty hbs))
  base64 := by
    intro f hf bs _
    rw [decoders_decodeBase64]
    exact h.decodes hf bs
  hex := by
    intro bs hbs
    rw [decoders_decodeHex]
    exact decodeHexMaybe_bytesToHex (trim_text .hex bs) hbs

theorem gives_attempts_iff (A : Platform) {P : ChallengeToken → Prop} {token : String}
    (htrim : trim token = token) (hne : token ≠ "") :
    (∃ t, A.parseChallengeTokenFlexible token = .ok t ∧ P t) ↔ Gives P (A.attempts token) := by
  unfold Platform.parseChallengeTokenFlexible
  rw [htrim, if_neg hne]
  constructor
  · rintro ⟨t, ht, hP⟩
    split at ht
    · cases ht
    · rename_i heq
      cases ht
      exact ⟨_, heq, hP⟩
    · cases ht
  · rintro ⟨t, ht, hP⟩
    rw [ht]
    exact ⟨t, rfl, hP⟩

/-- Where the protobuf reader takes the token as the schema means it, the text is taken for the token
    unless the reader does not get through a text that is a payload, or hexadecimal digits have a reading
    in base64 that comes before. -/
theorem gives_iff (h : A.Documented) (hm : m.InSchemaOrder) (hreads : m.AndroidReads) (wrapped : Bool)
    (f : Format) :
    (∃ t, A.parseChallengeTokenFlexible (wrap wrapped (f.text m.bytes)) = .ok t ∧ IsToken m t) ↔
      (wrapped = true → parseChallengeToken (ascii (f.text m.bytes)) = .ok none) ∧
        A.decoders.Undisturbed (IsToken m) (if wrapped then 1 else 2) f m.bytes := by
  have hsound := h.sound hm hreads
  have hchars := wrap_isTextChar wrapped f m.bytes
  rw [gives_attempts_iff A (trim_eq_self hchars) (wrap_ne_empty wrapped hsound.ne_nil),
    Platform.attempts, h.parseChallengeTokenJson_text hchars, firstOf_none, Decoders.decodeText]
  cases wrapped with
  | false =>
    rw [if_neg (by decide), ← hsound.gives_decode_iff f 2]
    exact ⟨fun hgives => ⟨fun hfalse => absurd hfalse (by decide), hgives⟩, fun hgives => hgives.2⟩
  | true =>
    have hread := h.read_text (text_isTextChar f m.bytes)
    rw [hsound.gives_decode_wrap_iff f (hread.imp And.right fun ⟨a, _, herror⟩ => ⟨a, herror⟩) 1]
    rcases hread with ⟨hparse, hread⟩ | ⟨a, hparse, hread⟩
    · rw [decoders_read, hread, hparse]
      exact ⟨fun hgives => ⟨fun _ => rfl, hgives.2⟩, fun hgives => ⟨rfl, hgives.2⟩⟩
    rw [decoders_read, hread, hparse]
    constructor
    · rintro ⟨hnone, _⟩
      cases hnone
    · rintro ⟨hnone, _⟩
      cases hnone rfl

end Platform.Documented

end Android

end Pouw
