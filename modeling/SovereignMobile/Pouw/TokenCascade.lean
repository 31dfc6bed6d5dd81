import SovereignMobile.Pouw.TokenTexts

/-! # Guessing the format of a token

`parseDecodedTokenPayload` is the same in the three clients but for its parts: it reads a payload as JSON
and as protobuf, and if it is neither, takes its text for base64 and for hexadecimal digits, and starts
again with what that gives, twice at most. -/

namespace Pouw

/-! ## JSON -/

/-- A value of JSON, over the numbers of a platform. -/
inductive Json (ν : Type) where
  | null
  | bool (b : Bool)
  | number (x : ν)
  | string (s : String)
  | array (items : List (Json ν))
  | object (members : List (String × Json ν))

namespace Json

variable {ν : Type}

def string? : Json ν → Option String
  | .string s => some s
  | _ => none

/-- `candidate[name]` -/
def member (name : String) : Json ν → Option (Json ν)
  | .object members => members.lookup name
  | _ => none

mutual

/-- The text of a member with one of the names: among the members of an object first, then inside them.
    What is found inside counts only if `keep` holds of it. -/
def findStringValue (keep : String → Bool) (keys : List String) : Json ν → Option String
  | .array items => findInItems keep keys items
  | .object members =>
    match members.findSome? fun m => if keys.contains m.1 then m.2.string? else none with
    | some s => some s
    | none => findInMembers keep keys members
  | _ => none

def findInItems (keep : String → Bool) (keys : List String) : List (Json ν) → Option String
  | [] => none
  | v :: vs =>
    match (findStringValue keep keys v).filter keep with
    | some s => some s
    | none => findInItems keep keys vs

def findInMembers (keep : String → Bool) (keys : List String) :
    List (String × Json ν) → Option String
  | [] => none
  | (_, v) :: ms =>
    match (findStringValue keep keys v).filter keep with
    | some s => some s
    | none => findInMembers keep keys ms

end

mutual

/-- No object in it has a member. -/
def bare : Json ν → Bool
  | .array items => bareItems items
  | .object members => members.isEmpty
  | _ => true

def bareItems : List (Json ν) → Bool
  | [] => true
  | v :: vs => v.bare && bareItems vs

end

variable (keep : String → Bool) (keys : List String)

mutual

theorem findStringValue_bare : ∀ v : Json ν, v.bare = true → v.findStringValue keep keys = none
  | .array items, h => by
    rw [findStringValue]
    rw [bare] at h
    exact findInItems_bare items h
  | .object members, h => by
    rw [bare, List.isEmpty_iff] at h
    subst h
    rfl
  | .null, _ => by rfl
  | .bool _, _ => by rfl
  | .number _, _ => by rfl
  | .string _, _ => by rfl

theorem findInItems_bare : ∀ vs : List (Json ν), bareItems vs = true → findInItems keep keys vs = none
  | [], _ => by rfl
  | v :: vs, h => by
    rw [bareItems, Bool.and_eq_true] at h
    rw [findInItems, findStringValue_bare v h.1]
    exact findInItems_bare vs h.2

end

end Json

/-! ## The cascade -/

/-- The parts: a payload is read as JSON and as protobuf (`some` is what the reader returns, `none` that
    it is neither), or has a trimmed text that is not empty, which is decoded. -/
structure Decoders (ε τ : Type) where
  read : List UInt8 → Except ε (Option (Option τ))
  innerText : List UInt8 → Option String
  decodeBase64 : String → Option (List UInt8)
  decodeHex : String → Option (List UInt8)

section
variable {ε τ : Type}

/-- `if (a) return a`, and then the same for `b`. -/
def firstOf (a b : Except ε (Option τ)) : Except ε (Option τ) :=
  match a with
  | .ok none => b
  | _ => a

def decodeThen (parse : List UInt8 → Except ε (Option τ)) :
    Option (List UInt8) → Except ε (Option τ)
  | none => .ok none
  | some decoded => parse decoded

/-- `parseDecodedTokenPayload`, where the text of a payload may be decoded so many times more. -/
def Decoders.parseDecodedTokenPayload (D : Decoders ε τ) : Nat → List UInt8 → Except ε (Option τ)
  | 0, payload =>
    match D.read payload with
    | .error e => .error e
    | .ok (some result) => .ok result
    | .ok none => .ok none
  | n + 1, payload =>
    match D.read payload with
    | .error e => .error e
    | .ok (some result) => .ok result
    | .ok none =>
      match D.innerText payload with
      | none => .ok none
      | some innerText =>
        firstOf (decodeThen (D.parseDecodedTokenPayload n) (D.decodeBase64 innerText))
          (decodeThen (D.parseDecodedTokenPayload n) (D.decodeHex innerText))

/-- What a text means in base64. -/
def Decoders.asBase64 (D : Decoders ε τ) (n : Nat) (s : String) : Except ε (Option τ) :=
  decodeThen (D.parseDecodedTokenPayload n) (D.decodeBase64 s)

def Decoders.asHex (D : Decoders ε τ) (n : Nat) (s : String) : Except ε (Option τ) :=
  decodeThen (D.parseDecodedTokenPayload n) (D.decodeHex s)

/-- The parts of a JWT that may hold a token: the second between dots, and the first. -/
def jwtSegments (token : String) : List String :=
  match token.toList.splitOnP (· = '.') with
  | first :: second :: _ => [String.ofList second, String.ofList first]
  | _ => []

/-- A text as base64, as hexadecimal digits, and its segments as base64. -/
def Decoders.decodeText (D : Decoders ε τ) (text : String) (segments : List String) :
    Except ε (Option τ) :=
  firstOf (D.asBase64 2 text) <|
  firstOf (D.asHex 2 text) <|
  segments.foldr (fun segment => firstOf (D.asBase64 2 segment)) (.ok none)

/-! ## What comes first -/

/-- A token with the property is returned. -/
def Gives (P : τ → Prop) (r : Except ε (Option τ)) : Prop := ∃ t, r = .ok (some t) ∧ P t

/-- An attempt that comes to nothing, or to the right token all the same. -/
def Harmless (P : τ → Prop) (r : Except ε (Option τ)) : Prop := r = .ok none ∨ Gives P r

variable {P : τ → Prop} {a b : Except ε (Option τ)} {D : Decoders ε τ}

theorem gives_firstOf_iff : Gives P (firstOf a b) ↔ Gives P a ∨ (a = .ok none ∧ Gives P b) := by
  unfold firstOf
  split
  · constructor
    · intro h
      exact .inr ⟨rfl, h⟩
    · rintro (⟨t, ht, _⟩ | ⟨_, h⟩)
      · cases ht
      · exact h
  · rename_i hne
    constructor
    · intro h
      exact .inl h
    · rintro (h | ⟨heq, _⟩)
      · exact h
      · exact absurd heq hne

theorem firstOf_none : firstOf (.ok none) b = b := rfl

theorem firstOf_assoc (a b c : Except ε (Option τ)) :
    firstOf (firstOf a b) c = firstOf a (firstOf b c) := by
  cases a with
  | error e => rfl
  | ok t => cases t <;> rfl

theorem gives_firstOf_iff_harmless (hb : Gives P b) : Gives P (firstOf a b) ↔ Harmless P a := by
  rw [gives_firstOf_iff]
  constructor
  · rintro (h | ⟨h, _⟩)
    · exact .inr h
    · exact .inl h
  · rintro (h | h)
    · exact .inr ⟨h, hb⟩
    · exact .inl h

theorem Gives.firstOf (h : Gives P a) : Gives P (firstOf a b) := gives_firstOf_iff.2 (.inl h)

theorem firstOf_ne_none (hb : Gives P b) : firstOf a b ≠ .ok none := by
  intro h
  unfold Pouw.firstOf at h
  split at h
  · obtain ⟨t, ht, _⟩ := hb
    rw [ht] at h
    cases h
  · rename_i hne
    exact hne h

/-- A token is read as itself, however deep it lies. -/
theorem gives_of_read {bytes : List UInt8} {t : τ} (h : D.read bytes = .ok (some (some t))) (ht : P t)
    (n : Nat) : Gives P (D.parseDecodedTokenPayload n bytes) := by
  refine ⟨t, ?_, ht⟩
  cases n with
  | zero | succ => rw [Decoders.parseDecodedTokenPayload, h]

/-- A payload that is a text, and nothing else. -/
theorem parse_text {s : String} (hread : D.read (ascii s) = .ok none)
    (hinner : D.innerText (ascii s) = some s) (n : Nat) :
    D.parseDecodedTokenPayload (n + 1) (ascii s) = firstOf (D.asBase64 n s) (D.asHex n s) := by
  rw [Decoders.parseDecodedTokenPayload, hread]
  rw [hinner]
  rfl

variable {payload : List UInt8}

theorem parse_zero (hread : D.read payload = .ok none) :
    D.parseDecodedTokenPayload 0 payload = .ok none := by
  rw [Decoders.parseDecodedTokenPayload, hread]

theorem parse_of_no_text (hread : D.read payload = .ok none) (hinner : D.innerText payload = none)
    (n : Nat) :
    D.parseDecodedTokenPayload n payload = .ok none := by
  cases n with
  | zero => exact parse_zero hread
  | succ n =>
    rw [Decoders.parseDecodedTokenPayload, hread]
    rw [hinner]

/-- What the texts of a token are to a platform that reads tokens and decodes texts as it should. -/
structure Decoders.Sound (D : Decoders ε τ) (P : τ → Prop) (bytes : List UInt8) : Prop where
  ne_nil : bytes ≠ []
  read : ∃ t, D.read bytes = .ok (some (some t)) ∧ P t
  inner : ∀ (f : Format) (bs : List UInt8), bs ≠ [] → D.innerText (ascii (f.text bs)) = some (f.text bs)
  base64 : ∀ f : Format, f ≠ .hex → ∀ bs, bs ≠ [] → D.decodeBase64 (f.text bs) = some bs
  hex : ∀ bs, bs ≠ [] → D.decodeHex (bytesToHex bs) = some bs

/-- Hexadecimal digits are taken for base64 first. -/
def Decoders.Undisturbed (D : Decoders ε τ) (P : τ → Prop) (n : Nat) (f : Format)
    (bytes : List UInt8) : Prop :=
  f = .hex → Harmless P (D.asBase64 n (bytesToHex bytes))

variable {bytes : List UInt8}

theorem Decoders.Sound.gives (h : D.Sound P bytes) (n : Nat) :
    Gives P (D.parseDecodedTokenPayload n bytes) := by
  obtain ⟨t, hread, ht⟩ := h.read
  exact gives_of_read hread ht n

theorem Decoders.Sound.gives_asHex (h : D.Sound P bytes) (n : Nat) :
    Gives P (D.asHex n (bytesToHex bytes)) := by
  rw [Decoders.asHex, h.hex bytes h.ne_nil]
  exact h.gives n

/-- A text of the token, taken for base64 and then for hexadecimal digits. -/
theorem Decoders.Sound.gives_decoded_iff (h : D.Sound P bytes) (f : Format) (n : Nat) :
    Gives P (Pouw.firstOf (D.asBase64 n (f.text bytes)) (D.asHex n (f.text bytes))) ↔
      D.Undisturbed P n f bytes := by
  by_cases hf : f = .hex
  · subst hf
    refine (gives_firstOf_iff_harmless (h.gives_asHex n)).trans ?_
    exact ⟨fun hharmless _ => hharmless, fun hquiet => hquiet rfl⟩
  have hgives : Gives P (D.asBase64 n (f.text bytes)) := by
    rw [Decoders.asBase64, h.base64 f hf bytes h.ne_nil]
    exact h.gives n
  exact iff_of_true hgives.firstOf fun hhex => absurd hhex hf

theorem Decoders.Sound.decoded_ne_none (h : D.Sound P bytes) (f : Format) (n : Nat) :
    Pouw.firstOf (D.asBase64 n (f.text bytes)) (D.asHex n (f.text bytes)) ≠ .ok none := by
  by_cases hf : f = .hex
  · subst hf
    exact firstOf_ne_none (h.gives_asHex n)
  rw [Decoders.asBase64, h.base64 f hf bytes h.ne_nil]
  obtain ⟨t, ht, _⟩ := h.gives n
  rw [decodeThen, ht]
  intro hnone
  cases hnone

/-- Nothing comes after an attempt that does not come to nothing. -/
theorem gives_firstOf_of_ne (h : a ≠ .ok none) : Gives P (Pouw.firstOf a b) ↔ Gives P a := by
  rw [gives_firstOf_iff]
  constructor
  · rintro (ha | ⟨hnone, _⟩)
    · exact ha
    · exact absurd hnone h
  · exact .inl

theorem firstOf_ne_none_of_left (h : a ≠ .ok none) : Pouw.firstOf a b ≠ .ok none := by
  intro heq
  unfold Pouw.firstOf at heq
  split at heq
  · exact h rfl
  · exact h heq

end

/-- The base64 of a text, or the text itself. -/
def wrap (wrapped : Bool) (s : String) : String :=
  if wrapped then Format.base64.text (ascii s) else s

theorem wrap_isTextChar (wrapped : Bool) (f : Format) (bytes : List UInt8) :
    ∀ c ∈ (wrap wrapped (f.text bytes)).toList, isTextChar c = true := by
  cases wrapped with
  | false => exact text_isTextChar f bytes
  | true => exact text_isTextChar .base64 _

section
variable {ε τ : Type} {P : τ → Prop} {D : Decoders ε τ} {bytes : List UInt8}

theorem ascii_ne_nil {s : String} (h : s.toList ≠ []) : ascii s ≠ [] := by
  intro heq
  exact h (List.map_eq_nil_iff.1 heq)

variable {f : Format}

theorem wrap_ne_empty (wrapped : Bool) (h : bytes ≠ []) : wrap wrapped (f.text bytes) ≠ "" := by
  cases wrapped with
  | false => exact text_ne_empty h
  | true => exact text_ne_empty (f := .base64) (ascii_ne_nil (text_ne_nil h))

/-- The base64 of a text of the token is the bytes of the text. -/
theorem Decoders.Sound.asBase64_wrap (h : D.Sound P bytes) (f : Format) (n : Nat) :
    D.asBase64 n (wrap true (f.text bytes)) = D.parseDecodedTokenPayload n (ascii (f.text bytes)) := by
  have hne : ascii (f.text bytes) ≠ [] := ascii_ne_nil (text_ne_nil h.ne_nil)
  rw [wrap, if_pos rfl, Decoders.asBase64, h.base64 .base64 (by decide) _ hne]
  rfl

/-- A client that takes the undecoded text for a payload first, of which it can make nothing. -/
theorem Decoders.Sound.gives_payload_iff (h : D.Sound P bytes)
    (hread : ∀ wrapped, D.read (ascii (wrap wrapped (f.text bytes))) = .ok none) (wrapped : Bool)
    (rest : Except ε (Option τ)) :
    Gives P (firstOf (D.parseDecodedTokenPayload 2 (ascii (wrap wrapped (f.text bytes)))) rest) ↔
      D.Undisturbed P (if wrapped then 0 else 1) f bytes := by
  have htext : ∀ n, D.parseDecodedTokenPayload (n + 1) (ascii (f.text bytes)) =
      firstOf (D.asBase64 n (f.text bytes)) (D.asHex n (f.text bytes)) := fun n =>
    parse_text (hread false) (h.inner f bytes h.ne_nil) n
  cases wrapped with
  | false =>
    have hpayload := htext 1
    rw [wrap, if_neg (by decide), hpayload, gives_firstOf_of_ne (h.decoded_ne_none f 1)]
    exact h.gives_decoded_iff f 1
  | true =>
    have hne : ascii (f.text bytes) ≠ [] := ascii_ne_nil (text_ne_nil h.ne_nil)
    have hinner : D.asBase64 1 (wrap true (f.text bytes)) =
        firstOf (D.asBase64 0 (f.text bytes)) (D.asHex 0 (f.text bytes)) :=
      (h.asBase64_wrap f 1).trans (htext 0)
    have hpayload : D.parseDecodedTokenPayload 2 (ascii (wrap true (f.text bytes))) =
        firstOf (D.asBase64 1 (wrap true (f.text bytes))) (D.asHex 1 (wrap true (f.text bytes))) := by
      rw [wrap]
      exact parse_text (hread true) (h.inner .base64 _ hne) 1
    have hsome : D.asBase64 1 (wrap true (f.text bytes)) ≠ .ok none := by
      rw [hinner]
      exact h.decoded_ne_none f 0
    rw [hpayload, gives_firstOf_of_ne (firstOf_ne_none_of_left hsome), gives_firstOf_of_ne hsome,
      hinner]
    exact h.gives_decoded_iff f 0

/-- A client that decodes the text at once. -/
theorem Decoders.Sound.gives_decode_iff (h : D.Sound P bytes) (f : Format) (n : Nat)
    (rest : Except ε (Option τ)) :
    Gives P (firstOf (D.asBase64 n (f.text bytes)) (firstOf (D.asHex n (f.text bytes)) rest)) ↔
      D.Undisturbed P n f bytes := by
  rw [← firstOf_assoc, gives_firstOf_of_ne (h.decoded_ne_none f n)]
  exact h.gives_decoded_iff f n

/-- A client that decodes the base64 of a text at once, and may fail on the text as a payload. -/
theorem Decoders.Sound.gives_decode_wrap_iff (h : D.Sound P bytes) (f : Format)
    (hread : D.read (ascii (f.text bytes)) = .ok none ∨ ∃ e, D.read (ascii (f.text bytes)) = .error e)
    (n : Nat) (rest : Except ε (Option τ)) :
    Gives P (firstOf (D.asBase64 (n + 1) (wrap true (f.text bytes))) rest) ↔
      D.read (ascii (f.text bytes)) = .ok none ∧ D.Undisturbed P n f bytes := by
  rw [h.asBase64_wrap]
  rcases hread with hread | ⟨e, hread⟩
  · rw [parse_text hread (h.inner f bytes h.ne_nil) n, gives_firstOf_of_ne (h.decoded_ne_none f n),
      h.gives_decoded_iff f n]
    exact (and_iff_right hread).symm
  have hfails : D.parseDecodedTokenPayload (n + 1) (ascii (f.text bytes)) = .error e := by
    rw [Decoders.parseDecodedTokenPayload, hread]
  rw [hfails, hread]
  constructor
  · rintro ⟨t, ht, _⟩
    cases ht
  · rintro ⟨hnone, _⟩
    cases hnone

end

end Pouw
