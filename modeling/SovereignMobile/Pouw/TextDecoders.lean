import SovereignMobile.Auth.Types
import SovereignMobile.Pouw.TokenTexts

/-! # Decoding the texts of a token

What the clients do with a string before they decode it, and what that makes of the texts of a token:
they are trimmed already, `normalizeBase64` turns the URL alphabet into the standard one with padding,
and hexadecimal digits are decoded to the bytes that they came from. -/

namespace Pouw

open List
open NativeIdentityProvisioning (hexBytes hexValue trimWith trimWith_eq_self)

/-! ## Identifiers -/

/-- Without `0x` or `0X`. -/
def withoutPrefix (s : String) : String :=
  match s.toList with
  | '0' :: x :: rest => if x = 'x' ∨ x = 'X' then String.ofList rest else s
  | _ => s

/-- An even number of hexadecimal digits, and not none. -/
def isHexString (s : String) : Bool :=
  s.toList.length % 2 = 0 && s ≠ "" &&
    s.toList.all fun c => (NativeIdentityProvisioning.hexValue c).isSome

def decodeHexMaybe (trim : String → String) (value : String) : Option (List UInt8) :=
  let noPrefix := withoutPrefix (trim value)
  if isHexString noPrefix then NativeIdentityProvisioning.hexBytes noPrefix.toList else none

/-- `normalizeBase64`, which pads to a multiple of four by the platform's length of a string. -/
def normalizeBase64 (count : String → Nat) (input : String) : String :=
  let normalized := String.ofList (input.toList.map fun c =>
    if c = '-' then '+' else if c = '_' then '/' else c)
  let remainder := count normalized % 4
  if remainder = 0 then normalized
  else normalized ++ String.ofList (List.replicate (4 - remainder) '=')

/-- `normalizeIdentifier` of TypeScript and Swift: an identifier in hexadecimal digits. -/
def normalizeIdentifier (trim : String → String) (decodeBase64 : String → Option (List UInt8))
    (value : String) : Option String :=
  let trimmed := trim value
  if trimmed = "" then none
  else
    let noPrefix := withoutPrefix trimmed
    if isHexString noPrefix then some (String.ofList (noPrefix.toList.map Char.toLower))
    else
      match decodeBase64 noPrefix with
      | some decoded => if decoded = [] then none else some (bytesToHex decoded)
      | none => none

/-! ## The texts -/

section
variable {f : Format} {bytes : List UInt8}

/-- No character of a text is white space. -/
theorem trimWith_isTextChar {isSpace : Char → Bool}
    (hspace : ∀ n < 128, isTextChar (Char.ofNat n) = true → isSpace (Char.ofNat n) = false) {s : String}
    (hs : ∀ c ∈ s.toList, isTextChar c = true) : trimWith isSpace s = s :=
  trimWith_eq_self fun c hc =>
    of_isTextChar (P := fun c => isSpace c = false) (hs c hc) hspace

/-! ## Hexadecimal digits -/

theorem hexValue_hexDigit {n : Nat} (h : n < 16) : hexValue (hexDigit n) = some n := by
  have hall : ∀ i < 16, hexValue (hexDigit i) = some i := by decide
  exact hall n h

theorem hexBytes_bytesToHex (bytes : List UInt8) :
    hexBytes (bytesToHex bytes).toList = some bytes := by
  rw [toList_bytesToHex]
  induction bytes with
  | nil => rfl
  | cons b bytes ih =>
    have hb := b.toNat_lt
    have hvalue : UInt8.ofNat (16 * (b.toNat / 16) + b.toNat % 16) = b := by
      rw [Nat.div_add_mod, UInt8.ofNat_toNat]
    rw [flatMap_cons]
    simp only [cons_append, nil_append, hexBytes,
      hexValue_hexDigit (show b.toNat / 16 < 16 by omega),
      hexValue_hexDigit (show b.toNat % 16 < 16 by omega), ih, hvalue]

theorem withoutPrefix_bytesToHex (bytes : List UInt8) :
    withoutPrefix (bytesToHex bytes) = bytesToHex bytes := by
  unfold withoutPrefix
  split
  · rename_i x rest heq
    rw [if_neg]
    intro hx
    have hmem : x ∈ (bytesToHex bytes).toList := by
      rw [heq]
      exact mem_cons_of_mem _ mem_cons_self
    have hdigit : ∀ c ∈ (bytesToHex bytes).toList, ¬(c = 'x' ∨ c = 'X') :=
      forall_mem_bytesToHex (by decide) bytes
    exact hdigit x hmem hx
  · rfl

theorem length_bytesToHex (bytes : List UInt8) :
    (bytesToHex bytes).toList.length = 2 * bytes.length := by
  rw [toList_bytesToHex]
  simp [Nat.mul_comm]

theorem isHexString_bytesToHex (h : bytes ≠ []) : isHexString (bytesToHex bytes) = true := by
  have hdigits : ∀ c ∈ (bytesToHex bytes).toList, (hexValue c).isSome = true :=
    forall_mem_bytesToHex (by decide) bytes
  have hne : bytesToHex bytes ≠ "" := text_ne_empty (f := .hex) h
  simp only [isHexString, length_bytesToHex, all_eq_true, Bool.and_eq_true, decide_eq_true_eq]
  exact ⟨⟨by omega, hne⟩, hdigits⟩

variable {trim : String → String}

theorem decodeHexMaybe_bytesToHex (htrim : trim (bytesToHex bytes) = bytesToHex bytes)
    (h : bytes ≠ []) :
    decodeHexMaybe trim (bytesToHex bytes) = some bytes := by
  simp only [decodeHexMaybe, htrim, withoutPrefix_bytesToHex]
  rw [if_pos (isHexString_bytesToHex h), hexBytes_bytesToHex]

/-- An identifier that a protobuf reader returns is normal. -/
theorem normalizeIdentifier_bytesToHex (decodeBase64 : String → Option (List UInt8))
    (htrim : trim (bytesToHex bytes) = bytesToHex bytes) (h : bytes ≠ []) :
    normalizeIdentifier trim decodeBase64 (bytesToHex bytes) = some (bytesToHex bytes) := by
  have hne : bytesToHex bytes ≠ "" := text_ne_empty (f := .hex) h
  have hlower : (bytesToHex bytes).toList.map Char.toLower = (bytesToHex bytes).toList := by
    have hdigit : ∀ c ∈ (bytesToHex bytes).toList, c.toLower = c :=
      forall_mem_bytesToHex (by decide) bytes
    exact (map_congr_left hdigit).trans (map_id _)
  simp only [normalizeIdentifier, htrim, withoutPrefix_bytesToHex]
  rw [if_neg hne, if_pos (isHexString_bytesToHex h), hlower, String.ofList_toList]

/-! ## Base64 -/

variable {count : String → Nat}

/-- The length of a string of ASCII. -/
def Counts (count : String → Nat) : Prop :=
  ∀ s, (∀ c ∈ s.toList, isTextChar c = true) → count s = s.toList.length

theorem utf16Length_counts : Counts Auth.utf16Length := by
  intro s h
  have hone : ∀ c ∈ s.toList, (if c.val < 0x10000 then 1 else 2) = 1 := by
    intro c hc
    have hlt := isTextChar_lt (h c hc)
    rw [if_pos]
    rw [UInt32.lt_iff_toNat_lt]
    exact Nat.lt_trans hlt (by decide)
  unfold Auth.utf16Length
  rw [map_congr_left hone]
  simp

/-- Symbols of either alphabet, padded or not. -/
theorem normalizeBase64_symbols (hcount : Counts count) {symbol : Nat → Char}
    (hsymbol : ∀ n < 64, (let c := symbol n; if c = '-' then '+' else if c = '_' then '/' else c) =
      Base64.symbol n)
    {ns : List Nat} (hns : ∀ n ∈ ns, n < 64) (k : Nat) :
    normalizeBase64 count (String.ofList (ns.map symbol ++ replicate k '=')) =
      String.ofList (ns.map Base64.symbol ++
        replicate (k + (4 - (ns.length + k) % 4) % 4) '=') := by
  have hpad : ∀ c ∈ replicate k '=', (if c = '-' then '+' else if c = '_' then '/' else c) = c := by
    intro c hc
    rw [eq_of_mem_replicate hc]
    rfl
  have hmap : (ns.map symbol ++ replicate k '=').map
      (fun c => if c = '-' then '+' else if c = '_' then '/' else c) =
        ns.map Base64.symbol ++ replicate k '=' := by
    rw [map_append, map_map]
    congr 1
    · exact map_congr_left fun n hn => hsymbol n (hns n hn)
    · exact (map_congr_left hpad).trans (map_id _)
  have hchars : ∀ c ∈ ns.map Base64.symbol ++ replicate k '=', isTextChar c = true := by
    have hall : ∀ n < 64, isTextChar (Base64.symbol n) = true := by decide
    intro c hc
    rcases mem_append.1 hc with hc | hc
    · obtain ⟨n, hn, rfl⟩ := mem_map.1 hc
      exact hall n (hns n hn)
    · rw [eq_of_mem_replicate hc]
      rfl
  have hlen : count (String.ofList (ns.map Base64.symbol ++ replicate k '=')) = ns.length + k := by
    rw [hcount _ (by rw [String.toList_ofList]; exact hchars)]
    simp
  simp only [normalizeBase64, String.toList_ofList, hmap, hlen]
  split
  · rename_i hzero
    rw [hzero]
    rfl
  · rename_i hpos
    rw [Nat.mod_eq_of_lt (show 4 - (ns.length + k) % 4 < 4 by omega), ← String.ofList_append,
      append_assoc, replicate_append_replicate]

theorem encode_eq (symbol : Nat → Char) (bytes : List UInt8) : Base64.encode symbol ['='] bytes =
      (Base64.sextets bytes).map symbol ++ replicate (Base64.padLength bytes.length) '=' := by
  have hone : ∀ k : Nat, (replicate k ['=']).flatten = replicate k '=' := by
    intro k
    induction k with
    | zero => rfl
    | succ k ih => rw [replicate_succ, flatten_cons, ih]; rfl
  rw [Base64.encode, hone]

theorem normalizeBase64_text (hcount : Counts count) (hf : f ≠ .hex) (bytes : List UInt8) :
    normalizeBase64 count (f.text bytes) = Format.base64.text bytes := by
  have hlen := Base64.length_sextets bytes
  have hpad : Base64.padLength bytes.length < 3 := Nat.mod_lt _ (by decide)
  cases f with
  | hex => exact absurd rfl hf
  | base64 =>
    rw [Format.text, encode_eq, normalizeBase64_symbols hcount (by decide) (Base64.sextets_lt bytes)]
    congr 3
    omega
  | base64url padded =>
    cases padded with
    | true =>
      rw [Format.text, Format.text, if_pos rfl, encode_eq, encode_eq,
        normalizeBase64_symbols hcount (by decide) (Base64.sextets_lt bytes)]
      congr 3
      omega
    | false =>
      have hnone : Base64.encode Base64.urlSymbol [] bytes =
          (Base64.sextets bytes).map Base64.urlSymbol ++ replicate 0 '=' := by
        simp [Base64.encode]
      rw [Format.text, Format.text, if_neg (by decide), hnone, encode_eq,
        normalizeBase64_symbols hcount (by decide) (Base64.sextets_lt bytes)]
      congr 3
      omega

/-- A text is little more than twice as long as its bytes. -/
theorem length_text_le (f : Format) (bytes : List UInt8) :
    (ascii (f.text bytes)).length ≤ 2 * bytes.length + 4 := by
  have hlen := Base64.length_sextets bytes
  rw [ascii, length_map]
  cases f with
  | hex => rw [Format.text, length_bytesToHex]; omega
  | base64 =>
    rw [Format.text, String.toList_ofList, encode_eq, length_append, length_map, length_replicate]
    omega
  | base64url padded =>
    cases padded with
    | true =>
      rw [Format.text, if_pos rfl, String.toList_ofList, encode_eq, length_append,
        length_map, length_replicate]
      omega
    | false =>
      rw [Format.text]
      simp [Base64.encode]
      omega

/-- A decoder that knows base64 with all its padding, and drops the bits that make no byte. -/
def Decodes (decode : String → Option (List UInt8)) : Prop :=
  ∀ (ns : List Nat) (k : Nat), (∀ n ∈ ns, n < 64) → k ≤ 2 → (ns.length + k) % 4 = 0 →
    decode (String.ofList (ns.map Base64.symbol ++ List.replicate k '=')) = some (Base64.octets ns)

/-- Either alphabet is decoded, padded or not. -/
theorem Decodes.text {decode : String → Option (List UInt8)} (hdecode : Decodes decode)
    (hcount : Counts count) (hf : f ≠ .hex) (bytes : List UInt8) :
    decode (normalizeBase64 count (f.text bytes)) = some bytes := by
  have hlen := Base64.length_sextets bytes
  have hpad : Base64.padLength bytes.length < 3 := Nat.mod_lt _ (by decide)
  rw [normalizeBase64_text hcount hf, Format.text, encode_eq,
    hdecode _ _ (Base64.sextets_lt bytes) (by omega) (by omega), Base64.octets_sextets]

end

end Pouw
