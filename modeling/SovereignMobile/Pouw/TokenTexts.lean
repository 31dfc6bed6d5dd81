import SovereignMobile.Codec.Base64
import SovereignMobile.Codec.Cbor
import SovereignMobile.Identity.HandleStore
import SovereignMobile.Protobuf.Rounds
import SovereignMobile.Pouw.ChallengeToken
import SovereignMobile.Signing.Addresses

/-! # The texts of a token

A token travels as base64, as base64 for URLs, or in hexadecimal digits. The clients try the bytes of
such a text as a token before they decode it, and take hexadecimal digits for base64 first. The protobuf
readers of TypeScript and iOS find no nonce in either: its key is 34, and none of these bytes begins a
varint that comes to 34, whatever follows. -/

namespace Pouw

open Protobuf List Char

inductive Format where
  | base64
  | base64url (padded : Bool)
  | hex
  deriving DecidableEq

def Format.text : Format → List UInt8 → String
  | .base64, bytes => String.ofList (Base64.encode Base64.symbol ['='] bytes)
  | .base64url padded, bytes =>
    String.ofList (Base64.encode Base64.urlSymbol (if padded then ['='] else []) bytes)
  | .hex, bytes => bytesToHex bytes

/-- The bytes of a text of ASCII characters. -/
def ascii (s : String) : List UInt8 := s.toList.map fun c => UInt8.ofNat c.toNat

/-! ## Characters -/

/-- The characters of these texts. -/
def isTextChar (c : Char) : Bool :=
  (48 ≤ c.toNat && c.toNat ≤ 57) || (65 ≤ c.toNat && c.toNat ≤ 90) || (97 ≤ c.toNat && c.toNat ≤ 122) ||
    c = '+' || c = '/' || c = '-' || c = '_' || c = '='

variable {c : Char} {P : Char → Prop} {bytes : List UInt8} {b : UInt8} {s : String}

theorem isTextChar_lt (h : isTextChar c = true) : c.toNat < 128 := by
  simp only [isTextChar, Bool.or_eq_true, Bool.and_eq_true, decide_eq_true_eq] at h
  rcases h with ((((((⟨_, h⟩ | ⟨_, h⟩) | ⟨_, h⟩) | rfl) | rfl) | rfl) | rfl) | rfl
  · omega
  · omega
  · omega
  all_goals decide

theorem of_isTextChar (h : isTextChar c = true)
    (hall : ∀ n < 128, isTextChar (Char.ofNat n) = true → P (Char.ofNat n)) : P c := by
  have hc := hall c.toNat (isTextChar_lt h)
  rw [ofNat_toNat] at hc
  exact hc h

theorem toList_bytesToHex (bytes : List UInt8) : (bytesToHex bytes).toList =
    bytes.flatMap fun b => [hexDigit (b.toNat / 16), hexDigit (b.toNat % 16)] :=
  String.toList_ofList

theorem forall_mem_bytesToHex (h : ∀ n < 16, P (hexDigit n)) (bytes : List UInt8) :
    ∀ c ∈ (bytesToHex bytes).toList, P c := by
  intro c hc
  rw [toList_bytesToHex] at hc
  obtain ⟨b, _, hc⟩ := mem_flatMap.1 hc
  have hb := b.toNat_lt
  rcases mem_cons.1 hc with rfl | hc
  · exact h _ (by omega)
  · rw [mem_singleton.1 hc]
    exact h _ (by omega)

theorem text_isTextChar (f : Format) (bytes : List UInt8) :
    ∀ c ∈ (f.text bytes).toList, isTextChar c = true := by
  cases f with
  | base64 =>
    have hsymbol : ∀ n < 64, isTextChar (Base64.symbol n) = true := by decide
    have hpad : ∀ c ∈ ['='], isTextChar c = true := forall_mem_singleton.2 (by decide)
    rw [Format.text, String.toList_ofList]
    exact Base64.forall_mem_encode hsymbol hpad bytes
  | base64url padded =>
    have hsymbol : ∀ n < 64, isTextChar (Base64.urlSymbol n) = true := by decide
    have hpad : ∀ c ∈ (if padded then ['='] else []), isTextChar c = true := by
      cases padded with
      | false => exact forall_mem_nil _
      | true => exact forall_mem_singleton.2 (by decide)
    rw [Format.text, String.toList_ofList]
    exact Base64.forall_mem_encode hsymbol hpad bytes
  | hex => exact forall_mem_bytesToHex (by decide) bytes

section
variable {f : Format} {bytes : List UInt8}

theorem text_ne_nil (h : bytes ≠ []) : (f.text bytes).toList ≠ [] := by
  obtain ⟨b, bs, rfl⟩ := exists_cons_of_ne_nil h
  have hsextets : Base64.sextets (b :: bs) ≠ [] := by
    cases bs with
    | nil => simp [Base64.sextets]
    | cons c cs => cases cs <;> simp [Base64.sextets]
  cases f with
  | base64 | base64url => simp [Format.text, Base64.encode, hsextets]
  | hex => simp [Format.text, toList_bytesToHex]

theorem text_ne_empty (h : bytes ≠ []) : f.text bytes ≠ "" := by
  intro heq
  exact text_ne_nil h (by rw [heq]; rfl)

end

/-! ## Bytes that begin no nonce -/

/-- No varint that begins with this byte is 34. -/
def offNonce (b : UInt8) : Bool := !([0, 2, 32, 34].contains (b.toNat % 128))

section
variable {w : Nat} {within : Nat → Bool}

variable {bs rest bytes : List UInt8} {key : BitVec w} {b : UInt8} {ε : Type} {nil : ε}
    {fieldNumberOf : BitVec w → Int} {lengthOf : Nat → BitVec w → Except ε Nat} {count n : Nat}
    {s s' : Found}

/-- What a varint has so far stays in it. -/
theorem readVarintLoop_or {value : BitVec w} {shift : Nat}
    (h : readVarintLoop w within bs value shift = some (key, rest)) : value ||| key = key := by
  induction bs generalizing value shift with
  | nil => cases h
  | cons b bs ih =>
    have hkeep : ∀ x : BitVec w, value ||| (value ||| x) = value ||| x := by
      intro x
      rw [← BitVec.or_assoc, BitVec.or_self]
    rw [readVarintLoop] at h
    split at h
    · dsimp only at h
      split at h
      · cases h
        exact hkeep _
      · have hrest := ih h
        rw [← hrest, BitVec.or_assoc, hkeep]
    · cases h

/-- The bits of the first byte stay in a varint. -/
theorem or_first (hw : 8 ≤ w) (h : readVarintLoop w within (b :: bs) 0 0 = some (key, rest)) :
    b.toNat % 128 ||| key.toNat = key.toNat := by
  have hsmall : b.toNat % 128 < 2 ^ w := by
    have hle : 2 ^ 8 ≤ 2 ^ w := Nat.pow_le_pow_right (by decide) hw
    omega
  have hzero : ∀ x : BitVec w, 0 ||| x = x := fun _ => BitVec.zero_or
  have hfirst : BitVec.ofNat w (b.toNat % 128) ||| key = key := by
    rw [readVarintLoop] at h
    split at h
    · dsimp only at h
      rw [Nat.zero_mod, BitVec.shiftLeft_zero, hzero] at h
      split at h
      · cases h
        exact BitVec.or_self
      · exact readVarintLoop_or h
    · cases h
  have hbits := congrArg BitVec.toNat hfirst
  rw [BitVec.toNat_or, BitVec.toNat_ofNat, Nat.mod_eq_of_lt hsmall] at hbits
  exact hbits

theorem key_ne_nonce (hw : 8 ≤ w) (hb : offNonce b = true)
    (h : readVarintLoop w within (b :: bs) 0 0 = some (key, rest)) :
    key.toNat ≠ 34 := by
  intro hkey
  have hbits := or_first hw h
  rw [hkey] at hbits
  have hall : ∀ n < 128, n ||| 34 = 34 → [0, 2, 32, 34].contains n = true := by decide
  have hmem := hall _ (Nat.mod_lt _ (by decide)) hbits
  rw [offNonce, hmem] at hb
  cases hb

/-- A group makes the readers give up. -/
theorem readField_groupKey (hw : 8 ≤ w) (hb : b.toNat % 4 = 3) :
    readField w nil fieldNumberOf lengthOf count s (b :: bs) = .error nil := by
  unfold readField
  dsimp only
  split
  · rfl
  rename_i key bytes hkey
  have hbits := congrArg (· % 2 ^ 2) (or_first hw hkey)
  have hlow : b.toNat % 128 % 2 ^ 2 = 3 := by omega
  simp only [Nat.or_mod_two_pow, hlow] at hbits
  have hall : ∀ n < 4, 3 ||| n = n → n = 3 := by decide
  have hthree := hall _ (Nat.mod_lt _ (by decide)) hbits
  rw [if_neg (by omega), if_neg (by omega), if_neg (by omega), if_neg (by omega)]

/-- What a round does: it reads a key, and takes a value for a field of wire type 2 at most. -/
theorem readField_cases
    (h : readField w nil fieldNumberOf lengthOf count s bytes = .ok (s', rest)) :

    ∃ key bytes1, readVarintLoop w (· ≤ 63) bytes 0 0 = some (key, bytes1) ∧ rest ⊆ bytes1 ∧
      (s' = s ∨ key.toNat % 8 = 2 ∧ ∃ value, s' = s.record (fieldNumberOf key) value) := by
  unfold readField at h
  dsimp only at h
  split at h
  · cases h
  rename_i key bytes1 hkey
  refine ⟨key, bytes1, hkey, ?_⟩
  split at h
  · split at h
    · cases h
    rename_i hskip
    obtain ⟨c, cs, rfl, hsuffix⟩ := suffix_readVarintLoop hskip
    cases h
    exact ⟨fun d hd => mem_cons_of_mem _ (hsuffix.mem hd), .inl rfl⟩
  · split at h
    · split at h
      · cases h
      · cases h
        exact ⟨drop_subset 8 bytes1, .inl rfl⟩
    split at h
    · rename_i hwire
      split at h
      · cases h
      rename_i hlen
      obtain ⟨c, cs, rfl, hsuffix⟩ := suffix_readVarintLoop hlen
      split at h
      · cases h
      split at h
      · cases h
      cases h
      refine ⟨fun d hd => ?_, .inr ⟨hwire, _, rfl⟩⟩
      exact mem_cons_of_mem _ (hsuffix.mem (mem_of_mem_drop hd))
    · split at h
      · split at h
        · cases h
        · cases h
          exact ⟨drop_subset 4 bytes1, .inl rfl⟩
      · cases h

theorem readField_subset
    (h : readField w nil fieldNumberOf lengthOf count s bytes = .ok (s', rest)) :
    rest ⊆ bytes := by
  obtain ⟨key, bytes1, hkey, hrest, _⟩ := readField_cases h
  obtain ⟨b, bs, rfl, hsuffix⟩ := suffix_readVarintLoop hkey
  exact fun c hc => mem_cons_of_mem _ (hsuffix.mem (hrest hc))

/-- One round finds no nonce. -/
theorem readField_offNonce (hw : 8 ≤ w)
    (hnumber : ∀ key : BitVec w, fieldNumberOf key = 4 → key.toNat / 8 = 4)
    (hs : s.challengeNonceBytes = none) (hbytes : ∀ b ∈ bytes, offNonce b = true)
    (h : readField w nil fieldNumberOf lengthOf count s bytes = .ok (s', rest)) :
    s'.challengeNonceBytes = none := by
  obtain ⟨key, bytes1, hkey, _, rfl | ⟨hwire, value, rfl⟩⟩ := readField_cases h
  · exact hs
  obtain ⟨b, bs, rfl, _⟩ := suffix_readVarintLoop hkey
  have hne := key_ne_nonce hw (hbytes b mem_cons_self) hkey
  have hfour : fieldNumberOf key ≠ 4 := by
    intro heq
    have hdiv := hnumber key heq
    omega
  rw [Found.record, if_neg hfour]
  exact hs

/-- A loop keeps what its rounds keep. -/
theorem readAll_keeps {σ : Type} {step : σ → List UInt8 → Except ε (σ × List UInt8)}
    {P : σ → List UInt8 → Prop}
    (hstep : ∀ s bytes s' rest, P s bytes → step s bytes = .ok (s', rest) → P s' rest) {s s' : σ}
    (hs : P s bytes) (h : readAll step n s bytes = .ok s') :
    ∃ rest, P s' rest := by
  induction n generalizing s bytes with
  | zero =>
    cases bytes with
    | nil => exact ⟨[], Except.ok.inj h ▸ hs⟩
    | cons b bs => exact ⟨b :: bs, Except.ok.inj h ▸ hs⟩
  | succ n ih =>
    cases bytes with
    | nil => exact ⟨[], Except.ok.inj h ▸ hs⟩
    | cons b bs =>
      rw [readAll] at h
      split at h
      · cases h
      · rename_i hok
        exact ih (hstep _ _ _ _ hs hok) h

theorem readFields_offNonce (hw : 8 ≤ w)
    (hnumber : ∀ key : BitVec w, fieldNumberOf key = 4 → key.toNat / 8 = 4)
    (hbytes : ∀ b ∈ bytes, offNonce b = true)
    (h : readAll (readField w nil fieldNumberOf lengthOf count) n {} bytes = .ok s') :
    s'.finish = none := by
  obtain ⟨_, hnone, _⟩ := readAll_keeps
    (P := fun (s : Found) bytes => s.challengeNonceBytes = none ∧ ∀ b ∈ bytes, offNonce b = true)
    (fun _ _ _ _ hs hok => ⟨readField_offNonce hw hnumber hs.1 hs.2 hok,
      fun b hb => hs.2 b (readField_subset hok hb)⟩) ⟨rfl, hbytes⟩ h
  unfold Found.finish
  rw [hnone]
  cases s'.taskIdBytes <;> rfl

end

theorem TypeScript.parse_offNonce (h : ∀ b ∈ bytes, offNonce b = true) :
    TypeScript.parseChallengeTokenProtobuf bytes = none := by
  unfold TypeScript.parseChallengeTokenProtobuf
  split
  · rfl
  rename_i s hs
  refine readFields_offNonce (by decide) ?_ h hs
  intro key hkey
  rw [BitVec.toInt_eq_toNat_cond, Int.shiftRight_eq_div_pow] at hkey
  split at hkey
  · omega
  · omega

theorem Ios.parse_offNonce (h : ∀ b ∈ bytes, offNonce b = true) :
    ∃ stop, Ios.parseChallengeTokenProtobuf bytes = .error stop := by
  unfold Ios.parseChallengeTokenProtobuf
  split
  · exact ⟨_, rfl⟩
  rename_i s hs
  have hnone : s.finish = none := by
    refine readFields_offNonce (by decide) ?_ h hs
    intro key hkey
    exact_mod_cast hkey
  rw [hnone]
  exact ⟨_, rfl⟩

theorem Ios.parse_groupKey {bs : List UInt8} (hb : b.toNat % 4 = 3) :
    Ios.parseChallengeTokenProtobuf (b :: bs) = .error .nil := by
  unfold Ios.parseChallengeTokenProtobuf Ios.step
  rw [length_cons, readAll, readField_groupKey (by decide) hb]

/-- A loop does not fail in a way that none of its rounds does. -/
theorem readAll_ne_error {ε σ : Type} {step : σ → List UInt8 → Except ε (σ × List UInt8)} {e : ε}
    {P : List UInt8 → Prop}
    (hstep : ∀ s bytes s' rest, P bytes → step s bytes = .ok (s', rest) → P rest)
    (hne : ∀ s bytes, P bytes → step s bytes ≠ .error e) {n : Nat} {s : σ} (hs : P bytes) :
    readAll step n s bytes ≠ .error e := by
  induction n generalizing s bytes with
  | zero =>
    cases bytes with
    | nil | cons => exact fun h => by cases h
  | succ n ih =>
    cases bytes with
    | nil => exact fun h => by cases h
    | cons b bs =>
      rw [readAll]
      split
      · rename_i e' herr
        intro h
        cases h
        exact hne _ _ hs herr
      · rename_i hok
        exact ih (hstep _ _ _ _ hs hok)

/-- Bytes of ASCII are varints of their own. -/
theorem readVarintLoop_ascii {w : Nat} (hb : b.toNat < 128) (bs : List UInt8) :
    readVarintLoop w (· ≤ 63) (b :: bs) 0 0 = some (BitVec.ofNat w b.toNat, bs) := by
  have hzero : ∀ x : BitVec w, 0 ||| x = x := fun _ => BitVec.zero_or
  rw [readVarintLoop, if_pos (by decide)]
  rw [if_pos hb, Nat.zero_mod, BitVec.shiftLeft_zero, hzero, Nat.mod_eq_of_lt hb]

/-- Lengths that are one byte of ASCII stay within `Int`. -/
theorem Ios.step_ascii {count : Nat} (hcount : count < 2 ^ 62) {s : Found}
    (hbytes : ∀ b ∈ bytes, b.toNat < 128) : Ios.step count s bytes ≠ .error .trap := by
  cases bytes with
  | nil => exact fun h => by cases h
  | cons b bs =>
    have hbs : ∀ c ∈ bs, c.toNat < 128 := fun c hc => hbytes c (mem_cons_of_mem _ hc)
    intro h
    unfold Ios.step readField at h
    dsimp only at h
    rw [readVarintLoop_ascii (hbytes b mem_cons_self)] at h
    dsimp only at h
    split at h
    · split at h <;> cases h
    split at h
    · split at h <;> cases h
    split at h
    · -- a length
      cases bs with
      | nil => cases h
      | cons c cs =>
        have hc := hbs c mem_cons_self
        rw [readVarintLoop_ascii hc] at h
        dsimp only at h
        rw [BitVec.toNat_ofNat, if_pos (by omega)] at h
        dsimp only at h
        split at h <;> cases h
    · split at h
      · split at h <;> cases h
      · cases h

/-- The iOS reader gives up on a text, and does not trap. -/
theorem Ios.parse_ascii (hascii : ∀ b ∈ bytes, b.toNat < 128)
    (hoff : ∀ b ∈ bytes, offNonce b = true) (hlen : bytes.length < 2 ^ 62) :
    Ios.parseChallengeTokenProtobuf bytes = .error .nil := by
  obtain ⟨stop, hstop⟩ := Ios.parse_offNonce hoff
  cases stop with
  | nil => exact hstop
  | trap =>
    exfalso
    unfold Ios.parseChallengeTokenProtobuf at hstop
    split at hstop
    · rename_i herr
      cases hstop
      refine readAll_ne_error (P := fun bytes => ∀ b ∈ bytes, b.toNat < 128) ?_ ?_ hascii herr
      · intro s bytes s' rest hbytes hok b hb
        exact hbytes b (readField_subset hok hb)
      · intro s bytes hbytes
        exact Ios.step_ascii hlen hbytes
    · split at hstop
      · cases hstop
      · cases hstop

theorem ascii_isTextChar (h : ∀ c ∈ s.toList, isTextChar c = true) :
    ∀ b ∈ ascii s, b.toNat < 128 ∧ offNonce b = true := by
  intro b hb
  obtain ⟨c, hc, rfl⟩ := mem_map.1 hb
  exact of_isTextChar (P := fun c => (UInt8.ofNat c.toNat).toNat < 128 ∧
    offNonce (UInt8.ofNat c.toNat) = true) (h c hc) (by decide)

/-! ## Texts of ASCII -/

theorem utf8_eq_flatMap (s : String) : ZhtpCodec.utf8 s = s.toList.flatMap String.utf8EncodeChar := by
  rw [ZhtpCodec.utf8, ← String.utf8Encode_toList, utf8Encode]
  simp

theorem utf8EncodeChar_ascii (h : c.toNat < 128) :
    String.utf8EncodeChar c = [UInt8.ofNat c.toNat] := by
  have hsize : c.utf8Size = 1 := utf8Size_eq_one_iff.2 (by
    rw [UInt32.le_iff_toNat_le]
    exact Nat.le_of_lt_succ h)
  rw [String.utf8EncodeChar_eq_singleton hsize]
  rfl

/-- ASCII in UTF-8 is one byte for each character. -/
theorem utf8_eq_ascii (h : ∀ c ∈ s.toList, c.toNat < 128) : ZhtpCodec.utf8 s = ascii s := by
  rw [utf8_eq_flatMap, ascii]
  generalize s.toList = cs at h
  induction cs with
  | nil => rfl
  | cons c cs ih =>
    rw [forall_mem_cons] at h
    rw [flatMap_cons, utf8EncodeChar_ascii h.1, ih h.2]
    rfl

theorem toNat_ofNat_toNat (b : UInt8) : (Char.ofNat b.toNat).toNat = b.toNat := by
  have hlt := b.toNat_lt
  have hvalid : b.toNat.isValidChar := .inl (by omega)
  rw [Char.ofNat, dif_pos hvalid]
  rfl

theorem ofList_ascii (h : ∀ c ∈ s.toList, c.toNat < 128) :
    String.ofList ((ascii s).map fun b => Char.ofNat b.toNat) = s := by
  have hback : ∀ c ∈ s.toList, Char.ofNat (UInt8.ofNat c.toNat).toNat = c := by
    intro c hc
    rw [UInt8.toNat_ofNat', Nat.mod_eq_of_lt (Nat.lt_of_lt_of_le (h c hc) (by decide)), ofNat_toNat]
  rw [ascii, map_map]
  exact (congrArg String.ofList ((map_congr_left hback).trans (map_id _))).trans
    String.ofList_toList

theorem text_lt (f : Format) (bytes : List UInt8) : ∀ c ∈ (f.text bytes).toList, c.toNat < 128 :=
  fun c hc => isTextChar_lt (text_isTextChar f bytes c hc)

end Pouw
