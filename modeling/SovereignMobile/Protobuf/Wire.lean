import Mathlib.Data.Nat.Bitwise
import Mathlib.Data.Nat.Basic

/-! # The protobuf wire format

A message on the wire is a sequence of fields, each a tag (a varint that holds the field number and
the wire type) and a payload. The format does not ask for the shortest varint, so a varint is kept
here as the bytes it was written with. Beside the format, what hand-written readers share: the loop
that puts a varint together in a machine word, and the loop over the fields. -/

namespace Protobuf

open List

/-- The number that the low seven bits of the bytes spell, least significant byte first. -/
def varintValue : List UInt8 → Nat
  | [] => 0
  | b :: bs => b.toNat % 128 + 128 * varintValue bs

/-- A varint of at most ten bytes and 64 bits: all bytes but the last have the continuation bit. -/
structure Varint where
  init : List UInt8
  last : UInt8
  continued : ∀ b ∈ init, 128 ≤ b.toNat
  ended : last.toNat < 128
  short : init.length ≤ 9
  fits : varintValue (init ++ [last]) < 2 ^ 64

def Varint.bytes (v : Varint) : List UInt8 := v.init ++ [v.last]

def Varint.value (v : Varint) : Nat := varintValue v.bytes

/-- What follows a tag. A group has no length of its own: it ends with an end tag. -/
inductive Payload where
  | varint (v : Varint)
  | i64 (bytes : List UInt8)
  | len (length : Varint) (bytes : List UInt8)
  | startGroup
  | endGroup
  | i32 (bytes : List UInt8)

def Payload.wireType : Payload → Nat
  | .varint _ => 0
  | .i64 _ => 1
  | .len _ _ => 2
  | .startGroup => 3
  | .endGroup => 4
  | .i32 _ => 5

def Payload.bytes : Payload → List UInt8
  | .varint v => v.bytes
  | .i64 bs => bs
  | .len n bs => n.bytes ++ bs
  | .startGroup | .endGroup => []
  | .i32 bs => bs

/-- The payload has the size that its type or its length says. -/
def Payload.Sized : Payload → Prop
  | .i64 bs => bs.length = 8
  | .len n bs => n.value = bs.length
  | .i32 bs => bs.length = 4
  | _ => True

def Payload.isGroup : Payload → Bool
  | .startGroup | .endGroup => true
  | _ => false

structure Field where
  tag : Varint
  payload : Payload
  wire : tag.value % 8 = payload.wireType
  sized : payload.Sized
  positive : 8 ≤ tag.value
  inRange : tag.value < 2 ^ 32

def Field.number (f : Field) : Nat := f.tag.value / 8

def Field.bytes (f : Field) : List UInt8 := f.tag.bytes ++ f.payload.bytes

def encode (fs : List Field) : List UInt8 := fs.flatMap Field.bytes

/-- Every group that is opened is closed by an end tag of its own number; `opened` holds the numbers
    of the groups around the next field. -/
def balanced : List Nat → List Field → Bool
  | opened, [] => opened.isEmpty
  | opened, f :: fs =>
    match f.payload with
    | .startGroup => balanced (f.number :: opened) fs
    | .endGroup =>
      match opened with
      | [] => false
      | n :: opened => n = f.number && balanced opened fs
    | _ => balanced opened fs

/-- The fields of the message itself, without those inside groups. -/
def topLevel : Nat → List Field → List Field
  | _, [] => []
  | depth, f :: fs =>
    match f.payload with
    | .startGroup => if depth = 0 then f :: topLevel 1 fs else topLevel (depth + 1) fs
    | .endGroup => topLevel (depth - 1) fs
    | _ => if depth = 0 then f :: topLevel depth fs else topLevel depth fs

/-- The value of a `bytes` field: its last occurrence counts. -/
def lastLen (number : Nat) (fs : List Field) : Option (List UInt8) :=
  fs.foldl (fun last f =>
    match f.payload with
    | .len _ bs => if f.number = number then some bs else last
    | _ => last) none

/-! ## Reading a varint -/

/-- `value |= (byte & 0x7f) << shift`, in a word of `w` bits whose shifts count modulo `w`, until a
    byte without continuation bit; `within` is the loop's bound on `shift`. -/
def readVarintLoop (w : Nat) (within : Nat → Bool) :
    List UInt8 → BitVec w → Nat → Option (BitVec w × List UInt8)
  | [], _, _ => none
  | b :: bs, value, shift =>
    if within shift then
      let value := value ||| BitVec.ofNat w (b.toNat % 128) <<< (shift % w)
      if b.toNat < 128 then some (value, bs) else readVarintLoop w within bs value (shift + 7)
    else none

variable {w : Nat} {within : Nat → Bool}

theorem or_shiftLeft_toNat {shift d : Nat} {value : BitVec w} (hvalue : value.toNat < 2 ^ shift)
    (hfits : value.toNat + 2 ^ shift * d < 2 ^ w) :
    (value ||| BitVec.ofNat w d <<< (shift % w)).toNat = value.toNat + 2 ^ shift * d := by
  rcases Nat.eq_zero_or_pos d with rfl | hd
  · simp
  -- a digit that is not zero lies within the word, so the shift does not wrap
  have hle : 2 ^ shift * 1 ≤ 2 ^ shift * d := Nat.mul_le_mul_left _ hd
  have hshift : shift < w := by
    by_contra hge
    have := Nat.pow_le_pow_right (n := 2) (by omega) (Nat.le_of_not_lt hge)
    omega
  have hd' : d < 2 ^ w := by
    have := Nat.one_le_two_pow (n := shift)
    have := Nat.mul_le_mul_right d this
    omega
  rw [Nat.mod_eq_of_lt hshift, BitVec.toNat_or, BitVec.toNat_shiftLeft, BitVec.toNat_ofNat,
    Nat.mod_eq_of_lt hd', Nat.shiftLeft_eq, Nat.mul_comm d,
    Nat.mod_eq_of_lt (by omega), Nat.or_comm,
    ← Nat.two_pow_add_eq_or_of_lt hvalue]
  omega

theorem readVarintLoop_eq (rest : List UInt8) (last : UInt8) (hlast : last.toNat < 128)
    (init : List UInt8) :
    ∀ (value : BitVec w) (shift : Nat), (∀ b ∈ init, 128 ≤ b.toNat) →
      (∀ k, k ≤ shift + 7 * init.length → within k = true) →
      ∃ x, readVarintLoop w within (init ++ last :: rest) value shift = some (x, rest) ∧
        (value.toNat < 2 ^ shift → value.toNat + 2 ^ shift * varintValue (init ++ [last]) < 2 ^ w →
          x.toNat = value.toNat + 2 ^ shift * varintValue (init ++ [last])) := by
  induction init with
  | nil =>
    intro value shift _ hwithin
    refine ⟨_, by simp [readVarintLoop, hwithin shift (by omega), hlast]; rfl, ?_⟩
    intro hvalue hfits
    have hd : varintValue ([] ++ [last]) = last.toNat % 128 := by simp [varintValue]
    rw [hd] at hfits ⊢
    exact or_shiftLeft_toNat hvalue hfits
  | cons b init ih =>
    intro value shift hcont hwithin
    have hb : ¬ b.toNat < 128 := by
      have := hcont b (by simp)
      omega
    obtain ⟨x, hx, hval⟩ := ih (value ||| BitVec.ofNat w (b.toNat % 128) <<< (shift % w)) (shift + 7)
      (fun b' hb' => hcont b' (mem_cons_of_mem _ hb'))
      (fun k hk => hwithin k (by simp only [length_cons]; omega))
    refine ⟨x, by simp [readVarintLoop, hwithin shift (by omega), hb, hx], ?_⟩
    intro hvalue hfits
    have hsplit : 2 ^ shift * varintValue (b :: init ++ [last]) =
        2 ^ shift * (b.toNat % 128) + 2 ^ (shift + 7) * varintValue (init ++ [last]) := by
      simp only [cons_append, varintValue, Nat.mul_add, Nat.pow_add, ← Nat.mul_assoc]
    rw [hsplit] at hfits ⊢
    have hdigit := or_shiftLeft_toNat (d := b.toNat % 128) hvalue (by omega)
    have hlt : value.toNat + 2 ^ shift * (b.toNat % 128) < 2 ^ (shift + 7) := by
      have h127 : 2 ^ shift * (b.toNat % 128) ≤ 2 ^ shift * 127 :=
        Nat.mul_le_mul_left _ (by omega)
      rw [Nat.pow_add]
      omega
    rw [hval (by rw [hdigit]; exact hlt) (by rw [hdigit]; omega)]
    omega

/-- A loop that allows shifts up to 63 reads every varint, and its value exactly if the word is
    wide enough. -/
theorem readVarintLoop_varint (hwithin : ∀ k ≤ 63, within k = true) (v : Varint) (rest : List UInt8)
    :
    ∃ x, readVarintLoop w within (v.bytes ++ rest) 0 0 = some (x, rest) ∧
      (v.value < 2 ^ w → x.toNat = v.value) := by
  have hshort := v.short
  obtain ⟨x, hx, hval⟩ := readVarintLoop_eq rest v.last v.ended v.init 0 0
    v.continued (fun k hk => hwithin k (by omega))
  refine ⟨x, by simpa [Varint.bytes] using hx, fun hfits => ?_⟩
  have hvalue : v.value = varintValue (v.init ++ [v.last]) := rfl
  simpa [hvalue] using hval (by simp) (by simpa [hvalue] using hfits)

/-! ## Reading the fields -/

theorem Field.bytes_ne_nil (f : Field) : f.bytes ≠ [] := by
  simp [Field.bytes, Varint.bytes]

theorem encode_cons (f : Field) (fs : List Field) : encode (f :: fs) = f.bytes ++ encode fs := by
  simp [encode]

theorem length_le_length_encode (fs : List Field) : fs.length ≤ (encode fs).length := by
  induction fs with
  | nil => simp
  | cons f fs ih =>
    have := length_pos_iff.2 f.bytes_ne_nil
    rw [encode_cons, length_append, length_cons]
    omega

variable {ε σ : Type}

/-- One round for each field until the input is used up. A round takes at least one byte, so as many
    rounds as there are bytes are enough. -/
def readAll (step : σ → List UInt8 → Except ε (σ × List UInt8)) :
    Nat → σ → List UInt8 → Except ε σ
  | _, s, [] => .ok s
  | 0, s, _ :: _ => .ok s
  | n + 1, s, b :: bs =>
    match step s (b :: bs) with
    | .error e => .error e
    | .ok (s, rest) => readAll step n s rest

theorem readAll_step {step : σ → List UInt8 → Except ε (σ × List UInt8)} {n : Nat} {s : σ}
    {bs : List UInt8} (h : bs ≠ []) :
    readAll step (n + 1) s bs = match step s bs with
      | .error e => .error e
      | .ok (s, rest) => readAll step n s rest := by
  obtain ⟨b, bs, rfl⟩ := exists_cons_of_ne_nil h
  rfl

variable {step : σ → List UInt8 → Except ε (σ × List UInt8)} {update : σ → Field → σ}

/-- A loop whose rounds read each field of a message reads the message. -/
theorem readAll_encode (fs : List Field) :
    ∀ (n : Nat) (s : σ), (∀ f ∈ fs, ∀ s rest, step s (f.bytes ++ rest) = .ok (update s f, rest)) →
      fs.length ≤ n → readAll step n s (encode fs) = .ok (fs.foldl update s) := by
  induction fs with
  | nil =>
    intro n s _ _
    cases n <;> rfl
  | cons f fs ih =>
    intro n s hstep hn
    obtain ⟨n, rfl⟩ : ∃ m, n = m + 1 := ⟨n - 1, by simp at hn; omega⟩
    rw [encode_cons, readAll_step (by simp [f.bytes_ne_nil]), hstep f (by simp)]
    exact ih n _ (fun g hg => hstep g (mem_cons_of_mem _ hg)) (by simpa using hn)

/-- The loop stops at the first field whose round fails. -/
theorem readAll_encode_error (Good : Field → Prop) {e : ε} (fs : List Field) : ∀ (n : Nat) (s : σ),
      (∀ f ∈ fs, ∀ s rest, Good f → step s (f.bytes ++ rest) = .ok (update s f, rest)) →
      (∀ f ∈ fs, ∀ s rest, ¬ Good f → step s (f.bytes ++ rest) = .error e) →
      (∃ f ∈ fs, ¬ Good f) → fs.length ≤ n → readAll step n s (encode fs) = .error e := by
  induction fs with
  | nil =>
    rintro n s _ _ ⟨f, hf, _⟩
    simp at hf
  | cons f fs ih =>
    rintro n s hstep hbad ⟨g, hg, hgbad⟩ hn
    obtain ⟨n, rfl⟩ : ∃ m, n = m + 1 := ⟨n - 1, by simp at hn; omega⟩
    rw [encode_cons, readAll_step (by simp [f.bytes_ne_nil])]
    by_cases hgood : Good f
    · rw [hstep f (by simp) s _ hgood]
      have hg' : g ∈ fs := by
        rcases mem_cons.1 hg with rfl | hg
        · exact absurd hgood hgbad
        · exact hg
      exact ih n _ (fun f' hf' => hstep f' (mem_cons_of_mem _ hf'))
        (fun f' hf' => hbad f' (mem_cons_of_mem _ hf')) ⟨g, hg', hgbad⟩ (by simpa using hn)
    · rw [hbad f (by simp) s _ hgood]

end Protobuf
