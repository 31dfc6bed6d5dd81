import SovereignMobile.Protobuf.Wire
import Mathlib.Data.List.Induction
import Mathlib.Tactic.SplitIfs

/-! # Challenge tokens

A node hands out `pouw.v1.ChallengeToken` messages, and each client reads `task_id` (field 3) and
`challenge_nonce` (field 4) from them with a reader of its own: `parseChallengeTokenProtobuf` of
`PoUWController.ts` and of `RCTPoUW.swift`, `parseChallengeToken` of `SubmissionClient.kt`. -/

namespace Pouw

open Protobuf List

/-- The two fields as found so far. -/
structure Found where
  taskIdBytes : Option (List UInt8) := none
  challengeNonceBytes : Option (List UInt8) := none

def hexDigit (n : Nat) : Char := if n < 10 then Char.ofNat (48 + n) else Char.ofNat (87 + n)

/-- `bytesToHex` (TypeScript) and `toHex` (Swift): two lower-case digits for each byte. -/
def bytesToHex (bytes : List UInt8) : String :=
  String.ofList (bytes.flatMap fun b => [hexDigit (b.toNat / 16), hexDigit (b.toNat % 16)])

structure ParsedToken where
  task_id : String
  challenge_nonce : String
deriving DecidableEq

/-- The end of both readers: a field that is missing or empty makes no token. -/
def Found.finish (s : Found) : Option ParsedToken :=
  match s.taskIdBytes, s.challengeNonceBytes with
  | some task, some nonce =>
    if task = [] ∨ nonce = [] then none else some ⟨bytesToHex task, bytesToHex nonce⟩
  | _, _ => none

def Found.record (s : Found) (fieldNumber : Int) (value : List UInt8) : Found where
  taskIdBytes := if fieldNumber = 3 then some value else s.taskIdBytes
  challengeNonceBytes := if fieldNumber = 4 then some value else s.challengeNonceBytes

/-- One round of the loop that the TypeScript and the Swift reader share, over the bytes that are
    left of `count`. They differ in the width of a varint, in how a field number comes out of a key,
    and in what makes a length unusable. -/
def readField {ε : Type} (w : Nat) (nil : ε) (fieldNumberOf : BitVec w → Int)
    (lengthOf : Nat → BitVec w → Except ε Nat) (count : Nat) (s : Found) (bytes : List UInt8) :
    Except ε (Found × List UInt8) :=
  let readVarint := fun bytes => readVarintLoop w (· ≤ 63) bytes 0 0
  match readVarint bytes with
  | none => .error nil
  | some (key, bytes) =>
    let wireType := key.toNat % 8
    if wireType = 0 then
      match readVarint bytes with
      | none => .error nil
      | some (_, bytes) => .ok (s, bytes)
    else if wireType = 1 then
      if bytes.length < 8 then .error nil else .ok (s, bytes.drop 8)
    else if wireType = 2 then
      match readVarint bytes with
      | none => .error nil
      | some (length, bytes) =>
        match lengthOf (count - bytes.length) length with
        | .error e => .error e
        | .ok len =>
          if bytes.length < len then .error nil
          else .ok (s.record (fieldNumberOf key) (bytes.take len), bytes.drop len)
    else if wireType = 5 then
      if bytes.length < 4 then .error nil else .ok (s, bytes.drop 4)
    else .error nil

/-! ## TypeScript -/

namespace TypeScript

/-- Numbers go through 32-bit signed integers; `len < 0` gives up. -/
def step (count : Nat) : Found → List UInt8 → Except Unit (Found × List UInt8) :=
  readField 32 () (fun key => key.toInt >>> (3 : Nat))
    (fun _ length => if length.toInt < 0 then .error () else .ok length.toNat) count

def parseChallengeTokenProtobuf (bytes : List UInt8) : Option ParsedToken :=
  match readAll (step bytes.length) bytes.length {} bytes with
  | .error () => none
  | .ok s => s.finish

end TypeScript

/-! ## iOS -/

namespace Ios

/-- `return nil`, or a trap of `Int` arithmetic. -/
inductive Stop where
  | nil
  | trap
deriving DecidableEq

/-- `Int(length)` and `index + len` trap beyond the range of `Int`. -/
def step (count : Nat) : Found → List UInt8 → Except Stop (Found × List UInt8) :=
  readField 64 .nil (fun key => (key.toNat / 8 : Nat))
    (fun index length =>
      if length.toNat < 2 ^ 63 ∧ index + length.toNat < 2 ^ 63 then .ok length.toNat
      else .error .trap) count

def parseChallengeTokenProtobuf (bytes : List UInt8) : Except Stop ParsedToken :=
  match readAll (step bytes.length) bytes.length {} bytes with
  | .error e => .error e
  | .ok s =>
    match s.finish with
    | none => .error .nil
    | some token => .ok token

end Ios

/-! ## Android -/

namespace Android

/-- What ends a parse without a result: the two exceptions, and a loop that never ends. -/
inductive Abort where
  | unexpectedEnd
  | negativeArraySize
  | diverges
deriving DecidableEq

structure ChallengePolicy where
  maxReceipts : Int
  difficulty : Int
deriving DecidableEq

structure ChallengeToken where
  taskId : List UInt8
  challengeNonce : List UInt8
  expiresAt : BitVec 64
  policy : Option ChallengePolicy
deriving DecidableEq

def readVarint (input : List UInt8) : Except Abort (BitVec 64 × List UInt8) :=
  match readVarintLoop 64 (fun _ => true) input 0 0 with
  | none => .error .unexpectedEnd
  | some (result, input) => .ok (result, input)

/-- `Long.toInt()` -/
def toInt (n : BitVec 64) : Int := (n.setWidth 32).toInt

/-- A short read leaves the rest of the array zero. -/
def readLengthDelimited (input : List UInt8) : Except Abort (List UInt8 × List UInt8) :=
  match readVarint input with
  | .error e => .error e
  | .ok (n, input) =>
    if toInt n < 0 then .error .negativeArraySize
    else
      let length := (toInt n).toNat
      .ok (input.take length ++ List.replicate (length - input.length) 0, input.drop length)

/-- `while (input.read() and 0x80 != 0) {}`: at the end of the stream `read` answers -1, for ever. -/
def skipVarint : List UInt8 → Except Abort (List UInt8)
  | [] => .error .diverges
  | b :: input => if b.toNat < 128 then .ok input else skipVarint input

def skipField (input : List UInt8) (wireType : Nat) : Except Abort (List UInt8) :=
  match wireType with
  | 0 => skipVarint input
  | 2 =>
    match readVarint input with
    | .error e => .error e
    | .ok (n, input) => .ok (input.drop (toInt n).toNat)
  | 5 => .ok (input.drop 4)
  | 1 => .ok (input.drop 8)
  | _ => .ok input

def policyStep (p : ChallengePolicy) : List UInt8 → Except Abort (ChallengePolicy × List UInt8)
  | [] => .ok (p, [])
  | tag :: input =>
    let wireType := tag.toNat % 8
    match tag.toNat / 8 with
    | 1 =>
      if wireType = 0 then
        match readVarint input with
        | .error e => .error e
        | .ok (n, input) => .ok ({ p with maxReceipts := toInt n }, input)
      else .ok (p, input)
    | 2 =>
      if wireType = 0 then
        match readVarint input with
        | .error e => .error e
        | .ok (n, input) => .ok ({ p with difficulty := toInt n }, input)
      else .ok (p, input)
    | _ =>
      match skipField input wireType with
      | .error e => .error e
      | .ok input => .ok (p, input)

def parsePolicy (bytes : List UInt8) : Except Abort ChallengePolicy :=
  readAll policyStep bytes.length ⟨100, 20⟩ bytes

/-- The variables of `parseChallengeToken`. -/
structure Reading where
  taskId : Option (List UInt8) := none
  challengeNonce : Option (List UInt8) := none
  expiresAt : BitVec 64 := 0
  policy : Option ChallengePolicy := none

def Reading.readTaskId (s : Reading) (input : List UInt8) : Except Abort (Reading × List UInt8) :=
  match readLengthDelimited input with
  | .error e => .error e
  | .ok (value, input) => .ok ({ s with taskId := some value }, input)

def Reading.readChallengeNonce (s : Reading) (input : List UInt8) :
    Except Abort (Reading × List UInt8) :=
  match readLengthDelimited input with
  | .error e => .error e
  | .ok (value, input) => .ok ({ s with challengeNonce := some value }, input)

/-- One round: the tag is one byte, and a known field of another wire type than expected takes
    nothing of its payload. -/
def step (s : Reading) : List UInt8 → Except Abort (Reading × List UInt8)
  | [] => .ok (s, [])
  | tag :: input =>
    let wireType := tag.toNat % 8
    match tag.toNat / 8 with
    | 3 => if wireType = 2 then s.readTaskId input else .ok (s, input)
    | 4 => if wireType = 2 then s.readChallengeNonce input else .ok (s, input)
    | 5 =>
      if wireType = 0 then
        match readVarint input with
        | .error e => .error e
        | .ok (n, input) => .ok ({ s with expiresAt := n }, input)
      else .ok (s, input)
    | 6 =>
      if wireType = 2 then
        match readLengthDelimited input with
        | .error e => .error e
        | .ok (policyBytes, input) =>
          match parsePolicy policyBytes with
          | .error e => .error e
          | .ok policy => .ok ({ s with policy := some policy }, input)
      else .ok (s, input)
    | 1 => if wireType = 2 then s.readTaskId input else .ok (s, input)
    | 2 => if wireType = 2 then s.readChallengeNonce input else .ok (s, input)
    | _ =>
      match skipField input wireType with
      | .error e => .error e
      | .ok input => .ok (s, input)

def Reading.finish (s : Reading) : Option ChallengeToken :=
  match s.taskId, s.challengeNonce with
  | some taskId, some challengeNonce =>
    if taskId = [] ∨ challengeNonce = [] then none
    else some ⟨taskId, challengeNonce, s.expiresAt, s.policy⟩
  | _, _ => none

def parseChallengeToken (bytes : List UInt8) : Except Abort (Option ChallengeToken) :=
  match readAll step bytes.length {} bytes with
  | .error e => .error e
  | .ok s => .ok s.finish

end Android

/-! ## Messages -/

/-- The wire type of each field of `ChallengeToken` in `pouw.proto`. -/
def schemaWireType : Nat → Option Nat
  | 1 | 5 | 6 => some 0
  | 2 | 3 | 4 | 7 | 8 => some 2
  | _ => none

/-- A well-formed encoding of a `ChallengeToken`: the fields come in any order and number, unknown
    ones among them, and the message stays below the 2 GiB of the format. -/
structure Message where
  fields : List Field
  groups : balanced [] fields = true
  schema : ∀ f ∈ topLevel 0 fields, ∀ t, schemaWireType f.number = some t → f.payload.wireType = t
  small : (encode fields).length < 2 ^ 31
  taskId : List UInt8
  challengeNonce : List UInt8
  taskId_last : lastLen 3 (topLevel 0 fields) = some taskId
  challengeNonce_last : lastLen 4 (topLevel 0 fields) = some challengeNonce
  taskId_ne_nil : taskId ≠ []
  challengeNonce_ne_nil : challengeNonce ≠ []

def Message.bytes (m : Message) : List UInt8 := encode m.fields

/-- No field is a group. -/
def Message.NoGroups (m : Message) : Prop := ∀ f ∈ m.fields, f.payload.isGroup = false

variable {fs : List Field} {f : Field} {m : Message}

theorem topLevel_of_noGroups (h : ∀ f ∈ fs, f.payload.isGroup = false) : topLevel 0 fs = fs := by
  induction fs with
  | nil => rfl
  | cons f fs ih =>
    have hf := h f (by simp)
    have hfs := ih fun g hg => h g (mem_cons_of_mem _ hg)
    unfold topLevel
    split
    · rename_i hp
      simp [hp, Payload.isGroup] at hf
    · rename_i hp
      simp [hp, Payload.isGroup] at hf
    · simp [hfs]

theorem length_bytes_le (h : f ∈ fs) : f.bytes.length ≤ (encode fs).length := by
  obtain ⟨as, bs, rfl⟩ := append_of_mem h
  simp only [encode, flatMap_append, flatMap_cons, length_append]
  omega

/-! ## The TypeScript and the Swift reader -/

/-- What a field that is no group contributes. -/
def Found.update (s : Found) (f : Field) : Found :=
  match f.payload with
  | .len _ bs => s.record f.number bs
  | _ => s

section ReadField
variable {ε : Type} {w : Nat} {nil : ε} {fieldNumberOf : BitVec w → Int}
  {lengthOf : Nat → BitVec w → Except ε Nat} {count : Nat}

/-- The reader agrees with the wire format on numbers below 2^31. -/
structure Reads (fieldNumberOf : BitVec w → Int) (lengthOf : Nat → BitVec w → Except ε Nat)
    (count : Nat) : Prop where
  wide : 32 ≤ w
  number : ∀ key : BitVec w, key.toNat < 2 ^ 32 → ∀ n : Nat, n < 2 ^ 28 →
    (fieldNumberOf key = n ↔ key.toNat / 8 = n)
  length : ∀ i x, i ≤ count → x.toNat < 2 ^ 31 → lengthOf i x = .ok x.toNat

theorem Found.record_eq (h : Reads fieldNumberOf lengthOf count) (s : Found) (f : Field)
    {key : BitVec w} (hkey : key.toNat = f.tag.value) (value : List UInt8) :
    s.record (fieldNumberOf key) value = s.record f.number value := by
  have hlt : key.toNat < 2 ^ 32 := hkey ▸ f.inRange
  have h3 := h.number key hlt 3 (by decide)
  have h4 := h.number key hlt 4 (by decide)
  have hnumber : f.number = key.toNat / 8 := by rw [hkey]; rfl
  simp only [Found.record, hnumber]
  push_cast at h3 h4
  simp only [h3, h4]
  norm_cast

theorem readVarint_eq (v : Varint) (rest : List UInt8) :
    ∃ x : BitVec w, readVarintLoop w (· ≤ 63) (v.bytes ++ rest) 0 0 = some (x, rest) ∧
      (v.value < 2 ^ w → x.toNat = v.value) := by
  have hwithin : ∀ k ≤ 63, (fun k => decide (k ≤ 63)) k = true := by simp
  exact readVarintLoop_varint hwithin v rest

theorem readField_key (hw : 32 ≤ w) (f : Field) (rest : List UInt8) :
    ∃ key : BitVec w, key.toNat = f.tag.value ∧
      readVarintLoop w (· ≤ 63) (f.bytes ++ rest) 0 0 = some (key, f.payload.bytes ++ rest) := by
  obtain ⟨key, hread, hkey⟩ := readVarint_eq f.tag (f.payload.bytes ++ rest)
  refine ⟨key, hkey ?_, by simpa [Field.bytes] using hread⟩
  exact Nat.lt_of_lt_of_le f.inRange (Nat.pow_le_pow_right (by decide) hw)

variable {f : Field}

theorem readField_bytes (h : Reads fieldNumberOf lengthOf count) (hsmall : f.bytes.length < 2 ^ 31)
    (hgroup : f.payload.isGroup = false) (s : Found) (rest : List UInt8) :
    readField w nil fieldNumberOf lengthOf count s (f.bytes ++ rest) = .ok (s.update f, rest) := by
  obtain ⟨key, hkey, hread⟩ := readField_key h.wide f rest
  have hwire : key.toNat % 8 = f.payload.wireType := by rw [hkey]; exact f.wire
  have hsized := f.sized
  unfold readField Found.update
  simp only [hread, hwire]
  cases hp : f.payload with
  | varint v =>
    obtain ⟨x, hx, _⟩ := readVarint_eq (w := w) v rest
    simp only [Payload.wireType, Payload.bytes, if_true, hx]
  | i64 bs =>
    rw [hp] at hsized
    have hlen : bs.length = 8 := hsized
    simp [Payload.wireType, Payload.bytes, hlen]
  | len n bs =>
    rw [hp] at hsized
    have hlen : n.value = bs.length := hsized
    have hbs : n.value < 2 ^ 31 := by
      simp only [Field.bytes, hp, Payload.bytes, length_append] at hsmall
      omega
    obtain ⟨x, hx, hval⟩ := readVarint_eq (w := w) n (bs ++ rest)
    have hx' : x.toNat = n.value := hval
      (Nat.lt_of_lt_of_le hbs (Nat.pow_le_pow_right (by decide) (by have := h.wide; omega)))
    have hlengthOf := h.length (count - (bs ++ rest).length) x (by omega) (by omega)
    simp only [Payload.wireType, Payload.bytes, append_assoc, hx, hlengthOf, hx', hlen]
    simp [Found.record_eq h s f hkey]
  | startGroup | endGroup => simp [hp, Payload.isGroup] at hgroup
  | i32 bs =>
    rw [hp] at hsized
    have hlen : bs.length = 4 := hsized
    simp [Payload.wireType, Payload.bytes, hlen]

/-- A group makes the reader give up. -/
theorem readField_group (hw : 32 ≤ w) (hgroup : f.payload.isGroup = true) (s : Found)
    (rest : List UInt8) :
    readField w nil fieldNumberOf lengthOf count s (f.bytes ++ rest) = .error nil := by
  obtain ⟨key, hkey, hread⟩ := readField_key hw f rest
  have hwire : key.toNat % 8 = f.payload.wireType := by rw [hkey]; exact f.wire
  unfold readField
  simp only [hread, hwire]
  cases hp : f.payload with
  | startGroup | endGroup => simp [Payload.wireType]
  | _ => simp [hp, Payload.isGroup] at hgroup

end ReadField

theorem TypeScript.reads (count : Nat) : Reads (w := 32) (fun key => key.toInt >>> (3 : Nat))
      (fun _ length => if length.toInt < 0 then .error () else .ok length.toNat) count where
  wide := by decide
  number := by
    intro key hkey n hn
    rw [BitVec.toInt_eq_toNat_cond, Int.shiftRight_eq_div_pow]
    split <;> omega
  length := by
    intro i x _ hx
    rw [if_neg]
    rw [BitVec.toInt_eq_toNat_of_lt (by omega)]
    omega

theorem Ios.reads {count : Nat} (hcount : count < 2 ^ 31) :
    Reads (w := 64) (fun key => (key.toNat / 8 : Nat)) (fun index length =>
        if length.toNat < 2 ^ 63 ∧ index + length.toNat < 2 ^ 63 then .ok length.toNat
        else .error Ios.Stop.trap) count where
  wide := by decide
  number := by
    intro key _ n _
    norm_cast
  length := by
    intro i x hi hx
    rw [if_pos (by omega)]

/-- What the fields contribute, taken together: the last occurrence of each of the two. -/
theorem foldl_update (fs : List Field) : ∀ s : Found, fs.foldl Found.update s =
      ⟨fs.foldl (fun last f => match f.payload with
          | .len _ bs => if f.number = 3 then some bs else last
          | _ => last) s.taskIdBytes,
        fs.foldl (fun last f => match f.payload with
          | .len _ bs => if f.number = 4 then some bs else last
          | _ => last) s.challengeNonceBytes⟩ := by
  induction fs with
  | nil => intro s; rfl
  | cons f fs ih =>
    intro s
    rw [foldl_cons, ih, foldl_cons, foldl_cons]
    unfold Found.update
    cases f.payload with
    | len n bs =>
      simp only [Found.record]
      norm_cast
    | _ => rfl

theorem Message.found (m : Message) (h : m.NoGroups) :
    m.fields.foldl Found.update {} = ⟨some m.taskId, some m.challengeNonce⟩ := by
  have htask := m.taskId_last
  have hnonce := m.challengeNonce_last
  rw [topLevel_of_noGroups h] at htask hnonce
  rw [foldl_update]
  exact congrArg₂ Found.mk htask hnonce

theorem Message.finish (m : Message) : Found.finish ⟨some m.taskId, some m.challengeNonce⟩ =
      some ⟨bytesToHex m.taskId, bytesToHex m.challengeNonce⟩ := by
  simp [Found.finish, m.taskId_ne_nil, m.challengeNonce_ne_nil]

theorem Message.length_field (h : f ∈ m.fields) :
    f.bytes.length < 2 ^ 31 := Nat.lt_of_le_of_lt (length_bytes_le h) m.small

section ReadField
variable {ε : Type} {w : Nat} (nil : ε) {fieldNumberOf : BitVec w → Int}
  {lengthOf : Nat → BitVec w → Except ε Nat}

theorem Message.readFields (m : Message) (h : Reads fieldNumberOf lengthOf m.bytes.length)
    (hgroups : m.NoGroups) :
    readAll (readField w nil fieldNumberOf lengthOf m.bytes.length) m.bytes.length {} m.bytes =
      .ok ⟨some m.taskId, some m.challengeNonce⟩ := by
  rw [← m.found hgroups]
  exact readAll_encode m.fields _ _
    (fun f hf s rest => readField_bytes h (Message.length_field hf) (hgroups f hf) s rest)
    (length_le_length_encode m.fields)

theorem Message.readFields_groups (m : Message) (h : Reads fieldNumberOf lengthOf m.bytes.length)
    (hgroups : ¬ m.NoGroups) :
    readAll (readField w nil fieldNumberOf lengthOf m.bytes.length) m.bytes.length {} m.bytes =
      .error nil := by
  simp only [Message.NoGroups, not_forall] at hgroups
  obtain ⟨f, hf, hgroup⟩ := hgroups
  exact readAll_encode_error (fun f => f.payload.isGroup = false) m.fields _ _
    (fun f hf s rest hgood => readField_bytes h (Message.length_field hf) hgood s rest)
    (fun f _ s rest hbad => readField_group h.wide (by simpa using hbad) s rest)
    ⟨f, hf, hgroup⟩ (length_le_length_encode m.fields)

end ReadField

/-- The TypeScript reader finds both fields exactly if no field is a group. -/
theorem TypeScript.parse_iff (m : Message) : TypeScript.parseChallengeTokenProtobuf m.bytes =
        some ⟨bytesToHex m.taskId, bytesToHex m.challengeNonce⟩ ↔ m.NoGroups := by
  have hreads := TypeScript.reads m.bytes.length
  unfold TypeScript.parseChallengeTokenProtobuf TypeScript.step
  constructor
  · intro h
    by_contra hgroups
    rw [m.readFields_groups () hreads hgroups] at h
    simp at h
  · intro hgroups
    rw [m.readFields () hreads hgroups]
    exact m.finish

theorem Ios.parse_iff (m : Message) : Ios.parseChallengeTokenProtobuf m.bytes =
        .ok ⟨bytesToHex m.taskId, bytesToHex m.challengeNonce⟩ ↔ m.NoGroups := by
  have hreads := Ios.reads m.small
  unfold Ios.parseChallengeTokenProtobuf Ios.step
  constructor
  · intro h
    by_contra hgroups
    have herr := m.readFields_groups Ios.Stop.nil hreads hgroups
    rw [herr] at h
    simp at h
  · intro hgroups
    have hok := m.readFields Ios.Stop.nil hreads hgroups
    rw [hok]
    simp [m.finish]

/-! ## The Android reader -/

namespace Android

theorem skipVarint_bytes (rest : List UInt8) (last : UInt8) (hlast : last.toNat < 128)
    (init : List UInt8) (hcont : ∀ b ∈ init, 128 ≤ b.toNat) :
    skipVarint (init ++ last :: rest) = .ok rest := by
  induction init with
  | nil => simp [skipVarint, hlast]
  | cons b init ih =>
    have hb : ¬ b.toNat < 128 := by
      have := hcont b (by simp)
      omega
    simp only [cons_append, skipVarint, hb]
    exact ih fun b' hb' => hcont b' (mem_cons_of_mem _ hb')

theorem readVarint_bytes (v : Varint) (rest : List UInt8) :
    ∃ x : BitVec 64, readVarint (v.bytes ++ rest) = .ok (x, rest) ∧ x.toNat = v.value := by
  obtain ⟨x, hx, hval⟩ := readVarintLoop_varint (fun _ _ => rfl) v rest
  exact ⟨x, by simp only [readVarint, hx], hval v.fits⟩

theorem toInt_eq {n : BitVec 64} (h : n.toNat < 2 ^ 31) : toInt n = n.toNat := by
  unfold toInt
  rw [BitVec.toInt_eq_toNat_of_lt] <;> rw [BitVec.toNat_setWidth, Nat.mod_eq_of_lt (by omega)]
  omega

theorem readLengthDelimited_bytes {n : Varint} {bs : List UInt8} (hn : n.value = bs.length)
    (hsmall : bs.length < 2 ^ 31) (rest : List UInt8) :
    readLengthDelimited (n.bytes ++ (bs ++ rest)) = .ok (bs, rest) := by
  obtain ⟨x, hx, hval⟩ := readVarint_bytes n (bs ++ rest)
  have hint : toInt x = bs.length := by
    rw [toInt_eq (by omega)]
    omega
  simp [readLengthDelimited, hx, hint]

variable {f : Field} {p : Payload}

theorem skipField_bytes (hgroup : f.payload.isGroup = false) (hsmall : f.bytes.length < 2 ^ 31)
    (rest : List UInt8) :
    skipField (f.payload.bytes ++ rest) f.payload.wireType = .ok rest := by
  have hsized := f.sized
  unfold Field.bytes at hsmall
  cases hp : f.payload with
  | varint v =>
    simpa [skipField, Payload.wireType, Payload.bytes, Varint.bytes] using
      skipVarint_bytes rest v.last v.ended v.init v.continued
  | i64 bs =>
    rw [hp] at hsized
    have hlen : bs.length = 8 := hsized
    simp [skipField, Payload.wireType, Payload.bytes, ← hlen]
  | len n bs =>
    rw [hp] at hsized hsmall
    have hlen : n.value = bs.length := hsized
    simp only [Payload.bytes, length_append] at hsmall
    obtain ⟨x, hx, hval⟩ := readVarint_bytes n (bs ++ rest)
    have hint : toInt x = bs.length := by
      rw [toInt_eq (by omega)]
      omega
    simp [skipField, Payload.wireType, Payload.bytes, hx, hint]
  | startGroup | endGroup => simp [hp, Payload.isGroup] at hgroup
  | i32 bs =>
    rw [hp] at hsized
    have hlen : bs.length = 4 := hsized
    simp [skipField, Payload.wireType, Payload.bytes, ← hlen]

/-- A field that the Android reader takes as the schema means it: its tag is one byte, it is no
    group, and it is neither `version` nor `expires_at`. -/
structure Readable (f : Field) : Prop where
  oneByteTag : f.tag.init = []
  noGroup : f.payload.isGroup = false
  notVersion : f.number ≠ 1
  notExpiresAt : f.number ≠ 6

/-- What a readable field contributes. -/
def Reading.update (s : Reading) (f : Field) : Reading :=
  match f.payload with
  | .len _ bs =>
    if f.number = 3 then { s with taskId := some bs }
    else if f.number = 4 ∨ f.number = 2 then { s with challengeNonce := some bs }
    else s
  | .varint v => if f.number = 5 then { s with expiresAt := BitVec.ofNat 64 v.value } else s
  | _ => s

theorem Readable.bytes_eq (h : Readable f) (rest : List UInt8) :
    f.bytes ++ rest = f.tag.last :: (f.payload.bytes ++ rest) ∧ f.tag.last.toNat = f.tag.value := by
  have hlast := f.tag.ended
  constructor
  · simp [Field.bytes, Varint.bytes, h.oneByteTag]
  · simp only [Varint.value, Varint.bytes, h.oneByteTag, nil_append, varintValue]
    omega

theorem exists_len_of_wireType (h : p.wireType = 2) : ∃ n bs, p = .len n bs := by
  cases p with
  | len n bs => exact ⟨n, bs, rfl⟩
  | _ => simp [Payload.wireType] at h

theorem exists_varint_of_wireType (h : p.wireType = 0) : ∃ v, p = .varint v := by
  cases p with
  | varint v => exact ⟨v, rfl⟩
  | _ => simp [Payload.wireType] at h

theorem step_bytes (hread : Readable f) (hsmall : f.bytes.length < 2 ^ 31)
    (hschema : ∀ t, schemaWireType f.number = some t → f.payload.wireType = t) (s : Reading)
    (rest : List UInt8) : step s (f.bytes ++ rest) = .ok (s.update f, rest) := by
  obtain ⟨hbytes, htag⟩ := hread.bytes_eq rest
  have hnumber : f.tag.last.toNat / 8 = f.number := by rw [htag]; rfl
  have hwire : f.tag.last.toNat % 8 = f.payload.wireType := by rw [htag]; exact f.wire
  have hsized := f.sized
  have hskip := skipField_bytes hread.noGroup hsmall rest
  have hlen : ∀ n bs, f.payload = .len n bs → n.value = bs.length ∧ bs.length < 2 ^ 31 := by
    intro n bs hp
    rw [hp] at hsized
    simp only [Field.bytes, hp, Payload.bytes, length_append] at hsmall
    exact ⟨hsized, by omega⟩
  rw [hbytes]
  unfold step
  simp only [hnumber, hwire]
  split
  · rename_i h3
    obtain ⟨n, bs, hp⟩ := exists_len_of_wireType (hschema 2 (by rw [h3]; rfl))
    obtain ⟨hn, hbs⟩ := hlen n bs hp
    simp [hp, Payload.wireType, Payload.bytes, Reading.readTaskId, Reading.update, h3,
      readLengthDelimited_bytes hn hbs]
  · rename_i h4
    obtain ⟨n, bs, hp⟩ := exists_len_of_wireType (hschema 2 (by rw [h4]; rfl))
    obtain ⟨hn, hbs⟩ := hlen n bs hp
    simp [hp, Payload.wireType, Payload.bytes, Reading.readChallengeNonce, Reading.update, h4,
      readLengthDelimited_bytes hn hbs]
  · rename_i h5
    obtain ⟨v, hp⟩ := exists_varint_of_wireType (hschema 0 (by rw [h5]; rfl))
    obtain ⟨x, hx, hval⟩ := readVarint_bytes v rest
    have hx' : x = BitVec.ofNat 64 v.value := by rw [← hval, BitVec.ofNat_toNat, BitVec.setWidth_eq]
    simp [hp, Payload.wireType, Payload.bytes, Reading.update, h5, hx, hx']
  · rename_i h6
    exact absurd h6 hread.notExpiresAt
  · rename_i h1
    exact absurd h1 hread.notVersion
  · rename_i h2
    obtain ⟨n, bs, hp⟩ := exists_len_of_wireType (hschema 2 (by rw [h2]; rfl))
    obtain ⟨hn, hbs⟩ := hlen n bs hp
    simp [hp, Payload.wireType, Payload.bytes, Reading.readChallengeNonce, Reading.update, h2,
      readLengthDelimited_bytes hn hbs]
  rename_i h3 h4 h5 _ _ h2
  simp only [hskip]
  congr 2
  unfold Reading.update
  split
  · rw [if_neg h3, if_neg (not_or.2 ⟨h4, h2⟩)]
  · rw [if_neg h5]
  · rfl

/-- The Android reader takes the last of `node_id` and `challenge_nonce` for the nonce. -/
theorem foldl_update (fs : List Field) : ∀ s : Reading, (fs.foldl Reading.update s).taskId =
      fs.foldl (fun last f => match f.payload with
        | .len _ bs => if f.number = 3 then some bs else last
        | _ => last) s.taskId ∧
    (fs.foldl Reading.update s).challengeNonce = fs.foldl (fun last f => match f.payload with
        | .len _ bs => if f.number = 4 ∨ f.number = 2 then some bs else last
        | _ => last) s.challengeNonce := by
  induction fs with
  | nil => intro s; exact ⟨rfl, rfl⟩
  | cons f fs ih =>
    intro s
    obtain ⟨htask, hnonce⟩ := ih (s.update f)
    have hf : (s.update f).taskId = (match f.payload with
        | .len _ bs => if f.number = 3 then some bs else s.taskId
        | _ => s.taskId) ∧
      (s.update f).challengeNonce = (match f.payload with
        | .len _ bs => if f.number = 4 ∨ f.number = 2 then some bs else s.challengeNonce
        | _ => s.challengeNonce) := by
      unfold Reading.update
      cases f.payload with
      | len n bs =>
        by_cases h3 : f.number = 3
        · simp [h3]
        · by_cases h4 : f.number = 4 ∨ f.number = 2 <;> simp [h3, h4]
      | varint v => by_cases h5 : f.number = 5 <;> simp [h5]
      | _ => exact ⟨rfl, rfl⟩
    rw [foldl_cons, htask, hnonce, hf.1, hf.2]
    exact ⟨rfl, rfl⟩

/-- If every `node_id` is followed by a `challenge_nonce`, the last of the two is a nonce. -/
theorem lastNonce_eq (fs : List Field) (hschema : ∀ f ∈ fs, f.number = 4 → f.payload.wireType = 2)
    (hnode : ∀ pre f post, fs = pre ++ f :: post → f.number = 2 → ∃ g ∈ post, g.number = 4) :
    fs.foldl (fun last f => match f.payload with
      | .len _ bs => if f.number = 4 ∨ f.number = 2 then some bs else last
      | _ => last) none = lastLen 4 fs := by
  induction fs using reverseRecOn with
  | nil => rfl
  | append_singleton fs f ih =>
    unfold lastLen at ih ⊢
    rw [foldl_append, foldl_append, foldl_cons, foldl_cons]
    -- the last field is not a `node_id`: nothing follows it
    have h2 : f.number ≠ 2 := by
      intro h2
      obtain ⟨g, hg, _⟩ := hnode fs f [] (by simp) h2
      simp at hg
    by_cases h4 : f.number = 4
    · obtain ⟨n, bs, hp⟩ := exists_len_of_wireType (hschema f (by simp) h4)
      simp [hp, h4]
    have hprev := ih (fun g hg => hschema g (by simp [hg])) ?_
    · rw [hprev]
      cases f.payload <;> simp [h2]
    intro pre g post hfs hg2
    obtain ⟨g', hg', h4'⟩ := hnode pre g (post ++ [f]) (by simp [hfs]) hg2
    rcases mem_append.1 hg' with hg' | hg'
    · exact ⟨g', hg', h4'⟩
    · rw [mem_singleton.1 hg'] at h4'
      exact absurd h4' h4

end Android

/-- Every field is one that the Android reader takes as the schema means it, and a `node_id` (which
    it takes for a nonce) is followed by a `challenge_nonce`. -/
structure Message.AndroidReads (m : Message) : Prop where
  readable : ∀ f ∈ m.fields, Android.Readable f
  nodeId : ∀ pre f post, m.fields = pre ++ f :: post → f.number = 2 → ∃ g ∈ post, g.number = 4

theorem Message.AndroidReads.noGroups (h : m.AndroidReads) : m.NoGroups :=
  fun f hf => (h.readable f hf).noGroup

theorem Android.parse_of_reads (h : m.AndroidReads) :
    ∃ t, Android.parseChallengeToken m.bytes = .ok (some t) ∧
      t.taskId = m.taskId ∧ t.challengeNonce = m.challengeNonce := by
  have htop := topLevel_of_noGroups h.noGroups
  have hschema : ∀ f ∈ m.fields, ∀ t, schemaWireType f.number = some t → f.payload.wireType = t :=
    fun f hf => m.schema f (by rw [htop]; exact hf)
  have hread : readAll Android.step m.bytes.length {} m.bytes =
      .ok (m.fields.foldl Android.Reading.update {}) :=
    readAll_encode m.fields _ _
      (fun f hf s rest => Android.step_bytes (h.readable f hf) (Message.length_field hf)
        (hschema f hf) s rest)
      (length_le_length_encode m.fields)
  obtain ⟨htask, hnonce⟩ := Android.foldl_update m.fields {}
  have htask' := m.taskId_last
  have hnonce' := m.challengeNonce_last
  rw [htop] at htask' hnonce'
  rw [Android.lastNonce_eq m.fields (fun f hf h4 => hschema f hf 2 (by rw [h4]; rfl)) h.nodeId,
    hnonce'] at hnonce
  have htask'' : (m.fields.foldl Android.Reading.update {}).taskId = some m.taskId :=
    htask.trans htask'
  refine ⟨⟨m.taskId, m.challengeNonce, (m.fields.foldl Android.Reading.update {}).expiresAt,
    (m.fields.foldl Android.Reading.update {}).policy⟩, ?_, rfl, rfl⟩
  unfold Android.parseChallengeToken
  rw [hread]
  have hne : ¬ (m.taskId = [] ∨ m.challengeNonce = []) :=
    not_or.2 ⟨m.taskId_ne_nil, m.challengeNonce_ne_nil⟩
  simp only [Android.Reading.finish, htask'', hnonce, if_neg hne]

/-- The three readers agree with the schema on every message that the Android reader takes as the
    schema means it; the other two do so exactly if no field is a group. -/
theorem parseChallengeToken_agree (m : Message) :
    (TypeScript.parseChallengeTokenProtobuf m.bytes =
        some ⟨bytesToHex m.taskId, bytesToHex m.challengeNonce⟩ ↔ m.NoGroups) ∧
    (Ios.parseChallengeTokenProtobuf m.bytes =
        .ok ⟨bytesToHex m.taskId, bytesToHex m.challengeNonce⟩ ↔ m.NoGroups) ∧
    (m.AndroidReads →
      TypeScript.parseChallengeTokenProtobuf m.bytes =
        some ⟨bytesToHex m.taskId, bytesToHex m.challengeNonce⟩ ∧
      Ios.parseChallengeTokenProtobuf m.bytes =
        .ok ⟨bytesToHex m.taskId, bytesToHex m.challengeNonce⟩ ∧
      ∃ t, Android.parseChallengeToken m.bytes = .ok (some t) ∧
        t.taskId = m.taskId ∧ t.challengeNonce = m.challengeNonce) := by
  refine ⟨TypeScript.parse_iff m, Ios.parse_iff m, fun h => ?_⟩
  exact ⟨(TypeScript.parse_iff m).2 h.noGroups, (Ios.parse_iff m).2 h.noGroups,
    Android.parse_of_reads h⟩

/-! ## Two tokens -/

theorem varintValue_byte_lt (b : UInt8) : varintValue ([] ++ [b]) < 2 ^ 64 := by
  simp only [nil_append, varintValue]
  omega

def Varint.byte (b : UInt8) (h : b.toNat < 128) : Varint where
  init := []
  last := b
  continued := List.forall_mem_nil _
  ended := h
  short := Nat.zero_le 9
  fits := varintValue_byte_lt b

/-- `task_id = 0xAA` -/
def taskIdField : Field where
  tag := Varint.byte 0x1A (by decide)
  payload := .len (Varint.byte 1 (by decide)) [0xAA]
  wire := by decide
  sized := rfl
  positive := by decide
  inRange := by decide

/-- `challenge_nonce = 0xBB` -/
def challengeNonceField : Field where
  tag := Varint.byte 0x22 (by decide)
  payload := .len (Varint.byte 1 (by decide)) [0xBB]
  wire := by decide
  sized := rfl
  positive := by decide
  inRange := by decide

/-- `version = 1` -/
def versionField : Field where
  tag := Varint.byte 0x08 (by decide)
  payload := .varint (Varint.byte 1 (by decide))
  wire := by decide
  sized := trivial
  positive := by decide
  inRange := by decide

def plainToken : Message where
  fields := [taskIdField, challengeNonceField]
  groups := by decide
  schema := by
    intro f hf t ht
    rcases List.mem_cons.1 hf with rfl | hf
    · exact Option.some.inj ht
    · rw [List.mem_singleton.1 hf] at ht ⊢
      exact Option.some.inj ht
  small := by decide
  taskId := [0xAA]
  challengeNonce := [0xBB]
  taskId_last := by decide
  challengeNonce_last := by decide
  taskId_ne_nil := by decide
  challengeNonce_ne_nil := by decide

/-- The same token from a node that fills in its version. -/
def versionedToken : Message where
  fields := [versionField, taskIdField, challengeNonceField]
  groups := by decide
  schema := by
    intro f hf t ht
    rcases List.mem_cons.1 hf with rfl | hf
    · exact Option.some.inj ht
    · rcases List.mem_cons.1 hf with rfl | hf
      · exact Option.some.inj ht
      · rw [List.mem_singleton.1 hf] at ht ⊢
        exact Option.some.inj ht
  small := by decide
  taskId := [0xAA]
  challengeNonce := [0xBB]
  taskId_last := by decide
  challengeNonce_last := by decide
  taskId_ne_nil := by decide
  challengeNonce_ne_nil := by decide

theorem plainToken_androidReads : plainToken.AndroidReads where
  readable := by
    intro f hf
    rcases mem_cons.1 hf with rfl | hf
    · exact ⟨rfl, rfl, by decide, by decide⟩
    · rw [mem_singleton.1 hf]
      exact ⟨rfl, rfl, by decide, by decide⟩
  nodeId := by
    intro pre f post hfs h2
    have hf : f ∈ plainToken.fields := by rw [hfs]; simp
    rcases mem_cons.1 hf with rfl | hf
    · exact nomatch h2
    · rw [mem_singleton.1 hf] at h2
      exact nomatch h2

theorem parseChallengeToken_plainToken :
    plainToken.AndroidReads ∧
      ∃ t, Android.parseChallengeToken plainToken.bytes = .ok (some t) ∧
        t.taskId = [0xAA] ∧ t.challengeNonce = [0xBB] :=
  ⟨plainToken_androidReads,
    ((parseChallengeToken_agree plainToken).2.2 plainToken_androidReads).2.2⟩

/-- The Android reader leaves the version's value in the stream, takes it for a tag of wire type 1,
    and skips the rest of the token. -/
theorem parseChallengeToken_versionedToken :
    TypeScript.parseChallengeTokenProtobuf versionedToken.bytes = some ⟨"aa", "bb"⟩ ∧
      Ios.parseChallengeTokenProtobuf versionedToken.bytes = .ok ⟨"aa", "bb"⟩ ∧
      Android.parseChallengeToken versionedToken.bytes = .ok none := by
  refine ⟨?_, ?_, ?_⟩ <;> decide

end Pouw
