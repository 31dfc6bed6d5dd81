import Mathlib.Algebra.Group.Nat.Defs
import Mathlib.Data.List.Basic

/-! # The iOS CBOR codec

`ZhtpCodec.swift`: `encodeCborValue` writes a JSON-compatible value as CBOR, `decodeCborValue`
reads one. The decoder threads `offset` through its calls and stops in one of three ways: it
returns, it throws an `NSError`, or it reaches an operation on which Swift
traps. -/

namespace ZhtpCodec

/-! ## Values -/

/-- What `encodeCborValue` is applied to: `NSNull`, booleans, `Int64`s (a boxed Swift integer does
    not cast to `Bool`, and its `objCType` is `q`), doubles by their bit pattern, strings, arrays
    and dictionaries. A dictionary is the list of its entries in the order of its hash table. -/
inductive Json where
  | null
  | bool (b : Bool)
  | int (n : Int64)
  | double (bits : UInt64)
  | string (s : String)
  | array (items : List Json)
  | dict (entries : List (String × Json))

/-- What `decodeCborValue` returns: unsigned integers come back as `UInt64`, byte strings as
    `[UInt8]`. -/
inductive Decoded where
  | null
  | bool (b : Bool)
  | uint (n : UInt64)
  | int (n : Int64)
  | double (bits : UInt64)
  | bytes (bs : List UInt8)
  | string (s : String)
  | array (items : List Decoded)
  | dict (entries : List (String × Decoded))

/-! ## Encoding -/

def appendCborUInt (value : UInt64) (majorType : UInt8) : List UInt8 :=
  let mt := (majorType &&& 0x07) <<< 5
  if value < 24 then [mt ||| value.toUInt8]
  else if value < 256 then [mt ||| 24, value.toUInt8]
  else if value < 65536 then [mt ||| 25, (value >>> 8).toUInt8, (value &&& 0xFF).toUInt8]
  else if value < 4294967296 then
    [mt ||| 26, (value >>> 24).toUInt8, (value >>> 16).toUInt8, (value >>> 8).toUInt8,
      (value &&& 0xFF).toUInt8]
  else
    [mt ||| 27, (value >>> 56).toUInt8, (value >>> 48).toUInt8, (value >>> 40).toUInt8,
      (value >>> 32).toUInt8, (value >>> 24).toUInt8, (value >>> 16).toUInt8,
      (value >>> 8).toUInt8, (value &&& 0xFF).toUInt8]

def appendCborInteger (value : Int64) : List UInt8 :=
  if 0 ≤ value then appendCborUInt value.toUInt64 0
  else appendCborUInt (-1 - value).toUInt64 1

/-- The bytes of a double in memory are little-endian and are appended in reverse. -/
def appendCborFloat (bits : UInt64) : List UInt8 :=
  [0xfb, (bits >>> 56).toUInt8, (bits >>> 48).toUInt8, (bits >>> 40).toUInt8,
    (bits >>> 32).toUInt8, (bits >>> 24).toUInt8, (bits >>> 16).toUInt8, (bits >>> 8).toUInt8,
    bits.toUInt8]

/-- `string.data(using: .utf8)` -/
def utf8 (s : String) : List UInt8 := s.toByteArray.data.toList

def appendCborString (s : String) : List UInt8 :=
  appendCborUInt (UInt64.ofNat (utf8 s).length) 3 ++ utf8 s

section Strings
-- Swift compares strings by their normal form: `nfc` is Unicode's canonical composition
variable (nfc : String → String)

/-- `a == b` -/
def sameKey (a b : String) : Bool := nfc a == nfc b

/-- `!(b < a)`, by the scalars of the normal forms. -/
def keyLe (a b : String) : Bool := !decide (nfc b < nfc a)

mutual
def encodeCborValue : Json → List UInt8
  | .null => [0xf6]
  | .bool b => [if b then 0xf5 else 0xf4]
  | .int n => appendCborInteger n
  | .double bits => appendCborFloat bits
  | .string s => appendCborString s
  | .array items =>
    appendCborUInt (UInt64.ofNat items.length) 4 ++ appendItems items
  | .dict entries =>
    -- the entries are encoded before they are sorted: `appendEntries_eq` is the source's order
    appendCborUInt (UInt64.ofNat entries.length) 5 ++
      ((encodeEntries entries).mergeSort fun a b => keyLe nfc a.1 b.1).flatMap fun e =>
        appendCborString e.1 ++ e.2

def appendItems : List Json → List UInt8
  | [] => []
  | v :: vs => encodeCborValue v ++ appendItems vs

def encodeEntries : List (String × Json) → List (String × List UInt8)
  | [] => []
  | (k, v) :: es => (k, encodeCborValue v) :: encodeEntries es
end

end Strings

/-! ## Decoding -/

/-- Why a call does not return: an `NSError` with its code and description, a trap, or (in the model only) the
    recursion bound. -/
inductive Stop where
  | thrown (code : Nat) (description : Option String)
  | trap
  | fuel
deriving DecidableEq

abbrev Swift (α : Type) := Except Stop α

/-- `Data`: its `count` is an `Int`. -/
structure Data where
  bytes : List UInt8
  count_lt : bytes.length < 2 ^ 63

def Data.count (data : Data) : Nat := data.bytes.length

/-- `data[i]` -/
def Data.byte (data : Data) (i : Nat) : Swift UInt8 :=
  match data.bytes[i]? with
  | some b => .ok b
  | none => .error .trap

/-- `data.subdata(in: lo..<hi)` -/
def Data.subdata (data : Data) (lo hi : Nat) : Swift (List UInt8) :=
  if lo ≤ hi ∧ hi ≤ data.count then .ok ((data.bytes.drop lo).take (hi - lo)) else .error .trap

/-- `a + b` on `Int`. -/
def addInt (a b : Nat) : Swift Nat :=
  if a + b < 2 ^ 63 then .ok (a + b) else .error .trap

/-- `Int(n)` -/
def toInt (n : UInt64) : Swift Nat :=
  if n.toNat < 2 ^ 63 then .ok n.toNat else .error .trap

/-- `Int64(n)` -/
def toInt64 (n : UInt64) : Swift Int64 :=
  if n.toNat < 2 ^ 63 then .ok n.toInt64 else .error .trap

def throwNSError {α : Type} (code : Nat) (description : Option String) : Swift α :=
  .error (.thrown code description)

/-- `value = (value << 8) | byte` over the bytes. -/
def bigEndian (bytes : List UInt8) : UInt64 :=
  bytes.foldl (fun value b => (value <<< 8) ||| b.toUInt64) 0

def decodeCborUInt (additionalInfo : UInt8) (data : Data) (offset : Nat) : Swift (UInt64 × Nat) :=
  if additionalInfo < 24 then pure (additionalInfo.toUInt64, offset)
  else if additionalInfo = 24 then
    if offset < data.count then do
      let b₀ ← data.byte offset
      let offset ← addInt offset 1
      pure (b₀.toUInt64, offset)
    else throwNSError 5 none
  else if additionalInfo = 25 then do
    let last ← addInt offset 1
    if last < data.count then do
      let b₀ ← data.byte offset
      let b₁ ← data.byte (offset + 1)
      let offset ← addInt offset 2
      pure ((b₀.toUInt64 <<< 8) ||| b₁.toUInt64, offset)
    else throwNSError 5 none
  else if additionalInfo = 26 then do
    let last ← addInt offset 3
    if last < data.count then do
      let b₀ ← data.byte offset
      let b₁ ← data.byte (offset + 1)
      let b₂ ← data.byte (offset + 2)
      let b₃ ← data.byte (offset + 3)
      let offset ← addInt offset 4
      pure ((b₀.toUInt64 <<< 24) ||| (b₁.toUInt64 <<< 16) ||| (b₂.toUInt64 <<< 8) |||
        b₃.toUInt64, offset)
    else throwNSError 5 none
  else if additionalInfo = 27 then do
    let last ← addInt offset 7
    if last < data.count then do
      let b₀ ← data.byte offset
      let b₁ ← data.byte (offset + 1)
      let b₂ ← data.byte (offset + 2)
      let b₃ ← data.byte (offset + 3)
      let b₄ ← data.byte (offset + 4)
      let b₅ ← data.byte (offset + 5)
      let b₆ ← data.byte (offset + 6)
      let b₇ ← data.byte (offset + 7)
      let offset ← addInt offset 8
      pure (bigEndian [b₀, b₁, b₂, b₃, b₄, b₅, b₆, b₇], offset)
    else throwNSError 5 none
  else throwNSError 6 (some "Invalid CBOR uint encoding")

/-- The branch for major types 2 and 3. -/
def decodeCborString (majorType additionalInfo : UInt8) (data : Data) (offset : Nat) :
    Swift (Decoded × Nat) := do
  let (lengthValue, offset) ← decodeCborUInt additionalInfo data offset
  let length ← toInt lengthValue
  let stop ← addInt offset length
  if stop ≤ data.count then do
    let stringData ← data.subdata offset stop
    if majorType = 2 then pure (.bytes stringData, stop)
    else pure (.string ((String.fromUTF8? ⟨stringData.toArray⟩).getD ""), stop)
  else throwNSError 5 (some "CBOR string length out of bounds")

/-- The branch for major type 7. A double whose eight bytes are all zero is read as `0`. -/
def decodeCborSpecial (additionalInfo : UInt8) (data : Data) (offset : Nat) :
    Swift (Decoded × Nat) :=
  if additionalInfo = 20 then pure (.null, offset)
  else if additionalInfo = 21 then pure (.bool false, offset)
  else if additionalInfo = 22 then pure (.bool true, offset)
  else if additionalInfo = 27 then do
    let stop ← addInt offset 8
    if stop ≤ data.count then do
      let doubleData ← data.subdata offset stop
      let bits := if bigEndian doubleData.reverse ≠ 0 then bigEndian doubleData else 0
      pure (.double bits, stop)
    else throwNSError 6 (some "CBOR float length out of bounds")
  else pure (.null, offset)

/-- `for _ in 0..<length { array.append(try decodeCborAt(data, &offset)) }` -/
def decodeItems (decodeAt : Nat → Swift (Decoded × Nat)) :
    Nat → Nat → Swift (List Decoded × Nat)
  | 0, offset => pure ([], offset)
  | n + 1, offset => do
    let (item, offset) ← decodeAt offset
    let (items, offset) ← decodeItems decodeAt n offset
    pure (item :: items, offset)

section Dictionaries
variable (nfc : String → String)

/-- `dict[key] = value` -/
def setEntry (key : String) (value : Decoded) :
    List (String × Decoded) → List (String × Decoded)
  | [] => [(key, value)]
  | (k, v) :: es => if sameKey nfc k key then (k, value) :: es else (k, v) :: setEntry key value es

/-- The loop over the entries of a map; an entry whose key is not a string is dropped. -/
def decodeEntries (decodeAt : Nat → Swift (Decoded × Nat)) :
    Nat → List (String × Decoded) → Nat → Swift (List (String × Decoded) × Nat)
  | 0, dict, offset => pure (dict, offset)
  | n + 1, dict, offset => do
    let (key, offset) ← decodeAt offset
    let (value, offset) ← decodeAt offset
    match key with
    | .string k => decodeEntries decodeAt n (setEntry nfc k value dict) offset
    | _ => decodeEntries decodeAt n dict offset

/-- The recursion is bounded by `fuel`, one for each level of nesting. -/
def decodeCborAt : Nat → Data → Nat → Swift (Decoded × Nat)
  | 0, _, _ => .error .fuel
  | fuel + 1, data, offset =>
    if offset < data.count then do
      let byte ← data.byte offset
      let offset ← addInt offset 1
      let majorType := (byte &&& 0xE0) >>> 5
      let additionalInfo := byte &&& 0x1F
      match majorType.toNat with
      | 0 =>
        let (n, offset) ← decodeCborUInt additionalInfo data offset
        pure (.uint n, offset)
      | 1 =>
        let (uintValue, offset) ← decodeCborUInt additionalInfo data offset
        let n ← toInt64 uintValue
        pure (.int (-1 - n), offset)
      | 2 => decodeCborString majorType additionalInfo data offset
      | 3 => decodeCborString majorType additionalInfo data offset
      | 4 =>
        let (lengthValue, offset) ← decodeCborUInt additionalInfo data offset
        let length ← toInt lengthValue
        let (array, offset) ← decodeItems (decodeCborAt fuel data) length offset
        pure (.array array, offset)
      | 5 =>
        let (lengthValue, offset) ← decodeCborUInt additionalInfo data offset
        let length ← toInt lengthValue
        let (dict, offset) ← decodeEntries nfc (decodeCborAt fuel data) length [] offset
        pure (.dict dict, offset)
      | 7 => decodeCborSpecial additionalInfo data offset
      | _ => throwNSError 4 (some "Unknown CBOR major type")
    else throwNSError 3 (some "Unexpected end of data")

/-- Every level of nesting takes a byte, so one more than the number of bytes bounds them. The
    final offset is returned too. -/
def decodeCborValue (data : Data) : Swift (Decoded × Nat) :=
  decodeCborAt nfc (data.count + 1) data 0

end Dictionaries

end ZhtpCodec
