import Mathlib.Algebra.Group.Int.Defs
import SovereignMobile.Codec.Items

/-! # ZHTP responses on the two platforms

`decode_response_value` of `zhtp_codec.rs` reads a response from a `ciborium::Value`, and
`zhtp_decode_response` of `ZhtpCodec.swift` from bytes. Both look fields up in an untyped map; each
accepts several shapes for a field. Fields that are constant in every response are left out. -/

namespace Responses

open ZhtpCodec List Option

/-- `timestamp` is `none` where the current time stands. -/
structure ZhtpResponseWire where
  requestId : List UInt8
  status : UInt16
  version : String
  statusMessage : String
  contentType : String
  contentLength : Nat
  body : List UInt8
  timestamp : Option Nat
  server : Option String
  validityProof : Option (List UInt8)
  errorMessage : Option String

/-- The status names that both decoders know. -/
def statusNamed (s : String) : UInt16 :=
  if s = "Ok" then 200
  else if s = "Created" then 201
  else if s = "BadRequest" then 400
  else if s = "Unauthorized" then 401
  else if s = "Forbidden" then 403
  else if s = "NotFound" then 404
  else if s = "InternalServerError" then 500
  else 200

/-- What the decoders get from the system libraries: Unicode's canonical composition, strict base64,
    the integers that `NSNumber` makes of a double, Rust's lossy UTF-8, the description of a Swift
    value, and `String(data:encoding:)`. -/
structure Platform where
  nfc : String → String
  base64Encoded : String → Option (List UInt8)
  doubleToUInt64 : UInt64 → UInt64
  doubleToUInt16 : UInt64 → UInt16
  fromUtf8Lossy : List UInt8 → String
  describe : Decoded → String

/-! ## Android -/

namespace Android

/-- `ciborium::Value`; an `Integer` is between `-2^64` and `2^64 - 1`. -/
inductive Value where
  | integer (n : Int)
  | bytes (bs : List UInt8)
  | float (bits : UInt64)
  | text (s : String)
  | bool (b : Bool)
  | null
  | array (items : List Value)
  | map (items : List (Value × Value))
  | tag (tag : UInt64) (value : Value)

mutual
/-- What ciborium makes of an item; it reads `undefined` as `Null`. -/
def ofItem : Item → Value
  | .uint n => .integer n.toNat
  | .negative n => .integer (-1 - n.toNat)
  | .bytes bs => .bytes bs
  | .text s => .text s
  | .array items => .array (ofItems items)
  | .map entries => .map (ofEntries entries)
  | .simpleFalse => .bool false
  | .simpleTrue => .bool true
  | .null => .null
  | .undefined => .null
  | .double bits => .float bits

def ofItems : List Item → List Value
  | [] => []
  | v :: vs => ofItem v :: ofItems vs

def ofEntries : List (Item × Item) → List (Value × Value)
  | [] => []
  | (k, v) :: es => (ofItem k, ofItem v) :: ofEntries es
end

/-- `HashMap<String, Value>` -/
abbrev Dict := String → Option Value

def insert (map : Dict) (kv : Value × Value) : Dict :=
  match kv.1 with
  | .text key => fun name => if key = name then some kv.2 else map name
  | _ => map

def mapToStringKeys (items : List (Value × Value)) : Dict := items.foldl insert fun _ => none

/-- `i64::try_from(n)` -/
def i64 (n : Int) : Option Int := if -2 ^ 63 ≤ n ∧ n < 2 ^ 63 then some n else none

/-- `n as u8` -/
def asU8 (n : Int) : UInt8 := UInt8.ofNat (n % 256).toNat

/-- `n as u16` -/
def asU16 (n : Int) : UInt16 := UInt16.ofNat (n % 65536).toNat

/-- `filter_map` with `Value::Integer(i) => i64::try_from(*i).ok().map(|b| b as u8)` -/
def byteOf : Value → Option UInt8
  | .integer n => (i64 n).map asU8
  | _ => none

def extractRequestId (dict : Dict) : List UInt8 :=
  match dict "request_id" with
  | some (.bytes bytes) => bytes
  | some (.array items) => items.filterMap byteOf
  | _ => []

def extractStatusCode (dict : Dict) : Option UInt16 :=
  match dict "status" with
  | some (.text s) => some (statusNamed s)
  | some (.integer n) => (i64 n).map asU16
  | _ => none

def extractBody (dict : Dict) : List UInt8 :=
  match dict "body" with
  | some (.bytes bytes) => bytes
  | some (.array items) => items.filterMap byteOf
  | some (.text s) => utf8 s
  | _ => []

def extractString (dict : Dict) (key : String) : Option String :=
  match dict key with
  | some (.text s) => some s
  | _ => none

def extractContentType (dict : Dict) : String :=
  match dict "headers" with
  | some (.map items) =>
    let headers := mapToStringKeys items
    match extractString headers "content_type", extractString headers "Content-Type" with
    | some ct, _ => ct
    | none, some ct => ct
    | none, none => "application/json"
  | _ => "application/json"

def extractU64 (dict : Dict) (key : String) : Option Nat :=
  match dict key with
  | some (.integer n) => if 0 ≤ n ∧ n < 2 ^ 64 then some n.toNat else none
  | _ => none

def extractBytes (dict : Dict) (key : String) : Option (List UInt8) :=
  match dict key with
  | some (.bytes bytes) => some bytes
  | some (.array items) => some (items.filterMap byteOf)
  | _ => none

/-- The body of a simplified error. -/
def errorBody (dict : Dict) : List UInt8 :=
  match dict "body" with
  | some (.array items) => items.filterMap byteOf
  | _ => []

def errorContentType (dict : Dict) : String :=
  match dict "headers" with
  | some (.map items) => (extractString (mapToStringKeys items) "Content-Type").getD "text/plain"
  | _ => "text/plain"

/-- `parse_simplified_error`: the status, the body and the content type. -/
def parseSimplifiedError (dict : Dict) : Option (UInt16 × List UInt8 × String) :=
  match dict "statusCode" with
  | some (.integer n) =>
    if 0 ≤ n ∧ n < 65536 then some (asU16 n, errorBody dict, errorContentType dict) else none
  | _ => none

/-- The fields of the nested response, or those of the map itself. -/
def responseFields (dict : Dict) : Dict :=
  match dict "response" with
  | some (.map items) => mapToStringKeys items
  | _ => dict

def decodeResponseValue (P : Platform) : Value → Except String ZhtpResponseWire
  | .map items =>
    let dict := mapToStringKeys items
    match parseSimplifiedError dict with
    | some (status, body, contentType) =>
      .ok
        { requestId := extractRequestId dict
          status := status
          version := "1.0"
          statusMessage := P.fromUtf8Lossy body
          contentType := contentType
          contentLength := body.length
          body := body
          timestamp := none
          server := none
          validityProof := none
          errorMessage := none }
    | none =>
      let responseDict := responseFields dict
      let body := extractBody responseDict
      .ok
        { requestId := extractRequestId dict
          status := (extractStatusCode dict).getD 200
          version := (extractString responseDict "version").getD "1.0"
          statusMessage := (extractString responseDict "status_message").getD ""
          contentType := extractContentType responseDict
          contentLength := body.length
          body := body
          timestamp := extractU64 responseDict "timestamp"
          server := extractString responseDict "server"
          validityProof := extractBytes responseDict "validity_proof"
          errorMessage := none }
  | _ => .error "CBOR decode failed: response is not a map"

end Android

/-! ## iOS -/

namespace Ios

/-- Why the decoder does not return: the CBOR decoder stopped, an `NSError` with code -1, or the
    exception that `JSONSerialization` raises on a number that is not finite. -/
inductive Failure where
  | cbor (stop : Stop)
  | error (description : String)
  | exception

/-- What bridges to `NSNumber`. -/
inductive NSNumber where
  | bool (b : Bool)
  | uint (n : UInt64)
  | int (n : Int64)
  | double (bits : UInt64)

def asNumber : Decoded → Option NSNumber
  | .bool b => some (.bool b)
  | .uint n => some (.uint n)
  | .int n => some (.int n)
  | .double bits => some (.double bits)
  | _ => none

def asString : Decoded → Option String
  | .string s => some s
  | _ => none

/-- `as? [Any]`; the elements of a `[UInt8]` are numbers. -/
def asArray : Decoded → Option (List Decoded)
  | .array items => some items
  | .bytes bs => some (bs.map fun b => .uint b.toUInt64)
  | _ => none

def asDict : Decoded → Option (List (String × Decoded))
  | .dict entries => some entries
  | _ => none

/-- `as? UInt64`, which takes no other integer type -/
def asUInt64 : Decoded → Option Nat
  | .uint n => some n.toNat
  | _ => none

/-- `as? [String: String]` -/
def asStrings (d : Decoded) : Option (List (String × String)) :=
  (asDict d).bind fun entries => entries.mapM fun e => (asString e.2).map fun s => (e.1, s)

variable (P : Platform)

/-- `dict[name]` -/
def get {α : Type} (dict : List (String × α)) (name : String) : Option α :=
  (dict.find? fun e => sameKey P.nfc e.1 name).map fun e => e.2

def uint64Value : NSNumber → UInt64
  | .bool b => if b then 1 else 0
  | .uint n => n
  | .int n => n.toUInt64
  | .double bits => P.doubleToUInt64 bits

def uint16Value : NSNumber → UInt16
  | .bool b => if b then 1 else 0
  | .uint n => n.toUInt16
  | .int n => n.toUInt64.toUInt16
  | .double bits => P.doubleToUInt16 bits

/-- The loop that appends `UInt8(truncatingIfNeeded: num.uint64Value)` for each number. -/
def appendNumbers (items : List Decoded) : List UInt8 :=
  items.filterMap fun d => (asNumber d).map fun n => (uint64Value P n).toUInt8

def decodeRequestId : Option Decoded → Option (List UInt8)
  | none => none
  | some value =>
    match asArray value with
    | some items => some (appendNumbers P items)
    | none => (asString value).bind P.base64Encoded

def isFinite (bits : UInt64) : Bool := (bits >>> 52) &&& 0x7FF ≠ 0x7FF

mutual
/-- `JSONSerialization` takes the value. -/
def jsonValid : Decoded → Bool
  | .double bits => isFinite bits
  | .array items => jsonValidItems items
  | .dict entries => jsonValidEntries entries
  | _ => true

def jsonValidItems : List Decoded → Bool
  | [] => true
  | d :: ds => jsonValid d && jsonValidItems ds

def jsonValidEntries : List (String × Decoded) → Bool
  | [] => true
  | (_, d) :: es => jsonValid d && jsonValidEntries es
end

/-- `switch statusStr` -/
def statusOf (s : String) : UInt16 :=
  if sameKey P.nfc s "Ok" then 200
  else if sameKey P.nfc s "Created" then 201
  else if sameKey P.nfc s "BadRequest" then 400
  else if sameKey P.nfc s "Unauthorized" then 401
  else if sameKey P.nfc s "Forbidden" then 403
  else if sameKey P.nfc s "NotFound" then 404
  else if sameKey P.nfc s "InternalServerError" then 500
  else 200

/-- `String(data: bodyData, encoding: .utf8) ?? ""` -/
def utf8String (bs : List UInt8) : String := (String.fromUTF8? ⟨bs.toArray⟩).getD ""

def errorResponse (dict : List (String × Decoded)) (bodyArray : List Decoded)
    (statusCode : NSNumber) : ZhtpResponseWire :=
  let bodyData := appendNumbers P bodyArray
  let contentType := ((get P dict "headers").bind asStrings).bind fun headers =>
    get P headers "Content-Type"
  { requestId := (decodeRequestId P (get P dict "request_id")).getD []
    status := uint16Value P statusCode
    version := "1.0"
    statusMessage := utf8String bodyData
    contentType := contentType.getD "text/plain"
    contentLength := bodyData.length
    body := bodyData
    timestamp := none
    server := none
    validityProof := none
    errorMessage := some (utf8String bodyData) }

/-- The simplified error form. -/
def simplifiedError (dict : List (String × Decoded)) : Option ZhtpResponseWire :=
  match (get P dict "body").bind asArray, (get P dict "statusCode").bind asNumber with
  | some bodyArray, some statusCode => some (errorResponse P dict bodyArray statusCode)
  | _, _ => none

/-- `dict["status"]`, in the order of the two casts. -/
def extractStatus (dict : List (String × Decoded)) : UInt16 :=
  match get P dict "status" with
  | none => 200
  | some status =>
    match asString status, asNumber status with
    | some s, _ => statusOf P s
    | none, some n => uint16Value P n
    | none, none => 200

def extractBody (responseDict : List (String × Decoded)) : List UInt8 :=
  match get P responseDict "body" with
  | none => []
  | some body =>
    match asArray body, asString body with
    | some items, _ => appendNumbers P items
    | none, some s => utf8 s
    | none, none => []

def regularResponse (dict : List (String × Decoded)) : ZhtpResponseWire :=
  let responseDict := ((get P dict "response").bind asDict).getD dict
  let bodyData := extractBody P responseDict
  let contentType := (((get P responseDict "headers").bind asDict).bind fun headers =>
    get P headers "content_type").bind asString
  { requestId := (decodeRequestId P (get P dict "request_id")).getD []
    status := extractStatus P dict
    version := ((get P responseDict "version").bind asString).getD "1.0"
    statusMessage := ((get P responseDict "status_message").bind asString).getD ""
    contentType := contentType.getD "application/json"
    contentLength := bodyData.length
    body := bodyData
    timestamp := (get P responseDict "timestamp").bind asUInt64
    server := none
    validityProof := none
    errorMessage := none }

/-- A scalar at the top level. -/
def scalarResponse (jsonValue : Decoded) : ZhtpResponseWire :=
  { requestId := []
    status := 500
    version := "1.0"
    statusMessage := "Server returned invalid response format"
    contentType := "application/json"
    contentLength := 0
    body := utf8 ("Server returned scalar value: " ++ P.describe jsonValue)
    timestamp := none
    server := none
    validityProof := none
    errorMessage := some "Invalid CBOR response format" }

/-- Step 1: the ZHTP header, or a length prefix, is taken off. -/
def unwrap (data : Data) : Except Failure Data :=
  if 9 ≤ data.count ∧ data.bytes.take 4 = [0x5A, 0x48, 0x54, 0x50] then
    let length := beNat ((data.bytes.drop 5).take 4)
    if 9 + length ≤ data.count then
      .ok ⟨(data.bytes.drop 9).take length, by
        have := data.count_lt
        rw [List.length_take, List.length_drop]
        omega⟩
    else .error (.error "Truncated ZHTP response")
  else if 4 < data.count ∧ beNat (data.bytes.take 4) = data.count - 4 then
    .ok ⟨data.bytes.drop 4, by
      have := data.count_lt
      rw [List.length_drop]
      omega⟩
  else .ok data

def zhtpDecodeResponse (data : Data) : Except Failure ZhtpResponseWire :=
  match unwrap data with
  | .error e => .error e
  | .ok actualCbor =>
    match decodeCborValue P.nfc actualCbor with
    | .error stop => .error (.cbor stop)
    | .ok (jsonValue, _) =>
      match asDict jsonValue, asArray jsonValue with
      | some dict, _ =>
        if !jsonValid jsonValue then .error .exception
        else
          match simplifiedError P dict with
          | some response => .ok response
          | none => .ok (regularResponse P dict)
      | none, some _ =>
        if !jsonValid jsonValue then .error .exception
        else .error (.error "Response is not a dictionary")
      | none, none => .ok (scalarResponse P jsonValue)

end Ios

/-! ## Fields -/

def isKey (name : String) : Item → Bool
  | .text s => s = name
  | _ => false

/-- The value of the last entry with the key. -/
def field (name : String) (entries : List (Item × Item)) : Option Item :=
  entries.foldl (fun found e => if isKey name e.1 then some e.2 else found) none

/-- The names that the decoders look for or compare with. -/
def names : List String :=
  ["status", "statusCode", "body", "request_id", "response", "Ok", "Created", "BadRequest",
    "Unauthorized", "Forbidden", "NotFound", "InternalServerError"]

/-- No other string has the normal form of one of the names, as is so for Unicode: of the ASCII
    characters only `;`, the grave accent and `K` have canonical equivalents. -/
def PlainNames (P : Platform) : Prop := ∀ name ∈ names, ∀ s, P.nfc s = P.nfc name → s = name

variable {P : Platform} {name : String} {n : UInt64} {v : Item} {entries : List (Item × Item)}
    {data : Data} {body code : Option Item}

theorem sameKey_iff (hP : PlainNames P) (hn : name ∈ names) (s : String) :
    sameKey P.nfc s name = decide (s = name) := by
  unfold sameKey
  by_cases h : s = name
  · simp [h]
  · have hne : P.nfc s ≠ P.nfc name := fun heq => h (hP name hn s heq)
    simp [h, hne]

theorem statusOf_eq (hP : PlainNames P) (s : String) : Ios.statusOf P s = statusNamed s := by
  have h : ∀ name ∈ names, sameKey P.nfc s name = decide (s = name) :=
    fun name hn => sameKey_iff hP hn s
  unfold Ios.statusOf statusNamed
  rw [h "Ok" (by simp [names]), h "Created" (by simp [names]), h "BadRequest" (by simp [names]),
    h "Unauthorized" (by simp [names]), h "Forbidden" (by simp [names]),
    h "NotFound" (by simp [names]), h "InternalServerError" (by simp [names])]
  simp only [decide_eq_true_eq]

theorem ofItems_eq (items : List Item) : Android.ofItems items = items.map Android.ofItem := by
  induction items with
  | nil => rfl
  | cons v vs ih => rw [Android.ofItems, ih, map_cons]

theorem mapToStringKeys_ofEntries (entries : List (Item × Item)) (name : String) :
    Android.mapToStringKeys (Android.ofEntries entries) name =
      (field name entries).map Android.ofItem := by
  have h : ∀ map found, map name = found.map Android.ofItem →
      (Android.ofEntries entries).foldl Android.insert map name =
        (entries.foldl (fun found e => if isKey name e.1 then some e.2 else found) found).map
          Android.ofItem := by
    induction entries with
    | nil => exact fun _ _ h => h
    | cons e es ih =>
      intro map found hmap
      rw [Android.ofEntries, foldl_cons, foldl_cons]
      refine ih _ _ ?_
      obtain ⟨k, v⟩ := e
      cases k with
      | text s => by_cases hs : s = name <;> simp [Android.insert, Android.ofItem, isKey, hs, hmap]
      | _ => exact hmap
  exact h _ _ rfl

theorem get_setEntry (name key : String) (value : Decoded) (dict : List (String × Decoded)) :
    Ios.get P (setEntry P.nfc key value dict) name =
      if sameKey P.nfc key name then some value else Ios.get P dict name := by
  unfold Ios.get
  induction dict with
  | nil => by_cases h : sameKey P.nfc key name <;> simp [setEntry, h]
  | cons e es ih =>
    obtain ⟨k, v⟩ := e
    unfold setEntry
    by_cases hk : sameKey P.nfc k key
    · have hsame : sameKey P.nfc k name = sameKey P.nfc key name := by
        unfold sameKey at hk ⊢
        rw [beq_iff_eq.1 hk]
      rw [if_pos hk]
      by_cases h : sameKey P.nfc key name <;> simp [hsame, h]
    rw [if_neg hk]
    by_cases h : sameKey P.nfc k name
    · have hkey : ¬ sameKey P.nfc key name = true := by
        unfold sameKey at h hk ⊢
        rw [← beq_iff_eq.1 h]
        rwa [Bool.beq_comm] at hk
      simp [h, hkey]
    · simpa [h] using ih

theorem get_decodedEntries (hP : PlainNames P) (entries : List (Item × Item)) (hn : name ∈ names) :
    Ios.get P (decodedEntries P.nfc entries []) name =
      (field name entries).map (Item.decoded P.nfc) := by
  have h : ∀ dict found, Ios.get P dict name = found.map (Item.decoded P.nfc) →
      Ios.get P (decodedEntries P.nfc entries dict) name =
        (entries.foldl (fun found e => if isKey name e.1 then some e.2 else found) found).map
          (Item.decoded P.nfc) := by
    induction entries with
    | nil => exact fun _ _ h => h
    | cons e es ih =>
      intro dict found hdict
      rw [decodedEntries, foldl_cons]
      refine ih _ _ ?_
      obtain ⟨k, v⟩ := e
      cases k with
      | text s =>
        show Ios.get P (setEntry P.nfc s _ dict) name = _
        rw [get_setEntry, sameKey_iff hP hn]
        by_cases hs : s = name <;> simp [isKey, hs, hdict]
      | _ => exact hdict
  exact h _ _ rfl

/-! ## Numbers -/

/-- A number to iOS only: Android takes no integer from `2^63` on for a byte or a status, and iOS takes
    `true` for `false`, `null` for `true` and both for numbers. -/
def foreign : Item → Bool
  | .uint n => 2 ^ 63 ≤ n.toNat
  | .simpleTrue => true
  | .null => true
  | .double _ => true
  | _ => false

theorem asU8_toNat (n : UInt64) : Android.asU8 n.toNat = n.toUInt8 := by
  rw [← UInt8.toNat_inj, Android.asU8, UInt64.toNat_toUInt8, UInt8.toNat_ofNat']
  omega

theorem asU16_toNat (n : UInt64) : Android.asU16 n.toNat = n.toUInt16 := by
  rw [← UInt16.toNat_inj, Android.asU16, UInt64.toNat_toUInt16, UInt16.toNat_ofNat']
  omega

theorem toUInt64_negative (n : UInt64) : (-1 - n.toInt64).toUInt64.toNat = 2 ^ 64 - 1 - n.toNat := by
  have hn := n.toNat_lt
  have heq : (-1 - n.toInt64).toUInt64 = -1 - n := by
    rw [Int64.toUInt64_sub, UInt64.toUInt64_toInt64]
    rfl
  rw [heq, UInt64.toNat_sub]
  simp
  omega

theorem asU8_negative (n : UInt64) :
    Android.asU8 (-1 - n.toNat) = (-1 - n.toInt64).toUInt64.toUInt8 := by
  have hn := n.toNat_lt
  rw [← UInt8.toNat_inj, Android.asU8, UInt64.toNat_toUInt8, UInt8.toNat_ofNat', toUInt64_negative]
  omega

theorem asU16_negative (n : UInt64) :
    Android.asU16 (-1 - n.toNat) = (-1 - n.toInt64).toUInt64.toUInt16 := by
  have hn := n.toNat_lt
  rw [← UInt16.toNat_inj, Android.asU16, UInt64.toNat_toUInt16, UInt16.toNat_ofNat',
    toUInt64_negative]
  omega

theorem i64_toNat (h : n.toNat < 2 ^ 63) : Android.i64 n.toNat = some (n.toNat : Int) := by
  rw [Android.i64, if_pos (by omega)]

theorem i64_foreign (h : 2 ^ 63 ≤ n.toNat) : Android.i64 n.toNat = none := by
  rw [Android.i64, if_neg (by omega)]

theorem i64_negative (h : n.toNat < 2 ^ 63) :
    Android.i64 (-1 - n.toNat) = some (-1 - n.toNat : Int) := by
  rw [Android.i64, if_pos (by omega)]

/-- The byte that Android makes of an item of an array. -/
def androidByte (v : Item) : Option UInt8 := Android.byteOf (Android.ofItem v)

/-- The byte that iOS makes of it. -/
def iosByte (P : Platform) (v : Item) : Option UInt8 :=
  (Ios.asNumber (v.decoded P.nfc)).map fun n => (Ios.uint64Value P n).toUInt8

theorem iosByte_of_not_foreign (hr : v.Readable) (h : foreign v = false) :
    androidByte v = iosByte P v := by
  cases v with
  | uint n =>
    have hn : n.toNat < 2 ^ 63 := by simpa [foreign] using h
    simp [iosByte, androidByte, Item.decoded, Ios.asNumber, Ios.uint64Value, Android.ofItem,
      Android.byteOf, i64_toNat hn, asU8_toNat]
  | negative n =>
    have hn : n.toNat < 2 ^ 63 := hr
    simp [iosByte, androidByte, Item.decoded, Ios.asNumber, Ios.uint64Value, Android.ofItem,
      Android.byteOf, i64_negative hn, asU8_negative]
  | simpleTrue | null | double => simp [foreign] at h
  | _ => rfl

theorem iosByte_of_foreign (h : foreign v = true) :
    androidByte v = none ∧ (iosByte P v).isSome = true := by
  cases v with
  | uint n =>
    simp only [foreign, decide_eq_true_eq] at h
    exact ⟨by simp [androidByte, Android.ofItem, Android.byteOf, i64_foreign h], rfl⟩
  | simpleTrue | null | double => exact ⟨rfl, rfl⟩
  | _ => simp [foreign] at h

section FilterMap
variable {α β : Type} {f g : α → Option β}

variable {l : List α}

theorem length_filterMap_le (h : ∀ x ∈ l, f x = g x ∨ f x = none ∧ (g x).isSome = true) :
    (l.filterMap f).length ≤ (l.filterMap g).length := by
  induction l with
  | nil => exact Nat.le_refl _
  | cons x xs ih =>
    have hrest := ih fun y hy => h y (mem_cons_of_mem _ hy)
    rcases h x mem_cons_self with heq | ⟨hnone, hsome⟩
    · rw [filterMap_cons, filterMap_cons, heq]
      cases g x with
      | none => exact hrest
      | some y => exact Nat.succ_le_succ hrest
    · obtain ⟨y, hy⟩ := isSome_iff_exists.1 hsome
      rw [filterMap_cons_none hnone, filterMap_cons_some hy, length_cons]
      omega

/-- Where `g` finds all that `f` finds, the two find the same exactly if `g` finds nothing else. -/
theorem filterMap_eq_iff (h : ∀ x ∈ l, f x = g x ∨ f x = none ∧ (g x).isSome = true) :
    l.filterMap f = l.filterMap g ↔ ∀ x ∈ l, f x = g x := by
  induction l with
  | nil => simp
  | cons x xs ih =>
    have hxs : ∀ y ∈ xs, f y = g y ∨ f y = none ∧ (g y).isSome = true :=
      fun y hy => h y (mem_cons_of_mem _ hy)
    have hlen := length_filterMap_le hxs
    rw [forall_mem_cons, ← ih hxs]
    rcases h x mem_cons_self with heq | ⟨hnone, hsome⟩
    · rw [filterMap_cons, filterMap_cons, heq]
      cases g x <;> simp
    obtain ⟨y, hy⟩ := isSome_iff_exists.1 hsome
    rw [filterMap_cons_none hnone, filterMap_cons_some hy]
    constructor
    · intro heq
      rw [heq, length_cons] at hlen
      omega
    · rintro ⟨heq, _⟩
      rw [hnone, hy] at heq
      simp at heq

end FilterMap

def androidBytes (items : List Item) : List UInt8 := items.filterMap androidByte

def iosBytes (P : Platform) (items : List Item) : List UInt8 := items.filterMap (iosByte P)

/-- iOS reads more bytes exactly if an item is a number to it alone. -/
theorem androidBytes_eq_iff {items : List Item} (hr : ∀ v ∈ items, v.Readable) :
    androidBytes items = iosBytes P items ↔ ∀ v ∈ items, foreign v = false := by
  have hcases : ∀ v ∈ items, androidByte v = iosByte P v ∨
      androidByte v = none ∧ (iosByte P v).isSome = true := by
    intro v hv
    cases hf : foreign v with
    | false => exact .inl (iosByte_of_not_foreign (hr v hv) hf)
    | true => exact .inr (iosByte_of_foreign hf)
  refine (filterMap_eq_iff hcases).trans (forall₂_congr fun v hv => ?_)
  cases hf : foreign v with
  | false => simp [iosByte_of_not_foreign (P := P) (hr v hv) hf]
  | true =>
    obtain ⟨hnone, hsome⟩ := iosByte_of_foreign (P := P) hf
    obtain ⟨b, hb⟩ := isSome_iff_exists.1 hsome
    simp [hnone, hb]

/-! ## What the decoders make of a field -/

theorem filterMap_ofItems (items : List Item) :
    (Android.ofItems items).filterMap Android.byteOf = androidBytes items := by
  rw [ofItems_eq, filterMap_map]
  rfl

theorem appendNumbers_decodedItems (P : Platform) (items : List Item) :
    Ios.appendNumbers P (decodedItems P.nfc items) = iosBytes P items := by
  rw [decodedItems_eq, Ios.appendNumbers, filterMap_map]
  rfl

theorem appendNumbers_bytes (P : Platform) (bs : List UInt8) :
    Ios.appendNumbers P (bs.map fun b => .uint b.toUInt64) = bs := by
  rw [Ios.appendNumbers, filterMap_map]
  refine (filterMap_congr fun b _ => ?_).trans filterMap_some
  simp [Ios.asNumber, Ios.uint64Value]

def androidRequestId : Option Item → List UInt8
  | some (.bytes bs) => bs
  | some (.array items) => androidBytes items
  | _ => []

def iosRequestId (P : Platform) : Option Item → List UInt8
  | some (.bytes bs) => bs
  | some (.array items) => iosBytes P items
  | some (.text s) => (P.base64Encoded s).getD []
  | _ => []

def androidStatus : Option Item → UInt16
  | some (.text s) => statusNamed s
  | some (.uint n) => if n.toNat < 2 ^ 63 then n.toUInt16 else 200
  | some (.negative n) => (-1 - n.toInt64).toUInt64.toUInt16
  | _ => 200

/-- The status that iOS makes of a number. -/
def numberStatus (P : Platform) (v : Item) : Option UInt16 :=
  (Ios.asNumber (v.decoded P.nfc)).map (Ios.uint16Value P)

def iosStatus (P : Platform) : Option Item → UInt16
  | some (.text s) => statusNamed s
  | some v => (numberStatus P v).getD 200
  | none => 200

def androidBody : Option Item → List UInt8
  | some (.bytes bs) => bs
  | some (.array items) => androidBytes items
  | some (.text s) => utf8 s
  | _ => []

def iosBody (P : Platform) : Option Item → List UInt8
  | some (.bytes bs) => bs
  | some (.array items) => iosBytes P items
  | some (.text s) => utf8 s
  | _ => []

/-- The body of a simplified error on Android, which passes over byte strings. -/
def androidErrorBody : Option Item → List UInt8
  | some (.array items) => androidBytes items
  | _ => []

/-- The status of a simplified error on Android. -/
def androidErrorStatus : Option Item → Option UInt16
  | some (.uint n) => if n.toNat < 65536 then some n.toUInt16 else none
  | _ => none

/-- The status of a simplified error on iOS, which asks for a body too. -/
def iosErrorStatus (P : Platform) (body statusCode : Option Item) : Option UInt16 :=
  match body with
  | some (.array _) => statusCode.bind (numberStatus P)
  | some (.bytes _) => statusCode.bind (numberStatus P)
  | _ => none

/-- The entries of the nested response, or those of the map itself. -/
def responseEntries (entries : List (Item × Item)) : List (Item × Item) :=
  match field "response" entries with
  | some (.map nested) => nested
  | _ => entries

section Android
variable (entries : List (Item × Item))

theorem extractRequestId_eq :
    Android.extractRequestId (Android.mapToStringKeys (Android.ofEntries entries)) =
      androidRequestId (field "request_id" entries) := by
  rw [Android.extractRequestId, mapToStringKeys_ofEntries]
  cases field "request_id" entries with
  | none => rfl
  | some v =>
    cases v with
    | array items => exact filterMap_ofItems items
    | _ => rfl

theorem extractBody_eq : Android.extractBody (Android.mapToStringKeys (Android.ofEntries entries)) =
      androidBody (field "body" entries) := by
  rw [Android.extractBody, mapToStringKeys_ofEntries]
  cases field "body" entries with
  | none => rfl
  | some v =>
    cases v with
    | array items => exact filterMap_ofItems items
    | _ => rfl

theorem extractStatusCode_eq (hr : ∀ v, field "status" entries = some v → v.Readable) :
    (Android.extractStatusCode (Android.mapToStringKeys (Android.ofEntries entries))).getD 200 =
      androidStatus (field "status" entries) := by
  rw [Android.extractStatusCode, mapToStringKeys_ofEntries]
  cases hf : field "status" entries with
  | none => rfl
  | some v =>
    cases v with
    | uint n =>
      by_cases hn : n.toNat < 2 ^ 63
      · simp only [map_some, Android.ofItem, i64_toNat hn, asU16_toNat, androidStatus,
          if_pos hn, getD_some]
      · simp only [map_some, Android.ofItem, i64_foreign (Nat.le_of_not_lt hn),
          map_none, androidStatus, if_neg hn, getD_none]
    | negative n =>
      have hn : n.toNat < 2 ^ 63 := hr _ hf
      simp only [map_some, Android.ofItem, i64_negative hn, asU16_negative, androidStatus,
        getD_some]
    | _ => rfl

theorem errorBody_eq : Android.errorBody (Android.mapToStringKeys (Android.ofEntries entries)) =
      androidErrorBody (field "body" entries) := by
  rw [Android.errorBody, mapToStringKeys_ofEntries]
  cases field "body" entries with
  | none => rfl
  | some v =>
    cases v with
    | array items => exact filterMap_ofItems items
    | _ => rfl

theorem responseFields_eq :
    Android.responseFields (Android.mapToStringKeys (Android.ofEntries entries)) =
      Android.mapToStringKeys (Android.ofEntries (responseEntries entries)) := by
  rw [Android.responseFields, mapToStringKeys_ofEntries, responseEntries]
  cases field "response" entries with
  | none => rfl
  | some v => cases v <;> rfl

/-- The form that Android takes, by the status code. -/
theorem parseSimplifiedError_eq :
    Android.parseSimplifiedError (Android.mapToStringKeys (Android.ofEntries entries)) =
      (androidErrorStatus (field "statusCode" entries)).map fun n =>
        (n, androidErrorBody (field "body" entries),
          Android.errorContentType (Android.mapToStringKeys (Android.ofEntries entries))) := by
  rw [Android.parseSimplifiedError, mapToStringKeys_ofEntries, errorBody_eq]
  cases field "statusCode" entries with
  | none => rfl
  | some v =>
    cases v with
    | uint n =>
      simp only [map_some, Android.ofItem, androidErrorStatus, asU16_toNat]
      by_cases hn : n.toNat < 65536
      · rw [if_pos (by omega), if_pos hn]
        rfl
      · rw [if_neg (by omega), if_neg hn]
        rfl
    | negative n =>
      simp only [map_some, Android.ofItem, androidErrorStatus]
      rw [if_neg (by omega)]
      rfl
    | _ => rfl

/-- The status and the body of an Android response. -/
def androidReading : UInt16 × List UInt8 :=
  match androidErrorStatus (field "statusCode" entries) with
  | some n => (n, androidErrorBody (field "body" entries))
  | none =>
    (androidStatus (field "status" entries), androidBody (field "body" (responseEntries entries)))

theorem decodeResponseValue_eq (P : Platform)
    (hr : ∀ v, field "status" entries = some v → v.Readable) :
    ∃ a, Android.decodeResponseValue P (Android.ofItem (.map entries)) = .ok a ∧
      a.requestId = androidRequestId (field "request_id" entries) ∧
      (a.status, a.body) = androidReading entries := by
  rw [Android.ofItem, Android.decodeResponseValue, androidReading]
  dsimp only
  rw [parseSimplifiedError_eq, responseFields_eq, extractBody_eq, extractRequestId_eq]
  cases androidErrorStatus (field "statusCode" entries) with
  | some n => exact ⟨_, rfl, rfl, rfl⟩
  | none => exact ⟨_, rfl, rfl, by rw [extractStatusCode_eq entries hr]⟩

end Android

/-! ## What iOS returns -/

section Ios
variable {P : Platform}

theorem decodeRequestId_eq (v : Option Item) :
    (Ios.decodeRequestId P (v.map (Item.decoded P.nfc))).getD [] = iosRequestId P v := by
  cases v with
  | none => rfl
  | some v =>
    cases v with
    | array items => exact appendNumbers_decodedItems P items
    | bytes bs => exact appendNumbers_bytes P bs
    | text s => rfl
    | _ => rfl

variable (hP : PlainNames P) (entries : List (Item × Item))
include hP

theorem get_names {name : String} (hn : name ∈ names) :
    Ios.get P (decodedEntries P.nfc entries []) name =
      (field name entries).map (Item.decoded P.nfc) :=
  get_decodedEntries hP entries hn

theorem extractStatus_eq :
    Ios.extractStatus P (decodedEntries P.nfc entries []) = iosStatus P (field "status" entries) := by
  rw [Ios.extractStatus, get_names hP entries (by simp [names])]
  cases field "status" entries with
  | none => rfl
  | some v =>
    cases v with
    | text s => exact statusOf_eq hP s
    | _ => rfl

theorem iosExtractBody_eq :
    Ios.extractBody P (decodedEntries P.nfc entries []) = iosBody P (field "body" entries) := by
  rw [Ios.extractBody, get_names hP entries (by simp [names])]
  cases field "body" entries with
  | none => rfl
  | some v =>
    cases v with
    | array items => exact appendNumbers_decodedItems P items
    | bytes bs => exact appendNumbers_bytes P bs
    | _ => rfl

theorem responseDict_eq :
    ((Ios.get P (decodedEntries P.nfc entries []) "response").bind Ios.asDict).getD
        (decodedEntries P.nfc entries []) =
      decodedEntries P.nfc (responseEntries entries) [] := by
  rw [get_names hP entries (by simp [names]), responseEntries]
  cases field "response" entries with
  | none => rfl
  | some v => cases v <;> rfl

/-- The form that iOS takes, by the body and the status code. -/
theorem simplifiedError_eq :
    (iosErrorStatus P (field "body" entries) (field "statusCode" entries) = none ∧
      Ios.simplifiedError P (decodedEntries P.nfc entries []) = none) ∨
    ∃ n r, iosErrorStatus P (field "body" entries) (field "statusCode" entries) = some n ∧
      Ios.simplifiedError P (decodedEntries P.nfc entries []) = some r ∧
      r.requestId = iosRequestId P (field "request_id" entries) ∧ r.status = n ∧
      r.body = iosBody P (field "body" entries) := by
  have hid : ∀ items code,
      (Ios.errorResponse P (decodedEntries P.nfc entries []) items code).requestId =
        iosRequestId P (field "request_id" entries) := by
    intro items code
    rw [← decodeRequestId_eq, ← get_names hP entries (by simp [names])]
    rfl
  unfold Ios.simplifiedError
  rw [get_names hP entries (by simp [names]), get_names hP entries (by simp [names])]
  cases hb : field "body" entries with
  | none => exact .inl ⟨rfl, rfl⟩
  | some body =>
    cases hc : field "statusCode" entries with
    | none => cases body <;> exact .inl ⟨rfl, rfl⟩
    | some v =>
      cases hn : Ios.asNumber (v.decoded P.nfc) with
      | none =>
        left
        cases body <;> simp [iosErrorStatus, numberStatus, hn]
      | some n =>
        have hstatus : numberStatus P v = some (Ios.uint16Value P n) := by
          rw [numberStatus, hn]
          rfl
        cases body with
        | array items =>
          refine .inr ⟨_, _, hstatus, ?_, hid (decodedItems P.nfc items) n, rfl, ?_⟩
          · simp [hn, Item.decoded, Ios.asArray]
          · exact appendNumbers_decodedItems P items
        | bytes bs =>
          refine .inr ⟨_, _, hstatus, ?_, hid (bs.map fun b => .uint b.toUInt64) n, rfl, ?_⟩
          · simp [hn, Item.decoded, Ios.asArray]
          · exact appendNumbers_bytes P bs
        | _ => exact .inl ⟨rfl, rfl⟩

/-- The status and the body of an iOS response. -/
def iosReading (P : Platform) (entries : List (Item × Item)) : UInt16 × List UInt8 :=
  match iosErrorStatus P (field "body" entries) (field "statusCode" entries) with
  | some n => (n, iosBody P (field "body" entries))
  | none =>
    (iosStatus P (field "status" entries), iosBody P (field "body" (responseEntries entries)))

/-- No double of the dictionary is infinite or not a number. -/
def FiniteDoubles (P : Platform) (entries : List (Item × Item)) : Prop :=
  Ios.jsonValid (.dict (decodedEntries P.nfc entries [])) = true

theorem regularResponse_eq : (Ios.regularResponse P (decodedEntries P.nfc entries [])).requestId =
        iosRequestId P (field "request_id" entries) ∧
      (Ios.regularResponse P (decodedEntries P.nfc entries [])).status =
        iosStatus P (field "status" entries) ∧
      (Ios.regularResponse P (decodedEntries P.nfc entries [])).body =
        iosBody P (field "body" (responseEntries entries)) := by
  rw [Ios.regularResponse]
  rw [responseDict_eq hP, iosExtractBody_eq hP, extractStatus_eq hP,
    get_names hP entries (by simp [names]), decodeRequestId_eq]
  exact ⟨rfl, rfl, rfl⟩

omit hP in
/-- iOS reads a map as a dictionary. -/
theorem decodeCborValue_map {cbor : Data} {entries : List (Item × Item)} {bs : List UInt8}
    (hbs : Encodes (.map entries) bs) (hr : (Item.map entries).Readable) (hholds : cbor.Holds 0 bs) :
    decodeCborValue P.nfc cbor = .ok (.dict (decodedEntries P.nfc entries []), 0 + bs.length) := by
  have hlen := hholds.length_le
  exact reads_item (.map entries) hr hbs cbor (cbor.count + 1) 0 hholds (by omega)

theorem zhtpDecodeResponse_eq {data cbor : Data} (hdata : Ios.unwrap data = .ok cbor)
    {bs : List UInt8} (hbs : Encodes (.map entries) bs) (hr : (Item.map entries).Readable)
    (hholds : cbor.Holds 0 bs) :
    (FiniteDoubles P entries ∧ ∃ r, Ios.zhtpDecodeResponse P data = .ok r ∧
      r.requestId = iosRequestId P (field "request_id" entries) ∧
      (r.status, r.body) = iosReading P entries) ∨
    (¬ FiniteDoubles P entries ∧ Ios.zhtpDecodeResponse P data = .error .exception) := by
  have hread := decodeCborValue_map (P := P) hbs hr hholds
  unfold Ios.zhtpDecodeResponse
  rw [hdata]
  simp only [hread, Ios.asDict]
  by_cases hfinite : FiniteDoubles P entries
  · have hvalid : Ios.jsonValid (.dict (decodedEntries P.nfc entries [])) = true := hfinite
    refine .inl ⟨hfinite, ?_⟩
    rw [hvalid]
    unfold iosReading
    rcases simplifiedError_eq hP entries with ⟨hnone, hs⟩ | ⟨n, r, hsome, hs, hid, hstatus, hbody⟩
    · obtain ⟨hid, hstatus, hbody⟩ := regularResponse_eq hP entries
      exact ⟨_, by rw [hs]; rfl, hid, by rw [hnone, hstatus, hbody]⟩
    · exact ⟨r, by rw [hs]; rfl, hid, by rw [hsome, hstatus, hbody]⟩
  · have hvalid : Ios.jsonValid (.dict (decodedEntries P.nfc entries [])) = false :=
      Bool.eq_false_iff.2 hfinite
    exact .inr ⟨hfinite, by rw [hvalid]; rfl⟩

end Ios

/-! ## Agreement -/

/-- Both decoders fail, or both return the same status, body and request id. -/
def Agree : Except String ZhtpResponseWire → Except Ios.Failure ZhtpResponseWire → Prop
  | .ok a, .ok i => a.status = i.status ∧ a.body = i.body ∧ a.requestId = i.requestId
  | .error _, .error _ => True
  | _, _ => False

theorem field_mem (h : field name entries = some v) : ∃ e ∈ entries, e.2 = v := by
  have hfold : ∀ found, (∀ w, found = some w → ∃ e ∈ entries, e.2 = w) →
      ∀ (es : List (Item × Item)), (∀ e ∈ es, e ∈ entries) →
        ∀ w, es.foldl (fun found e => if isKey name e.1 then some e.2 else found) found = some w →
          ∃ e ∈ entries, e.2 = w := by
    intro found hfound es
    induction es generalizing found with
    | nil => exact fun _ => hfound
    | cons e es ih =>
      intro hes
      rw [forall_mem_cons] at hes
      refine ih _ ?_ hes.2
      intro w hw
      dsimp only at hw
      split at hw
      · exact ⟨e, hes.1, some.inj hw⟩
      · exact hfound w hw
  exact hfold none (by simp) entries (fun _ he => he) v h

theorem readable_field (hr : ReadableEntries entries) (h : field name entries = some v) :
    v.Readable := by
  obtain ⟨e, he, rfl⟩ := field_mem h
  exact ((readableEntries_iff entries).1 hr e he).2

theorem readable_responseEntries (hr : ReadableEntries entries) :
    ReadableEntries (responseEntries entries) := by
  unfold responseEntries
  split
  · rename_i nested h
    exact readable_field hr h
  · exact hr

/-- The decoders agree exactly if they read the same out of the fields. -/
theorem agree_iff_readings (hP : PlainNames P) {bs : List UInt8} (hbs : Encodes (.map entries) bs)
    (hr : (Item.map entries).Readable) {cbor : Data} (hdata : Ios.unwrap data = .ok cbor)
    (hholds : cbor.Holds 0 bs) :
    Agree (Android.decodeResponseValue P (Android.ofItem (.map entries)))
        (Ios.zhtpDecodeResponse P data) ↔
      FiniteDoubles P entries ∧
      androidRequestId (field "request_id" entries) = iosRequestId P (field "request_id" entries) ∧
      androidReading entries = iosReading P entries := by
  obtain ⟨a, ha, haid, hareading⟩ := decodeResponseValue_eq entries P fun v => readable_field hr
  rw [ha]
  rcases zhtpDecodeResponse_eq hP entries hdata hbs hr hholds with
    ⟨hfinite, i, hi, hiid, hireading⟩ | ⟨hfinite, hi⟩
  · rw [hi, ← haid, ← hiid, ← hareading, ← hireading, Prod.mk.injEq]
    exact ⟨fun h => ⟨hfinite, h.2.2, h.1, h.2.1⟩, fun h => ⟨h.2.2.1, h.2.2.2, h.2.1⟩⟩
  · rw [hi]
    exact ⟨fun h => absurd h (by simp [Agree]), fun h => absurd h.1 hfinite⟩

/-- A body, or any field of bytes, in which no element is a number to iOS alone. -/
def bytesAlike : Option Item → Prop
  | some (.array items) => ∀ v ∈ items, foreign v = false
  | _ => True

/-- A request id that is not a text which iOS can read as base64, and that has no element which is a
    number to iOS alone. -/
def requestIdAlike (P : Platform) : Option Item → Prop
  | some (.array items) => ∀ v ∈ items, foreign v = false
  | some (.text s) => (P.base64Encoded s).getD [] = []
  | _ => True

/-- A status that is not a number to iOS alone, unless that number is the default of 200. -/
def statusAlike (P : Platform) : Option Item → Prop
  | some (.uint n) => n.toNat < 2 ^ 63 ∨ n.toUInt16 = 200
  | some .simpleTrue => False
  | some .null => False
  | some (.double bits) => P.doubleToUInt16 bits = 200
  | _ => True

/-- The body of a simplified error that is not a byte string, unless it is empty. -/
def errorBodyAlike : Option Item → Prop
  | some (.array items) => ∀ v ∈ items, foreign v = false
  | some (.bytes bs) => bs = []
  | _ => True

section Alike
variable {P : Platform} {v : Option Item} (hr : ∀ w, v = some w → w.Readable)
include hr

theorem bytes_eq_iff {items : List Item} (hv : v = some (.array items)) :
    androidBytes items = iosBytes P items ↔ ∀ w ∈ items, foreign w = false :=
  androidBytes_eq_iff ((readableItems_iff items).1 (hr _ hv))

theorem requestId_eq_iff : androidRequestId v = iosRequestId P v ↔ requestIdAlike P v := by
  cases hv : v with
  | none => simp [androidRequestId, iosRequestId, requestIdAlike]
  | some w =>
    cases w with
    | array items => exact bytes_eq_iff hr hv
    | text s => exact eq_comm
    | _ => simp [androidRequestId, iosRequestId, requestIdAlike]

theorem body_eq_iff : androidBody v = iosBody P v ↔ bytesAlike v := by
  cases hv : v with
  | none => simp [androidBody, iosBody, bytesAlike]
  | some w =>
    cases w with
    | array items => exact bytes_eq_iff hr hv
    | _ => simp [androidBody, iosBody, bytesAlike]

theorem errorBody_eq_iff (hform : ∃ code n, iosErrorStatus P v code = some n) :
    androidErrorBody v = iosBody P v ↔ errorBodyAlike v := by
  obtain ⟨code, n, hform⟩ := hform
  cases hv : v with
  | none => simp [androidErrorBody, iosBody, errorBodyAlike]
  | some w =>
    rw [hv] at hform
    cases w with
    | array items => exact bytes_eq_iff hr hv
    | bytes bs => exact eq_comm
    | text s => simp [iosErrorStatus] at hform
    | _ => simp [androidErrorBody, iosBody, errorBodyAlike]

omit hr in
theorem status_eq_iff : androidStatus v = iosStatus P v ↔ statusAlike P v := by
  cases v with
  | none => simp [androidStatus, iosStatus, statusAlike]
  | some w =>
    cases w with
    | uint n =>
      have hios : iosStatus P (some (.uint n)) = n.toUInt16 := rfl
      rw [hios, androidStatus, statusAlike]
      by_cases hn : n.toNat < 2 ^ 63
      · rw [if_pos hn]
        exact iff_of_true rfl (.inl hn)
      · rw [if_neg hn, or_iff_right hn]
        exact eq_comm
    | double bits => exact eq_comm
    | simpleTrue =>
      have hne : (200 : UInt16) ≠ 0 := by decide
      exact iff_of_false hne id
    | null =>
      have hne : (200 : UInt16) ≠ 1 := by decide
      exact iff_of_false hne id
    | _ => exact iff_of_true rfl trivial

end Alike

/-- The status codes that both take for a simplified error are the same. -/
theorem errorStatus_eq {m n : UInt16} (ha : androidErrorStatus code = some m)
    (hi : iosErrorStatus P body code = some n) : m = n := by
  cases code with
  | none => simp [androidErrorStatus] at ha
  | some w =>
    cases w with
    | uint k =>
      have hnumber : numberStatus P (.uint k) = some n := by
        cases body with
        | none => simp [iosErrorStatus] at hi
        | some b => cases b <;> first | exact hi | simp [iosErrorStatus] at hi
      rw [androidErrorStatus] at ha
      by_cases hk : k.toNat < 65536
      · rw [if_pos hk] at ha
        exact (some.inj ha).symm.trans (some.inj hnumber)
      · rw [if_neg hk] at ha
        simp at ha
    | _ => simp [androidErrorStatus] at ha

/-- What a map has to be for the decoders to agree about its status and body, by the forms that they
    take it for. -/
def ReadAlike (P : Platform) (entries : List (Item × Item)) : Prop :=
  match androidErrorStatus (field "statusCode" entries),
    iosErrorStatus P (field "body" entries) (field "statusCode" entries) with
  | some _, some _ => errorBodyAlike (field "body" entries)
  | none, none =>
    statusAlike P (field "status" entries) ∧ bytesAlike (field "body" (responseEntries entries))
  | some n, none =>
    -- an error to Android only, which reads no body then
    iosStatus P (field "status" entries) = n ∧
      iosBody P (field "body" (responseEntries entries)) = []
  | none, some n =>
    androidStatus (field "status" entries) = n ∧
      androidBody (field "body" (responseEntries entries)) = iosBody P (field "body" entries)

theorem androidErrorBody_of_ios_regular {n : UInt16} (ha : androidErrorStatus code = some n)
    (hi : iosErrorStatus P body code = none) :
    androidErrorBody body = [] := by
  cases body with
  | none => rfl
  | some b =>
    cases b with
    | array items =>
      cases code with
      | none => simp [androidErrorStatus] at ha
      | some w =>
        cases w with
        | uint k => simp [iosErrorStatus, numberStatus, Item.decoded, Ios.asNumber] at hi
        | _ => simp [androidErrorStatus] at ha
    | _ => rfl

theorem reading_eq_iff (hr : ReadableEntries entries) :
    androidReading entries = iosReading P entries ↔ ReadAlike P entries := by
  have hbody : ∀ v, field "body" entries = some v → v.Readable := fun _ => readable_field hr
  have hnested : ∀ v, field "body" (responseEntries entries) = some v → v.Readable :=
    fun _ => readable_field (readable_responseEntries hr)
  unfold androidReading iosReading ReadAlike
  cases ha : androidErrorStatus (field "statusCode" entries) with
  | some m =>
    cases hi : iosErrorStatus P (field "body" entries) (field "statusCode" entries) with
    | some n =>
      simp only [Prod.mk.injEq, errorStatus_eq ha hi, true_and]
      exact errorBody_eq_iff hbody ⟨_, _, hi⟩
    | none =>
      simp only [Prod.mk.injEq, androidErrorBody_of_ios_regular ha hi]
      exact and_congr eq_comm eq_comm
  | none =>
    cases hi : iosErrorStatus P (field "body" entries) (field "statusCode" entries) with
    | some n => exact Prod.mk.injEq _ _ _ _ ▸ .rfl
    | none =>
      simp only [Prod.mk.injEq]
      exact and_congr status_eq_iff (body_eq_iff hnested)

/-- **The two decoders.** They agree about a map exactly if no double of it is infinite or not a
    number, they read its request id alike, and they read its status and body alike. -/
theorem responsesAgree_iff {P : Platform} (hP : PlainNames P) {entries : List (Item × Item)}
    {bs : List UInt8} (hbs : Encodes (.map entries) bs) (hr : (Item.map entries).Readable)
    {data cbor : Data} (hdata : Ios.unwrap data = .ok cbor) (hholds : cbor.Holds 0 bs) :
    Agree (Android.decodeResponseValue P (Android.ofItem (.map entries)))
        (Ios.zhtpDecodeResponse P data) ↔
      FiniteDoubles P entries ∧ requestIdAlike P (field "request_id" entries) ∧
        ReadAlike P entries := by
  have hid : ∀ v, field "request_id" entries = some v → v.Readable := fun _ => readable_field hr
  rw [agree_iff_readings hP hbs hr hdata hholds, requestId_eq_iff hid, reading_eq_iff hr]

/-- Data that starts neither with the magic of a header nor with its own length is taken as it is. -/
theorem unwrap_eq_self (hmagic : data.bytes.take 4 ≠ [0x5A, 0x48, 0x54, 0x50])
    (hlength : beNat (data.bytes.take 4) ≠ data.count - 4) : Ios.unwrap data = .ok data := by
  rw [Ios.unwrap, if_neg fun h => hmagic h.2, if_neg fun h => hlength h.2]

/-- On ASCII text, where the normal form is the text itself. -/
def asciiPlatform : Platform where
  nfc := id
  base64Encoded _ := none
  doubleToUInt64 _ := 0
  doubleToUInt16 _ := 0
  fromUtf8Lossy := Ios.utf8String
  describe _ := ""

theorem plainNames_asciiPlatform : PlainNames asciiPlatform := fun _ _ _ h => h

def namedStatus : List (Item × Item) := [(.text "status", .text "NotFound")]

def namedStatusBytes : List UInt8 := 0xa1 :: ((0x66 :: utf8 "status") ++ (0x68 :: utf8 "NotFound"))

def namedStatusData : Data := ⟨namedStatusBytes, by decide⟩

theorem encodes_namedStatus : Encodes (.map namedStatus) namedStatusBytes := by
  refine ⟨[0xa1], 1, (0x66 :: utf8 "status") ++ ((0x68 :: utf8 "NotFound") ++ []), by decide,
    ⟨0xa1, [], 1, rfl, by decide, by decide, by decide⟩, by decide, ?_⟩
  refine ⟨_, _, _, rfl, ⟨[0x66], 6, rfl, ⟨0x66, [], 6, rfl, by decide, by decide, by decide⟩,
    by decide⟩, ⟨[0x68], 8, rfl, ⟨0x68, [], 8, rfl, by decide, by decide, by decide⟩,
    by decide⟩, rfl⟩

theorem agree_namedStatus :
    Agree (Android.decodeResponseValue asciiPlatform (Android.ofItem (.map namedStatus)))
      (Ios.zhtpDecodeResponse asciiPlatform namedStatusData) := by
  have hunwrap : Ios.unwrap namedStatusData = .ok namedStatusData :=
    unwrap_eq_self (by decide) (by decide)
  refine (responsesAgree_iff plainNames_asciiPlatform encodes_namedStatus ⟨trivial, trivial, trivial⟩
    hunwrap (prefix_refl _)).2 ⟨?_, ?_, ?_⟩
  · rw [FiniteDoubles]
    decide
  · show requestIdAlike asciiPlatform none
    trivial
  · exact ⟨trivial, trivial⟩

/-- A simplified error whose body is a byte string, which Android drops. -/
def errorWithBytes : List (Item × Item) :=
  [(.text "statusCode", .uint 404), (.text "body", .bytes [0x4e, 0x6f])]

def errorBytes : List UInt8 :=
  0xa2 :: (((0x6a :: utf8 "statusCode") ++ [0x19, 0x01, 0x94]) ++
    ((0x64 :: utf8 "body") ++ [0x42, 0x4e, 0x6f]))

def errorData : Data := ⟨errorBytes, by decide⟩

theorem encodes_errorWithBytes : Encodes (.map errorWithBytes) errorBytes := by
  refine ⟨[0xa2], 2, _, rfl, ⟨0xa2, [], 2, rfl, by decide, by decide, by decide⟩, by decide, ?_⟩
  refine ⟨0x6a :: utf8 "statusCode", [0x19, 0x01, 0x94],
    (0x64 :: utf8 "body") ++ ([0x42, 0x4e, 0x6f] ++ []), by decide,
    ⟨[0x6a], 10, rfl, ⟨0x6a, [], 10, rfl, by decide, by decide, by decide⟩, by decide⟩,
    ⟨0x19, [0x01, 0x94], 25, rfl, by decide, by decide, by decide⟩, ?_⟩
  refine ⟨0x64 :: utf8 "body", [0x42, 0x4e, 0x6f], [], rfl,
    ⟨[0x64], 4, rfl, ⟨0x64, [], 4, rfl, by decide, by decide, by decide⟩, by decide⟩,
    ⟨[0x42], 2, rfl, ⟨0x42, [], 2, rfl, by decide, by decide, by decide⟩, by decide⟩, rfl⟩

theorem not_agree_errorWithBytes :
    ¬ Agree (Android.decodeResponseValue asciiPlatform (Android.ofItem (.map errorWithBytes)))
      (Ios.zhtpDecodeResponse asciiPlatform errorData) := by
  have hunwrap : Ios.unwrap errorData = .ok errorData :=
    unwrap_eq_self (by decide) (by decide)
  rw [agree_iff_readings plainNames_asciiPlatform encodes_errorWithBytes
    ⟨trivial, trivial, trivial, trivial, trivial⟩ hunwrap (prefix_refl _)]
  rintro ⟨_, _, hreading⟩
  exact absurd hreading (by decide)
end Responses
