import SovereignMobile.Codec.Responses

/-! # Which responses read as a success

The status of a response is looked for in `status` and `statusCode`, as a name or as a number. Both
decoders take 200 where they find nothing that they know, and cut numbers down to 16 bits. -/

namespace Responses

open ZhtpCodec List Option
open Android (decodeResponseValue mapToStringKeys)

/-- What callers take for a success. -/
def IsSuccess (status : UInt16) : Prop := 200 ≤ status.toNat ∧ status.toNat ≤ 299

instance (status : UInt16) : Decidable (IsSuccess status) := by
  unfold IsSuccess
  infer_instance

/-- The number itself is a success status. -/
def SuccessNumber (n : Int) : Prop := 200 ≤ n ∧ n ≤ 299

/-- The names of failures. -/
def failures : List String :=
  ["BadRequest", "Unauthorized", "Forbidden", "NotFound", "InternalServerError"]

/-- Every other name reads as a success. -/
theorem statusNamed_success_iff (s : String) : IsSuccess (statusNamed s) ↔ s ∉ failures := by
  by_cases hs : s ∈ "Ok" :: "Created" :: failures
  · simp only [failures, mem_cons, not_mem_nil, or_false] at hs
    rcases hs with rfl | rfl | rfl | rfl | rfl | rfl | rfl <;> decide
  have hunknown : statusNamed s = 200 := by
    simp only [failures, mem_cons, not_mem_nil, or_false, not_or] at hs
    obtain ⟨h1, h2, h3, h4, h5, h6, h7⟩ := hs
    rw [statusNamed, if_neg h1, if_neg h2, if_neg h3, if_neg h4, if_neg h5, if_neg h6, if_neg h7]
  rw [hunknown]
  exact iff_of_true (by decide) fun hmem => hs (by simp [hmem])

/-! ## Android -/

namespace Android

theorem asU16_success_iff (n : Int) : IsSuccess (asU16 n) ↔ SuccessNumber (n % 65536) := by
  have hmod : (asU16 n).toNat = (n % 65536).toNat := by
    rw [asU16, UInt16.toNat_ofNat']
    omega
  rw [IsSuccess, SuccessNumber]
  omega

/-- The message says that the request succeeded. -/
inductive Explicit (dict : Dict) : Prop
  | name (s : String) : dict "status" = some (.text s) → s = "Ok" ∨ s = "Created" → Explicit dict
  | number (n : Int) : dict "status" = some (.integer n) → SuccessNumber n → Explicit dict
  | statusCode (n : Int) : dict "statusCode" = some (.integer n) → SuccessNumber n → Explicit dict

/-- A status that stands for a failure: the name of one, or an `i64` that is none in 16 bits. -/
def failureStatus : Option Value → Prop
  | some (.text s) => s ∈ failures
  | some (.integer n) => (-2 ^ 63 ≤ n ∧ n < 2 ^ 63) ∧ ¬ SuccessNumber (n % 65536)
  | _ => False

/-- The field that decides says that the request failed: the status code if it has 16 bits, else the
    status. -/
def Denies (dict : Dict) : Prop :=
  match dict "statusCode" with
  | some (.integer n) =>
    if 0 ≤ n ∧ n < 65536 then ¬ SuccessNumber n else failureStatus (dict "status")
  | _ => failureStatus (dict "status")

theorem extractStatusCode_success_iff (dict : Dict) :
    IsSuccess ((extractStatusCode dict).getD 200) ↔ ¬ failureStatus (dict "status") := by
  have hdefault : IsSuccess 200 := by decide
  rw [extractStatusCode]
  cases dict "status" with
  | none => exact iff_of_true hdefault id
  | some v =>
    cases v with
    | text s => exact statusNamed_success_iff s
    | integer n =>
      rw [failureStatus, not_and_not_right]
      simp only [i64]
      split
      · rename_i hfits
        rw [map_some, getD_some, asU16_success_iff]
        exact ⟨fun h _ => h, fun h => h hfits⟩
      · rename_i hfits
        exact iff_of_true hdefault fun h => absurd h hfits
    | _ => exact iff_of_true hdefault id

/-- The status, from one of the two forms. -/
def decodedStatus (dict : Dict) : UInt16 :=
  match parseSimplifiedError dict with
  | some (status, _, _) => status
  | none => (extractStatusCode dict).getD 200

theorem decodeResponseValue_status {P : Platform} {items : List (Value × Value)}
    {r : ZhtpResponseWire} (h : decodeResponseValue P (.map items) = .ok r) :
    r.status = decodedStatus (mapToStringKeys items) := by
  rw [decodeResponseValue] at h
  split at h
  iterate 2
    · rename_i heq
      rw [decodedStatus, heq]
      exact congrArg ZhtpResponseWire.status (Except.ok.inj h).symm

theorem decodedStatus_success_iff (dict : Dict) : IsSuccess (decodedStatus dict) ↔ ¬ Denies dict := by
  have hstatus := extractStatusCode_success_iff dict
  rw [decodedStatus, parseSimplifiedError, Denies]
  cases dict "statusCode" with
  | none => exact hstatus
  | some v =>
    cases v with
    | integer n =>
      by_cases hfits : 0 ≤ n ∧ n < 65536
      · have hmod : n % 65536 = n := Int.emod_eq_of_lt hfits.1 hfits.2
        simp only [if_pos hfits]
        rw [asU16_success_iff, hmod, not_not]
      · simp only [if_neg hfits]
        exact hstatus
    | _ => exact hstatus

end Android

/-! ## iOS -/

namespace Ios

variable (P : Platform)

/-- The value of the field. -/
def value (name : String) (dict : List (String × Decoded)) : Option Decoded :=
  (dict.find? fun e => e.1 = name).map fun e => e.2

/-- The integers of CBOR. -/
def integer : Decoded → Option Int
  | .uint n => some n.toNat
  | .int n => some n.toInt
  | _ => none

/-- The message says that the request succeeded. -/
inductive Explicit (dict : List (String × Decoded)) : Prop
  | name (s : String) : value "status" dict = some (.string s) → s = "Ok" ∨ s = "Created" →
      Explicit dict
  | number (v : Decoded) (n : Int) : value "status" dict = some v → integer v = some n →
      SuccessNumber n → Explicit dict
  | statusCode (v : Decoded) (n : Int) : value "statusCode" dict = some v → integer v = some n →
      SuccessNumber n → Explicit dict

/-- A number that does not become a success status in 16 bits. -/
def failureNumber : Decoded → Prop
  | .bool _ => True
  | .uint n => ¬ SuccessNumber (n.toNat % 65536)
  | .int n => ¬ SuccessNumber (n.toInt % 65536)
  | .double bits => ¬ IsSuccess (P.doubleToUInt16 bits)
  | _ => False

/-- A status that stands for a failure: the name of one, or such a number. -/
def failureStatus : Option Decoded → Prop
  | some (.string s) => s ∈ failures
  | some v => failureNumber P v
  | none => False

/-- The field that decides says that the request failed: the status code where it is a number and the
    body an array, else the status. -/
def Denies (dict : List (String × Decoded)) : Prop :=
  match (value "body" dict).bind asArray, (value "statusCode" dict).bind asNumber with
  | some _, some _ => ∃ v, value "statusCode" dict = some v ∧ failureNumber P v
  | _, _ => failureStatus P (value "status" dict)

variable {P}

theorem get_eq_value (hP : PlainNames P) {name : String} (hn : name ∈ names)
    (dict : List (String × Decoded)) : get P dict name = value name dict := by
  rw [get]
  congr 2
  funext e
  exact sameKey_iff hP hn e.1

theorem toInt_emod (n : Int64) : n.toInt % 65536 = (n.toUInt64.toNat % 65536 : Nat) := by
  have hcond : n.toInt = if 2 * n.toUInt64.toNat < 2 ^ 64 then (n.toUInt64.toNat : Int)
      else n.toUInt64.toNat - (2 ^ 64) := BitVec.toInt_eq_toNat_cond n.toBitVec
  rw [hcond]
  split <;> omega

theorem uint16Value_success_iff {v : Decoded} {n : NSNumber} (h : asNumber v = some n) :
    IsSuccess (uint16Value P n) ↔ ¬ failureNumber P v := by
  cases v with
  | bool b =>
    cases h
    have hsmall : ∀ b : Bool, ¬ IsSuccess (if b then 1 else 0) := by decide
    exact iff_of_false (hsmall b) (not_not_intro trivial)
  | uint n =>
    cases h
    rw [uint16Value, failureNumber, IsSuccess, SuccessNumber, UInt64.toNat_toUInt16]
    omega
  | int n =>
    cases h
    rw [uint16Value, failureNumber, IsSuccess, SuccessNumber, UInt64.toNat_toUInt16, toInt_emod]
    omega
  | double bits =>
    cases h
    exact not_not.symm
  | _ => simp [asNumber] at h

theorem extractStatus_success_iff (hP : PlainNames P) (dict : List (String × Decoded)) :
    IsSuccess (extractStatus P dict) ↔ ¬ failureStatus P (value "status" dict) := by
  have hdefault : IsSuccess 200 := by decide
  rw [extractStatus, get_eq_value hP (by simp [names])]
  cases value "status" dict with
  | none => exact iff_of_true hdefault id
  | some v =>
    cases v with
    | string s =>
      change IsSuccess (statusOf P s) ↔ _
      rw [statusOf_eq hP]
      exact statusNamed_success_iff s
    | bool b => exact uint16Value_success_iff (v := .bool b) rfl
    | uint n => exact uint16Value_success_iff (v := .uint n) rfl
    | int n => exact uint16Value_success_iff (v := .int n) rfl
    | double bits => exact uint16Value_success_iff (v := .double bits) rfl
    | _ => exact iff_of_true hdefault id

/-- The status, from one of the two forms. -/
def decodedStatus (P : Platform) (dict : List (String × Decoded)) : UInt16 :=
  match simplifiedError P dict with
  | some response => response.status
  | none => extractStatus P dict

theorem zhtpDecodeResponse_status {data cbor : Data} {dict : List (String × Decoded)} {n : Nat}
    {r : ZhtpResponseWire} (hdata : unwrap data = .ok cbor)
    (hread : decodeCborValue P.nfc cbor = .ok (.dict dict, n))
    (h : zhtpDecodeResponse P data = .ok r) : r.status = decodedStatus P dict := by
  unfold zhtpDecodeResponse at h
  rw [hdata] at h
  simp only [hread, asDict] at h
  split at h
  · simp at h
  split at h
  · rename_i heq
    rw [decodedStatus, heq, Except.ok.inj h]
  · rename_i heq
    rw [decodedStatus, heq, ← Except.ok.inj h]
    rfl

theorem decodedStatus_success_iff (hP : PlainNames P) (dict : List (String × Decoded)) :
    IsSuccess (decodedStatus P dict) ↔ ¬ Denies P dict := by
  have hstatus := extractStatus_success_iff hP dict
  rw [decodedStatus, simplifiedError, Denies, get_eq_value hP (by simp [names]),
    get_eq_value hP (by simp [names])]
  cases (value "body" dict).bind asArray with
  | none => exact hstatus
  | some items =>
    cases hcode : (value "statusCode" dict).bind asNumber with
    | none => exact hstatus
    | some code =>
      obtain ⟨v, hv, hnumber⟩ := bind_eq_some_iff.1 hcode
      have hnumber := uint16Value_success_iff (P := P) hnumber
      simp only [hv, some.injEq, exists_eq_left']
      exact hnumber

end Ios

/-! ## Never open -/

/-- **Success.** A decoder takes a map for a success only if the map says so, exactly if the map does
    say so or the field that decides stands for a failure. -/
theorem failsClosed_iff {P : Platform} (hP : PlainNames P) :
    (∀ items r, Android.decodeResponseValue P (.map items) = .ok r →
      ((IsSuccess r.status → Android.Explicit (Android.mapToStringKeys items)) ↔
        Android.Explicit (Android.mapToStringKeys items) ∨
          Android.Denies (Android.mapToStringKeys items))) ∧
    ∀ data cbor dict n r, Ios.unwrap data = .ok cbor →
      decodeCborValue P.nfc cbor = .ok (.dict dict, n) → Ios.zhtpDecodeResponse P data = .ok r →
        ((IsSuccess r.status → Ios.Explicit dict) ↔ Ios.Explicit dict ∨ Ios.Denies P dict) := by
  constructor
  · intro items r h
    rw [Android.decodeResponseValue_status h, Android.decodedStatus_success_iff, imp_iff_not_or,
      not_not, or_comm]
  · intro data cbor dict n r hdata hread h
    rw [Ios.zhtpDecodeResponse_status hdata hread h, Ios.decodedStatus_success_iff hP,
      imp_iff_not_or, not_not, or_comm]

/-- `{"status": "NotFound"}` is no success to either. -/
theorem failsClosed_namedStatus :
    (∃ r, Android.decodeResponseValue asciiPlatform (Android.ofItem (.map namedStatus)) = .ok r ∧
      (IsSuccess r.status →
        Android.Explicit (Android.mapToStringKeys (Android.ofEntries namedStatus)))) ∧
    ∃ r, Ios.zhtpDecodeResponse asciiPlatform namedStatusData = .ok r ∧
      (IsSuccess r.status → Ios.Explicit (decodedEntries asciiPlatform.nfc namedStatus [])) := by
  obtain ⟨handroid, hios⟩ := failsClosed_iff plainNames_asciiPlatform
  have hr : (Item.map namedStatus).Readable := ⟨trivial, trivial, trivial⟩
  constructor
  · refine ⟨_, rfl, (handroid (Android.ofEntries namedStatus) _ rfl).2 (.inr ?_)⟩
    change _ ∈ failures
    decide
  · have hunwrap : Ios.unwrap namedStatusData = .ok namedStatusData :=
      unwrap_eq_self (by decide) (by decide)
    have hholds : namedStatusData.Holds 0 namedStatusBytes := prefix_refl _
    rcases zhtpDecodeResponse_eq plainNames_asciiPlatform namedStatus hunwrap encodes_namedStatus hr
      hholds with ⟨_, r, hdecode, _⟩ | ⟨hinfinite, _⟩
    · refine ⟨r, hdecode, (hios _ _ _ _ r hunwrap
        (decodeCborValue_map encodes_namedStatus hr hholds) hdecode).2 (.inr ?_)⟩
      change _ ∈ failures
      decide
    · refine absurd ?_ hinfinite
      rw [FiniteDoubles]
      decide

/-- `{"status": "Conflict"}` -/
def conflict : List (Item × Item) := [(.text "status", .text "Conflict")]

/-- It is a success to Android, and so is `{"status": 65736}`. -/
theorem not_failsClosed :
    (¬ ∀ P : Platform, PlainNames P → ∀ items r,
      Android.decodeResponseValue P (.map items) = .ok r → IsSuccess r.status →
        Android.Explicit (Android.mapToStringKeys items)) ∧
    ∃ r, Android.decodeResponseValue asciiPlatform
        (.map [(.text "status", .integer 65736)]) = .ok r ∧ r.status = 200 := by
  refine ⟨fun hall => ?_, _, rfl, by decide⟩
  have hexplicit := hall asciiPlatform plainNames_asciiPlatform (Android.ofEntries conflict) _ rfl
    (by decide)
  have hstatus : mapToStringKeys (Android.ofEntries conflict) "status" =
      some (.text "Conflict") := rfl
  have hcode : mapToStringKeys (Android.ofEntries conflict) "statusCode" = none := rfl
  cases hexplicit with
  | name s hs hok =>
    rw [hstatus, some.injEq, Android.Value.text.injEq] at hs
    subst hs
    exact nomatch hok
  | number n hn => exact nomatch hstatus.symm.trans hn
  | statusCode n hn => exact nomatch hcode.symm.trans hn

end Responses
