import SovereignMobile.Quic.MacInput

/-! # The encoders of authenticated requests

`encode_authenticated_request_manual` of `zhtp_codec.rs` and `zhtp_encode_authenticated_request` of
`ZhtpAuthRequest.swift`: the same CBOR map written by hand twice, with byte arrays as arrays of
integers. -/

namespace Quic

/-! ## Android -/

/-- `value` is a `u64`. -/
def appendCborUint (value : Nat) (majorType : UInt8) : List UInt8 :=
  let mt := (majorType &&& 0x07) <<< 5
  if value ≤ 23 then [mt ||| UInt8.ofNat value]
  else if value ≤ 255 then [mt ||| 24, UInt8.ofNat value]
  else if value ≤ 65535 then (mt ||| 25) :: toBeBytes 2 value
  else if value ≤ 4294967295 then (mt ||| 26) :: toBeBytes 4 value
  else (mt ||| 27) :: toBeBytes 8 value

def appendCborByteArray (bytes : List UInt8) : List UInt8 :=
  appendCborUint bytes.length 4 ++ bytes.flatMap fun b => appendCborUint b.toNat 0

def appendCborBytes (bytes : List UInt8) : List UInt8 := appendCborUint bytes.length 2 ++ bytes

def appendCborString (s : String) : List UInt8 := appendCborUint (asBytes s).length 3 ++ asBytes s

def appendCborMapHeader (count : Nat) : List UInt8 := appendCborUint count 5

/-- `as_str` -/
def ZhtpMethod.asStr : ZhtpMethod → String
  | .get => "Get"
  | .post => "Post"
  | .put => "Put"
  | .delete => "Delete"
  | .options => "Options"
  | .head => "Head"
  | .patch => "Patch"
  | .verify => "Verify"
  | .connect => "Connect"
  | .trace => "Trace"

def encodeHeaders (headers : ZhtpHeaders) : List UInt8 :=
  appendCborMapHeader 4
    ++ appendCborString "content_type"
    ++ (match headers.contentType with
      | some ct => appendCborString ct
      | none => [0xf6])
    ++ appendCborString "content_length"
    ++ (match headers.contentLength with
      | some cl => appendCborUint cl 0
      | none => [0xf6])
    ++ appendCborString "dao_fee" ++ appendCborUint headers.daoFee 0
    ++ appendCborString "total_fees" ++ appendCborUint headers.totalFees 0

def encodeRequestInner (req : ZhtpRequest) : List UInt8 :=
  appendCborMapHeader 6
    ++ appendCborString "method" ++ appendCborString req.method.asStr
    ++ appendCborString "uri" ++ appendCborString req.uri
    ++ appendCborString "version" ++ appendCborString req.version
    ++ appendCborString "headers" ++ encodeHeaders req.headers
    ++ appendCborString "body" ++ appendCborBytes req.body
    ++ appendCborString "timestamp" ++ appendCborUint req.timestamp 0

def encodeAuthContext : Option AuthContext → List UInt8
  | some ctx =>
    appendCborMapHeader 4
      ++ appendCborString "session_id" ++ appendCborByteArray ctx.sessionId
      ++ appendCborString "client_did" ++ appendCborString ctx.clientDid
      ++ appendCborString "sequence" ++ appendCborUint ctx.sequence 0
      ++ appendCborString "request_mac" ++ appendCborByteArray ctx.requestMac
  | none => [0xf6]

def encodeAuthenticatedRequestManual (request : ZhtpRequestWire) : List UInt8 :=
  appendCborMapHeader 5
    ++ appendCborString "version" ++ appendCborUint request.version 0
    ++ appendCborString "request_id" ++ appendCborByteArray request.requestId
    ++ appendCborString "timestamp_ms" ++ appendCborUint request.timestampMs 0
    ++ appendCborString "auth_context" ++ encodeAuthContext (some request.authContext)
    ++ appendCborString "request" ++ encodeRequestInner request.request

end Quic

/-! ## iOS -/

namespace ZhtpAuthRequest

open Quic (ZhtpMethod AuthContext toBeBytes)
open ZhtpCodec (utf8)

/-- An `NSError` of the domain "ZhtpCodec". -/
structure CodecError where
  code : Int
  description : String
  deriving DecidableEq, Repr

def appendCborMapHeader (count : Nat) : Except CodecError (List UInt8) :=
  if count < 24 then .ok [0xa0 ||| UInt8.ofNat count]
  else .error ⟨1, "CBOR map size too large"⟩

def appendCborUInt (value : Nat) : List UInt8 :=
  if value ≤ 23 then [UInt8.ofNat value]
  else if value ≤ 255 then [0x18, UInt8.ofNat value]
  else if value ≤ 65535 then 0x19 :: toBeBytes 2 value
  else if value ≤ 4294967295 then 0x1a :: toBeBytes 4 value
  else 0x1b :: toBeBytes 8 value

/-- A `count` is never negative, so the guard of the source always passes. -/
def appendCborLength (majorType : UInt8) (length : Nat) : List UInt8 :=
  if length < 24 then [(majorType <<< 5) ||| UInt8.ofNat length]
  else if length ≤ 255 then [(majorType <<< 5) ||| 24, UInt8.ofNat length]
  else if length ≤ 65535 then ((majorType <<< 5) ||| 25) :: toBeBytes 2 length
  else if length ≤ 4294967295 then ((majorType <<< 5) ||| 26) :: toBeBytes 4 length
  else ((majorType <<< 5) ||| 27) :: toBeBytes 8 length

def appendCborString (s : String) : List UInt8 := appendCborLength 3 (utf8 s).length ++ utf8 s

def appendCborByteArray (bytes : List UInt8) : List UInt8 :=
  appendCborLength 4 bytes.length ++ bytes.flatMap fun b => appendCborUInt b.toNat

def appendCborBytes (bytes : List UInt8) : List UInt8 := appendCborLength 2 bytes.length ++ bytes

def stringValue : ZhtpMethod → String
  | .get => "Get"
  | .post => "Post"
  | .put => "Put"
  | .delete => "Delete"
  | .options => "Options"
  | .head => "Head"
  | .patch => "Patch"
  | .verify => "Verify"
  | .connect => "Connect"
  | .trace => "Trace"

/-- The fees are no argument of the encoder. -/
def zhtpEncodeAuthenticatedRequest (method : ZhtpMethod) (uri contentType : String)
    (requestBody : List UInt8) (timestamp timestampMs : Nat) (requestId : List UInt8)
    (authContext : AuthContext) : Except CodecError (List UInt8) := do
  let outer ← appendCborMapHeader 5
  let auth ← appendCborMapHeader 4
  let request ← appendCborMapHeader 6
  let headers ← appendCborMapHeader 4
  pure (outer
    ++ appendCborString "version" ++ appendCborUInt 1
    ++ appendCborString "request_id" ++ appendCborByteArray requestId
    ++ appendCborString "timestamp_ms" ++ appendCborUInt timestampMs
    ++ appendCborString "auth_context" ++ auth
    ++ appendCborString "session_id" ++ appendCborByteArray authContext.sessionId
    ++ appendCborString "client_did" ++ appendCborString authContext.clientDid
    ++ appendCborString "sequence" ++ appendCborUInt authContext.sequence
    ++ appendCborString "request_mac" ++ appendCborByteArray authContext.requestMac
    ++ appendCborString "request" ++ request
    ++ appendCborString "method" ++ appendCborString (stringValue method)
    ++ appendCborString "uri" ++ appendCborString uri
    ++ appendCborString "version" ++ appendCborString "1.0"
    ++ appendCborString "headers" ++ headers
    ++ appendCborString "content_type" ++ appendCborString contentType
    ++ appendCborString "content_length" ++ appendCborUInt requestBody.length
    ++ appendCborString "dao_fee" ++ appendCborUInt 0
    ++ appendCborString "total_fees" ++ appendCborUInt 0
    ++ appendCborString "body" ++ appendCborBytes requestBody
    ++ appendCborString "timestamp" ++ appendCborUInt timestamp)

/-! ## The two agree piece by piece -/

theorem appendCborUInt_eq (value : Nat) : appendCborUInt value = Quic.appendCborUint value 0 := by
  simp [appendCborUInt, Quic.appendCborUint]

theorem appendCborLength_eq {majorType : UInt8} (h : majorType &&& 0x07 = majorType)
    (length : Nat) : appendCborLength majorType length = Quic.appendCborUint length majorType := by
  simp only [appendCborLength, Quic.appendCborUint, h, Nat.lt_succ_iff]

theorem appendCborString_eq (s : String) : appendCborString s = Quic.appendCborString s := by
  rw [appendCborString, Quic.appendCborString, appendCborLength_eq (by decide),
    Quic.asBytes_eq_utf8]

theorem appendCborByteArray_eq (bytes : List UInt8) :
    appendCborByteArray bytes = Quic.appendCborByteArray bytes := by
  rw [appendCborByteArray, Quic.appendCborByteArray, appendCborLength_eq (by decide)]
  simp only [appendCborUInt_eq]

theorem appendCborBytes_eq (bytes : List UInt8) :
    appendCborBytes bytes = Quic.appendCborBytes bytes := by
  rw [appendCborBytes, Quic.appendCborBytes, appendCborLength_eq (by decide)]

theorem appendCborMapHeader_eq {count : Nat} (h : count < 24) :
    appendCborMapHeader count = .ok (Quic.appendCborMapHeader count) := by
  rw [appendCborMapHeader, if_pos h, Quic.appendCborMapHeader, Quic.appendCborUint,
    if_pos (Nat.le_of_lt_succ h)]
  rfl

theorem stringValue_eq (method : ZhtpMethod) : stringValue method = method.asStr := by
  cases method <;> rfl

end ZhtpAuthRequest

/-! ## Requests -/

namespace Quic

open List
open ZhtpAuthRequest (CodecError zhtpEncodeAuthenticatedRequest)

/-- What the two encoders are given for one request. -/
structure AuthRequest where
  method : ZhtpMethod
  uri : String
  contentType : String
  daoFee : UInt64
  totalFees : UInt64
  body : List UInt8
  timestamp : UInt64
  timestampMs : UInt64
  requestId : List UInt8
  sessionId : List UInt8
  clientDid : String
  sequence : UInt64
  requestMac : List UInt8

def AuthRequest.authContext (r : AuthRequest) : AuthContext :=
  ⟨r.sessionId, r.clientDid, r.sequence.toNat, r.requestMac⟩

/-- The request as `send_authenticated_zhtp_request` builds it. -/
def AuthRequest.wire (r : AuthRequest) : ZhtpRequestWire where
  version := 1
  requestId := r.requestId
  timestampMs := r.timestampMs.toNat
  authContext := r.authContext
  request :=
    { method := r.method, uri := r.uri, version := "1.0",
      headers :=
        { contentType := some r.contentType, contentLength := some r.body.length,
          daoFee := r.daoFee.toNat, totalFees := r.totalFees.toNat, contentEncoding := none,
          cacheControl := none, networkFee := none, priority := none },
      body := r.body, timestamp := r.timestamp.toNat, requester := none }

def AuthRequest.androidPayload (r : AuthRequest) : List UInt8 :=
  encodeAuthenticatedRequestManual r.wire

def AuthRequest.iosPayload (r : AuthRequest) : Except CodecError (List UInt8) :=
  zhtpEncodeAuthenticatedRequest r.method r.uri r.contentType r.body r.timestamp.toNat
    r.timestampMs.toNat r.requestId r.authContext

/-- The payload up to the fees. -/
def AuthRequest.beforeFees (r : AuthRequest) : List UInt8 :=
  appendCborMapHeader 5
    ++ appendCborString "version" ++ appendCborUint 1 0
    ++ appendCborString "request_id" ++ appendCborByteArray r.requestId
    ++ appendCborString "timestamp_ms" ++ appendCborUint r.timestampMs.toNat 0
    ++ appendCborString "auth_context" ++ encodeAuthContext (some r.authContext)
    ++ appendCborString "request" ++ appendCborMapHeader 6
    ++ appendCborString "method" ++ appendCborString r.method.asStr
    ++ appendCborString "uri" ++ appendCborString r.uri
    ++ appendCborString "version" ++ appendCborString "1.0"
    ++ appendCborString "headers" ++ appendCborMapHeader 4
    ++ appendCborString "content_type" ++ appendCborString r.contentType
    ++ appendCborString "content_length" ++ appendCborUint r.body.length 0
    ++ appendCborString "dao_fee"

/-- The payload after the fees. -/
def AuthRequest.afterFees (r : AuthRequest) : List UInt8 :=
  appendCborString "body" ++ appendCborBytes r.body
    ++ appendCborString "timestamp" ++ appendCborUint r.timestamp.toNat 0

/-- The payload with the given fees in it. -/
def AuthRequest.payload (r : AuthRequest) (daoFee totalFees : Nat) : List UInt8 :=
  r.beforeFees ++ (appendCborUint daoFee 0 ++ (appendCborString "total_fees"
    ++ (appendCborUint totalFees 0 ++ r.afterFees)))

theorem AuthRequest.androidPayload_eq (r : AuthRequest) :
    r.androidPayload = r.payload r.daoFee.toNat r.totalFees.toNat := by
  unfold androidPayload encodeAuthenticatedRequestManual encodeRequestInner encodeHeaders payload
    beforeFees afterFees wire
  simp only [append_assoc]

theorem AuthRequest.iosPayload_eq (r : AuthRequest) : r.iosPayload = .ok (r.payload 0 0) := by
  unfold iosPayload zhtpEncodeAuthenticatedRequest
  open ZhtpAuthRequest in
  rw [appendCborMapHeader_eq (by decide), appendCborMapHeader_eq (by decide),
    appendCborMapHeader_eq (by decide)]
  open ZhtpAuthRequest in
  simp only [appendCborUInt_eq, appendCborString_eq, appendCborByteArray_eq, appendCborBytes_eq,
    stringValue_eq]
  unfold payload beforeFees afterFees encodeAuthContext
  dsimp only [bind, Except.bind, pure, Except.pure]
  simp only [append_assoc]

/-- Only zero is written as a zero byte. -/
theorem appendCborUint_zero_inj {value : Nat} {bs bs' : List UInt8}
    (h : appendCborUint value 0 ++ bs = appendCborUint 0 0 ++ bs') :
    value = 0 ∧ bs = bs' := by
  have hzero : appendCborUint 0 0 = [0] := by decide
  rw [hzero, singleton_append] at h
  unfold appendCborUint at h
  split at h
  · rename_i hsmall
    rw [singleton_append, cons.injEq] at h
    have hv := congrArg UInt8.toNat h.1
    simp at hv
    exact ⟨by omega, h.2⟩
  exfalso
  split at h
  · exact absurd (cons.inj h).1 (by decide)
  split at h
  · exact absurd (cons.inj h).1 (by decide)
  split at h
  · exact absurd (cons.inj h).1 (by decide)
  · exact absurd (cons.inj h).1 (by decide)

/-- The two platforms write the same payload. -/
def EncodersAgree (r : AuthRequest) : Prop := r.iosPayload = .ok r.androidPayload

/-- **The encoders agree exactly on the requests without fees.** -/
theorem encodersAgree_iff_noFees (r : AuthRequest) :
    EncodersAgree r ↔ r.daoFee = 0 ∧ r.totalFees = 0 := by
  rw [EncodersAgree, r.iosPayload_eq, r.androidPayload_eq, Except.ok.injEq]
  constructor
  · intro h
    have hfees := append_cancel_left h
    obtain ⟨hdao, hrest⟩ := appendCborUint_zero_inj hfees.symm
    obtain ⟨htotal, -⟩ := appendCborUint_zero_inj (append_cancel_left hrest)
    exact ⟨UInt64.toNat_inj.1 hdao, UInt64.toNat_inj.1 htotal⟩
  · rintro ⟨hdao, htotal⟩
    rw [hdao, htotal]
    rfl

/-- A request that pays a fee of one. -/
def feeRequest : AuthRequest where
  method := .post
  uri := "/"
  contentType := "application/json"
  daoFee := 1
  totalFees := 1
  body := []
  timestamp := 1
  timestampMs := 1000
  requestId := List.replicate 16 0
  sessionId := List.replicate 32 0
  clientDid := "did:zhtp:a"
  sequence := 0
  requestMac := List.replicate 32 0

theorem not_encodersAgree : ¬ ∀ r, EncodersAgree r := by
  intro hall
  have h := hall feeRequest
  rw [EncodersAgree, AuthRequest.iosPayload_eq, AuthRequest.androidPayload_eq, Except.ok.injEq] at h
  have hdao := (appendCborUint_zero_inj (append_cancel_left h).symm).1
  exact nomatch hdao

end Quic
