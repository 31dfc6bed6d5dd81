import SovereignMobile.EventLoop.Safety
import Mathlib.Algebra.Group.Nat.Defs
import Mathlib.Data.List.Nodup
import Mathlib.Order.Basic

/-! # Authenticated requests over a QUIC handle (Android)

`quic_authenticated_request` of `uhp_quinn.rs` with the session of `zhtp_auth.rs` and the request
of `zhtp_auth_request.rs`. The call clones the session out of the global `SESSIONS` map, advances
the clone's counter while the request is built and sent, and writes the clone back only when the
exchange succeeded. Calls run on threads of their own; they meet at the two maps and on the wire,
so those are the points where another call may come in between.

Encoding, framing and decoding are functions of their arguments and touch no shared state: their
failures are failures of the call that follows them (`openBi`) or that they belong to
(`readToEnd`). -/

namespace Quic

open EventLoop
open Async (get)

/-! ## `zhtp_auth.rs` -/

inductive ZhtpMethod where
  | get | post | put | delete | options | head | patch | verify | connect | trace
  deriving DecidableEq, Repr

structure AuthSession where
  sessionId : List UInt8
  macKey : List UInt8
  sequence : Nat
  clientDid : String
  serverDid : String
  createdAt : Nat
  lastActivity : Nat
  deriving DecidableEq, Repr

/-- Not idle for more than five minutes and not older than an hour (seconds; `saturating_sub`). -/
def AuthSession.isValid (s : AuthSession) (now : Nat) : Bool :=
  if now - s.lastActivity > 300 then false
  else if now - s.createdAt > 3600 then false
  else true

def AuthSession.touch (s : AuthSession) (now : Nat) : AuthSession :=
  { s with lastActivity := now }

def u64Max : Nat := 2 ^ 64 - 1

/-- The sequence to use and the session with its counter advanced (`saturating_add`). -/
def AuthSession.nextSequence (s : AuthSession) : Nat × AuthSession :=
  (s.sequence, { s with sequence := min (s.sequence + 1) u64Max })

structure AuthContext where
  sessionId : List UInt8
  clientDid : String
  sequence : Nat
  requestMac : List UInt8
  deriving DecidableEq, Repr

/-- `str::as_bytes` -/
def asBytes (s : String) : List UInt8 :=
  s.toList.flatMap String.utf8EncodeChar

/-- `n` as `width` big-endian bytes (`to_be_bytes` of the low `8 * width` bits). -/
def toBeBytes : Nat → Nat → List UInt8
  | 0, _ => []
  | width + 1, n => UInt8.ofNat (n / 256 ^ width) :: toBeBytes width n

def methodByte : ZhtpMethod → UInt8
  | .get => 0
  | .post => 1
  | .put => 2
  | .delete => 3
  | .options => 4
  | .head => 5
  | .patch => 6
  | .verify => 7
  | .connect => 8
  | .trace => 9

/-- `[method][pathLen u16][path][bodyLen u32][body][counter u64][sessionId]` -/
def buildMacInput (method : ZhtpMethod) (path body : List UInt8) (counter : Nat)
    (sessionId : List UInt8) : Except String (List UInt8) :=
  if sessionId.length ≠ 32 then .error "Session ID must be 32 bytes"
  else if path.length > 65535 then .error "Path too long"
  else if body.length > 4294967295 then .error "Body too long"
  else .ok (methodByte method :: (toBeBytes 2 path.length ++ path ++ toBeBytes 4 body.length
    ++ body ++ toBeBytes 8 counter ++ sessionId))

section Mac
variable (computeRequestMac : List UInt8 → List UInt8 → List UInt8)

def buildAuthContextWithSequence (session : AuthSession) (method : ZhtpMethod)
    (path body : List UInt8) (sequence : Nat) : Except String AuthContext :=
  match buildMacInput method path body sequence session.sessionId with
  | .error e => .error e
  | .ok macInput => .ok
    { sessionId := session.sessionId,
      clientDid := session.clientDid,
      sequence := sequence,
      requestMac := computeRequestMac session.macKey macInput }

end Mac

/-! ## `zhtp_auth_request.rs` -/

structure ZhtpHeaders where
  contentType : Option String
  contentLength : Option Nat
  daoFee : Nat
  totalFees : Nat
  contentEncoding : Option String
  cacheControl : Option String
  networkFee : Option Nat
  priority : Option Nat
  deriving DecidableEq, Repr

structure ZhtpRequest where
  method : ZhtpMethod
  uri : String
  version : String
  headers : ZhtpHeaders
  body : List UInt8
  timestamp : Nat
  requester : Option String
  deriving DecidableEq, Repr

structure ZhtpRequestWire where
  version : Nat
  requestId : List UInt8
  timestampMs : Nat
  authContext : AuthContext
  request : ZhtpRequest
  deriving DecidableEq, Repr

structure ZhtpResponseWire where
  requestId : List UInt8
  status : Nat
  body : List UInt8
  deriving DecidableEq, Repr

/-- `str::parse` of an unsigned integer type with largest value `max`: decimal digits, with an
    optional `+` in front. -/
def parseUnsigned (max : Nat) (s : String) : Option Nat :=
  let digits := match s.toList with
    | '+' :: rest => rest
    | cs => cs
  if digits.isEmpty || !digits.all Char.isDigit then none
  else
    let n := digits.foldl (fun n c => 10 * n + (c.toNat - 48)) 0
    if n ≤ max then some n else none

def stringToZhtpMethod (method : String) : ZhtpMethod :=
  let m := method.toUpper
  if m = "GET" then .get
  else if m = "POST" then .post
  else if m = "PUT" then .put
  else if m = "DELETE" then .delete
  else if m = "OPTIONS" then .options
  else if m = "HEAD" then .head
  else if m = "PATCH" then .patch
  else if m = "VERIFY" then .verify
  else if m = "CONNECT" then .connect
  else if m = "TRACE" then .trace
  else .get

/-- Sixteen bytes of `/dev/urandom`, or the fallback pattern when they are all zero. -/
def generateRequestId (urandom : List UInt8) : List UInt8 :=
  if urandom.all (· == 0) then (List.range 16).map fun i => UInt8.ofNat (i * 31)
  else urandom

/-- The arguments of one call, with the random bytes it draws. -/
structure RequestArgs where
  method : String
  path : String
  headers : List (String × String)
  body : Option (List UInt8)
  urandom : List UInt8
  deriving DecidableEq, Repr

def requestHeaders (args : RequestArgs) : ZhtpHeaders :=
  let daoFee := ((args.headers.lookup "dao_fee").bind (parseUnsigned u64Max)).getD 0
  { contentType := some ((args.headers.lookup "content-type").getD "application/json"),
    contentLength := some (args.body.getD []).length,
    daoFee := daoFee,
    totalFees := ((args.headers.lookup "total_fees").bind (parseUnsigned u64Max)).getD daoFee,
    contentEncoding := args.headers.lookup "content-encoding",
    cacheControl := args.headers.lookup "cache-control",
    networkFee := (args.headers.lookup "network_fee").bind (parseUnsigned u64Max),
    priority := (args.headers.lookup "priority").bind (parseUnsigned 255) }

/-- The request of one call with its authentication context, at clock `nowMs`. -/
def requestWire (args : RequestArgs) (requester : String) (ctx : AuthContext) (nowMs : Nat) :
    ZhtpRequestWire :=
  { version := 1,
    requestId := generateRequestId args.urandom,
    timestampMs := nowMs,
    authContext := ctx,
    request :=
      { method := stringToZhtpMethod args.method,
        uri := args.path,
        version := "1.0",
        headers := requestHeaders args,
        body := args.body.getD [],
        timestamp := nowMs / 1000,
        requester := some requester } }

/-! ## The shared state

`built`, `wire` and `holder` are history: the sequence numbers of the requests built for each
handle in build order, the requests put on the wire, and the call that is opening a handle or has
cloned its session and has not written it back (a call that ends before it built a request gives
it up). -/

structure State where
  clients : Nat → Bool
  sessions : Nat → Option AuthSession
  nextId : Nat
  nowMs : Nat
  built : List (Nat × Nat)
  wire : List (Nat × ZhtpRequestWire)
  holder : Nat → Option Nat

def State.init : State where
  clients _ := false
  sessions _ := none
  nextId := 1
  nowMs := 0
  built := []
  wire := []
  holder _ := none

inductive Op where
  | insertClient
  | insertSession (handle : Nat) (s : AuthSession)
  | removeClient (handle : Nat)
  | removeSession (handle : Nat)
  | advanceClock (ms : Nat)
  | cloned (handle : Nat)
  | builtRequest (handle sequence : Nat)
  | gaveUp (handle : Nat)

def apply (i : Nat) (o : Op) (s : State) : State :=
  match o with
  | .insertClient =>
    { s with
      clients := Function.update s.clients s.nextId true,
      nextId := s.nextId + 1,
      holder := Function.update s.holder s.nextId (some i) }
  | .insertSession h ses =>
    { s with
      sessions := Function.update s.sessions h (some ses),
      holder := Function.update s.holder h none }
  | .removeClient h => { s with clients := Function.update s.clients h false }
  | .removeSession h => { s with sessions := Function.update s.sessions h none }
  | .advanceClock ms => { s with nowMs := s.nowMs + ms }
  | .cloned h => { s with holder := Function.update s.holder h (some i) }
  | .builtRequest h q => { s with built := s.built ++ [(h, q)] }
  | .gaveUp h => { s with holder := Function.update s.holder h none }

/-- `preempt` is a point between two locks, where another thread may run. -/
inductive Call where
  | preempt
  | openBi (handle : Nat)
  | writeAll (handle : Nat) (request : ZhtpRequestWire)
  | readToEnd (handle : Nat)

def Ret : Call → Type
  | .preempt => Unit
  | .openBi _ => Unit
  | .writeAll _ _ => Unit
  | .readToEnd _ => ZhtpResponseWire

/-- `lost` is a write whose bytes left although the call failed afterwards. -/
inductive Reply where
  | ok
  | fail
  | lost
  | response (r : ZhtpResponseWire)

def perform (_i : Nat) (c : Call) (r : Reply) (s : State) :
    Option (State × Except String (Ret c)) :=
  match c with
  | .preempt => some (s, .ok ())
  | .openBi _ =>
    match r with
    | .ok => some (s, .ok ())
    | .fail => some (s, .error "open_bi failed")
    | _ => none
  | .writeAll h req =>
    match r with
    | .ok => some ({ s with wire := s.wire ++ [(h, req)] }, .ok ())
    | .lost => some ({ s with wire := s.wire ++ [(h, req)] }, .error "write_all failed")
    | .fail => some (s, .error "write_all failed")
    | _ => none
  | .readToEnd _ =>
    match r with
    | .response resp => some (s, .ok resp)
    | .fail => some (s, .error "no response")
    | _ => none

abbrev machine : Machine where
  State := State
  Op := Op
  Call := Call
  Ret := Ret
  Err := String
  Reply := Reply
  apply := apply
  perform := perform

abbrev Prog := Async machine

/-! ## `uhp_quinn.rs` -/

def preempt : Prog Unit := Async.await (M := machine) .preempt

def fail {α : Type} (e : String) : Prog α := Async.throw (M := machine) e

/-- The call ends without having built a request. -/
def failUnbuilt {α : Type} (handle : Nat) (e : String) : Prog α := do
  Async.op (M := machine) (.gaveUp handle)
  fail e

section Programs
variable (computeRequestMac : List UInt8 → List UInt8 → List UInt8)

/-- The exchange itself: what is on the wire after `writeAll`, and the status and body of a
    response that carries the request's identifier. -/
def exchange (handle : Nat) (wire : ZhtpRequestWire) : Prog (Nat × List UInt8) := do
  Async.await (M := machine) (.openBi handle)
  Async.await (M := machine) (.writeAll handle wire)
  let response ← (Async.await (M := machine) (.readToEnd handle) : Prog ZhtpResponseWire)
  if response.requestId ≠ wire.requestId then fail "Response request_id mismatch"
  else pure (response.status, response.body)

/-- Returns the advanced session with the result, as the source's `&mut` argument does. -/
def sendAuthenticatedZhtpRequest (handle : Nat) (session : AuthSession) (args : RequestArgs) :
    Prog (AuthSession × (Nat × List UInt8)) := do
  let st ← (Async.get : Prog State)
  if !session.isValid (st.nowMs / 1000) then failUnbuilt handle "Session invalid or expired"
  else
    let (sequence, session') := session.nextSequence
    match buildAuthContextWithSequence computeRequestMac session'
        (stringToZhtpMethod args.method) (asBytes args.path) (args.body.getD []) sequence with
    | .error e => failUnbuilt handle e
    | .ok ctx => do
      let wire := requestWire args session.clientDid ctx st.nowMs
      Async.op (M := machine) (.builtRequest handle ctx.sequence)
      let result ← exchange handle wire
      pure (session'.touch (st.nowMs / 1000), result)

def quicAuthenticatedRequest (handle : Nat) (args : RequestArgs) : Prog (Nat × List UInt8) := do
  let st ← (Async.get : Prog State)
  if !st.clients handle then fail "invalid QUIC handle"
  else do
    preempt
    let st ← (Async.get : Prog State)
    match st.sessions handle with
    | none => fail "missing auth session"
    | some session => do
      Async.op (M := machine) (.cloned handle)
      preempt
      let (session', result) ← sendAuthenticatedZhtpRequest computeRequestMac handle session args
      preempt
      Async.op (M := machine) (.insertSession handle session')
      pure result

/-- The end of `quic_connect_and_handshake`: the new handle with the session the handshake gave. -/
def quicConnect (sessionId macKey : List UInt8) (clientDid serverDid : String) : Prog Unit := do
  let st ← (Async.get : Prog State)
  Async.op (M := machine) .insertClient
  preempt
  let st' ← (Async.get : Prog State)
  Async.op (M := machine) (.insertSession st.nextId
    { sessionId := sessionId, macKey := macKey, sequence := 1, clientDid := clientDid,
      serverDid := serverDid, createdAt := st'.nowMs / 1000, lastActivity := st'.nowMs / 1000 })

def quicClose (handle : Nat) : Prog Unit := do
  Async.op (M := machine) (.removeClient handle)
  preempt
  Async.op (M := machine) (.removeSession handle)

inductive Cmd where
  | connect (sessionId macKey : List UInt8) (clientDid serverDid : String)
  | request (handle : Nat) (args : RequestArgs)
  | close (handle : Nat)
  | tick (ms : Nat)

def prog : Cmd → Task machine
  | .connect sid key c s => (quicConnect sid key c s).toTask
  | .request h args => (quicAuthenticatedRequest computeRequestMac h args).toTask
  | .close h => (quicClose h).toTask
  | .tick ms => (Async.op (M := machine) (.advanceClock ms)).toTask

end Programs

end Quic
