import SovereignMobile.Auth.Types
import SovereignMobile.Resources.Disposal
import SovereignMobile.Stateful.Ends

/-! # OPAQUE states

A native OPAQUE state is started by lib-client and crosses JNI (`lobby_auth_jni.rs`), Kotlin
(`LobbyAuth.kt`, `NativeLobbyAuthModule.kt`) and the bridge as a number. `LobbyAuthService.ts` hands it to
a finish, which frees it whatever it returns, or to a cancel; `AuthContext` makes the register calls.
What lib-client, the JVM and the server answer are inputs. -/

namespace LobbyAuth

open Resources Stateful

inductive Way where
  | finish
  | cancel
deriving DecidableEq

/-- The native states: the next one, and what has become of the others. A state is an allocation, not an
    address. -/
structure Native where
  next : Nat
  events : List (Event Nat Way)

def Native.start (ν : Native) : Native := ⟨ν.next + 1, ν.events ++ [.started ν.next]⟩

def Native.dispose (ν : Native) (state : Nat) (how : Way) : Native :=
  { ν with events := ν.events ++ [.disposed state how] }

inductive LobbyAuthErrorKind where
  | wrong_password
  | locked
  | ip_throttled
  | rate_limited
  | upgrade_required
  | username_taken
  | request_expired
  | not_configured
  | network
  | unknown
deriving DecidableEq

/-- What is thrown in TypeScript: a `LobbyAuthError`, a rejection by the bridge, or something else. -/
inductive Thrown where
  | lobbyAuthError (kind : LobbyAuthErrorKind) (message : String)
  | rejected (code message : String)
  | other (message : String)

abbrev Service := Prog Thrown Native

/-! ## JNI -/

/-- How a start turns out: whether `get_string` has the password, the request if lib-client returns a
    state, whether the JVM has an array for both, and the exception that comes before the promise is
    resolved. -/
structure StartOutcome where
  getString : Bool
  ffi : Option String
  byteArray : Bool
  thrown : Option (Option String)

/-- How a finish turns out: `out` is what lib-client leaves in the buffers if `rc` is 0. -/
structure FinishOutcome (γ : Type) where
  getString : Bool
  convertByteArray : Bool
  rc : Int
  out : γ
  byteArray : Bool
  thrown : Option (Option String)

/-- A `CString` has no NUL. -/
def jstring_to_cstring (getString : Bool) (s : String) : Option String :=
  if getString && !s.toList.contains (Char.ofNat 0) then some s else none

def nativeOpaqueStart (password : String) (o : StartOutcome) : StateM Native (Option (Nat × String)) :=
  match jstring_to_cstring o.getString password, o.ffi with
  | some _, some request => do
    let ν ← get
    set ν.start
    pure (if o.byteArray then some (ν.next, request) else none)
  | _, _ => pure none

/-- The packed array: the return code as a byte, or 0 and what follows. -/
inductive Packed (γ : Type) where
  | code (b : Int)
  | payload (x : γ)

def vec_to_jbytes {γ : Type} (o : FinishOutcome γ) (x : Packed γ) : Option (Packed γ) :=
  if o.byteArray then some x else none

def nativeOpaqueFinish {γ : Type} (state_handle : Nat) (password : String) (o : FinishOutcome γ) :
    StateM Native (Option (Packed γ)) :=
  match jstring_to_cstring o.getString password with
  | none => pure (vec_to_jbytes o (.code (-1)))
  | some _ =>
    if o.convertByteArray then do
      modify fun ν => ν.dispose state_handle .finish
      pure (vec_to_jbytes o (if o.rc ≠ 0 then .code (o.rc.bmod 256) else .payload o.out))
    else pure (vec_to_jbytes o (.code (-1)))

def nativeOpaqueCancel (state_handle : Nat) : StateM Native Unit :=
  modify fun ν => ν.dispose state_handle .cancel

/-! ## Kotlin -/

inductive Throwable where
  | opaqueFinish (rc : Int)
  | other (message : Option String)

/-- An array of one byte that is 0 is too short. -/
def unpackFinish {γ : Type} : Option (Packed γ) → Except Throwable γ
  | none => .error (.other none)
  | some (.code rc) => .error (if rc ≠ 0 then .opaqueFinish rc else .other none)
  | some (.payload x) => .ok x

def opaqueFinish {γ : Type} (stateHandle : Nat) (password : String) (o : FinishOutcome γ) :
    StateM Native (Except Throwable γ) := do
  let packed ← nativeOpaqueFinish stateHandle password o
  pure (unpackFinish packed)

def finishRejectCode (rc : Int) (loginPath : Bool) : Thrown :=
  if rc = -1 then .rejected "INVALID_ARGS" "invalid arguments"
  else if rc = -2 then .rejected "DESERIALIZE" "failed to deserialize server response"
  else if rc = -3 then
    if loginPath then .rejected "WRONG_PASSWORD" "incorrect username or password"
    else .rejected "OPAQUE_FINISH_FAILED" "OPAQUE registration finish failed"
  else .rejected "OPAQUE_FINISH_FAILED" ("OPAQUE finish failed (rc=" ++ toString rc ++ ")")

/-- A state and the first message. The state is the decimal text of the handle, which `toLongOrNull`
    reads back. -/
structure OpaqueStartResult where
  stateId : Nat
  requestB64 : String

def opaqueStart (path password : String) (o : StartOutcome) : Service OpaqueStartResult := do
  match ← nativeOpaqueStart password o with
  | none => throw (.rejected "START_FAILED" ("OPAQUE " ++ path ++ " start returned null"))
  | some (stateHandle, request) =>
    match o.thrown with
    | some message => throw (.rejected "START_FAILED" (message.getD (path ++ " start failed")))
    | none => pure ⟨stateHandle, request⟩

/-- What the promise of a finish becomes. -/
def finishPromise {γ : Type} (path : String) (loginPath : Bool) (thrown : Option (Option String)) :
    Except Throwable γ → Except Thrown γ
  | .error (.opaqueFinish rc) => .error (finishRejectCode rc loginPath)
  | .error (.other message) =>
    .error (.rejected "OPAQUE_FINISH_FAILED" (message.getD (path ++ " finish failed")))
  | .ok x =>
    match thrown with
    | some message =>
      .error (.rejected "OPAQUE_FINISH_FAILED" (message.getD (path ++ " finish failed")))
    | none => .ok x

/-- `decodeB64` is Android's. -/
def finishOnBridge {γ : Type} (decodeB64 : String → Option (List UInt8)) (path : String)
    (loginPath : Bool) (stateId : Nat) (password serverMsgB64 : String) (o : FinishOutcome γ) :
    Service γ :=
  match decodeB64 serverMsgB64 with
  | none => throw (.rejected "INVALID_ARGS" "serverMsgB64 is not valid base64")
  | some _ => do
    let result ← opaqueFinish stateId password o
    answer (finishPromise path loginPath o.thrown result)

def cancelOnBridge (stateId : Nat) : Service Unit := nativeOpaqueCancel stateId

namespace NativeLobbyAuth

def opaqueRegisterStart : String → StartOutcome → Service OpaqueStartResult := opaqueStart "register"

def opaqueRegisterFinish {γ : Type} (decodeB64 : String → Option (List UInt8)) :
    Nat → String → String → FinishOutcome γ → Service γ :=
  finishOnBridge decodeB64 "register" false

def opaqueRegisterCancel : Nat → Service Unit := cancelOnBridge

def opaqueLoginStart : String → StartOutcome → Service OpaqueStartResult := opaqueStart "login"

def opaqueLoginFinish {γ : Type} (decodeB64 : String → Option (List UInt8)) :
    Nat → String → String → FinishOutcome γ → Service γ :=
  finishOnBridge decodeB64 "login" true

def opaqueLoginCancel : Nat → Service Unit := cancelOnBridge

end NativeLobbyAuth

/-! ## The service -/

def asLobbyError : Thrown → Thrown
  | .lobbyAuthError kind message => .lobbyAuthError kind message
  | .rejected code message =>
    if code = "WRONG_PASSWORD" then
      .lobbyAuthError .wrong_password "Incorrect username or password."
    else .lobbyAuthError .network (if message = "" then "Network error." else message)
  | .other message => .lobbyAuthError .network (if message = "" then "Network error." else message)

structure StartResponse where
  msg2_b64 : String
  request_id : String

structure LoginFinishResponse where
  session_token : String
  did : String
  username : String
  access_zone : String

structure OpaqueLoginFinishResult where
  msg3B64 : String
  sessionKeyB64 : String

structure RegisterHandle where
  stateId : Nat
  requestId : String
  serverMsg2B64 : String

/-- How the calls of `opaqueRegisterBegin` turn out; likewise below. -/
structure BeginOutcome where
  start : StartOutcome
  registerStart : Except Thrown StartResponse

/-- The record that is uploaded. -/
structure CompleteOutcome where
  finish : FinishOutcome String
  registerFinish : Except Thrown Unit

structure LoginOutcome where
  start : StartOutcome
  loginStart : Except Thrown StartResponse
  finish : FinishOutcome OpaqueLoginFinishResult
  loginFinish : Except Thrown LoginFinishResponse
  now : Nat

/-- The answer of the server. -/
def postOpaque {α : Type} : Except Thrown α → Service α := answer

def opaqueRegisterBegin (password : String) (o : BeginOutcome) : Service RegisterHandle :=
  withLocals (none : Option Nat) do
    try
      let started ← NativeLobbyAuth.opaqueRegisterStart password o.start
      setLocal (some started.stateId)
      let startRes ← postOpaque o.registerStart
      pure ⟨started.stateId, startRes.request_id, startRes.msg2_b64⟩
    catch err =>
      if let some stateId := ← getLocal then
        ignoring (NativeLobbyAuth.opaqueRegisterCancel stateId)
      throw (asLobbyError err)

section
variable (decodeB64 : String → Option (List UInt8))

def opaqueRegisterComplete (handle : RegisterHandle) (password : String) (o : CompleteOutcome) :
    Service Unit := do
  try
    let _ ← NativeLobbyAuth.opaqueRegisterFinish decodeB64 handle.stateId password
      handle.serverMsg2B64 o.finish
    postOpaque o.registerFinish
  catch err => throw (asLobbyError err)

def opaqueRegisterCancel (handle : RegisterHandle) : Service Unit :=
  ignoring (NativeLobbyAuth.opaqueRegisterCancel handle.stateId)

def opaqueLogin (password : String) (o : LoginOutcome) : Service Auth.LobbySession :=
  withLocals (none : Option Nat) do
    try
      let started ← NativeLobbyAuth.opaqueLoginStart password o.start
      setLocal (some started.stateId)
      let startRes ←
        try postOpaque o.loginStart
        catch serverErr =>
          ignoring (NativeLobbyAuth.opaqueLoginCancel started.stateId)
          setLocal none
          throw serverErr
      let finished ← NativeLobbyAuth.opaqueLoginFinish decodeB64 started.stateId password
        startRes.msg2_b64 o.finish
      setLocal none
      let loginRes ← postOpaque o.loginFinish
      pure {
        sessionToken := loginRes.session_token
        sessionKeyB64 := finished.sessionKeyB64
        did := loginRes.did
        username := loginRes.username
        accessZone := loginRes.access_zone
        createdAt := o.now }
    catch err =>
      if let some stateId := ← getLocal then
        ignoring (NativeLobbyAuth.opaqueLoginCancel stateId)
      throw (asLobbyError err)

/-! ## The callers in `AuthContext` -/

/-- How `registerAccount` goes on: the calls between the OPAQUE ones whose failure it does not ignore. -/
structure AccountOutcome where
  registerBegin : BeginOutcome
  createIdentity : Except Thrown Unit
  setIdentity : Except Thrown Unit
  complete : CompleteOutcome
  login : LoginOutcome
  adoptLobbySession : Except Thrown Unit

/-- The try block; the roll-back of the wallet calls nothing of this. -/
def registerWith (handle : RegisterHandle) (password : String) (o : AccountOutcome) : Service Unit := do
  try
    answer o.createIdentity
    answer o.setIdentity
    opaqueRegisterComplete decodeB64 handle password o.complete
    let _ ← opaqueLogin decodeB64 password o.login
    answer o.adoptLobbySession
  catch err =>
    ignoring (opaqueRegisterCancel handle)
    throw err

def registerAccount (password : String) (o : AccountOutcome) : Service Unit := do
  let handle ← opaqueRegisterBegin password o.registerBegin
  registerWith decodeB64 handle password o

structure UpgradeOutcome where
  registerBegin : BeginOutcome
  complete : CompleteOutcome
  login : LoginOutcome

def upgradeWith (handle : RegisterHandle) (password : String) (o : UpgradeOutcome) : Service Unit := do
  try
    opaqueRegisterComplete decodeB64 handle password o.complete
  catch err =>
    opaqueRegisterCancel handle
    throw err
  let _ ← opaqueLogin decodeB64 password o.login

/-- With the DID of the wallet on the device, and up to the session. -/
def upgradeLegacyAccount (password : String) (o : UpgradeOutcome) : Service Unit := do
  let handle ← opaqueRegisterBegin password o.registerBegin
  upgradeWith decodeB64 handle password o

/-- What else a caller may do with a registration that has begun. -/
inductive RegisterCall where
  | complete (password : String) (o : CompleteOutcome)
  | cancel

def RegisterCall.run (handle : RegisterHandle) : RegisterCall → Service Unit
  | .complete password o => opaqueRegisterComplete decodeB64 handle password o
  | .cancel => opaqueRegisterCancel handle

/-- One after the other, whatever they throw. -/
def makeCalls (handle : RegisterHandle) : List RegisterCall → Service Unit
  | [] => pure ()
  | c :: cs => do
    ignoring (c.run decodeB64 handle)
    makeCalls handle cs

inductive Flow where
  | login (password : String) (o : LoginOutcome)
  | registration (password : String) (o : BeginOutcome) (calls : List RegisterCall)
  | registerAccount (password : String) (o : AccountOutcome)
  | upgradeLegacyAccount (password : String) (o : UpgradeOutcome)

def Flow.run : Flow → Service Unit
  | .login password o => do
    let _ ← opaqueLogin decodeB64 password o
  | .registration password o calls => do
    let handle ← opaqueRegisterBegin password o
    makeCalls decodeB64 handle calls
  | .registerAccount password o => LobbyAuth.registerAccount decodeB64 password o
  | .upgradeLegacyAccount password o => LobbyAuth.upgradeLegacyAccount decodeB64 password o

/-- What becomes of the states of a flow. -/
def Flow.trace (f : Flow) : List (Event Nat Way) := (f.run decodeB64 ⟨0, []⟩).2.events

end

end LobbyAuth
