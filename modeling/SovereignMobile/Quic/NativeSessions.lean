import Mathlib.Data.List.Nodup
import SovereignMobile.Threads.Basic

/-! # Native sessions on Android

`NativeQuicSessionModule.kt` over `QuicSession.kt`. The bridge looks a session up in `sessions` and goes
on in `rpcPool`; each inbound stream has a reader in `readerPool`. `closeSession` cancels the readers it
finds, waits for each of them for at most 2.5 s, takes the session out of the map and closes it. The
UUIDs are numbered, and a session has the number of its UUID. Frames, promises and events are left
out. -/

namespace NativeSessions

open Threads

/-- The flags of a runner outlive its entry in `inboundStreams`. `closed` holds the sessions on which
    `close()` has begun. -/
structure State where
  sessions : List Nat
  inboundStreams : List (Nat × Nat)
  cancelled : List Nat
  exited : List Nat
  closed : List Nat
  nextSession : Nat
  nextStream : Nat

def State.initial : State := ⟨[], [], [], [], [], 0, 0⟩

namespace State

/-- The readers whose `it.sessionId == sessionId`. -/
def attached (sessionId : Nat) (s : State) : List Nat :=
  (s.inboundStreams.filter (·.2 = sessionId)).map (·.1)

def addSession (s : State) : State :=
  { s with sessions := s.nextSession :: s.sessions, nextSession := s.nextSession + 1 }

/-- `inboundStreams[streamId] = runner` -/
def register (session : Nat) (s : State) : State :=
  { s with
    inboundStreams := (s.nextStream, session) :: s.inboundStreams
    nextStream := s.nextStream + 1 }

def cancel (streams : List Nat) (s : State) : State := { s with cancelled := streams ++ s.cancelled }

/-- `inboundStreams.remove(streamId)` -/
def unregister (stream : Nat) (s : State) : State :=
  { s with inboundStreams := s.inboundStreams.filter (·.1 ≠ stream) }

/-- `sessions.remove(sessionId)` -/
def removeSession (sessionId : Nat) (s : State) : State :=
  { s with sessions := s.sessions.filter (· ≠ sessionId) }

end State

/-- Where a thread stands. A task of `rpcPool` that holds a session is queued first, and then in the
    native call. A reader looks at its flag, reads, and closes its stream; then it leaves the map and
    counts down its latch. -/
inductive Thread where
  | openingSession
  | rpcQueued (session : Nat)
  | rpc (session : Nat)
  | openInboundQueued (session : Nat)
  | openInbound (session : Nat)
  | registering (session : Nat)
  | readerLoop (session stream : Nat)
  | reading (session stream : Nat)
  | readerClosing (session stream : Nat)
  | readerExiting (stream : Nat)
  | closeSession (sessionId : Nat)
  | cancelling (sessionId : Nat) (attached : List Nat)
  | awaiting (sessionId : Nat) (attached : List Nat)
  | removed (session : Nat)
  | closing (session : Nat)
deriving DecidableEq

inductive Frame where
  | frame (bytes : List UInt8)
  | closed
  | error (message : String)

/-- What comes back to a thread. A native open returns null or a handle, and any other native call
    whatever it does; `timeout` ends the wait for a latch. -/
inductive Input where
  | go
  | opened (found : Bool)
  | read (frame : Frame)
  | timeout

/-- The `when` of `runReaderLoop`. -/
def afterRead (session stream : Nat) : Frame → Thread
  | .frame _ => .readerLoop session stream
  | .closed => .readerClosing session stream
  | .error _ => .readerClosing session stream

def step (t : Thread) (x : Input) (s : State) : Option (State × List Thread) :=
  match t, x with
  | .openingSession, .opened found => some (if found then s.addSession else s, [])
  | .rpcQueued session, .go =>
    -- `check(!closed)` throws
    if session ∈ s.closed then some (s, []) else some (s, [.rpc session])
  | .rpc _, .go => some (s, [])
  | .openInboundQueued session, .go =>
    if session ∈ s.closed then some (s, []) else some (s, [.openInbound session])
  | .openInbound session, .opened found => some (s, if found then [.registering session] else [])
  | .registering session, .go => some (s.register session, [.readerLoop session s.nextStream])
  | .readerLoop session stream, .go =>
    some (s, [if stream ∈ s.cancelled then .readerClosing session stream else .reading session stream])
  | .reading session stream, .read frame => some (s, [afterRead session stream frame])
  | .readerClosing _ stream, .go => some (s.unregister stream, [.readerExiting stream])
  | .readerExiting stream, .go => some ({ s with exited := stream :: s.exited }, [])
  | .closeSession sessionId, .go => some (s, [.cancelling sessionId (s.attached sessionId)])
  | .cancelling sessionId attached, .go => some (s.cancel attached, [.awaiting sessionId attached])
  | .awaiting sessionId (r :: rest), .go =>
    if r ∈ s.exited then some (s, [.awaiting sessionId rest]) else none
  | .awaiting sessionId (_ :: rest), .timeout => some (s, [.awaiting sessionId rest])
  | .awaiting sessionId [], .go =>
    some (s.removeSession sessionId, if sessionId ∈ s.sessions then [.removed sessionId] else [])
  | .removed session, .go =>
    if session ∈ s.closed then some (s, [])
    else some ({ s with closed := session :: s.closed }, [.closing session])
  | .closing _, .go => some (s, [])
  | _, _ => none

inductive Call where
  | openSession
  | rpc (sessionId : Nat)
  | openInbound (sessionId : Nat)
  | closeInbound (streamId : Nat)
  | closeSession (sessionId : Nat)

def call (c : Call) (s : State) : State × List Thread :=
  match c with
  | .openSession => (s, [.openingSession])
  | .rpc sessionId => (s, if sessionId ∈ s.sessions then [.rpcQueued sessionId] else [])
  | .openInbound sessionId =>
    (s, if sessionId ∈ s.sessions then [.openInboundQueued sessionId] else [])
  | .closeInbound streamId =>
    (if streamId ∈ s.inboundStreams.map (·.1) then s.cancel [streamId] else s, [])
  | .closeSession sessionId => (s, [.closeSession sessionId])

def program : Program State Thread Call Input := ⟨call, step⟩

def init (s : State) : Prop := s = State.initial

/-! ## Who uses a session -/

/-- The session of which the thread runs `rpc`, `openInbound` or a reader, or is still going to. -/
def Thread.uses : Thread → Option Nat
  | .rpcQueued session => some session
  | .rpc session => some session
  | .openInboundQueued session => some session
  | .openInbound session => some session
  | .registering session => some session
  | .readerLoop session _ => some session
  | .reading session _ => some session
  | .readerClosing session _ => some session
  | _ => none

/-- The stream of a reader that has not closed it yet. -/
def Thread.stream : Thread → Option Nat
  | .readerLoop _ stream => some stream
  | .reading _ stream => some stream
  | .readerClosing _ stream => some stream
  | _ => none

/-- The session that the thread has taken out of the map, to close it. -/
def Thread.closes : Thread → Option Nat
  | .removed session => some session
  | .closing session => some session
  | _ => none

/-- `close()` has begun on no session that a thread uses. -/
def NoneInUse (w : Pool State Thread) : Prop :=
  ∀ session ∈ w.shared.closed, ∀ t ∈ w.threads, t.uses ≠ some session

end NativeSessions
