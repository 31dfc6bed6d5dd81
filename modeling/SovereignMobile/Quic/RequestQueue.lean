import SovereignMobile.Collections.LinkedMap
import SovereignMobile.Threads.Basic

/-! # Authenticated requests

The per-identity request queue of `NativeQuicModule.kt` and `NativeQuicModule.swift`. A request waits
in `quinnRequestQueue`; the first one of an identity starts a worker, which connects, checks whom it
has reached, and sends one request after the other. `connectionLock` guards the queue and the latch
`quinnHandshakeInProgress`, and what runs under it is one step. The two platforms share the text of
most functions. What goes into a native request, and the session id prefixes that the responses carry,
are left out. -/

namespace QuicRequests

open Threads

inductive Platform where
  | android
  | ios
deriving DecidableEq

/-- The app as built: the platform, and whether it is a debug build. -/
structure Build where
  platform : Platform
  debug : Bool

/-- History: the DID that the handshake found, and how often the validator had been switched when it
    returned. -/
structure Connection where
  peerDid : String
  switches : Nat
deriving DecidableEq

/-- `promise` numbers the promises. History: how often the validator had been switched when the request
    was enqueued, and the DID expected then. -/
structure QuinnQueuedRequest where
  promise : Nat
  switches : Nat
  expectedDid : String
deriving DecidableEq

structure Response where
  status : Int
  statusText : String
  body : String
  ok : Bool
deriving DecidableEq

inductive Settlement where
  | resolved (response : Response)
  | rejected (code message : String)
deriving DecidableEq

/-- History: the number of requests so far and of switches, every request that was taken from the queue
    with the connection it was sent over, and every settlement of a promise. -/
structure State where
  quinnRequestQueue : LinkedMap String (List QuinnQueuedRequest)
  quinnHandshakeInProgress : List String
  activeExpectedDid : String
  enqueued : Nat
  switches : Nat
  sent : List (QuinnQueuedRequest × Connection)
  settled : List (Nat × Settlement)

/-- The DID of the primary bootstrap gateway is the first one expected; it may be missing. -/
def State.initial (expectedDid : String) : State where
  quinnRequestQueue := .empty
  quinnHandshakeInProgress := []
  activeExpectedDid := expectedDid
  enqueued := 0
  switches := 0
  sent := []
  settled := []

namespace State

/-- The queue of the identity; a missing entry and an empty one mean the same. -/
def queue (s : State) (identityId : String) : List QuinnQueuedRequest :=
  (s.quinnRequestQueue.get identityId).getD []

/-- All that is queued, as `quinnRequestQueue.values.flatten()`. -/
def queued (s : State) : List QuinnQueuedRequest := s.quinnRequestQueue.values.flatten

def request (s : State) : QuinnQueuedRequest := ⟨s.enqueued, s.switches, s.activeExpectedDid⟩

/-- Whether the caller owns the handshake slot and has to start a worker. -/
def shouldStart (s : State) (identityId : String) : Bool :=
  identityId ∉ s.quinnHandshakeInProgress

/-- `addToQueueAndShouldStart` -/
def addToQueue (identityId : String) (s : State) : State :=
  { s with
    quinnRequestQueue := s.quinnRequestQueue.put identityId (s.queue identityId ++ [s.request])
    quinnHandshakeInProgress :=
      if s.shouldStart identityId then identityId :: s.quinnHandshakeInProgress
      else s.quinnHandshakeInProgress
    enqueued := s.enqueued + 1 }

/-- `quinnRequestQueue.remove(identityId)` and `quinnHandshakeInProgress.remove(identityId)` -/
def release (identityId : String) (s : State) : State :=
  { s with
    quinnRequestQueue := s.quinnRequestQueue.remove identityId
    quinnHandshakeInProgress := s.quinnHandshakeInProgress.filter (· ≠ identityId) }

/-- The queue without its first request. Swift drops the entry with its last request. -/
def withoutFirst (P : Platform) (identityId : String) (rest : List QuinnQueuedRequest)
    (q : LinkedMap String (List QuinnQueuedRequest)) : LinkedMap String (List QuinnQueuedRequest) :=
  match P, rest with
  | .ios, [] => q.remove identityId
  | _, _ => q.put identityId rest

/-- `queue.removeAt(0)`; the connection `c` is about to carry the request. -/
def take (P : Platform) (identityId : String) (c : Connection) (r : QuinnQueuedRequest)
    (rest : List QuinnQueuedRequest) (s : State) : State :=
  { s with
    quinnRequestQueue := withoutFirst P identityId rest s.quinnRequestQueue
    sent := (r, c) :: s.sent }

def settle (r : QuinnQueuedRequest) (x : Settlement) (s : State) : State :=
  { s with settled := (r.promise, x) :: s.settled }

/-- The queue and the latches are cleared. -/
def clear (s : State) : State :=
  { s with
    quinnRequestQueue := .empty
    quinnHandshakeInProgress := [] }

def setActiveValidator (host : String) (port : Int) (expectedDid : String) (s : State) :
    Except String State :=
  if host = "" then .error "host is required"
  else if port ≤ 0 ∨ 65536 ≤ port then .error "port must be 1..65535"
  else if expectedDid = "" then
    .error "expectedDid is required (no SPKI pinning — identity is the DID)"
  else
    .ok { s.clear with
      activeExpectedDid := expectedDid
      switches := s.switches + 1 }

end State

/-! ## Answers of the native side -/

structure NativeResult where
  status : Option Int
  statusText : Option String
  body : Option String
  ok : Option Bool
  error : Option String

/-- `handleStringResponse`; the native call may return null. -/
def handleStringResponse (result : Option NativeResult) : Settlement :=
  let status := (result.bind (·.status)).getD 0
  let response : Response :=
    { status := status
      statusText := (result.bind (·.statusText)).getD ""
      body := (result.bind (·.body)).getD ""
      ok := (result.bind (·.ok)).getD false }
  match result.bind (·.error) with
  | some error => if status = 0 then .rejected "QUIC_ERROR" error else .resolved response
  | none => .resolved response

/-- The `switch requestResult` of `drainQuinnQueue`. -/
def settlementOf : Except String (UInt16 × List UInt8) → Settlement
  | .ok (status, body) =>
    let ok := 200 ≤ status && status < 300
    .resolved
      { status := status.toNat
        statusText := if ok then "OK" else "Error"
        body := (String.fromUTF8? ⟨body.toArray⟩).getD ""
        ok := ok }
  | .error error => .rejected "QUIC_ERROR" error

/-- What a native request returns on each platform. -/
inductive Answer where
  | android (result : Option NativeResult)
  | ios (result : Except String (UInt16 × List UInt8))

def Answer.settlement : Answer → Settlement
  | .android result => handleStringResponse result
  | .ios result => settlementOf result

def Answer.platform : Answer → Platform
  | .android _ => .android
  | .ios _ => .ios

/-! ## The threads -/

/-- Where a thread stands: before it loads the identity, in the handshake, before it compares the DID
    of the peer, before it derives the MAC key (iOS), before `failQuinnQueue`, before it looks into the
    queue, and in a request. `rejecting` is what is left of `failQuinnQueue` and of `cancelAll`. -/
inductive Thread where
  | starting (identityId : String)
  | handshaking (identityId : String)
  | connected (identityId : String) (c : Connection)
  | accepted (identityId : String) (c : Connection)
  | failing (identityId : String) (error : String)
  | draining (identityId : String) (c : Connection)
  | sending (identityId : String) (c : Connection) (r : QuinnQueuedRequest)
  | rejecting (code message : String) (queued : List QuinnQueuedRequest)

/-- What comes back to a thread. Android learns only whether the identity was found; a handshake fails
    with a text or without one, and may leave the DID out. `throws` is an exception that nothing
    catches. -/
inductive Input where
  | go
  | identity (r : Except String Unit)
  | handshake (r : Except (Option String) (Option String))
  | macKey (r : Except String Unit)
  | answer (a : Answer)
  | throws

def identityError (P : Platform) (identityId error : String) : String :=
  match P with
  | .android => "Identity not found for " ++ identityId
  | .ios => error

def handshakeError (P : Platform) (error : Option String) : String :=
  match P with
  | .android => error.getD "Handshake failed"
  | .ios => error.getD "unknown error"

/-- The DID that the handshake reports, or why there is none. -/
def peerDidOf (P : Platform) (peerDid : Option String) : Except String String :=
  match P, peerDid with
  | _, some did => .ok did
  | .android, none => .ok ""
  | .ios, none => .error "Server DID missing"

/-- The comparison with `activeExpectedDid`, as both platforms have it. -/
def checkDid (debug : Bool) (expectedDid peerDid : String) : Except String Unit :=
  if expectedDid = "" then
    if debug then .ok ()
    else .error "No expected DID configured — refusing handshake (set BOOTSTRAP_GATEWAY_DID in .env)"
  else if peerDid ≠ expectedDid then
    .error ("Peer DID mismatch — expected " ++ expectedDid ++ ", got " ++ peerDid)
  else .ok ()

/-- What `failQuinnQueue` rejects with. -/
def failureMessage (P : Platform) (error : String) : String :=
  match P with
  | .android => error
  | .ios => "UHP handshake failed: " ++ error

/-- After the DID has been accepted. -/
def proceed (P : Platform) (identityId : String) (c : Connection) : Thread :=
  match P with
  | .android => .draining identityId c
  | .ios => .accepted identityId c

section Steps
variable (B : Build)

/-- The locked part of `drainQuinnQueue`. -/
def drainQuinnQueue (identityId : String) (c : Connection) (s : State) : State × List Thread :=
  match s.queue identityId with
  | [] => (s.release identityId, [])
  | r :: rest => (s.take B.platform identityId c r rest, [.sending identityId c r])

/-- The locked part of `failQuinnQueue`. -/
def failQuinnQueue (identityId error : String) (s : State) : State × List Thread :=
  (s.release identityId,
    [.rejecting "QUIC_ERROR" (failureMessage B.platform error) (s.queue identityId)])

def step (t : Thread) (x : Input) (s : State) : Option (State × List Thread) :=
  match t, x with
  | _, .throws => if B.platform = .android then some (s, []) else none
  | .starting id, .identity (.ok _) => some (s, [.handshaking id])
  | .starting id, .identity (.error e) =>
    some (s, [.failing id (identityError B.platform id e)])
  | .handshaking id, .handshake (.error e) =>
    some (s, [.failing id (handshakeError B.platform e)])
  | .handshaking id, .handshake (.ok did) =>
    match peerDidOf B.platform did with
    | .ok peerDid => some (s, [.connected id ⟨peerDid, s.switches⟩])
    | .error e => some (s, [.failing id e])
  | .connected id c, .go =>
    match checkDid B.debug s.activeExpectedDid c.peerDid with
    | .ok _ => some (s, [proceed B.platform id c])
    | .error e => some (s, [.failing id e])
  | .accepted id c, .macKey (.ok _) => some (s, [.draining id c])
  | .accepted id _, .macKey (.error e) => some (s, [.failing id e])
  | .failing id e, .go => some (failQuinnQueue B id e s)
  | .draining id c, .go => some (drainQuinnQueue B id c s)
  | .sending id c r, .answer a =>
    if a.platform = B.platform then some (s.settle r a.settlement, [.draining id c]) else none
  | .rejecting code message (r :: rs), .go =>
    some (s.settle r (.rejected code message), [.rejecting code message rs])
  | .rejecting _ _ [], .go => some (s, [])
  | _, _ => none

/-- `enqueueAuthenticatedRequest` and `enqueueQuinnRequest`. -/
def enqueue (identityId : String) (s : State) : State × List Thread :=
  (s.addToQueue identityId, if s.shouldStart identityId then [.starting identityId] else [])

/-- Android rejects what was queued. -/
def cancelAll (s : State) : State × List Thread :=
  match B.platform with
  | .android => (s.clear, [.rejecting "QUIC_CANCELLED" "Session reset" s.queued])
  | .ios => (s.clear, [])

inductive Call where
  | request (identityId : String)
  | cancelAll
  | setActiveValidator (host : String) (port : Int) (expectedDid : String)

def call (c : Call) (s : State) : State × List Thread :=
  match c with
  | .request id => enqueue id s
  | .cancelAll => cancelAll B s
  | .setActiveValidator host port did =>
    match s.setActiveValidator host port did with
    | .ok s' => (s', [])
    | .error _ => (s, [])

def program : Program State Thread Call Input where
  call := call B
  step := step B

def init (s : State) : Prop := ∃ did, s = State.initial did

end Steps

variable {B : Build}

variable {s s' : State} {t t' : Thread} {id : String}

theorem setActiveValidator_ok {host did : String} {port : Int}
    (h : s.setActiveValidator host port did = .ok s') :
    did ≠ "" ∧ s' = { s.clear with activeExpectedDid := did, switches := s.switches + 1 } := by
  unfold State.setActiveValidator at h
  split at h
  · simp at h
  split at h
  · simp at h
  split at h
  · simp at h
  · rename_i hdid
    exact ⟨hdid, (Except.ok.inj h).symm⟩

/-! ## What a step can do -/

/-- The identity that a worker runs for, until it gives back the latch. -/
def Thread.identity : Thread → Option String
  | .starting id => some id
  | .handshaking id => some id
  | .connected id _ => some id
  | .accepted id _ => some id
  | .failing id _ => some id
  | .draining id _ => some id
  | .sending id _ _ => some id
  | .rejecting _ _ _ => none

/-- The requests that the thread has taken and not settled yet. -/
def Thread.held : Thread → List QuinnQueuedRequest
  | .sending _ _ r => [r]
  | .rejecting _ _ queued => queued
  | _ => []

/-- A worker goes on without touching the shared state. -/
inductive Moves (B : Build) (s : State) (id : String) : Thread → Thread → Prop where
  | givesUp (t : Thread) (error : String) : t.identity = some id → t.held = [] →
      Moves B s id t (.failing id error)
  | loads : Moves B s id (.starting id) (.handshaking id)
  | connects (peerDid : String) :
      Moves B s id (.handshaking id) (.connected id ⟨peerDid, s.switches⟩)
  | accepts (c : Connection) : checkDid B.debug s.activeExpectedDid c.peerDid = .ok () →
      Moves B s id (.connected id c) (proceed B.platform id c)
  | derives (c : Connection) : Moves B s id (.accepted id c) (.draining id c)

inductive Outcome (B : Build) (s : State) : Thread → Input → State → List Thread → Prop where
  | throws (t : Thread) : Outcome B s t .throws s []
  | moves (id : String) {t t' : Thread} (x : Input) : Moves B s id t t' → Outcome B s t x s [t']
  | fails (id error message : String) : Outcome B s (.failing id error) .go (s.release id)
      [.rejecting "QUIC_ERROR" message (s.queue id)]
  | drained (id : String) (c : Connection) : s.queue id = [] →
      Outcome B s (.draining id c) .go (s.release id) []
  | takes (id : String) (c : Connection) (r : QuinnQueuedRequest) (rest : List QuinnQueuedRequest) :
      s.queue id = r :: rest →
      Outcome B s (.draining id c) .go (s.take B.platform id c r rest) [.sending id c r]
  | answered (id : String) (c : Connection) (r : QuinnQueuedRequest) (a : Answer) :
      Outcome B s (.sending id c r) (.answer a) (s.settle r a.settlement) [.draining id c]
  | rejects (code message : String) (r : QuinnQueuedRequest) (rs : List QuinnQueuedRequest) :
      Outcome B s (.rejecting code message (r :: rs)) .go (s.settle r (.rejected code message))
        [.rejecting code message rs]
  | rejected (code message : String) : Outcome B s (.rejecting code message []) .go s []

theorem step_outcome {x : Input} {ts : List Thread} (h : step B t x s = some (s', ts)) :
    Outcome B s t x s' ts := by
  unfold step at h
  split at h
  · split at h
    · cases h
      exact .throws t
    · simp at h
  · cases h
    exact .moves _ _ .loads
  · cases h
    exact .moves _ _ (.givesUp _ _ rfl rfl)
  · cases h
    exact .moves _ _ (.givesUp _ _ rfl rfl)
  · split at h
    · cases h
      exact .moves _ _ (.connects _)
    · cases h
      exact .moves _ _ (.givesUp _ _ rfl rfl)
  · split at h
    · rename_i hcheck
      cases h
      exact .moves _ _ (.accepts _ hcheck)
    · cases h
      exact .moves _ _ (.givesUp _ _ rfl rfl)
  · cases h
    exact .moves _ _ (.derives _)
  · cases h
    exact .moves _ _ (.givesUp _ _ rfl rfl)
  · cases h
    exact .fails _ _ _
  · rename_i id c
    unfold drainQuinnQueue at h
    split at h
    · rename_i hq
      cases h
      exact .drained _ _ hq
    · rename_i r rest hq
      cases h
      exact .takes _ _ r rest hq
  · split at h
    · cases h
      exact .answered _ _ _ _
    · simp at h
  · cases h
    exact .rejects _ _ _ _
  · cases h
    exact .rejected _ _
  · simp at h

theorem Moves.identity (h : Moves B s id t t') : t.identity = some id ∧ t'.identity = some id := by
  cases h with
  | givesUp _ _ ht _ => exact ⟨ht, rfl⟩
  | accepts c _ =>
    refine ⟨rfl, ?_⟩
    unfold proceed
    split <;> rfl
  | _ => exact ⟨rfl, rfl⟩

theorem Moves.held (h : Moves B s id t t') : t.held = [] ∧ t'.held = [] := by
  cases h with
  | givesUp _ _ _ ht => exact ⟨ht, rfl⟩
  | accepts c _ =>
    refine ⟨rfl, ?_⟩
    unfold proceed
    split <;> rfl
  | _ => exact ⟨rfl, rfl⟩

/-! ## The queues that an operation leaves -/

section Queues
variable {s : State}

theorem queue_release (id id' : String) :
    (s.release id).queue id' = if id = id' then [] else s.queue id' := by
  show ((s.quinnRequestQueue.remove id).get id').getD [] = _
  rw [LinkedMap.get_remove]
  split <;> rfl

theorem queue_addToQueue (id id' : String) :
    (s.addToQueue id).queue id' = if id = id' then s.queue id ++ [s.request] else s.queue id' := by
  show ((s.quinnRequestQueue.put id _).get id').getD [] = _
  rw [LinkedMap.get_put]
  split <;> rfl

theorem queue_take (P : Platform) (id id' : String) (c : Connection) (r : QuinnQueuedRequest)
    (rest : List QuinnQueuedRequest) :
    (s.take P id c r rest).queue id' = if id = id' then rest else s.queue id' := by
  have hput : ((s.quinnRequestQueue.put id rest).get id').getD [] =
      if id = id' then rest else s.queue id' := by
    rw [LinkedMap.get_put]
    split <;> rfl
  show ((State.withoutFirst P id rest s.quinnRequestQueue).get id').getD [] = _
  unfold State.withoutFirst
  split
  · rw [LinkedMap.get_remove]
    split <;> rfl
  · exact hput

end Queues

end QuicRequests
