import Mathlib.Algebra.Group.Nat.Defs
import SovereignMobile.EventLoop.Basic

/-! # The inbound subscription

The push stream of `MessagingService.ts` (`startInboundSubscription`, `stopInboundSubscription` and
what calls them) over the per-stream dispatcher of `NativeQuicSession.ts`. What runs between two
suspension points is a function on the state under the source's name; `openBody` is the asynchronous
part of a start. The native side opens streams and reports frames, closes and errors of any stream at
any moment. -/

namespace Inbound

open EventLoop

/-- A UUID that the native side makes for each stream. -/
abbrev StreamId := Nat

/-- The bytes of one `MessageEnvelope`; the base64 that the bridge wraps them in is left out. -/
abbrev Frame := List UInt8

inductive InboundEvent where
  | frame (bytes : Frame)
  | closed
  | error (message : String)
deriving DecidableEq

def InboundEvent.ends : InboundEvent → Bool
  | .frame _ => false
  | .closed => true
  | .error _ => true

/-- The promise in `inboundOpenInFlight`, with the task whose start made it. -/
structure OpenPromise where
  owner : Nat
  settled : Bool
deriving DecidableEq

/-- The module variables of the two files, the pending timeouts and the native side. History:
    `started` once a start got past the bridge check, the streams that `openInbound` returned, that
    the native side reported closed or failed, whose subscriber was told so, and that were passed to
    `closeInbound`; `afterStop` holds the frames passed to `ingestEnvelopes` since the last
    `stopInboundSubscription`, up to the next call of `startInboundSubscription`. -/
structure State where
  inboundStreamId : Option StreamId
  inboundUnsubscribe : Option StreamId
  inboundOpenInFlight : Option OpenPromise
  inboundReopenTimer : Option Nat
  inboundReopenAttempts : Nat
  inboundStopped : Bool
  inboundConsecutiveFailures : Nat
  inboundSubscriptionOffline : Bool
  inboundCapHitAtMs : Option Int
  inboundConsumerCount : Nat
  subscribersByStreamId : List StreamId
  bufferedEventsByStreamId : StreamId → List InboundEvent
  now : Int
  timeouts : List (Nat × Nat)
  nextTimeout : Nat
  issued : List StreamId
  openInboundCalls : Nat
  started : Bool
  returned : List StreamId
  reported : List StreamId
  toldEnded : List StreamId
  closedInbound : List StreamId
  afterStop : Option (List Frame)

def State.initial (now : Int) : State where
  inboundStreamId := none
  inboundUnsubscribe := none
  inboundOpenInFlight := none
  inboundReopenTimer := none
  inboundReopenAttempts := 0
  inboundStopped := false
  inboundConsecutiveFailures := 0
  inboundSubscriptionOffline := false
  inboundCapHitAtMs := none
  inboundConsumerCount := 0
  subscribersByStreamId := []
  bufferedEventsByStreamId := fun _ => []
  now := now
  timeouts := []
  nextTimeout := 0
  issued := []
  openInboundCalls := 0
  started := false
  returned := []
  reported := []
  toldEnded := []
  closedInbound := []
  afterStop := none

def inboundReopenBaseMs : Nat := 2000
def inboundReopenMaxMs : Nat := 30000
def inboundMaxConsecutiveFailures : Nat := 3
def inboundCapQuietMs : Int := 60000

/-- The pending timeouts, each with its delay, after `clearTimeout`. -/
def clearTimeout : Option Nat → List (Nat × Nat) → List (Nat × Nat)
  | none, timeouts => timeouts
  | some timer, timeouts => timeouts.filter (·.1 ≠ timer)

namespace State

/-! ## Re-opening -/

def scheduleInboundReopen (s : State) : State :=
  if s.inboundStopped || s.inboundReopenTimer.isSome then s
  else if inboundMaxConsecutiveFailures ≤ s.inboundConsecutiveFailures then
    { s with inboundCapHitAtMs := some s.now, inboundSubscriptionOffline := true }
  else
    { s with
      inboundConsecutiveFailures := s.inboundConsecutiveFailures + 1
      inboundReopenAttempts := s.inboundReopenAttempts + 1
      inboundReopenTimer := some s.nextTimeout
      timeouts := s.timeouts ++ [(s.nextTimeout,
        min (inboundReopenBaseMs * 2 ^ s.inboundReopenAttempts) inboundReopenMaxMs)]
      nextTimeout := s.nextTimeout + 1 }

/-- `inboundUnsubscribe?.(); inboundUnsubscribe = null` -/
def unsubscribe (s : State) : State :=
  match s.inboundUnsubscribe with
  | none => s
  | some id =>
    { s with
      subscribersByStreamId := s.subscribersByStreamId.filter (· ≠ id)
      bufferedEventsByStreamId := fun x => if x = id then [] else s.bufferedEventsByStreamId x
      inboundUnsubscribe := none }

/-! ## The handlers of a stream -/

/-- `onFrame`: the frame goes to `ingestEnvelopes`. -/
def onFrame (bytes : Frame) (s : State) : State :=
  { s with
    inboundReopenAttempts := 0
    inboundConsecutiveFailures := 0
    inboundCapHitAtMs := none
    inboundSubscriptionOffline := false
    afterStop := s.afterStop.map (· ++ [bytes]) }

/-- History: the subscriber of the stream hears that it has ended. -/
def tell (id : StreamId) (s : State) : State := { s with toldEnded := id :: s.toldEnded }

/-- `onClosed` and `onError`, which differ in what they log. -/
def onEnded (pendingStreamId : StreamId) (s : State) : State :=
  let s := s.tell pendingStreamId
  if s.inboundStreamId = some pendingStreamId then
    scheduleInboundReopen (unsubscribe { s with inboundStreamId := none })
  else s

def handle (pendingStreamId : StreamId) (s : State) : InboundEvent → State
  | .frame bytes => s.onFrame bytes
  | .closed => s.onEnded pendingStreamId
  | .error _ => s.onEnded pendingStreamId

/-- History: the native side reports that the stream has ended. -/
def report (id : StreamId) (e : InboundEvent) (s : State) : State :=
  if e.ends then { s with reported := id :: s.reported } else s

def dispatchOrBuffer (id : StreamId) (e : InboundEvent) (s : State) : State :=
  let s := s.report id e
  if id ∈ s.subscribersByStreamId then s.handle id e
  else
    { s with bufferedEventsByStreamId := fun x =>
        if x = id then s.bufferedEventsByStreamId id ++ [e] else s.bufferedEventsByStreamId x }

def subscribeInbound (id : StreamId) (s : State) : State :=
  (s.bufferedEventsByStreamId id).foldl (handle id)
    { s with
      subscribersByStreamId := id :: s.subscribersByStreamId.filter (· ≠ id)
      bufferedEventsByStreamId := fun x => if x = id then [] else s.bufferedEventsByStreamId x }

/-! ## Starting and stopping -/

/-- The forced start lets go of the stream it finds. -/
def forceCycle (s : State) : State :=
  if s.inboundStreamId.isSome then { s.unsubscribe with inboundStreamId := none } else s

/-- `startInboundSubscription` up to its first `await`, called by task `i`. Where it neither finds
    the stream open nor an open in flight, it begins one. -/
def startInboundSubscription (available : Bool) (i : Nat) (force : Bool) (s : State) : State :=
  let s := { s with afterStop := none }
  if !available then s
  else
    let s := { s with inboundStopped := false, started := true }
    let s := if force then s.forceCycle else s
    if s.inboundStreamId.isSome then s
    else if s.inboundOpenInFlight.isSome then s
    else { s with inboundOpenInFlight := some ⟨i, false⟩ }

/-- Whether that call begins an open. -/
def opens (available force : Bool) (s : State) : Bool :=
  available && (force || s.inboundStreamId.isNone) && s.inboundOpenInFlight.isNone

def closeStream (s : State) : State :=
  match s.inboundStreamId with
  | none => s
  | some id => { s with closedInbound := id :: s.closedInbound, inboundStreamId := none }

def stopInboundSubscription (s : State) : State :=
  let s := { s with
    inboundStopped := true
    timeouts := clearTimeout s.inboundReopenTimer s.timeouts
    inboundReopenTimer := none
    inboundReopenAttempts := 0
    inboundConsecutiveFailures := 0
    inboundCapHitAtMs := none
    inboundSubscriptionOffline := false
    afterStop := some [] }
  s.unsubscribe.closeStream

/-- The rest of the open: the stream came back, its subscriber is attached and the stream published. -/
def opened (id : StreamId) (s : State) : State :=
  let s := subscribeInbound id { s with returned := id :: s.returned }
  { s with
    inboundStreamId := some id
    inboundUnsubscribe := some id
    inboundOpenInFlight := s.inboundOpenInFlight.map fun p => { p with settled := true } }

/-- The open failed, in `getSession` or in `openInbound`. -/
def openFailed (s : State) : State :=
  { s.scheduleInboundReopen with
    inboundOpenInFlight := s.inboundOpenInFlight.map fun p => { p with settled := true } }

end State

/-! ## What calls `startInboundSubscription` -/

inductive Entry where
  | call (force : Bool)
  | registerInboundConsumer
  | resumeInboundOnForeground
  | timeout (timer : Nat)

def State.resetCap (s : State) : State :=
  { s with
    inboundConsecutiveFailures := 0
    inboundCapHitAtMs := none
    inboundSubscriptionOffline := false }

/-- `Date.now() - inboundCapHitAtMs` has reached the quiet period, or there was no cap. -/
def State.quietPeriodElapsed (s : State) : Bool :=
  match s.inboundCapHitAtMs with
  | none => true
  | some at' => inboundCapQuietMs ≤ s.now - at'

def State.timeoutFired (timer : Nat) (s : State) : State :=
  { s with
    timeouts := clearTimeout (some timer) s.timeouts
    inboundReopenTimer := none }

/-- What runs before the call of `startInboundSubscription`, and its argument if it is made. -/
def State.enter (s : State) : Entry → State × Option Bool
  | .call force => (s, some force)
  | .registerInboundConsumer =>
    let s := { s with inboundConsumerCount := s.inboundConsumerCount + 1 }
    if s.inboundConsumerCount = 1 && s.quietPeriodElapsed then (s.resetCap, some false)
    else (s, none)
  | .resumeInboundOnForeground =>
    if s.inboundConsumerCount = 0 then (s, none) else (s.resetCap, some true)
  | .timeout timer =>
    if s.timeouts.any (·.1 = timer) then (s.timeoutFired timer, some false) else (s, none)

/-! ## The machine -/

inductive Op where
  | enter (e : Entry)
  | callOpenInbound
  | opened (id : StreamId)
  | openFailed
  | openDone
  | stop
  | event (id : StreamId) (e : InboundEvent)
  | unregister
  | clock (now : Int)

def Op.apply (available : Bool) (i : Nat) (o : Op) (s : State) : State :=
  match o with
  | .enter e =>
    match s.enter e with
    | (s, none) => s
    | (s, some force) => s.startInboundSubscription available i force
  | .callOpenInbound => { s with openInboundCalls := s.openInboundCalls + 1 }
  | .opened id => s.opened id
  | .openFailed => s.openFailed
  | .openDone => { s with inboundOpenInFlight := none }
  | .stop => s.stopInboundSubscription
  | .event id e => s.dispatchOrBuffer id e
  | .unregister => { s with inboundConsumerCount := s.inboundConsumerCount - 1 }
  | .clock now => { s with now := now }

/-- `openSettled` is the `await` of the open's own promise. -/
inductive Call where
  | getSession
  | openInbound (sessionId : Nat)
  | openSettled

abbrev Ret : Call → Type
  | .getSession => Nat
  | .openInbound _ => StreamId
  | .openSettled => Unit

inductive Reply where
  | ok
  | id (id : Nat)
  | fail (message : String)

def State.openReturned (s : State) : State :=
  { s with openInboundCalls := s.openInboundCalls - 1 }

def State.issue (id : StreamId) (s : State) : State := { s with issued := id :: s.issued }

/-- A stream that `openInbound` returns was never returned before. -/
def Call.perform (c : Call) (r : Reply) (s : State) : Option (State × Except String (Ret c)) :=
  match c with
  | .getSession =>
    match r with
    | .id sessionId => some (s, .ok sessionId)
    | .fail e => some (s, .error e)
    | .ok => none
  | .openInbound _ =>
    match r with
    | .id id =>
      if id ∈ s.issued then none
      else some (s.openReturned.issue id, .ok id)
    | .fail e => some (s.openReturned, .error e)
    | .ok => none
  | .openSettled =>
    match r with
    | .ok => some (s, .ok ())
    | _ => none

abbrev machine (available : Bool) : Machine where
  State := State
  Op := Op
  Call := Call
  Ret := Ret
  Err := String
  Reply := Reply
  apply := Op.apply available
  perform _ := Call.perform

/-! ## The programs -/

abbrev Prog (available : Bool) := Async (machine available)

section
variable {available : Bool}

def Op.run (o : Op) : Prog available Unit := Async.op (M := machine available) o

def getQuicSession : Prog available Nat := Async.await (M := machine available) .getSession

def openInbound (sessionId : Nat) : Prog available StreamId :=
  Async.await (M := machine available) (.openInbound sessionId)

def openSettled : Prog available Unit := Async.await (M := machine available) .openSettled

/-- The promise that `inboundOpenInFlight` holds. -/
def openBody : Prog available Unit :=
  Async.settle getQuicSession fun
    | .error _ => Op.openFailed.run
    | .ok sessionId => do
      Op.callOpenInbound.run
      Async.settle (openInbound sessionId) fun
        | .error _ => Op.openFailed.run
        | .ok pendingStreamId => (Op.opened pendingStreamId).run

def openStream : Prog available Unit := do
  openBody
  openSettled
  Op.openDone.run

/-- Whether the entry leads to an open. -/
def State.entryOpens (available : Bool) (e : Entry) (s : State) : Bool :=
  match s.enter e with
  | (_, none) => false
  | (s, some force) => s.opens available force

def start (e : Entry) : Prog available Unit := do
  let s ← Async.get
  (Op.enter e).run
  if State.entryOpens available e s then openStream else pure ()

end

/-- What happens from outside. A second call of one unregister function does nothing, and is no
    command. -/
inductive Cmd where
  | start (e : Entry)
  | stopInboundSubscription
  | event (id : StreamId) (e : InboundEvent)
  | unregister
  | clock (now : Int)

def prog (available : Bool) : Cmd → Task (machine available)
  | .start e => (start e : Prog available Unit).toTask
  | .stopInboundSubscription => (Op.stop.run : Prog available Unit).toTask
  | .event id e => ((Op.event id e).run : Prog available Unit).toTask
  | .unregister => (Op.unregister.run : Prog available Unit).toTask
  | .clock now => ((Op.clock now).run : Prog available Unit).toTask

def init (s : State) : Prop := ∃ now, s = State.initial now

end Inbound
