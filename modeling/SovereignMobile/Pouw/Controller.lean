import SovereignMobile.EventLoop.Safety
import Mathlib.Data.List.Perm.Basic

/-! # The TypeScript receipt controller

`PoUWController.ts`: receipts are created and signed one by one, collected in `pendingReceipts` and
submitted in batches by a timer, by `flush`, by `stop` and when enough have piled up. The network, the
identity module and the clock are the calls of an event-loop machine; a firing of the interval timer
is a top-level program of its own. -/

namespace PoUWController

open EventLoop

inductive ProofType where
  | hash
  | merkle
  | signature
  | web4manifestroute
  | web4contentserved
deriving DecidableEq

structure Receipt where
  version : Nat
  task_id : String
  client_did : String
  client_node_id : String
  provider_id : String
  content_id : String
  proof_type : ProofType
  bytes_verified : Nat
  result_ok : Bool
  started_at : Int
  finished_at : Int
  receipt_nonce : String
  challenge_nonce : String
  aux : String
deriving DecidableEq

/-- A signed receipt; `ref` is the object that was pushed, as opposed to an equal one. -/
structure SignedReceipt where
  ref : Nat
  receipt : Receipt
  sig_scheme : String
  signature : String
deriving DecidableEq

structure ReceiptBatch where
  version : Nat
  client_did : String
  receipts : List SignedReceipt
deriving DecidableEq

/-- A challenge, as far as the controller reads it. -/
structure ChallengeToken where
  task_id : String
  challenge_nonce : String
  expires_at : Int
  allowed_proof_types : List ProofType
deriving DecidableEq

def POUW_VERSION : Nat := 1

/-- The fields of the controller with its configuration and `nowSecs()`, and the intervals that were
    set and not cleared. History: the receipts pushed so far, the batches that were sent, those of
    them whose request is under way or has resolved, and the `stop` calls that have not returned. -/
structure State where
  maxBatchSize : Int
  pendingReceipts : List SignedReceipt
  activeChallenge : Option ChallengeToken
  batchTimer : Option Nat
  clientDid : Option String
  clientNodeId : Option String
  isRunning : Bool
  nowSecs : Int
  intervals : List Nat
  nextInterval : Nat
  pushed : List SignedReceipt
  sent : List ReceiptBatch
  inFlight : List (Nat × ReceiptBatch)
  resolved : List ReceiptBatch
  stopping : List Nat

/-- `new PoUWController(config)` -/
def State.new (maxBatchSize nowSecs : Int) : State where
  maxBatchSize := maxBatchSize
  pendingReceipts := []
  activeChallenge := none
  batchTimer := none
  clientDid := none
  clientNodeId := none
  isRunning := false
  nowSecs := nowSecs
  intervals := []
  nextInterval := 0
  pushed := []
  sent := []
  inFlight := []
  resolved := []
  stopping := []

/-! ## Synchronous steps -/

inductive Op where
  | setClientDid (did : String)
  | setClientNodeId (hex : String)
  | setChallenge (challenge : Option ChallengeToken)
  | setInterval
  | clearInterval
  | setStopped
  | push (receipt : Receipt) (signature : String)
  | splice
  | resolve (n : Nat)
  | unshift (n : Nat)

/-- A value that is neither missing nor the empty string. -/
def truthy : Option String → Option String
  | some x => if x = "" then none else some x
  | none => none

/-- The batch that `submitBatch` would send, if it sends one. -/
def State.nextBatch (s : State) : Option ReceiptBatch :=
  if s.pendingReceipts.isEmpty then none
  else (truthy s.clientDid).map fun did =>
    ⟨POUW_VERSION, did, s.pendingReceipts.take s.maxBatchSize.toNat⟩

/-- `this.pendingReceipts.splice(0, this.config.maxBatchSize)` for that batch, which is sent. -/
def State.splice (s : State) : State :=
  match s.nextBatch with
  | none => s
  | some b => { s with
      pendingReceipts := s.pendingReceipts.drop s.maxBatchSize.toNat,
      sent := s.sent ++ [b],
      inFlight := s.inFlight ++ [(s.sent.length, b)] }

/-- The batch number `n` and the batches under way without it. -/
def State.inFlightBatch (n : Nat) (s : State) : Option (ReceiptBatch × List (Nat × ReceiptBatch)) :=
  (s.inFlight.find? fun x => x.1 = n).map fun x => (x.2, s.inFlight.erase x)

/-- The request of batch `n` resolves. -/
def State.resolve (n : Nat) (s : State) : State :=
  match s.inFlightBatch n with
  | none => s
  | some (b, others) => { s with inFlight := others, resolved := s.resolved ++ [b] }

/-- The request of batch `n` is rejected: `this.pendingReceipts.unshift(...toSubmit)` -/
def State.unshift (n : Nat) (s : State) : State :=
  match s.inFlightBatch n with
  | none => s
  | some (b, others) =>
    { s with inFlight := others, pendingReceipts := b.receipts ++ s.pendingReceipts }

def State.push (receipt : Receipt) (signature : String) (s : State) : State :=
  let signed : SignedReceipt := ⟨s.pushed.length, receipt, "dilithium5", signature⟩
  { s with pendingReceipts := s.pendingReceipts ++ [signed], pushed := s.pushed ++ [signed] }

/-- The interval starts ticking, and in the same turn `this.isRunning = true`. -/
def State.setInterval (s : State) : State :=
  { s with
    batchTimer := some s.nextInterval,
    intervals := s.intervals ++ [s.nextInterval],
    nextInterval := s.nextInterval + 1,
    isRunning := true }

/-- The first statement of `stop`. -/
def State.clearInterval (s : State) : State :=
  match s.batchTimer with
  | none => s
  | some t => { s with batchTimer := none, intervals := s.intervals.filter fun x => x ≠ t }

def apply (i : Nat) (o : Op) (s : State) : State :=
  match o with
  | .setClientDid did => { s with clientDid := some did }
  | .setClientNodeId hex => { s with clientNodeId := some hex }
  | .setChallenge challenge => { s with activeChallenge := challenge }
  | .setInterval => s.setInterval
  | .clearInterval => { s.clearInterval with stopping := s.stopping ++ [i] }
  | .setStopped => { s with isRunning := false, stopping := s.stopping.filter fun x => x ≠ i }
  | .push receipt signature => s.push receipt signature
  | .splice => s.splice
  | .resolve n => s.resolve n
  | .unshift n => s.unshift n

/-! ## Calls -/

structure PublicIdentity where
  did : String
  nodeIdHex : Option String

/-- The awaited calls. `tick` is the turn between the end of an awaited function and its caller;
    `challenge` is the request together with `parseChallengeAny`. -/
inductive Call where
  | tick
  | getPublicIdentity
  | challenge (cap : Option (List ProofType)) (proofTypes : List ProofType)
  | signPouwReceipt (receipt : Receipt)
  | submit (batch : ReceiptBatch)

abbrev Ret : Call → Type
  | .tick => Unit
  | .getPublicIdentity => PublicIdentity
  | .challenge _ _ => Option ChallengeToken
  | .signPouwReceipt _ => String
  | .submit _ => Unit

inductive Answer where
  | ok
  | fail (message : String)
  | identity (identity : PublicIdentity)
  | challenge (parsed : Option ChallengeToken)
  | signature (hex : String)

/-- The outcome of a call, and `nowSecs()` at that time. -/
structure Reply where
  nowSecs : Int
  answer : Answer

def outcome (c : Call) (a : Answer) : Option (Except String (Ret c)) :=
  match c, a with
  | .tick, _ => some (.ok ())
  | .getPublicIdentity, .identity x => some (.ok x)
  | .challenge _ _, .challenge x => some (.ok x)
  | .signPouwReceipt _, .signature x => some (.ok x)
  | .submit _, .ok => some (.ok ())
  | _, .fail message => some (.error message)
  | _, _ => none

def perform (_i : Nat) (c : Call) (r : Reply) (s : State) :
    Option (State × Except String (Ret c)) :=
  (outcome c r.answer).map fun x => ({ s with nowSecs := r.nowSecs }, x)

abbrev machine : Machine where
  State := State
  Op := Op
  Call := Call
  Ret := Ret
  Err := String
  Reply := Reply
  apply := apply
  perform := perform

/-! ## The asynchronous functions -/

abbrev Prog := Async machine

def read : Prog State := Async.get

def exec (o : Op) : Prog Unit := Async.op (M := machine) o

def call (c : Call) : Prog (Ret c) := Async.await (M := machine) c

def fail {α : Type} (message : String) : Prog α := Async.throw (M := machine) message

def ofExcept {α : Type} : Except String α → Prog α
  | .ok a => pure a
  | .error e => fail e

/-- `await f(…)` for an asynchronous function `f` -/
def awaitFn {α : Type} (m : Prog α) : Prog α :=
  Async.settle m fun r => do
    let _ ← call .tick
    ofExcept r

def isChallengeValidForProofs (nowSecs : Int) (challenge : Option ChallengeToken)
    (proofTypes : List ProofType) : Bool :=
  match challenge with
  | none => false
  | some c =>
    -- one that expires within 30 seconds is not used any more
    if c.expires_at ≤ nowSecs + 30 then false
    else proofTypes.all fun pt => c.allowed_proof_types.contains pt

/-- The request without a `cap`, for nodes that reject unknown values. -/
def fallbackChallenge (proofTypes : List ProofType) : Prog Unit :=
  Async.settle (call (.challenge none proofTypes)) fun
    | .ok (some parsed) =>
      if parsed.allowed_proof_types.any fun pt => proofTypes.contains pt then
        exec (.setChallenge (some parsed))
      else exec (.setChallenge none)
    | .ok none => exec (.setChallenge none)
    | .error _ => exec (.setChallenge none)

def refreshChallenge (proofTypes : List ProofType) : Prog Unit :=
  Async.settle (call (.challenge (some proofTypes) proofTypes)) fun
    | .ok (some parsed) =>
      if proofTypes.all fun pt => parsed.allowed_proof_types.contains pt then
        exec (.setChallenge (some parsed))
      else fallbackChallenge proofTypes
    | .ok none => fallbackChallenge proofTypes
    | .error _ => fallbackChallenge proofTypes

/-- `this.activeChallenge?.policy.allowed_proof_types.includes('hash')` -/
def State.hashFallback (s : State) : Bool :=
  match s.activeChallenge with
  | none => false
  | some c => c.allowed_proof_types.contains .hash

def ensureChallenge (proofTypes : List ProofType) : Prog Unit := do
  let s ← read
  if isChallengeValidForProofs s.nowSecs s.activeChallenge proofTypes then pure ()
  else do
    Async.tryCatch (awaitFn (refreshChallenge proofTypes)) fun _ => pure ()
    let s ← read
    if isChallengeValidForProofs s.nowSecs s.activeChallenge proofTypes || s.hashFallback then
      pure ()
    else fail "No compatible PoUW challenge for requested proof types"

/-- `true` if there was something to send. The response itself is passed on unread. -/
def submitBatch : Prog Bool := do
  let s ← read
  match s.nextBatch with
  | none => pure false
  | some b => do
    exec .splice
    Async.settle (call (.submit b)) fun
      | .ok _ => do
        exec (.resolve s.sent.length)
        pure true
      | .error _ => do
        -- back to the front, under whichever identity the next batch is sent
        exec (.unshift s.sent.length)
        pure false

/-- The proof type that goes into a receipt under the challenge `c`. -/
def effectiveProofType (c : ChallengeToken) (proofType : ProofType) : Option ProofType :=
  if c.allowed_proof_types.contains proofType then some proofType
  else if c.allowed_proof_types.contains .hash then some .hash
  else none

/-- What a caller asks a receipt for, with the random bytes drawn for it. -/
structure ReceiptRequest where
  proofType : ProofType
  bytesVerified : Nat
  aux : String
  contentId : String
  receiptNonce : String
deriving DecidableEq

def newReceipt (q : ReceiptRequest) (c : ChallengeToken) (clientDid clientNodeId : String)
    (proofType : ProofType) (now : Int) : Receipt where
  version := POUW_VERSION
  task_id := c.task_id
  client_did := clientDid
  client_node_id := clientNodeId
  provider_id := ""
  content_id := q.contentId
  proof_type := proofType
  bytes_verified := q.bytesVerified
  result_ok := true
  started_at := now - 1
  finished_at := now
  receipt_nonce := q.receiptNonce
  challenge_nonce := c.challenge_nonce
  aux := q.aux

/-- Sign the receipt, push it, and submit when enough have piled up. -/
def signAndQueue (receipt : Receipt) : Prog Unit := do
  let signature ← awaitFn (call (.signPouwReceipt receipt))
  exec (.push receipt signature)
  let s ← read
  if s.maxBatchSize ≤ s.pendingReceipts.length then do
    let _ ← awaitFn submitBatch
    pure ()
  else pure ()

def createAndQueueReceipt (q : ReceiptRequest) : Prog Unit := do
  awaitFn (ensureChallenge [q.proofType])
  let s ← read
  match s.activeChallenge, truthy s.clientDid, truthy s.clientNodeId with
  | some c, some clientDid, some clientNodeId =>
    match effectiveProofType c q.proofType with
    | none => fail "Challenge policy does not allow requested proof_type"
    | some pt => signAndQueue (newReceipt q c clientDid clientNodeId pt s.nowSecs)
  -- the caller is not told that there will be no receipt
  | _, _, _ => pure ()

def start : Prog Unit := do
  let s ← read
  -- the flag that is looked at here is set after the last `await` only
  if s.isRunning then pure ()
  else do
    let identity ← call .getPublicIdentity
    exec (.setClientDid identity.did)
    match identity.nodeIdHex with
    | none => fail "base64ToHex"
    | some hex => do
      exec (.setClientNodeId hex)
      awaitFn (refreshChallenge [.web4manifestroute, .web4contentserved])
      exec .setInterval

def stop : Prog Unit := do
  exec .clearInterval
  let _ ← awaitFn submitBatch
  exec .setStopped

/-- The callback of the interval `t`, which no longer runs once `t` is cleared. -/
def tick (t : Nat) : Prog Unit := do
  let s ← read
  if s.intervals.contains t then do
    let _ ← submitBatch
    pure ()
  else pure ()

inductive Cmd where
  | start
  | stop
  | flush
  | createAndQueueReceipt (q : ReceiptRequest)
  | tick (t : Nat)

def prog : Cmd → Task machine
  | .start => start.toTask
  | .stop => stop.toTask
  | .flush => submitBatch.toTask
  | .createAndQueueReceipt q => (createAndQueueReceipt q).toTask
  | .tick t => (tick t).toTask

end PoUWController
