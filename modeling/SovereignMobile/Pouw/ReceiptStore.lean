import SovereignMobile.EventLoop.Safety
import SovereignMobile.Collections.KeyedTable
import Mathlib.Data.List.Sort

/-! # The Android receipt database

`ReceiptStore.kt` keeps receipts in a table with the receipt nonce as primary key, and
`processPendingSubmissions` of `PoUWController.kt` submits the pending ones. Each statement of the DAO
and each submission is a call of an event-loop machine: between two of them every other coroutine may
run. -/

namespace ReceiptStore

open EventLoop KeyedTable

abbrev Bytes := List UInt8

inductive ReceiptState where
  | CREATED
  | QUEUED
  | SUBMITTED
  | ACCEPTED
  | REJECTED
  | RETRY_WAIT
deriving DecidableEq

structure ReceiptEntity where
  receiptNonce : Bytes
  taskId : Bytes
  state : ReceiptState
  signedReceiptData : Bytes
  createdAt : Int
  retryCount : Int := 0
  lastError : Option String := none
  clientDid : Option String := none
  clientNodeId : Bytes := List.replicate 32 0
  providerId : Option Bytes := none
  contentId : Bytes := []
  challengeNonce : Bytes := []
  sigScheme : String := "ed25519"
  signature : Bytes := []
  proofType : String := "hash"
  bytesVerified : Int := 0
  resultOk : Bool := true
  startedAt : Int := 0
  finishedAt : Int := 0
deriving DecidableEq

def MAX_RETRY_COUNT : Int := 3

def OLD_RECEIPT_CUTOFF_DAYS : Int := 7

def MAX_BATCH_SIZE : Nat := 100

/-! ## The table -/

/-- `state IN ('CREATED', 'QUEUED', 'RETRY_WAIT')` -/
def ReceiptEntity.isPending (r : ReceiptEntity) : Bool :=
  [ReceiptState.CREATED, .QUEUED, .RETRY_WAIT].contains r.state

/-- `ORDER BY createdAt ASC LIMIT :limit`; rows of the same age come in the order of insertion. -/
def oldestPending (limit : Nat) (rows : List ReceiptEntity) : List ReceiptEntity :=
  ((rows.filter ReceiptEntity.isPending).insertionSort fun a b => a.createdAt ≤ b.createdAt).take limit

/-- Who asks for pending receipts: a flush, or `markRetry` for one receipt. -/
inductive Purpose where
  | flush
  | markRetry (nonce : Bytes) (error : Option String)

/-- The table and the clock. History: the receipts created, the nonces of rows that were set to
    `ACCEPTED` or `REJECTED`, of receipts that were submitted and of those whose submission failed, and
    the receipts that a flush has read and is not done with. -/
structure State where
  receipts : List ReceiptEntity
  currentTimeMillis : Int
  created : List ReceiptEntity
  settled : List Bytes
  submitted : List Bytes
  failures : List Bytes
  held : List (Nat × Bytes)

/-- An empty database. -/
def State.empty (currentTimeMillis : Int) : State where
  receipts := []
  currentTimeMillis := currentTimeMillis
  created := []
  settled := []
  submitted := []
  failures := []
  held := []

/-- `UPDATE receipts SET … WHERE receiptNonce …` -/
def State.updateRows (matching : Bytes → Bool) (f : ReceiptEntity → ReceiptEntity) (s : State) :
    State :=
  { s with receipts := updateWhere (fun r => matching r.receiptNonce) f s.receipts }

/-- The rows with these nonces have reached a final state. -/
def State.settle (matching : Bytes → Bool) (s : State) : State :=
  { s with settled := s.settled ++ (s.receipts.map ReceiptEntity.receiptNonce).filter matching }

/-! ## Calls -/

structure SubmitResponse where
  success : Bool
  acceptedCount : Int
  acceptedNonces : List Bytes
  rejectedNonces : List Bytes

inductive Call where
  | insert (receipt : ReceiptEntity)
  | getPending (limit : Nat) (purpose : Purpose)
  | markAccepted (nonces : List Bytes)
  | markRejected (nonce : Bytes) (reason : String)
  | markRetry (nonce : Bytes)
  | deleteOldAccepted (before : Int)
  | submitBatch (receipts : List ReceiptEntity)

abbrev Ret : Call → Type
  | .getPending _ _ => List ReceiptEntity
  | .submitBatch _ => SubmitResponse
  | _ => Unit

/-- A response body: the two counters as `optInt` reads them if one of them is there, or any other
    text. -/
inductive Body where
  | counters (accepted rejected : Option Int)
  | other

/-- What happens to a call: it goes through, it throws, or for a submission the node answers. -/
inductive Answer where
  | ok
  | throws (message : Option String)
  | http (status : Int) (body : Body) (error : Option String)

/-- The answer, and `System.currentTimeMillis()` at that time. -/
structure Reply where
  currentTimeMillis : Int
  answer : Answer

/-- `coerceIn(low, high)` -/
def coerceIn (x low high : Int) : Int := max low (min x high)

def parseSubmitResponse (body : Body) (submittedReceipts : List ReceiptEntity) : SubmitResponse :=
  match body with
  | .counters accepted? rejected? =>
    let size : Int := submittedReceipts.length
    let accepted := coerceIn (accepted?.getD 0) 0 size
    let rejectedDefault := max (size - accepted) 0
    let rejected := coerceIn (rejected?.getD rejectedDefault) 0 (size - accepted)
    { success := true
      acceptedCount := accepted
      acceptedNonces := (submittedReceipts.take accepted.toNat).map ReceiptEntity.receiptNonce
      rejectedNonces :=
        ((submittedReceipts.drop accepted.toNat).take rejected.toNat).map ReceiptEntity.receiptNonce }
  | .other =>
    { success := false
      acceptedCount := 0
      acceptedNonces := []
      rejectedNonces := submittedReceipts.map ReceiptEntity.receiptNonce }

/-- The message of `PoUWError.NetworkError(Exception(message))` -/
def networkError (message : String) : Option String := some ("Network error: " ++ message)

def submitOutcome (receipts : List ReceiptEntity) (status : Int) (body : Body)
    (error : Option String) : Except (Option String) SubmitResponse :=
  if status = 200 ∨ status = 201 ∨ status = 202 then .ok (parseSubmitResponse body receipts)
  else if status = 400 then .error (some "Verification failed")
  else if status = 429 then .error (networkError "Rate limited by server")
  else if 500 ≤ status ∧ status ≤ 599 then .error (networkError s!"Server error: {status}")
  else if status = 0 then .error (networkError ("QUIC error: " ++ error.getD "null"))
  else .error (networkError s!"Response status {status}")

/-- The submission threw, or the response is not a success. -/
def failed (outcome : Except (Option String) SubmitResponse) : Bool :=
  match outcome with
  | .ok response => !response.success
  | .error _ => true

/-- A submission changes nothing in the table. -/
def State.answerSubmit (receipts : List ReceiptEntity)
    (outcome : Except (Option String) SubmitResponse) (s : State) : State :=
  if failed outcome then
    { s with failures := s.failures ++ receipts.map ReceiptEntity.receiptNonce }
  else s

/-- `INSERT OR REPLACE`. Only a new receipt is inserted as `CREATED`. -/
def State.insert (receipt : ReceiptEntity) (s : State) : State :=
  { s with
    receipts := replace ReceiptEntity.receiptNonce receipt s.receipts
    created := if receipt.state = .CREATED then s.created ++ [receipt] else s.created }

def State.markAccepted (nonces : List Bytes) (s : State) : State :=
  (s.settle fun n => nonces.contains n).updateRows (fun n => nonces.contains n)
    fun r => { r with state := .ACCEPTED }

def State.markRejected (nonce : Bytes) (reason : String) (s : State) : State :=
  (s.settle fun n => n = nonce).updateRows (fun n => n = nonce)
    fun r => { r with state := .REJECTED, lastError := some reason }

def State.markRetry (nonce : Bytes) (s : State) : State :=
  s.updateRows (fun n => n = nonce)
    fun r => { r with state := .RETRY_WAIT, retryCount := r.retryCount + 1 }

def State.deleteOldAccepted (before : Int) (s : State) : State :=
  { s with receipts := s.receipts.filter fun r => !(r.state = .ACCEPTED && r.createdAt < before) }

/-- A flush of task `i` holds on to what it has read. -/
def State.hold (i : Nat) (purpose : Purpose) (rows : List ReceiptEntity) (s : State) : State :=
  match purpose with
  | .flush => { s with held := s.held ++ rows.map fun r => (i, r.receiptNonce) }
  | .markRetry _ _ => s

/-- What the caller gets, `none` where this is no answer to the call. -/
def outcome (c : Call) (answer : Answer) (s : State) : Option (Except (Option String) (Ret c)) :=
  match c, answer with
  | _, .throws message => some (.error message)
  | .submitBatch receipts, .http status body error =>
    some (submitOutcome receipts status body error)
  | .getPending limit _, .ok => some (.ok (oldestPending limit s.receipts))
  | .insert _, .ok => some (.ok ())
  | .markAccepted _, .ok => some (.ok ())
  | .markRejected _ _, .ok => some (.ok ())
  | .markRetry _, .ok => some (.ok ())
  | .deleteOldAccepted _, .ok => some (.ok ())
  | _, _ => none

/-- What a call with this outcome does to the table. A statement that throws does nothing. -/
def effect (i : Nat) (c : Call) (o : Except (Option String) (Ret c)) (s : State) : State :=
  match c, o with
  | .submitBatch receipts, o => s.answerSubmit receipts o
  | .getPending _ purpose, .ok rows => s.hold i purpose rows
  | .insert receipt, .ok _ => s.insert receipt
  | .markAccepted nonces, .ok _ => s.markAccepted nonces
  | .markRejected nonce reason, .ok _ => s.markRejected nonce reason
  | .markRetry nonce, .ok _ => s.markRetry nonce
  | .deleteOldAccepted before, .ok _ => s.deleteOldAccepted before
  | _, .error _ => s

def perform (i : Nat) (c : Call) (r : Reply) (s : State) :
    Option (State × Except (Option String) (Ret c)) :=
  (outcome c r.answer s).map fun o =>
    (effect i c o { s with currentTimeMillis := r.currentTimeMillis }, o)

/-! ## Steps of a flush that only the history sees -/

inductive Op where
  | submitting (receipts : List ReceiptEntity)
  | release

def apply (i : Nat) (o : Op) (s : State) : State :=
  match o with
  | .submitting receipts =>
    { s with submitted := s.submitted ++ receipts.map ReceiptEntity.receiptNonce }
  | .release => { s with held := s.held.filter fun x => x.1 ≠ i }

abbrev machine : Machine where
  State := State
  Op := Op
  Call := Call
  Ret := Ret
  Err := Option String
  Reply := Reply
  apply := apply
  perform := perform

/-! ## The functions -/

abbrev Prog := Async machine

def exec (o : Op) : Prog Unit := Async.op (M := machine) o

def dao (c : Call) : Prog (Ret c) := Async.await (M := machine) c

def ofExcept {α : Type} : Except (Option String) α → Prog α
  | .ok a => pure a
  | .error message => Async.throw (M := machine) message

/-- `PoUWError.StorageError(e)` -/
def storageError (message : Option String) : Prog Unit :=
  Async.throw (M := machine) (some ("Storage error: " ++ message.getD "null"))

def save (receipt : ReceiptEntity) : Prog Unit :=
  Async.tryCatch (dao (.insert receipt)) storageError

def update (receipt : ReceiptEntity) : Prog Unit :=
  Async.tryCatch (dao (.insert receipt)) storageError

/-- The arguments of `createReceipt`. -/
structure NewReceipt where
  taskId : Bytes
  receiptNonce : Bytes
  signedReceiptData : Bytes
  clientDid : Option String := none
  clientNodeId : Bytes := List.replicate 32 0
  providerId : Option Bytes := none
  contentId : Bytes := []
  challengeNonce : Bytes := []
  sigScheme : String := "ed25519"
  signature : Bytes := []
  proofType : String := "hash"
  bytesVerified : Int := 0
  resultOk : Bool := true
  startedAt : Int := 0
  finishedAt : Int := 0

def newReceipt (q : NewReceipt) (currentTimeMillis : Int) : ReceiptEntity where
  receiptNonce := q.receiptNonce
  taskId := q.taskId
  state := .CREATED
  signedReceiptData := q.signedReceiptData
  createdAt := currentTimeMillis
  clientDid := q.clientDid
  clientNodeId := q.clientNodeId
  providerId := q.providerId
  contentId := q.contentId
  challengeNonce := q.challengeNonce
  sigScheme := q.sigScheme
  signature := q.signature
  proofType := q.proofType
  bytesVerified := q.bytesVerified
  resultOk := q.resultOk
  startedAt := q.startedAt
  finishedAt := q.finishedAt

def createReceipt (q : NewReceipt) : Prog Unit := do
  let s ← Async.get
  save (newReceipt q s.currentTimeMillis)

def getPending (limit : Nat) (purpose : Purpose) : Prog (List ReceiptEntity) :=
  Async.tryCatch (dao (.getPending limit purpose)) fun _ => pure []

def markAccepted (nonces : List Bytes) : Prog Unit :=
  Async.tryCatch (dao (.markAccepted nonces)) fun _ => pure ()

def markRejected (nonce : Bytes) (reason : String) : Prog Unit :=
  Async.tryCatch (dao (.markRejected nonce reason)) fun _ => pure ()

/-- The row that `markRetry` inserts when it has an error to store. -/
def retried (receipt : Option ReceiptEntity) (nonce : Bytes) (error : String)
    (currentTimeMillis : Int) : ReceiptEntity :=
  match receipt with
  | some receipt =>
    { receipt with
      state := .RETRY_WAIT, retryCount := receipt.retryCount + 1, lastError := some error }
  | none =>
    { receiptNonce := nonce
      taskId := []
      state := .RETRY_WAIT
      signedReceiptData := []
      createdAt := currentTimeMillis
      retryCount := 1
      lastError := some error }

/-- `receipt != null && receipt.retryCount >= MAX_RETRY_COUNT` -/
def exhausted : Option ReceiptEntity → Bool
  | some receipt => MAX_RETRY_COUNT ≤ receipt.retryCount
  | none => false

/-- `markRetry` once it has looked for the receipt. -/
def retryOrReject (nonce : Bytes) (error : Option String) (receipt : Option ReceiptEntity) :
    Prog Unit :=
  if exhausted receipt then markRejected nonce (error.getD "Max retries exceeded")
  else do
    -- the statement raises the count of the row, and the copy read before replaces it
    dao (.markRetry nonce)
    match error with
    | none => pure ()
    | some error => do
      let s ← Async.get
      dao (.insert (retried receipt nonce error s.currentTimeMillis))

def markRetry (nonce : Bytes) (error : Option String) : Prog Unit :=
  Async.tryCatch (do
    -- the one oldest pending receipt, which need not be the one that is marked
    let pending ← getPending 1 (.markRetry nonce error)
    retryOrReject nonce error (pending.find? fun r => r.receiptNonce = nonce))
    fun _ => pure ()

def cleanup : Prog Unit :=
  Async.tryCatch (do
    let s ← Async.get
    let cutoff := s.currentTimeMillis - OLD_RECEIPT_CUTOFF_DAYS * 24 * 60 * 60 * 1000
    dao (.deleteOldAccepted cutoff))
    fun _ => pure ()

/-- `pending.forEach { receipt -> receiptStore.markRetry(receipt.receiptNonce, error) }` -/
def markAllRetry (pending : List ReceiptEntity) (error : Option String) : Prog Unit :=
  Async.forEach (fun r => markRetry r.receiptNonce error) pending

def recordResponse (pending : List ReceiptEntity) (response : SubmitResponse) : Prog Unit :=
  if response.success then do
    markAccepted response.acceptedNonces
    Async.forEach (fun nonce => markRejected nonce "Rejected by network") response.rejectedNonces
  else markAllRetry pending (some "Submission failed")

def submitPending (pending : List ReceiptEntity) : Prog Unit := do
  Async.forEach (fun r => update { r with state := .QUEUED }) pending
  exec (.submitting pending)
  Async.tryCatch (do
    let response ← dao (.submitBatch pending)
    recordResponse pending response)
    fun message => markAllRetry pending message

def processPendingSubmissions : Prog Unit := do
  let pending ← getPending MAX_BATCH_SIZE .flush
  if pending.isEmpty then pure ()
  else Async.settle (submitPending pending) fun r => do
    exec .release
    ofExcept r

inductive Cmd where
  | createReceipt (q : NewReceipt)
  | processPendingSubmissions
  | cleanup

def prog : Cmd → Task machine
  | .createReceipt q => (createReceipt q).toTask
  | .processPendingSubmissions => processPendingSubmissions.toTask
  | .cleanup => cleanup.toTask

end ReceiptStore
