import SovereignMobile.EventLoop.Sequential
import SovereignMobile.Pouw.ChallengeToken

/-! # The receipt queue of the iOS module

`RCTPoUW.swift`: `verifyAndQueueReceipt` appends to `pendingReceipts`, `flush` signs and submits all
of them in one request, whose handler runs at some later time. Every method runs to its end (for
`flush`: to the request it issues) before the next one starts. A run is a list of `Event`s: methods
called from JavaScript, answers to submitted batches in any order, and relaunches of the app. -/

namespace RCTPoUW

open Pouw List

/-- A receipt; its random `receiptNonce` is part of what it is. -/
structure PoUWReceipt where
  taskId : String
  clientDid : String
  clientNodeId : String
  providerId : String
  contentId : String
  proofType : String
  bytesVerified : Nat
  resultOk : Bool
  startedAt : Int
  finishedAt : Int
  receiptNonce : String
  challengeNonce : String
  aux : String
deriving DecidableEq

def minVerifiedBytes : Nat := 1024

def lowercased (s : String) : String := String.ofList (s.toList.map Char.toLower)

/-- The policy that `flush` and `signReceipt` check. -/
def PoUWReceipt.isEligible (r : PoUWReceipt) : Bool :=
  lowercased r.proofType == "hash" && decide (minVerifiedBytes ≤ r.bytesVerified)

/-- What a promise is rejected with. -/
structure BridgeError where
  code : String
  message : String
deriving DecidableEq

structure SignedReceipt where
  receipt : PoUWReceipt
  signature : String
deriving DecidableEq

/-- The body of `/api/v1/pouw/submit`, with the `X-Zhtp-Identity` header. -/
structure SubmitRequest where
  identityHeader : String
  clientDid : String
  receipts : List SignedReceipt
deriving DecidableEq

def SubmitRequest.batch (q : SubmitRequest) : List PoUWReceipt :=
  q.receipts.map SignedReceipt.receipt

/-- The fields of the module that the queue depends on, `pouw_pending_receipts` in `UserDefaults`, and
    the requests whose handler has not run yet. History: every receipt that was queued or found in
    `UserDefaults`, and those in a batch that was answered with a success status. -/
structure State where
  identityId : Option String
  challengeTaskId : Option String
  challengeNonce : Option String
  pendingReceipts : List PoUWReceipt
  clientDid : Option String
  clientNodeId : Option (List UInt8)
  storedReceipts : List PoUWReceipt
  requests : List (Nat × SubmitRequest)
  nextRequest : Nat
  queued : List PoUWReceipt
  delivered : List PoUWReceipt

/-- `init`: what `loadFromStorage` finds. -/
def launch (identityId : Option String) (receipts : List PoUWReceipt) : State where
  identityId := identityId
  challengeTaskId := none
  challengeNonce := none
  pendingReceipts := receipts
  clientDid := none
  clientNodeId := none
  storedReceipts := receipts
  requests := []
  nextRequest := 0
  queued := receipts
  delivered := []

def State.savePendingReceipts (s : State) : State := { s with storedReceipts := s.pendingReceipts }

/-! ## Queueing -/

/-- The parts of the platform that are called: SHA-256 and `Data(base64Encoded:)`. -/
structure Platform where
  sha256Hash : List UInt8 → List UInt8
  dataBase64Encoded : String → Option (List UInt8)

/-- One call of `verifyAndQueueReceipt`, with the 16 random bytes and the time (in seconds) that it
    reads. -/
structure VerifyCall where
  contentIdB64 : String
  bytesData : List UInt8
  providerIdRaw : String
  randomNonce : List UInt8
  now : Int

/-- The dictionary that `verifyAndQueueReceipt` returns. -/
structure VerifyPayload where
  eligible : Bool
  reason : Option String
  minBytesRequired : Option Nat
  receiptId : Option String
  bytesVerified : Nat
  proofType : String
deriving DecidableEq

def notEligible (count : Nat) : VerifyPayload where
  eligible := false
  reason := some "min_bytes"
  minBytesRequired := some minVerifiedBytes
  receiptId := none
  bytesVerified := count
  proofType := "hash"

/-- The hash to compare with, from the `contentId` of the caller. -/
def contentIdHash (P : Platform) (q : VerifyCall) : Except BridgeError (List UInt8) :=
  if q.contentIdB64.isEmpty then .ok (P.sha256Hash q.bytesData)
  else match P.dataBase64Encoded q.contentIdB64 with
    | some decoded => .ok decoded
    | none => .error ⟨"INVALID_INPUT", "Failed to decode base64 contentId"⟩

def State.newReceipt (P : Platform) (q : VerifyCall) (taskId challengeNonce : String) (s : State) :
    PoUWReceipt where
  taskId := taskId
  clientDid := s.clientDid.getD ""
  clientNodeId := (s.clientNodeId.map bytesToHex).getD ""
  providerId := q.providerIdRaw
  contentId := bytesToHex (P.sha256Hash q.bytesData)
  proofType := "hash"
  bytesVerified := q.bytesData.length
  resultOk := true
  startedAt := q.now - 100
  finishedAt := q.now
  receiptNonce := bytesToHex q.randomNonce
  challengeNonce := challengeNonce
  aux := "\x7b\x7d"

def State.queue (r : PoUWReceipt) (s : State) : State :=
  ({ s with
    pendingReceipts := s.pendingReceipts ++ [r],
    queued := s.queued ++ [r] } : State).savePendingReceipts

def verifyAndQueueReceipt (P : Platform) (q : VerifyCall) (s : State) :
    State × Except BridgeError VerifyPayload :=
  match contentIdHash P q with
  | .error e => (s, .error e)
  | .ok expected =>
    if P.sha256Hash q.bytesData ≠ expected then
      (s, .error ⟨"VERIFICATION_FAILED", "Hash mismatch"⟩)
    else if q.bytesData.length < minVerifiedBytes then (s, .ok (notEligible q.bytesData.length))
    else match s.challengeTaskId, s.challengeNonce with
      | some taskId, some challengeNonce =>
        let r := s.newReceipt P q taskId challengeNonce
        (s.queue r, .ok ⟨true, none, none, some r.receiptNonce, q.bytesData.length, "hash"⟩)
      | _, _ => (s, .error ⟨"NO_CHALLENGE", "Challenge not loaded. Call getChallenge() first."⟩)

/-! ## Flushing -/

/-- What one `flush` finds outside the module: the signature of the current identity over a receipt,
    if it can be made, and whether the body can be serialized. -/
structure FlushCall where
  sign : PoUWReceipt → Option String
  serializes : Bool

/-- `signReceipt(r)`, where an empty signature counts as none -/
def signReceipt (q : FlushCall) (r : PoUWReceipt) : Option SignedReceipt :=
  if r.isEligible then
    match q.sign r with
    | some signature => if signature.isEmpty then none else some ⟨r, signature⟩
    | none => none
  else none

/-- `pendingReceipts = eligible` where they differ -/
def State.dropIneligible (s : State) : State :=
  let eligible := s.pendingReceipts.filter PoUWReceipt.isEligible
  if eligible.length ≠ s.pendingReceipts.length then
    ({ s with pendingReceipts := eligible } : State).savePendingReceipts
  else s

def State.submit (q : SubmitRequest) (s : State) : State :=
  { s with
    requests := s.requests ++ [(s.nextRequest, q)],
    nextRequest := s.nextRequest + 1 }

/-- `flush` up to the request: a rejection, or the request that is now under way. -/
def flush (q : FlushCall) (s : State) : State × Except BridgeError SubmitRequest :=
  if s.pendingReceipts.isEmpty then (s, .error ⟨"NO_PENDING", "No pending receipts"⟩)
  else
    let s := s.dropIneligible
    if s.pendingReceipts.isEmpty then
      (s, .error ⟨"NO_ELIGIBLE_RECEIPTS", "No policy-eligible receipts to submit"⟩)
    else match s.identityId with
      | none => (s, .error ⟨"NO_IDENTITY", "No identity found. Please sign in first."⟩)
      | some identityId =>
        let signedReceipts := s.pendingReceipts.filterMap (signReceipt q)
        if signedReceipts.length ≠ s.pendingReceipts.length then
          (s, .error ⟨"SIGN_ERROR", "Failed to sign one or more receipts"⟩)
        else if !q.serializes then (s, .error ⟨"SERIALIZATION_ERROR", "Failed to serialize"⟩)
        else
          let request : SubmitRequest := ⟨identityId, s.clientDid.getD "", signedReceipts⟩
          (s.submit request, .ok request)

/-- The dictionary `NativeQuic` resolves with, as far as the handlers of the module read it. -/
structure Response where
  status : Option Int
  accepted : Option Int
  rejected : Option Int

/-- How a request ends; `none` is a result that is no dictionary. -/
inductive Completion where
  | resolved (result : Option Response)
  | rejected (message : Option String)

/-- The server answered with a success status, a missing one counting as 0. -/
def Completion.isSuccess : Completion → Bool
  | .resolved (some r) => decide (200 ≤ r.status.getD 0) && decide (r.status.getD 0 < 300)
  | _ => false

structure FlushResult where
  accepted : Int
  rejected : Int
deriving DecidableEq

/-- The handlers that `flush` passes to the request. -/
def finishFlush (c : Completion) (s : State) : State × Except BridgeError FlushResult :=
  match c with
  | .resolved none => (s, .error ⟨"PARSE_ERROR", "Invalid response"⟩)
  -- whatever the status, and whatever has been queued since the request
  | .resolved (some r) =>
    (({ s with pendingReceipts := [] } : State).savePendingReceipts,
      .ok ⟨r.accepted.getD 0, r.rejected.getD 0⟩)
  | .rejected message => (s, .error ⟨"QUIC_ERROR", message.getD "QUIC request failed"⟩)

/-- The request `id` is answered: the history first, then its handler. -/
def State.complete (id : Nat) (q : SubmitRequest) (c : Completion) (s : State) : State :=
  (finishFlush c { s with
    requests := s.requests.filter fun x => x.1 ≠ id,
    delivered := if c.isSuccess then s.delivered ++ q.batch else s.delivered }).1

def State.request (id : Nat) (s : State) : Option SubmitRequest :=
  (s.requests.find? fun x => x.1 = id).map Prod.snd

/-! ## Runs -/

inductive Event where
  | setNodeUrl
  | getChallengeDone (taskId challengeNonce : String)
  | identityLoaded (did : String)
  | verifyContent (q : VerifyCall)
  | flush (q : FlushCall)
  | respond (id : Nat) (c : Completion)
  | relaunch (identityId : Option String)

def step (P : Platform) (s : State) : Event → State
  | .setNodeUrl => { s with challengeTaskId := none, challengeNonce := none }
  | .getChallengeDone taskId challengeNonce =>
    { s with challengeTaskId := some taskId, challengeNonce := some challengeNonce }
  | .identityLoaded did => { s with clientDid := some did }
  | .verifyContent q => (verifyAndQueueReceipt P q s).1
  | .flush q => (flush q s).1
  | .respond id c =>
    match s.request id with
    | none => s
    | some q => s.complete id q c
  | .relaunch identityId =>
    { launch identityId s.storedReceipts with queued := s.queued, delivered := s.delivered }

/-! ## No receipt is lost -/

/-- A receipt that is pending no more was ineligible, or its batch was answered with success. -/
def NothingLost (s : State) : Prop :=
  ∀ r ∈ s.queued, r ∈ s.pendingReceipts ∨ r.isEligible = false ∨ r ∈ s.delivered

/-- A request that does not end with a success status leaves `pendingReceipts` unchanged. -/
def ErrorKeepsPending (P : Platform) (s : State) (e : Event) : Prop :=
  ∀ id c, e = .respond id c → c.isSuccess = false →
    (step P s e).pendingReceipts = s.pendingReceipts

/-- A request that resolves with a dictionary has a success status and finds no eligible receipt
    pending beyond its own batch and those delivered before, or else finds nothing pending. -/
def ClearsOnlyDelivered (s : State) : Event → Prop
  | .respond id (.resolved (some r)) => ∀ q, s.request id = some q →
      if (Completion.resolved (some r)).isSuccess then
        ∀ x ∈ s.pendingReceipts, x.isEligible = true → x ∈ q.batch ∨ x ∈ s.delivered
      else s.pendingReceipts = []
  | _ => True

/-- The stored copy is up to date, and everything pending was queued. -/
structure Consistent (s : State) : Prop where
  stored : s.storedReceipts = s.pendingReceipts
  queued : s.pendingReceipts ⊆ s.queued

theorem launch_consistent (identityId : Option String) (receipts : List PoUWReceipt) :
    Consistent (launch identityId receipts) := ⟨rfl, List.Subset.refl _⟩

theorem launch_nothingLost (identityId : Option String) (receipts : List PoUWReceipt) :
    NothingLost (launch identityId receipts) := fun _ h => .inl h

section Step
variable {P : Platform} {s : State}

theorem Consistent.queue (h : Consistent s) (r : PoUWReceipt) : Consistent (s.queue r) := by
  refine ⟨rfl, fun x hx => ?_⟩
  rcases mem_append.1 hx with hx | hx
  · exact mem_append_left _ (h.queued hx)
  · exact mem_append_right _ hx

theorem NothingLost.queue (h : NothingLost s) (r : PoUWReceipt) : NothingLost (s.queue r) := by
  intro x hx
  rcases mem_append.1 hx with hx | hx
  · rcases h x hx with hp | hp
    · exact .inl (mem_append_left _ hp)
    · exact .inr hp
  · exact .inl (mem_append_right _ hx)

/-- Verifying content either changes nothing or queues one receipt. -/
theorem verifyAndQueueReceipt_cases (q : VerifyCall) :
    (verifyAndQueueReceipt P q s).1 = s ∨ ∃ r, (verifyAndQueueReceipt P q s).1 = s.queue r := by
  unfold verifyAndQueueReceipt
  split
  · exact .inl rfl
  split
  · exact .inl rfl
  split
  · exact .inl rfl
  split
  · exact .inr ⟨_, rfl⟩
  · exact .inl rfl

/-- The eligible receipts are what is left. -/
theorem dropIneligible_eq (h : Consistent s) : s.dropIneligible = { s with
      pendingReceipts := s.pendingReceipts.filter PoUWReceipt.isEligible,
      storedReceipts := s.pendingReceipts.filter PoUWReceipt.isEligible } := by
  unfold State.dropIneligible
  dsimp only
  split
  · rfl
  rename_i hlen
  have hall : s.pendingReceipts.filter PoUWReceipt.isEligible = s.pendingReceipts :=
    filter_sublist.eq_of_length (by simpa using hlen)
  rw [hall]
  nth_rewrite 2 [← h.stored]
  rfl

theorem Consistent.dropIneligible (h : Consistent s) : Consistent s.dropIneligible := by
  rw [dropIneligible_eq h]
  exact ⟨rfl, fun x hx => h.queued (mem_filter.1 hx).1⟩

theorem NothingLost.dropIneligible (hc : Consistent s) (h : NothingLost s) :
    NothingLost s.dropIneligible := by
  rw [dropIneligible_eq hc]
  intro r hr
  rcases h r hr with hp | hp
  · cases he : r.isEligible with
    | false => exact .inr (.inl rfl)
    | true => exact .inl (mem_filter.2 ⟨hp, he⟩)
  · exact .inr hp

/-- Before its request is answered, a flush drops what is ineligible and does nothing else to the
    queue. -/
theorem flush_cases (q : FlushCall) : (flush q s).1 = s ∨ (flush q s).1 = s.dropIneligible ∨
      ∃ request, (flush q s).1 = s.dropIneligible.submit request := by
  unfold flush
  split
  · exact .inl rfl
  right
  dsimp only
  split
  · exact .inl rfl
  split
  · exact .inl rfl
  split
  · exact .inl rfl
  split
  · exact .inl rfl
  · exact .inr ⟨_, rfl⟩

theorem Consistent.step (h : Consistent s) (e : Event) : Consistent (step P s e) := by
  cases e with
  | setNodeUrl | getChallengeDone | identityLoaded => exact ⟨h.stored, h.queued⟩
  | verifyContent q =>
    rw [RCTPoUW.step]
    rcases verifyAndQueueReceipt_cases q with hq | ⟨r, hq⟩
    · rw [hq]
      exact h
    · rw [hq]
      exact h.queue r
  | flush q =>
    rw [RCTPoUW.step]
    rcases flush_cases q with hq | hq | ⟨request, hq⟩
    · rw [hq]
      exact h
    · rw [hq]
      exact h.dropIneligible
    · rw [hq]
      exact ⟨h.dropIneligible.stored, h.dropIneligible.queued⟩
  | respond id c =>
    rw [RCTPoUW.step]
    split
    · exact h
    rcases c with (_ | r) | message
    · exact ⟨h.stored, h.queued⟩
    · exact ⟨rfl, nil_subset _⟩
    · exact ⟨h.stored, h.queued⟩
  | relaunch identityId => exact ⟨rfl, fun x hx => h.queued (h.stored ▸ hx)⟩

/-- Clearing the queue loses nothing exactly if what was pending may go. -/
theorem complete_resolved_iff (hc : Consistent s) (h : NothingLost s) (id : Nat)
    (q : SubmitRequest) (r : Response) :
    NothingLost (s.complete id q (.resolved (some r))) ↔
      ∀ x ∈ s.pendingReceipts, x.isEligible = true →
        x ∈ (s.complete id q (.resolved (some r))).delivered := by
  have hq : (s.complete id q (.resolved (some r))).queued = s.queued := rfl
  have hp : (s.complete id q (.resolved (some r))).pendingReceipts = [] := rfl
  have hd : s.delivered ⊆ (s.complete id q (.resolved (some r))).delivered := by
    intro x hx
    simp only [State.complete]
    split
    · exact mem_append_left _ hx
    · exact hx
  unfold NothingLost
  rw [hp]
  constructor
  · intro hn x hx he
    rcases hn x (hc.queued hx) with hx' | hx' | hx'
    · simp at hx'
    · exact nomatch he.symm.trans hx'
    · exact hx'
  intro hn x hx
  right
  rcases h x hx with hx' | hx' | hx'
  · cases he : x.isEligible with
    | false => exact .inl rfl
    | true => exact .inr (hn x hx' he)
  · exact .inl hx'
  · exact .inr (hd hx')

/-- The condition under which one event loses nothing. -/
def LosesNothing (P : Platform) (s : State) (e : Event) : Prop :=
  ∀ id r q, e = .respond id (.resolved (some r)) → s.request id = some q →
    ∀ x ∈ s.pendingReceipts, x.isEligible = true → x ∈ (step P s e).delivered

theorem nothingLost_step_iff (hc : Consistent s) (h : NothingLost s) (e : Event) :
    NothingLost (step P s e) ↔ LosesNothing P s e := by
  cases e with
  | respond id c =>
    cases hr : s.request id with
    | none =>
      have hs : step P s (.respond id c) = s := by simp only [step, hr]
      rw [hs]
      refine iff_of_true h fun id' r q he hq => ?_
      obtain ⟨rfl, rfl⟩ : id = id' ∧ c = .resolved (some r) := by simpa using he
      exact nomatch hr.symm.trans hq
    | some q =>
      rcases c with (_ | r) | message
      · simpa [step, LosesNothing, hr, State.complete, finishFlush, Completion.isSuccess,
          NothingLost] using h
      · have hs : step P s (.respond id (.resolved (some r))) =
            s.complete id q (.resolved (some r)) := by simp only [step, hr]
        simp only [LosesNothing, hs]
        rw [complete_resolved_iff hc h]
        constructor
        · intro hn id' r' q' he hq' x hx hel
          exact hn x hx hel
        · exact fun hn => hn id r q rfl hr
      · simpa [step, LosesNothing, hr, State.complete, finishFlush, Completion.isSuccess,
          NothingLost] using h
  | verifyContent q =>
    refine iff_of_true ?_ fun _ _ _ he => nomatch he
    rw [step]
    rcases verifyAndQueueReceipt_cases q with hq | ⟨r, hq⟩
    · rw [hq]
      exact h
    · rw [hq]
      exact h.queue r
  | flush q =>
    refine iff_of_true ?_ fun _ _ _ he => nomatch he
    rw [step]
    rcases flush_cases q with hq | hq | ⟨request, hq⟩
    · rw [hq]
      exact h
    · rw [hq]
      exact h.dropIneligible hc
    · rw [hq]
      exact h.dropIneligible hc
  | relaunch identityId =>
    refine iff_of_true (fun r hr => ?_) fun _ _ _ he => nomatch he
    have hp : (step P s (.relaunch identityId)).pendingReceipts = s.pendingReceipts := hc.stored
    rw [hp]
    exact h r hr
  | _ => exact iff_of_true h fun _ _ _ he => nomatch he

/-- An answer with an error status clears the queue like one with a success status, so it has to
    find the queue empty. -/
theorem clearsOnlyDelivered_iff (e : Event) :
    (LosesNothing P s e ∧ ErrorKeepsPending P s e) ↔ ClearsOnlyDelivered s e := by
  rcases e with _ | ⟨t, n⟩ | did | q | q | ⟨id, c⟩ | i
  case respond =>
    rcases c with (_ | r) | message
    case resolved.some =>
      cases hr : s.request id with
      | none =>
        refine iff_of_true ⟨?_, ?_⟩ fun q hq => nomatch hr.symm.trans hq
        · rintro id' r' q' ⟨rfl, rfl⟩ hq'
          exact nomatch hr.symm.trans hq'
        · rintro id' c' ⟨rfl, rfl⟩ _
          simp only [step, hr]
      | some q =>
        have hs : step P s (.respond id (.resolved (some r))) =
            s.complete id q (.resolved (some r)) := by simp only [step, hr]
        have hp : (s.complete id q (.resolved (some r))).pendingReceipts = [] := rfl
        have hd : (s.complete id q (.resolved (some r))).delivered =
            if (Completion.resolved (some r)).isSuccess then s.delivered ++ q.batch
            else s.delivered := rfl
        simp only [LosesNothing, ErrorKeepsPending, ClearsOnlyDelivered, hs, hp, hd]
        cases hok : (Completion.resolved (some r)).isSuccess with
        | true =>
          constructor
          · rintro ⟨hl, -⟩ q' hq' x hx hel
            obtain rfl : q = q' := Option.some.inj (hr.symm.trans hq')
            have := hl id r q rfl hr x hx hel
            simpa [or_comm] using this
          intro hl
          refine ⟨fun id' r' q' he hq' x hx hel => ?_, fun id' c' he hc' => ?_⟩
          · have := hl q hr x hx hel
            simpa [or_comm] using this
          · obtain ⟨rfl, rfl⟩ : id = id' ∧ .resolved (some r) = c' := by
              simpa using he
            exact nomatch hok.symm.trans hc'
        | false =>
          constructor
          · rintro ⟨-, hk⟩ q' hq'
            simpa using (hk id _ rfl hok).symm
          intro hl
          have hnil : s.pendingReceipts = [] := by simpa using hl q hr
          refine ⟨fun id' r' q' he hq' x hx => absurd hx (by simp [hnil]), fun _ _ _ _ => ?_⟩
          exact hnil.symm
    all_goals
      refine iff_of_true ⟨fun _ _ _ he => absurd he (by simp), fun id' c' _ _ => ?_⟩ trivial
      rw [step]
      split <;> rfl
  all_goals
    exact iff_of_true ⟨fun _ _ _ he => absurd he (by simp), fun _ _ he => nomatch he⟩
      trivial

end Step

/-- SHA-256 of 1024 zero bytes. -/
def zerosDigest : List UInt8 :=
  [95, 112, 191, 24, 160, 134, 0, 112, 22, 233, 72, 176, 74, 237, 59, 130, 16, 58, 54, 190, 164, 23,
    85, 182, 205, 223, 175, 16, 172, 227, 198, 239]

def zerosPlatform : Platform where
  sha256Hash _ := zerosDigest
  dataBase64Encoded _ := none

/-- A receipt found in `UserDefaults`. -/
def storedReceipt : PoUWReceipt where
  taskId := "aa"
  clientDid := "did:zhtp:a"
  clientNodeId := ""
  providerId := ""
  contentId := bytesToHex zerosDigest
  proofType := "hash"
  bytesVerified := 1024
  resultOk := true
  startedAt := 900
  finishedAt := 1000
  receiptNonce := "01"
  challengeNonce := "bb"
  aux := "\x7b\x7d"

def verifyZeros : VerifyCall where
  contentIdB64 := ""
  bytesData := List.replicate 1024 0
  providerIdRaw := ""
  randomNonce := [2]
  now := 1000

def signing : FlushCall := ⟨fun _ => some "5f", true⟩

/-- The receipt that `verifyZeros` queues. -/
def zerosReceipt : PoUWReceipt :=
  (launch (some "a") []).newReceipt zerosPlatform verifyZeros "aa" "bb"

/-- A receipt is queued while the batch with the stored one is under way. -/
def queuedMeanwhile (status : Int) : List Event :=
  [.getChallengeDone "aa" "bb", .flush signing, .verifyContent verifyZeros,
    .respond 0 (.resolved (some ⟨some status, none, none⟩))]

/-- `r` was eligible and never delivered, and is not pending. -/
def Lost (r : PoUWReceipt) (s : State) : Prop :=
  r ∈ s.queued ∧ r ∉ s.pendingReceipts ∧ r.isEligible = true ∧ r ∉ s.delivered

instance (r : PoUWReceipt) (s : State) : Decidable (Lost r s) :=
  inferInstanceAs (Decidable (_ ∧ _ ∧ _ ∧ _))

theorem Lost.not_nothingLost {r : PoUWReceipt} {s : State} (h : Lost r s) : ¬ NothingLost s := by
  obtain ⟨hq, hp, he, hd⟩ := h
  intro hn
  rcases hn r hq with h | h | h
  · exact hp h
  · exact nomatch he.symm.trans h
  · exact hd h

end RCTPoUW
