import SovereignMobile.Pouw.Controller
import Mathlib.Data.List.Nodup
import Mathlib.Data.List.Range

/-! # Receipts and the batches they travel in

Every operation of the controller moves receipts between `pendingReceipts`, the batches under way and
the batches whose request has resolved, and only `push` adds one. Who a batch belongs to depends on
when `start` overwrites `clientDid`. -/

namespace PoUWController

open EventLoop List

/-! ## Conservation -/

def State.inFlightReceipts (s : State) : List SignedReceipt :=
  s.inFlight.flatMap fun x => x.2.receipts

def State.resolvedReceipts (s : State) : List SignedReceipt :=
  s.resolved.flatMap ReceiptBatch.receipts

/-- Everywhere a receipt can be. -/
def State.places (s : State) : List SignedReceipt :=
  s.pendingReceipts ++ s.inFlightReceipts ++ s.resolvedReceipts

/-- Each receipt that was pushed is in exactly one place, there once; no batch is larger than
    `maxBatchSize`, and none is empty unless `maxBatchSize` leaves room for nothing. -/
structure Conserved (maxBatchSize : Int) (s : State) : Prop where
  once : ∀ r ∈ s.pushed, s.places.count r = 1
  size_le : ∀ b ∈ s.sent, (b.receipts.length : Int) ≤ max 0 maxBatchSize
  size_pos : 1 ≤ maxBatchSize → ∀ b ∈ s.sent, 1 ≤ b.receipts.length

/-- What the operations keep. -/
structure Accounted (maxBatchSize : Int) (s : State) : Prop where
  config : s.maxBatchSize = maxBatchSize
  perm : s.pushed.Perm s.places
  refs : s.pushed.map SignedReceipt.ref = List.range s.pushed.length
  size_le : ∀ b ∈ s.sent, (b.receipts.length : Int) ≤ max 0 maxBatchSize
  size_pos : 1 ≤ maxBatchSize → ∀ b ∈ s.sent, 1 ≤ b.receipts.length

theorem Accounted.conserved {m : Int} {s : State} (h : Accounted m s) : Conserved m s := by
  refine ⟨fun r hr => ?_, h.size_le, h.size_pos⟩
  have hnodup : s.pushed.Nodup := by
    refine List.Nodup.of_map SignedReceipt.ref ?_
    rw [h.refs]
    exact nodup_range
  rw [← h.perm.count_eq]
  exact count_eq_one_of_mem hnodup hr

theorem accounted_new (maxBatchSize nowSecs : Int) :
    Accounted maxBatchSize (State.new maxBatchSize nowSecs) :=
  ⟨rfl, .refl _, rfl, fun _ hb => absurd hb (by simp [State.new]),
    fun _ _ hb => absurd hb (by simp [State.new])⟩

section Operations
variable {m : Int} {s : State}

/-- The batch that is sent, where one is. -/
theorem nextBatch_eq_some {b : ReceiptBatch} (h : s.nextBatch = some b) :
    s.pendingReceipts ≠ [] ∧ b.receipts = s.pendingReceipts.take s.maxBatchSize.toNat ∧
      s.clientDid = some b.client_did := by
  unfold State.nextBatch at h
  split at h
  · simp at h
  rename_i hne
  rw [Option.map_eq_some_iff] at h
  obtain ⟨did, hdid, rfl⟩ := h
  refine ⟨by simpa using hne, rfl, ?_⟩
  unfold truthy at hdid
  split at hdid
  · split at hdid
    · simp at hdid
    · rwa [‹s.clientDid = _›]
  · simp at hdid

theorem inFlightReceipts_perm {n : Nat} {b : ReceiptBatch} {others : List (Nat × ReceiptBatch)}
    (h : s.inFlightBatch n = some (b, others)) :
    s.inFlightReceipts.Perm (b.receipts ++ others.flatMap fun x => x.2.receipts) := by
  unfold State.inFlightBatch at h
  rw [Option.map_eq_some_iff] at h
  obtain ⟨x, hx, he⟩ := h
  rw [Prod.mk.injEq] at he
  obtain ⟨rfl, rfl⟩ := he
  have hmem : x ∈ s.inFlight := mem_of_find?_eq_some hx
  exact (perm_cons_erase hmem).flatMap_right _

theorem Accounted.push (h : Accounted m s) (receipt : Receipt) (signature : String) :
    Accounted m (s.push receipt signature) := by
  refine ⟨h.config, ?_, ?_, h.size_le, h.size_pos⟩
  · rw [perm_iff_count]
    intro r
    have hr := h.perm.count_eq r
    simp only [State.places, State.push, State.inFlightReceipts, State.resolvedReceipts,
      count_append] at hr ⊢
    omega
  · simp [State.push, h.refs, range_succ]

theorem Accounted.splice (h : Accounted m s) : Accounted m s.splice := by
  unfold State.splice
  split
  · exact h
  rename_i b hb
  obtain ⟨hne, hrec, -⟩ := nextBatch_eq_some hb
  refine ⟨h.config, ?_, h.refs, ?_, ?_⟩
  · rw [perm_iff_count]
    intro r
    have hr := h.perm.count_eq r
    have hsplit := congrArg (List.count r) (take_append_drop s.maxBatchSize.toNat s.pendingReceipts)
    rw [count_append, ← hrec] at hsplit
    simp only [State.places, State.inFlightReceipts, State.resolvedReceipts, count_append,
      flatMap_append, flatMap_singleton] at hr ⊢
    omega
  · intro b' hb'
    rcases mem_append.1 hb' with hb' | hb'
    · exact h.size_le b' hb'
    obtain rfl := mem_singleton.1 hb'
    have hlen := length_take_le s.maxBatchSize.toNat s.pendingReceipts
    rw [← hrec, h.config] at hlen
    omega
  · intro hpos b' hb'
    rcases mem_append.1 hb' with hb' | hb'
    · exact h.size_pos hpos b' hb'
    obtain rfl := mem_singleton.1 hb'
    have hlen := length_pos_of_ne_nil hne
    rw [hrec, length_take, h.config]
    omega

theorem Accounted.resolve (h : Accounted m s) (n : Nat) : Accounted m (s.resolve n) := by
  unfold State.resolve
  split
  · exact h
  rename_i b others hb
  refine ⟨h.config, ?_, h.refs, h.size_le, h.size_pos⟩
  rw [perm_iff_count]
  intro r
  have hr := h.perm.count_eq r
  have hf := (inFlightReceipts_perm hb).count_eq r
  simp only [State.places, State.inFlightReceipts, State.resolvedReceipts, count_append,
    flatMap_append, flatMap_singleton] at hr hf ⊢
  omega

theorem Accounted.unshift (h : Accounted m s) (n : Nat) : Accounted m (s.unshift n) := by
  unfold State.unshift
  split
  · exact h
  rename_i b others hb
  refine ⟨h.config, ?_, h.refs, h.size_le, h.size_pos⟩
  rw [perm_iff_count]
  intro r
  have hr := h.perm.count_eq r
  have hf := (inFlightReceipts_perm hb).count_eq r
  simp only [State.places, State.inFlightReceipts, State.resolvedReceipts, count_append] at hr hf ⊢
  omega

theorem Accounted.clearInterval (h : Accounted m s) : Accounted m s.clearInterval := by
  unfold State.clearInterval
  split
  · exact h
  · exact ⟨h.config, h.perm, h.refs, h.size_le, h.size_pos⟩

theorem Accounted.apply (h : Accounted m s) (i : Nat) (o : Op) : Accounted m (apply i o s) := by
  cases o with
  -- only these four move receipts from one place to another
  | push receipt signature => exact h.push receipt signature
  | splice => exact h.splice
  | resolve n => exact h.resolve n
  | unshift n => exact h.unshift n
  | clearInterval =>
    have hc := h.clearInterval
    exact ⟨hc.config, hc.perm, hc.refs, hc.size_le, hc.size_pos⟩
  | _ => exact ⟨h.config, h.perm, h.refs, h.size_le, h.size_pos⟩

end Operations

/-- A performed call moves the clock only. -/
theorem perform_eq {i : Nat} {c : Call} {r : Reply} {s s' : State} {o : Except String (Ret c)}
    (h : perform i c r s = some (s', o)) : s' = { s with nowSecs := r.nowSecs } := by
  unfold perform at h
  rw [Option.map_eq_some_iff] at h
  obtain ⟨x, _, he⟩ := h
  exact (congrArg Prod.fst he).symm

/-- A controller with this configuration, on which nothing has been called yet. -/
def IsNew (maxBatchSize : Int) (s : State) : Prop := ∃ nowSecs, s = State.new maxBatchSize nowSecs

/-- Every batch that was sent names the identity its receipts were made under. -/
def OneIdentity (s : State) : Prop :=
  ∀ b ∈ s.sent, ∀ r ∈ b.receipts, r.receipt.client_did = b.client_did

/-- All these receipts were made under `did`. -/
def madeUnder (did : Option String) (receipts : List SignedReceipt) : Bool :=
  receipts.all fun r => decide (did = some r.receipt.client_did)

/-- `start` changes `clientDid` only while nothing made under another identity is pending, and a
    receipt gets into `pendingReceipts` (signed, or in a batch put back) only under its own. -/
def keepsIdentity : Cond machine where
  op _ s o :=
    match o with
    | .setClientDid did => madeUnder (some did) s.pendingReceipts
    | .push receipt _ => decide (s.clientDid = some receipt.client_did)
    | .unshift n =>
      match s.inFlightBatch n with
      | none => true
      | some (b, _) => madeUnder s.clientDid b.receipts
    | _ => true
  call _ _ _ _ := true

structure OwnPending (s : State) : Prop where
  pending : ∀ r ∈ s.pendingReceipts, s.clientDid = some r.receipt.client_did
  sent : OneIdentity s

theorem madeUnder_iff {did : Option String} {receipts : List SignedReceipt} :
    madeUnder did receipts = true ↔ ∀ r ∈ receipts, did = some r.receipt.client_did := by
  simp [madeUnder]

section Operations
variable {s : State}

theorem OwnPending.push (h : OwnPending s) {receipt : Receipt} (signature : String)
    (hc : s.clientDid = some receipt.client_did) : OwnPending (s.push receipt signature) := by
  refine ⟨fun r hr => ?_, h.sent⟩
  rcases mem_append.1 hr with hr | hr
  · exact h.pending r hr
  · obtain rfl := mem_singleton.1 hr
    exact hc

theorem OwnPending.splice (h : OwnPending s) : OwnPending s.splice := by
  unfold State.splice
  split
  · exact h
  rename_i b hb
  obtain ⟨-, hrec, hdid⟩ := nextBatch_eq_some hb
  refine ⟨fun r hr => h.pending r (mem_of_mem_drop hr), fun b' hb' r hr => ?_⟩
  rcases mem_append.1 hb' with hb' | hb'
  · exact h.sent b' hb' r hr
  obtain rfl := mem_singleton.1 hb'
  rw [hrec] at hr
  have hr' := h.pending r (mem_of_mem_take hr)
  rw [hdid, Option.some.injEq] at hr'
  exact hr'.symm

theorem OwnPending.resolve (h : OwnPending s) (n : Nat) : OwnPending (s.resolve n) := by
  unfold State.resolve
  split
  · exact h
  · exact ⟨h.pending, h.sent⟩

theorem OwnPending.unshift (h : OwnPending s) {i n : Nat}
    (hc : keepsIdentity.op i s (.unshift n) = true) : OwnPending (s.unshift n) := by
  unfold State.unshift
  simp only [keepsIdentity] at hc
  split
  · exact h
  rename_i b others hb
  rw [hb] at hc
  refine ⟨fun r hr => ?_, h.sent⟩
  rcases mem_append.1 hr with hr | hr
  · exact madeUnder_iff.1 hc r hr
  · exact h.pending r hr

theorem OwnPending.clearInterval (h : OwnPending s) : OwnPending s.clearInterval := by
  unfold State.clearInterval
  split
  · exact h
  · exact ⟨h.pending, h.sent⟩

theorem OwnPending.apply (h : OwnPending s) {i : Nat} {o : Op}
    (hc : keepsIdentity.op i s o = true) : OwnPending (apply i o s) := by
  cases o with
  | setClientDid did => exact ⟨madeUnder_iff.1 hc, h.sent⟩
  | push receipt signature => exact h.push signature (of_decide_eq_true hc)
  | splice => exact h.splice
  | resolve n => exact h.resolve n
  | unshift n => exact h.unshift hc
  | clearInterval =>
    have hk := h.clearInterval
    exact ⟨hk.pending, hk.sent⟩
  | _ => exact ⟨h.pending, h.sent⟩

end Operations

/-- The pending call of task `i` is answered, and the task goes on. -/
def answered (i : Nat) (a : Answer) : List (Move machine Cmd) := [.perform i ⟨1000, a⟩, .resume i]

def contentChallenge : ChallengeToken :=
  ⟨"aa", "bb", 5000, [.web4manifestroute, .web4contentserved]⟩

/-- Task `i` starts the controller while `did` is signed in. -/
def startAs (i : Nat) (did : String) : List (Move machine Cmd) :=
  List.flatten [[.start .start], answered i (.identity ⟨did, some "01"⟩),
    answered i (.challenge (some contentChallenge)), answered i .ok]

def contentServed : ReceiptRequest := ⟨.web4contentserved, 2048, "\x7b\x7d", "c0", "d0"⟩

/-- Task `i` creates, signs and queues a receipt. -/
def createReceipt (i : Nat) : List (Move machine Cmd) :=
  List.flatten [[.start (.createAndQueueReceipt contentServed)], answered i .ok,
    answered i (.signature "5f"), answered i .ok]

/-- A receipt is submitted by the timer, and the request resolves. -/
def submittedByTimer : List (Move machine Cmd) :=
  List.flatten [startAs 0 "did:zhtp:a", createReceipt 1, [.start (.tick 0)], answered 2 .ok]

/-- The last batch before `stop` fails, and another identity starts the controller. -/
def restartedAs (did : String) : List (Move machine Cmd) :=
  List.flatten [startAs 0 "did:zhtp:a", createReceipt 1, [.start .stop], answered 2 (.fail "timeout"),
    answered 2 .ok, startAs 3 did, [.start (.tick 1)]]

def initially (maxBatchSize : Int) : Sys machine := Sys.idle (State.new maxBatchSize 1000)

theorem isNew_new (maxBatchSize : Int) : IsNew maxBatchSize (State.new maxBatchSize 1000) :=
  ⟨1000, rfl⟩

end PoUWController
