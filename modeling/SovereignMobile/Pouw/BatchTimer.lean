import SovereignMobile.EventLoop.Only
import SovereignMobile.EventLoop.Wp
import SovereignMobile.Pouw.Batches

/-! # The batch timer and the running flag

`start` looks at `isRunning` before its first suspension and sets it, with the interval, after its
last; `stop` clears the interval before it suspends and the flag afterwards. What keeps interval and
flag together is that neither end finds an interval ticking. -/

namespace PoUWController

open EventLoop List Option

/-- At most one interval ticks, and once every `stop` has returned (a `start` may still be under way),
    one ticks exactly if the controller is running. -/
structure TimerRight (w : Sys machine) : Prop where
  one : w.state.intervals.length ≤ 1
  settled : (∀ t ∈ w.tasks, t.id ∉ w.state.stopping) →
    (w.state.intervals ≠ [] ↔ w.state.isRunning = true)

/-- No `start` gets to `setInterval`, and no `stop` to its last statement, while an interval ticks. -/
def noneTicking : Cond machine where
  op _ s o :=
    match o with
    | .setInterval => s.intervals.isEmpty
    | .setStopped => s.intervals.isEmpty
    | _ => true
  call _ _ _ _ := true

/-- `batchTimer` is the interval that ticks, and an interval is missing from a running controller
    only after a `stop` that has not returned has cleared it. -/
structure TimerInv (s : State) : Prop where
  intervals : s.intervals = s.batchTimer.toList
  ticking : s.intervals ≠ [] → s.isRunning = true
  running : s.isRunning = true → s.intervals ≠ [] ∨ s.stopping ≠ []

variable {s : State} {o : Op} {i : Nat} {α : Type}

theorem TimerInv.length_le (h : TimerInv s) : s.intervals.length ≤ 1 := by
  rw [h.intervals]
  cases s.batchTimer <;> simp

theorem TimerInv.settled (h : TimerInv s) (hstop : s.stopping = []) :
    s.intervals ≠ [] ↔ s.isRunning = true := by
  constructor
  · exact h.ticking
  intro hrun
  rcases h.running hrun with ht | ht
  · exact ht
  · exact absurd hstop ht

section Operations
variable {s : State}

/-- What neither the intervals nor the flag depend on may change. -/
theorem TimerInv.of_eq {s' : State} (h : TimerInv s) (hi : s'.intervals = s.intervals)
    (hb : s'.batchTimer = s.batchTimer) (hr : s'.isRunning = s.isRunning)
    (hs : s'.stopping = s.stopping) : TimerInv s' := by
  refine ⟨?_, ?_, ?_⟩
  · rw [hi, hb]
    exact h.intervals
  · rw [hi, hr]
    exact h.ticking
  · rw [hi, hr, hs]
    exact h.running

theorem timerInv_setInterval (hc : s.intervals = []) : TimerInv s.setInterval := by
  have hi : s.setInterval.intervals = [s.nextInterval] := by simp [State.setInterval, hc]
  refine ⟨?_, fun _ => rfl, fun _ => .inl ?_⟩
  · rw [hi]
    rfl
  · rw [hi]
    simp

/-- After the first statement of `stop` nothing ticks. -/
theorem clearInterval_intervals (h : TimerInv s) :
    s.clearInterval.intervals = [] ∧ s.clearInterval.batchTimer = none := by
  have hi := h.intervals
  unfold State.clearInterval
  split
  · rename_i hb
    rw [hb] at hi
    exact ⟨hi, hb⟩
  · rename_i t hb
    rw [hb] at hi
    simp [hi]

theorem TimerInv.stop (h : TimerInv s) (i : Nat) :
    TimerInv (PoUWController.apply i .clearInterval s) := by
  obtain ⟨hi, hb⟩ := clearInterval_intervals h
  refine ⟨?_, fun ht => absurd hi ht, fun _ => .inr ?_⟩
  · simp only [PoUWController.apply]
    rw [hi, hb]
    rfl
  · simp [PoUWController.apply]

theorem TimerInv.setStopped (h : TimerInv s) (hc : s.intervals = []) (i : Nat) :
    TimerInv (PoUWController.apply i .setStopped s) :=
  ⟨h.intervals, fun ht => absurd hc ht, fun hr => absurd hr (by simp [PoUWController.apply])⟩

theorem TimerInv.apply (h : TimerInv s) {i : Nat} {o : Op} (hc : noneTicking.op i s o = true) :
    TimerInv (PoUWController.apply i o s) := by
  cases o with
  | setInterval => exact timerInv_setInterval (isEmpty_iff.1 hc)
  | clearInterval => exact h.stop i
  | setStopped => exact h.setStopped (isEmpty_iff.1 hc) i
  | splice =>
    simp only [PoUWController.apply, State.splice]
    split
    · exact h
    · exact h.of_eq rfl rfl rfl rfl
  | resolve n =>
    simp only [PoUWController.apply, State.resolve]
    split
    · exact h
    · exact h.of_eq rfl rfl rfl rfl
  | unshift n =>
    simp only [PoUWController.apply, State.unshift]
    split
    · exact h
    · exact h.of_eq rfl rfl rfl rfl
  | _ => exact h.of_eq rfl rfl rfl rfl

end Operations

/-! ## Which calls of `stop` are under way -/

/-- A task stays in `stopping` while it is suspended, and is not left there when it ends. -/
def stopSpec : Spec machine where
  Inv _ := True
  Rely i s s' := i ∈ s'.stopping ↔ i ∈ s.stopping
  OpPre _ _ _ := True
  CallPre _ _ _ := True
  Fin i s := i ∉ s.stopping

def Op.isStop : Op → Bool
  | .clearInterval => true
  | .setStopped => true
  | _ => false

theorem stopping_apply (ho : o.isStop = false) (i : Nat) (s : State) :
    (apply i o s).stopping = s.stopping := by
  cases o with
  | clearInterval | setStopped => simp [Op.isStop] at ho
  | splice =>
    simp only [apply, State.splice]
    split <;> rfl
  | resolve n =>
    simp only [apply, State.resolve]
    split <;> rfl
  | unshift n =>
    simp only [apply, State.unshift]
    split <;> rfl
  | _ => rfl

theorem mem_stopping_other {j : Nat} (hj : j ≠ i) (o : Op) (s : State) :
    j ∈ (apply i o s).stopping ↔ j ∈ s.stopping := by
  cases ho : o.isStop with
  | false => rw [stopping_apply ho]
  | true =>
    cases o with
    | clearInterval | setStopped => simp [apply, hj]
    | _ => simp [Op.isStop] at ho

theorem stopSpec_sound : stopSpec.Sound .any where
  refl _ _ := .rfl
  trans _ _ _ _ h1 h2 := h2.trans h1
  op i s o _ _ _ := ⟨trivial, fun _ hj => mem_stopping_other hj o s⟩
  call i s c r s' o _ _ hp _ := by
    obtain rfl := perform_eq (i := i) hp
    exact ⟨trivial, fun _ _ => .rfl⟩
  fin i s s' hf hr _ := fun hi => hf (hr.1 hi)

/-- A program that neither begins nor ends a `stop`. -/
abbrev Bystander {α : Type} (m : Prog α) : Prop :=
  Async.Only (M := machine) (Kind.ofOp fun o => Op.isStop o = false) (fun _ => True) m

theorem bystander_carries : stopSpec.Carries Cond.any (Kind.ofOp fun o => Op.isStop o = false)
    fun _ i s => i ∉ s.stopping where
  reads _ _ _ _ hf := ⟨trivial, hf⟩
  op _ i s o ho _ hf _ := ⟨trivial, fun _ => by rwa [stopping_apply ho]⟩
  call _ i s c _ _ hf := by
    refine ⟨trivial, fun r s' o hp _ _ => ⟨?_, trivial⟩⟩
    obtain rfl := perform_eq (i := i) hp
    exact hf
  rely _ i s s' hf hr _ := fun hi => hf (hr.1 hi)
  fork _ _ _ _ _ hj := hj
  fin _ _ _ hf := hf

theorem bystander_pure (a : α) : Bystander (pure a) := .pure trivial

theorem bystander_get : Bystander (Async.get : Prog State) := .get fun _ _ _ => trivial

theorem bystander_call (c : Call) : Bystander (call c) :=
  .await (fun _ => trivial) fun _ _ _ => trivial

theorem bystander_exec (h : o.isStop = false) : Bystander (exec o) :=
  .op fun _ => h

theorem bystander_awaitFn {m : Prog α} (hm : Bystander m) : Bystander (awaitFn m) := by
  refine hm.settle fun r _ => (bystander_call _).bind fun _ _ => ?_
  cases r with
  | ok a => exact bystander_pure a
  | error e => exact .throw e

theorem bystander_submitBatch : Bystander submitBatch := by
  refine bystander_get.bind fun s _ => ?_
  split
  · exact bystander_pure _
  refine (bystander_exec rfl).bind fun _ _ => (bystander_call _).settle fun r _ => ?_
  cases r with
  | ok | error => exact (bystander_exec rfl).bind fun _ _ => bystander_pure _

theorem bystander_fallbackChallenge (proofTypes : List ProofType) :
    Bystander (fallbackChallenge proofTypes) := by
  refine (bystander_call _).settle fun r _ => ?_
  rcases r with e | _ | parsed
  · exact bystander_exec rfl
  · exact bystander_exec rfl
  dsimp only
  split
  · exact bystander_exec rfl
  · exact bystander_exec rfl

theorem bystander_refreshChallenge (proofTypes : List ProofType) :
    Bystander (refreshChallenge proofTypes) := by
  refine (bystander_call _).settle fun r _ => ?_
  rcases r with e | _ | parsed
  · exact bystander_fallbackChallenge proofTypes
  · exact bystander_fallbackChallenge proofTypes
  dsimp only
  split
  · exact bystander_exec rfl
  · exact bystander_fallbackChallenge proofTypes

theorem bystander_ensureChallenge (proofTypes : List ProofType) :
    Bystander (ensureChallenge proofTypes) := by
  refine bystander_get.bind fun s _ => ?_
  split
  · exact bystander_pure _
  have hrefresh := bystander_awaitFn (bystander_refreshChallenge proofTypes)
  refine (hrefresh.tryCatch fun _ => bystander_pure _).bind fun _ _ =>
    bystander_get.bind fun s _ => ?_
  split
  · exact bystander_pure _
  · exact .throw _

theorem bystander_signAndQueue (receipt : Receipt) : Bystander (signAndQueue receipt) := by
  refine (bystander_awaitFn (bystander_call _)).bind fun signature _ =>
    (bystander_exec rfl).bind fun _ _ => bystander_get.bind fun s _ => ?_
  split
  · exact (bystander_awaitFn bystander_submitBatch).bind fun _ _ => bystander_pure _
  · exact bystander_pure _

theorem bystander_createAndQueueReceipt (q : ReceiptRequest) :
    Bystander (createAndQueueReceipt q) := by
  refine (bystander_awaitFn (bystander_ensureChallenge _)).bind fun _ _ =>
    bystander_get.bind fun s _ => ?_
  split
  · split
    · exact .throw _
    · exact bystander_signAndQueue _
  · exact bystander_pure _

theorem bystander_start : Bystander start := by
  refine bystander_get.bind fun s _ => ?_
  split
  · exact bystander_pure _
  refine (bystander_call _).bind fun identity _ => (bystander_exec rfl).bind fun _ _ => ?_
  split
  · exact .throw _
  · exact (bystander_exec rfl).bind fun _ _ =>
      (bystander_awaitFn (bystander_refreshChallenge _)).bind fun _ _ => bystander_exec rfl

theorem bystander_tick (t : Nat) : Bystander (tick t) := by
  refine bystander_get.bind fun s _ => ?_
  split
  · exact bystander_submitBatch.bind fun _ _ => bystander_pure _
  · exact bystander_pure _

/-- `submitBatch` catches what its request throws. -/
theorem submitBatch_returns : stopSpec.Wp .any i submitBatch (fun r _ => ∃ b, r = .ok b) s := by
  refine .getThen ?_
  split
  · exact .pure trivial ⟨_, rfl⟩
  have hexec : ∀ o s, stopSpec.Wp .any i (exec o) (fun r _ => r = .ok ()) s := fun o s =>
    .op fun _ => ⟨trivial, fun _ => rfl⟩
  have hthen : ∀ o b s, stopSpec.Wp .any i (exec o >>= fun _ => pure b : Prog Bool)
      (fun r _ => ∃ b, r = .ok b) s := fun o b s =>
    (hexec o s).bind (fun _ _ _ _ => .pure trivial ⟨b, rfl⟩) fun _ _ _ he => by simp at he
  refine (hexec _ s).bind (fun _ s' _ _ => ?_) fun _ _ _ he => by simp at he
  have hsend : ∀ b s, stopSpec.Wp .any i (call (.submit b)) (fun _ _ => True) s := fun b s =>
    .await fun _ _ _ => ⟨trivial, fun _ _ _ _ _ _ _ _ _ => trivial⟩
  refine (hsend _ s').settle fun r s' _ _ => ?_
  cases r with
  | ok | error => exact hthen _ _ _

theorem stop_safe : stopSpec.Safe .any i stop.toTask s := by
  have htick : ∀ s, stopSpec.Wp .any i (call .tick) (fun r _ => r = .ok ()) s := by
    intro s
    refine .await fun s1 _ _ => ⟨trivial, fun r s2 o hp _ _ s3 _ _ => ?_⟩
    simp only [perform, outcome, map_some, some.injEq, Prod.mk.injEq] at hp
    exact hp.2.symm
  have hsubmit : stopSpec.Wp .any i (awaitFn submitBatch) (fun r _ => ∃ b, r = .ok b)
      (apply i .clearInterval s) := by
    refine .settle submitBatch_returns fun r s' _ hr => ?_
    obtain ⟨b, rfl⟩ := hr
    refine (htick s').bind (fun _ _ _ _ => .pure trivial ⟨b, rfl⟩) fun _ _ _ he => ?_
    simp at he
  refine Spec.Wp.toTask (Q := fun r s' => i ∉ s'.stopping) ?_ fun _ _ _ h => h
  have hclear : stopSpec.Wp Cond.any i (exec .clearInterval)
      (fun r s' => r = .ok () ∧ s' = apply i .clearInterval s) s :=
    .op fun _ => ⟨trivial, fun _ => ⟨rfl, rfl⟩⟩
  refine hclear.bind ?_ fun _ _ _ he => by simp at he
  rintro _ s' _ ⟨-, rfl⟩
  refine hsubmit.bind (fun _ s' _ _ => ?_) fun _ _ _ he => by simp at he
  exact .op fun _ => ⟨trivial, fun _ => by simp [apply]⟩

theorem prog_safe (c : Cmd) (i : Nat) (s : State) (hi : i ∉ s.stopping) :
    stopSpec.Safe .any i (prog c) s := by
  have hby : ∀ {α : Type} {m : Prog α}, Bystander m → stopSpec.Safe .any i m.toTask s :=
    fun hm => Spec.safe_of_only bystander_carries _ .whatever (hm.toTask .whatever) i s trivial hi
  cases c with
  | start => exact hby bystander_start
  | stop => exact stop_safe
  | flush => exact hby bystander_submitBatch
  | createAndQueueReceipt q => exact hby (bystander_createAndQueueReceipt q)
  | tick t => exact hby (bystander_tick t)

/-- Under the condition, the timer is live exactly while the controller runs. -/
theorem timerRight_of_noneTicking (maxBatchSize : Int) {w : Sys machine}
    (h : Reach noneTicking prog (IsNew maxBatchSize) w) : TimerRight w := by
  have hw : (stopSpec.strengthen TimerInv).PoolOk noneTicking w := by
    refine stopSpec_sound.transfer ?_ ?_ (fun c i s _ hi => prog_safe c i s hi)
      (fun i s o _ hs hc _ => hs.apply hc) ?_ h
    · rintro s ⟨nowSecs, rfl⟩
      exact ⟨trivial, rfl, fun ht => absurd rfl ht, fun hr => absurd hr (by simp [State.new])⟩
    · rintro s i ⟨nowSecs, rfl⟩
      simp [stopSpec, State.new]
    · intro i s c r s' o _ hs _ hp _
      obtain rfl := perform_eq (i := i) hp
      exact hs.of_eq rfl rfl rfl rfl
  have hinv : TimerInv w.state := hw.inv.2
  refine ⟨hinv.length_le, fun hret => hinv.settled ?_⟩
  -- a task that is not suspended any more has left `stopping`
  rw [eq_nil_iff_forall_not_mem]
  intro i hi
  exact hw.fin i (fun t ht hid => hret t ht (hid ▸ hi)) hi

/-! ## Overlapping calls -/

/-- `stop` is called while `start` waits for its challenge. -/
def stopDuringStart : List (Move machine Cmd) :=
  List.flatten [[.start .start], answered 0 (.identity ⟨"did:zhtp:a", some "01"⟩), [.start .stop],
    answered 1 .ok, answered 0 (.challenge (some contentChallenge)), answered 0 .ok]

theorem timerRight_stopDuringStart :
    ∃ w, (initially 20).run noneTicking prog stopDuringStart = some w ∧
      w.state.isRunning = true ∧ TimerRight w := by
  have hw : ((initially 20).run noneTicking prog stopDuringStart).map (fun w => w.state.isRunning)
      = some true := by decide
  rw [map_eq_some_iff] at hw
  obtain ⟨w, hrun, hrunning⟩ := hw
  exact ⟨w, hrun, hrunning, timerRight_of_noneTicking 20 (.of_run (isNew_new 20) hrun)⟩

/-- Two calls of `start` pass the check before either sets the flag. -/
def startedTwice : List (Move machine Cmd) :=
  List.flatten [[.start .start], startAs 1 "did:zhtp:a",
    answered 0 (.identity ⟨"did:zhtp:a", some "01"⟩), answered 0 (.challenge (some contentChallenge)),
    answered 0 .ok]

/-- `start` sets its interval between the first and the last statement of `stop`. -/
def startedDuringStop : List (Move machine Cmd) :=
  List.flatten [[.start .start], answered 0 (.identity ⟨"did:zhtp:a", some "01"⟩),
    answered 0 (.challenge (some contentChallenge)), [.start .stop], answered 0 .ok, answered 1 .ok]

theorem not_timerRight :
    (¬ ∀ w : Sys machine, Reach Cond.any prog (IsNew 20) w → w.state.intervals.length ≤ 1) ∧
    ¬ ∀ w : Sys machine, Reach Cond.any prog (IsNew 20) w → w.tasks.length = 0 →
      (w.state.intervals ≠ [] ↔ w.state.isRunning = true) := by
  constructor
  · intro hall
    have hw : ((initially 20).run .any prog startedTwice).map
        (fun w => w.state.intervals.length) = some 2 := by decide
    rw [map_eq_some_iff] at hw
    obtain ⟨w, hrun, htwo⟩ := hw
    have hle := hall w (.of_run (isNew_new 20) hrun)
    omega
  · intro hall
    have hw : ((initially 20).run .any prog startedDuringStop).map
        (fun w => (w.tasks.length, w.state.intervals, w.state.isRunning)) = some (0, [0], false) := by
      decide
    rw [map_eq_some_iff] at hw
    obtain ⟨w, hrun, hobs⟩ := hw
    simp only [Prod.mk.injEq] at hobs
    obtain ⟨htasks, hticks, hstopped⟩ := hobs
    have hiff := hall w (.of_run (isNew_new 20) hrun) htasks
    rw [hticks, hstopped] at hiff
    exact nomatch hiff.1 (by simp)

end PoUWController
