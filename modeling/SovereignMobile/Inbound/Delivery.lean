import Mathlib.Logic.Function.Basic

/-! # The delivery of inbound events

The per-stream dispatcher of `NativeQuicSession.ts`: `dispatchOrBuffer`, `subscribeInbound` and the
function that `subscribeInbound` returns, over the two maps they share. Subscribers of any number of
streams come and go while the native side emits events of all of them. A callback that calls the
returned function of its own subscription is the step of that call right after it. -/

namespace NativeQuicSession

open List
open Function (update update_of_ne update_self)

abbrev StreamId := String

inductive InboundEvent where
  | frame (frameB64 : String)
  | closed
  | error (error : String)
deriving DecidableEq

/-- A call of one of the three callbacks. -/
inductive Callback where
  | onFrame (frameB64 : String)
  | onClosed
  | onError (message : String)
deriving DecidableEq

/-- `onFrame` is always there, the other two are optional. -/
structure InboundSubscriber where
  onClosed : Bool
  onError : Bool
deriving DecidableEq

/-- The two maps. History: how often `subscribeInbound` has been called, and the callbacks that were
    called, each with the number of the call of `subscribeInbound` that it was passed to; the map of the
    subscribers has that number beside each of them. -/
structure State where
  subscribersByStreamId : StreamId → Option (Nat × InboundSubscriber)
  bufferedEventsByStreamId : StreamId → Option (List InboundEvent)
  subscriptions : Nat
  called : List (Nat × Callback)

def State.initial : State where
  subscribersByStreamId _ := none
  bufferedEventsByStreamId _ := none
  subscriptions := 0
  called := []

/-- `sub.onFrame(event.frameB64)`, `sub.onClosed?.()` or `sub.onError?.(event.error)`. -/
def InboundSubscriber.callback (sub : InboundSubscriber) : InboundEvent → Option Callback
  | .frame frameB64 => some (.onFrame frameB64)
  | .closed => if sub.onClosed then some .onClosed else none
  | .error error => if sub.onError then some (.onError error) else none

namespace State

def call (sub : Nat × InboundSubscriber) (s : State) (event : InboundEvent) : State :=
  match sub.2.callback event with
  | none => s
  | some c => { s with called := s.called ++ [(sub.1, c)] }

def dispatchOrBuffer (streamId : StreamId) (event : InboundEvent) (s : State) : State :=
  match s.subscribersByStreamId streamId with
  | some sub => s.call sub event
  | none =>
    let existing := (s.bufferedEventsByStreamId streamId).getD []
    { s with
      bufferedEventsByStreamId :=
        Function.update s.bufferedEventsByStreamId streamId (some (existing ++ [event])) }

def subscribeInbound (streamId : StreamId) (sub : InboundSubscriber) (s : State) : State :=
  let entry := (s.subscriptions, sub)
  let s := { s with
    subscribersByStreamId := Function.update s.subscribersByStreamId streamId (some entry)
    subscriptions := s.subscriptions + 1 }
  match s.bufferedEventsByStreamId streamId with
  | none => s
  | some buffered =>
    buffered.foldl (State.call entry)
      { s with
        bufferedEventsByStreamId := Function.update s.bufferedEventsByStreamId streamId none }

/-- What `subscribeInbound(streamId, …)` returns. -/
def unsubscribe (streamId : StreamId) (s : State) : State :=
  { s with
    subscribersByStreamId := Function.update s.subscribersByStreamId streamId none
    bufferedEventsByStreamId := Function.update s.bufferedEventsByStreamId streamId none }

/-- The callbacks of the `n`-th subscription that have been called, in order. -/
def received (n : Nat) (s : State) : List Callback :=
  (s.called.filter fun c => c.1 = n).map (·.2)

end State

inductive Step where
  | emit (streamId : StreamId) (event : InboundEvent)
  | subscribeInbound (streamId : StreamId) (sub : InboundSubscriber)
  | unsubscribe (streamId : StreamId)
deriving DecidableEq

def Step.apply (s : State) : Step → State
  | .emit streamId event => s.dispatchOrBuffer streamId event
  | .subscribeInbound streamId sub => s.subscribeInbound streamId sub
  | .unsubscribe streamId => s.unsubscribe streamId

def run (s : State) (steps : List Step) : State := steps.foldl Step.apply s

/-- The events of one stream, as the native side emits them. -/
def emitted (streamId : StreamId) (steps : List Step) : List InboundEvent :=
  steps.filterMap fun
    | .emit id event => if id = streamId then some event else none
    | _ => none

def Step.subscribes (streamId : StreamId) : Step → Bool
  | .subscribeInbound id _ => id = streamId
  | _ => false

def Step.unsubscribes (streamId : StreamId) : Step → Bool
  | .unsubscribe id => id = streamId
  | _ => false

/-! ## One step -/

section
variable {streamId : StreamId} {s : State} {n : Nat}

@[simp] theorem State.call_subscribers (sub : Nat × InboundSubscriber) (s : State)
    (event : InboundEvent) :
    (s.call sub event).subscribersByStreamId = s.subscribersByStreamId := by
  unfold State.call
  split <;> rfl

@[simp] theorem State.call_buffered (sub : Nat × InboundSubscriber) (s : State)
    (event : InboundEvent) :
    (s.call sub event).bufferedEventsByStreamId = s.bufferedEventsByStreamId := by
  unfold State.call
  split <;> rfl

@[simp] theorem State.call_subscriptions (sub : Nat × InboundSubscriber) (s : State)
    (event : InboundEvent) : (s.call sub event).subscriptions = s.subscriptions := by
  unfold State.call
  split <;> rfl

theorem State.received_call_self (sub : InboundSubscriber) (s : State) (event : InboundEvent) :
    (s.call (n, sub) event).received n = s.received n ++ (sub.callback event).toList := by
  unfold State.call
  cases h : sub.callback event with
  | none => simp
  | some c => simp [State.received]

variable {sub : Nat × InboundSubscriber} {steps : List Step} {c : Step}
    {current : Option InboundSubscriber} {calls : List Callback}

theorem State.received_call_other (h : sub.1 ≠ n) (s : State) (event : InboundEvent) :
    (s.call sub event).received n = s.received n := by
  unfold State.call
  cases sub.2.callback event with
  | none => rfl
  | some c => simp [State.received, h]

/-- What a flush leaves alone. -/
theorem State.foldl_call_maps (sub : Nat × InboundSubscriber) (events : List InboundEvent) :
    ∀ s : State, (events.foldl (State.call sub) s).subscribersByStreamId = s.subscribersByStreamId ∧
      (events.foldl (State.call sub) s).bufferedEventsByStreamId = s.bufferedEventsByStreamId ∧
      (events.foldl (State.call sub) s).subscriptions = s.subscriptions := by
  induction events with
  | nil =>
    intro s
    exact ⟨rfl, rfl, rfl⟩
  | cons event events ih =>
    intro s
    rw [foldl_cons]
    simpa using ih (s.call sub event)

theorem State.received_foldl_call_self (sub : InboundSubscriber) (events : List InboundEvent) :
    ∀ s : State, (events.foldl (State.call (n, sub)) s).received n =
      s.received n ++ events.filterMap sub.callback := by
  induction events with
  | nil =>
    intro s
    simp
  | cons event events ih =>
    intro s
    rw [foldl_cons, ih, State.received_call_self, append_assoc]
    congr 1
    cases h : sub.callback event with
    | none | some => simp [h]

theorem State.received_foldl_call_other (h : sub.1 ≠ n) (events : List InboundEvent) :
    ∀ s : State, (events.foldl (State.call sub) s).received n = s.received n := by
  induction events with
  | nil =>
    intro s
    rfl
  | cons event events ih =>
    intro s
    rw [foldl_cons, ih, State.received_call_other h]

/-- What a call of `subscribeInbound` does to the maps. -/
theorem State.subscribeInbound_maps (streamId : StreamId) (sub : InboundSubscriber) (s : State) :
    (s.subscribeInbound streamId sub).subscribersByStreamId =
      update s.subscribersByStreamId streamId (some (s.subscriptions, sub)) ∧
    (s.subscribeInbound streamId sub).bufferedEventsByStreamId =
      update s.bufferedEventsByStreamId streamId none ∧
    (s.subscribeInbound streamId sub).subscriptions = s.subscriptions + 1 := by
  unfold State.subscribeInbound
  dsimp only
  cases hb : s.bufferedEventsByStreamId streamId with
  | none => exact ⟨rfl, (Function.update_eq_self_iff.2 hb.symm).symm, rfl⟩
  | some buffered => exact State.foldl_call_maps _ buffered _

/-- The flush delivers what was buffered, and nothing to anyone else. -/
theorem State.received_subscribeInbound (streamId : StreamId) (sub : InboundSubscriber) (s : State) :
    (s.subscribeInbound streamId sub).received s.subscriptions = s.received s.subscriptions ++
        ((s.bufferedEventsByStreamId streamId).getD []).filterMap sub.callback ∧
    ∀ m, m ≠ s.subscriptions → (s.subscribeInbound streamId sub).received m = s.received m := by
  unfold State.subscribeInbound
  dsimp only
  cases hb : s.bufferedEventsByStreamId streamId with
  | none => exact ⟨by simp [State.received], fun _ _ => rfl⟩
  | some buffered =>
    constructor
    · exact State.received_foldl_call_self sub buffered _
    intro m hm
    have hother : (s.subscriptions, sub).1 ≠ m := hm.symm
    exact State.received_foldl_call_other hother buffered _

/-! ## Numbers -/

/-- The numbers of the subscribers and of the callbacks are numbers of calls that have been made. -/
structure State.Numbered (s : State) : Prop where
  subscribers : ∀ id sub, s.subscribersByStreamId id = some sub → sub.1 < s.subscriptions
  unused : ∀ m, s.subscriptions ≤ m → s.received m = []

theorem State.numbered_initial : State.initial.Numbered where
  subscribers _ _ h := by simp [State.initial] at h
  unused _ _ := rfl

theorem State.Numbered.apply (h : s.Numbered) (c : Step) : (c.apply s).Numbered := by
  cases c with
  | emit id event =>
    simp only [Step.apply, State.dispatchOrBuffer]
    cases hsub : s.subscribersByStreamId id with
    | none => exact ⟨h.subscribers, h.unused⟩
    | some sub =>
      have hlt := h.subscribers id sub hsub
      refine ⟨by simpa using h.subscribers, ?_⟩
      intro m hm
      rw [State.call_subscriptions] at hm
      rw [State.received_call_other (by omega)]
      exact h.unused m hm
  | subscribeInbound id sub =>
    obtain ⟨hsubs, _, hn⟩ := s.subscribeInbound_maps id sub
    obtain ⟨_, hothers⟩ := s.received_subscribeInbound id sub
    rw [Step.apply]
    constructor
    · intro x sub' hx
      rw [hsubs] at hx
      rw [hn]
      by_cases hid : x = id
      · rw [hid, update_self] at hx
        cases hx
        exact Nat.lt_succ_self _
      · rw [update_of_ne hid] at hx
        exact Nat.lt_succ_of_lt (h.subscribers x sub' hx)
    · intro m hm
      rw [hn] at hm
      rw [hothers m (by omega)]
      exact h.unused m (by omega)
  | unsubscribe id =>
    refine ⟨?_, h.unused⟩
    intro x sub hx
    simp only [Step.apply, State.unsubscribe] at hx
    by_cases hid : x = id
    · rw [hid] at hx
      simp at hx
    · rw [update_of_ne hid] at hx
      exact h.subscribers x sub hx

theorem State.Numbered.run : ∀ {s : State}, s.Numbered →
    (NativeQuicSession.run s steps).Numbered := by
  induction steps with
  | nil =>
    intro s h
    exact h
  | cons c steps ih =>
    intro s h
    exact ih (h.apply c)

/-! ## The three phases of a subscription -/

/-- Before it: the events of the stream wait in its buffer. -/
def State.Buffers (streamId : StreamId) (events : List InboundEvent) (s : State) : Prop :=
  s.subscribersByStreamId streamId = none ∧
    (s.bufferedEventsByStreamId streamId).getD [] = events

/-- While it lasts (`current` is the subscriber) and after it (`current` is `none`): no other stream
    has the number, and `calls` is what has been received. -/
structure State.Hears (streamId : StreamId) (n : Nat) (current : Option InboundSubscriber)
    (calls : List Callback) (s : State) : Prop where
  current : s.subscribersByStreamId streamId = current.map fun sub => (n, sub)
  others : ∀ id sub, id ≠ streamId → s.subscribersByStreamId id = some sub → sub.1 ≠ n
  made : n < s.subscriptions
  received : s.received n = calls

theorem State.Buffers.apply {events : List InboundEvent} (h : s.Buffers streamId events)
    (hsub : c.subscribes streamId = false) (hunsub : c.unsubscribes streamId = false) :
    (c.apply s).Buffers streamId (events ++ emitted streamId [c]) := by
  obtain ⟨hnone, hbuffer⟩ := h
  cases c with
  | emit id event =>
    simp only [Step.apply, State.dispatchOrBuffer]
    by_cases hid : id = streamId
    · subst hid
      rw [hnone]
      refine ⟨hnone, ?_⟩
      simp [emitted, hbuffer]
    have hne : streamId ≠ id := fun heq => hid heq.symm
    cases s.subscribersByStreamId id with
    | none =>
      refine ⟨hnone, ?_⟩
      simp [emitted, hid, update_of_ne hne, hbuffer]
    | some sub =>
      refine ⟨by simpa using hnone, ?_⟩
      simp [emitted, hid, hbuffer]
  | subscribeInbound id sub =>
    have hne : streamId ≠ id := fun heq => by simp [Step.subscribes, heq] at hsub
    obtain ⟨hsubs, hbuffers, _⟩ := s.subscribeInbound_maps id sub
    constructor
    · rw [Step.apply, hsubs, update_of_ne hne, hnone]
    · rw [Step.apply, hbuffers, update_of_ne hne, hbuffer]
      simp [emitted]
  | unsubscribe id =>
    have hne : streamId ≠ id := fun heq => by simp [Step.unsubscribes, heq] at hunsub
    simp only [Step.apply, State.unsubscribe, State.Buffers]
    rw [update_of_ne hne, update_of_ne hne]
    exact ⟨hnone, by simp [hbuffer, emitted]⟩

theorem nobody_hears (events : List InboundEvent) :
    (events.filterMap fun e => (none : Option InboundSubscriber).bind fun sub => sub.callback e) =
      [] := by
  simp

theorem State.Hears.apply (h : s.Hears streamId n current calls)
    (hsub : c.subscribes streamId = false) (hunsub : c.unsubscribes streamId = false) :
    (c.apply s).Hears streamId n current
      (calls ++ (emitted streamId [c]).filterMap fun e => current.bind fun sub => sub.callback e) := by
  cases c with
  | emit id event =>
    simp only [Step.apply, State.dispatchOrBuffer]
    by_cases hid : id = streamId
    · subst hid
      rw [h.current]
      cases current with
      | none =>
        -- buffered for whoever subscribes next
        refine ⟨h.current, h.others, h.made, ?_⟩
        rw [nobody_hears, append_nil]
        exact h.received
      | some sub =>
        dsimp only [Option.map_some]
        refine ⟨by simpa using h.current, by simpa using h.others, by simpa using h.made, ?_⟩
        rw [State.received_call_self, h.received]
        cases hc : sub.callback event with
        | none | some => simp [emitted, hc]
    · -- an event of another stream goes to a subscriber with another number
      have hemitted : emitted streamId [Step.emit id event] = [] := by simp [emitted, hid]
      rw [hemitted, filterMap_nil, append_nil]
      cases hx : s.subscribersByStreamId id with
      | none => exact ⟨h.current, h.others, h.made, h.received⟩
      | some sub =>
        refine ⟨by simpa using h.current, by simpa using h.others, by simpa using h.made, ?_⟩
        rw [State.received_call_other (h.others id sub hid hx)]
        exact h.received
  | subscribeInbound id sub =>
    have hne : streamId ≠ id := fun heq => by simp [Step.subscribes, heq] at hsub
    obtain ⟨hsubs, _, hn⟩ := s.subscribeInbound_maps id sub
    obtain ⟨_, hothers⟩ := s.received_subscribeInbound id sub
    have hmade := h.made
    have hemitted : emitted streamId [Step.subscribeInbound id sub] = [] := rfl
    rw [hemitted, filterMap_nil, append_nil, Step.apply]
    constructor
    · rw [hsubs, update_of_ne hne]
      exact h.current
    · intro x sub' hx hsome
      rw [hsubs] at hsome
      by_cases hid : x = id
      · rw [hid, update_self] at hsome
        cases hsome
        exact Nat.ne_of_gt hmade
      · rw [update_of_ne hid] at hsome
        exact h.others x sub' hx hsome
    · rw [hn]
      exact Nat.lt_succ_of_lt hmade
    · rw [hothers n (Nat.ne_of_lt hmade)]
      exact h.received
  | unsubscribe id =>
    have hne : streamId ≠ id := fun heq => by simp [Step.unsubscribes, heq] at hunsub
    have hemitted : emitted streamId [Step.unsubscribe id] = [] := rfl
    rw [hemitted, filterMap_nil, append_nil]
    refine ⟨?_, ?_, h.made, h.received⟩
    · simp only [Step.apply, State.unsubscribe]
      rw [update_of_ne hne]
      exact h.current
    intro x sub hx hsome
    simp only [Step.apply, State.unsubscribe] at hsome
    by_cases hid : x = id
    · rw [hid] at hsome
      simp at hsome
    · rw [update_of_ne hid] at hsome
      exact h.others x sub hx hsome

/-- The end of a subscription; a second call of the returned function changes nothing. -/
theorem State.Hears.unsubscribe (h : s.Hears streamId n current calls) :
    (s.unsubscribe streamId).Hears streamId n none calls := by
  refine ⟨?_, ?_, h.made, h.received⟩
  · simp [State.unsubscribe]
  intro x sub hx hsome
  simp only [State.unsubscribe] at hsome
  rw [update_of_ne hx] at hsome
  exact h.others x sub hx hsome

/-! ## Runs -/

theorem emitted_cons (c : Step) (steps : List Step) :
    emitted streamId (c :: steps) = emitted streamId [c] ++ emitted streamId steps := by
  rw [emitted, emitted, emitted, ← filterMap_append]
  rfl

theorem State.Buffers.run : ∀ {s : State} {events : List InboundEvent},
    s.Buffers streamId events → (∀ c ∈ steps, c.subscribes streamId = false) →
    (∀ c ∈ steps, c.unsubscribes streamId = false) →
    (NativeQuicSession.run s steps).Buffers streamId (events ++ emitted streamId steps) := by
  induction steps with
  | nil =>
    intro s events h _ _
    simpa [emitted, NativeQuicSession.run] using h
  | cons c steps ih =>
    intro s events h hsub hunsub
    have hstep := h.apply (hsub c mem_cons_self) (hunsub c mem_cons_self)
    rw [emitted_cons, ← append_assoc]
    exact ih hstep (fun x hx => hsub x (mem_cons_of_mem _ hx))
      fun x hx => hunsub x (mem_cons_of_mem _ hx)

/-- After the subscription nothing more is received. -/
theorem State.Hears.run_none : ∀ {s : State} {calls : List Callback},
    s.Hears streamId n none calls → (∀ c ∈ steps, c.subscribes streamId = false) →
    (NativeQuicSession.run s steps).received n = calls := by
  induction steps with
  | nil =>
    intro s calls h _
    exact h.received
  | cons c steps ih =>
    intro s calls h hsub
    have hrest : ∀ x ∈ steps, x.subscribes streamId = false :=
      fun x hx => hsub x (mem_cons_of_mem _ hx)
    cases hunsub : c.unsubscribes streamId with
    | false =>
      have hstep := h.apply (hsub c mem_cons_self) hunsub
      rw [nobody_hears, append_nil] at hstep
      exact ih hstep hrest
    | true =>
      cases c with
      | unsubscribe id =>
        obtain rfl := of_decide_eq_true hunsub
        exact ih h.unsubscribe hrest
      | emit | subscribeInbound => simp [Step.unsubscribes] at hunsub

/-- While it lasts, what is emitted is received. -/
theorem State.Hears.run_some {sub : InboundSubscriber} : ∀ {s : State} {calls : List Callback},
    s.Hears streamId n (some sub) calls → (∀ c ∈ steps, c.subscribes streamId = false) →
    (NativeQuicSession.run s steps).received n = calls ++ (emitted streamId
        (steps.takeWhile fun c => !c.unsubscribes streamId)).filterMap sub.callback := by
  induction steps with
  | nil =>
    intro s calls h _
    simpa [emitted, NativeQuicSession.run] using h.received
  | cons c steps ih =>
    intro s calls h hsub
    have hrest : ∀ x ∈ steps, x.subscribes streamId = false :=
      fun x hx => hsub x (mem_cons_of_mem _ hx)
    cases hunsub : c.unsubscribes streamId with
    | false =>
      have hstep := h.apply (hsub c mem_cons_self) hunsub
      have hrun := ih hstep hrest
      rw [takeWhile_cons, hunsub, if_pos (by rfl), emitted_cons, filterMap_append, ← append_assoc]
      exact hrun
    | true =>
      rw [takeWhile_cons, hunsub, if_neg (by simp)]
      cases c with
      | unsubscribe id =>
        obtain rfl := of_decide_eq_true hunsub
        have hrun := h.unsubscribe.run_none hrest
        rw [emitted, filterMap_nil, filterMap_nil, append_nil]
        exact hrun
      | emit | subscribeInbound => simp [Step.unsubscribes] at hunsub

end

end NativeQuicSession
