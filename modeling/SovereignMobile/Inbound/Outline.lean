import SovereignMobile.EventLoop.Wp
import SovereignMobile.Inbound.Subscription

/-! # What holds of the subscription at every moment

One open at a time, one timeout at a time, and a subscriber for no other stream than the current one:
these hold in every run of the code. The task whose start began the open owns it until its `finally`,
and no other task touches `inboundOpenInFlight` meanwhile. -/

namespace Inbound

open EventLoop List Option

variable {available : Bool} {s s' : State}

/-- The open that task `i` began, before and after its promise is settled. -/
def State.Opening (i : Nat) (settled : Bool) (s : State) : Prop :=
  s.inboundOpenInFlight = some ⟨i, settled⟩

structure Inv (s : State) : Prop where
  timeouts : s.timeouts.map (·.1) = s.inboundReopenTimer.toList
  stopped : s.inboundStopped = true → s.inboundReopenTimer = none
  opening : ∀ i, s.Opening i false → s.inboundStreamId = none
  calls : s.openInboundCalls ≤ 1
  idle : (∀ i, ¬ s.Opening i false) → s.openInboundCalls = 0
  unsubscribe : s.inboundUnsubscribe = s.inboundStreamId
  subscribers : ∀ id ∈ s.subscribersByStreamId, s.inboundStreamId = some id
  current : ∀ id, s.inboundStreamId = some id → id ∈ s.returned
  told : ∀ id ∈ s.toldEnded, id ∈ s.returned ∧ id ∈ s.reported
  issued : ∀ id ∈ s.returned, id ∈ s.issued
  buffered : ∀ id, ∀ e ∈ s.bufferedEventsByStreamId id, e.ends = true → id ∈ s.reported
  afterStop : s.afterStop.isSome = true → s.inboundStopped = true

theorem inv_initial (now : Int) : Inv (State.initial now) where
  timeouts := rfl
  stopped _ := rfl
  opening _ h := by simp [State.Opening, State.initial] at h
  calls := Nat.zero_le _
  idle _ := rfl
  unsubscribe := rfl
  subscribers _ h := by simp [State.initial] at h
  current _ h := by simp [State.initial] at h
  told _ h := by simp [State.initial] at h
  issued _ h := by simp [State.initial] at h
  buffered _ _ h := by simp [State.initial] at h
  afterStop h := by simp [State.initial] at h

/-! ## The parts of the operations -/

/-- What `scheduleInboundReopen` changes, and when. -/
theorem State.scheduleInboundReopen_cases (s : State) :
    (s.scheduleInboundReopen = s ∧ (s.inboundStopped = true ∨ s.inboundReopenTimer.isSome = true)) ∨
    (s.inboundStopped = false ∧ s.inboundReopenTimer = none ∧ s.scheduleInboundReopen =
        { s with inboundCapHitAtMs := some s.now, inboundSubscriptionOffline := true }) ∨
    (s.inboundStopped = false ∧ s.inboundReopenTimer = none ∧ ∃ failures attempts delay,
      s.scheduleInboundReopen = { s with
          inboundConsecutiveFailures := failures
          inboundReopenAttempts := attempts
          inboundReopenTimer := some s.nextTimeout
          timeouts := s.timeouts ++ [(s.nextTimeout, delay)]
          nextTimeout := s.nextTimeout + 1 }) := by
  unfold State.scheduleInboundReopen
  split
  · rename_i h
    exact .inl ⟨rfl, by simpa using h⟩
  rename_i h
  simp only [Bool.or_eq_true, not_or, Bool.not_eq_true, isSome_eq_false_iff,
    isNone_iff_eq_none] at h
  split
  · exact .inr (.inl ⟨h.1, h.2, rfl⟩)
  · exact .inr (.inr ⟨h.1, h.2, _, _, _, rfl⟩)

theorem Inv.scheduleInboundReopen (h : Inv s) : Inv s.scheduleInboundReopen := by
  rcases s.scheduleInboundReopen_cases with ⟨heq, _⟩ | ⟨_, _, heq⟩ | ⟨hstop, htimer, _, _, _, heq⟩
  · rw [heq]
    exact h
  · rw [heq]
    exact { h with }
  rw [heq]
  exact { h with
    timeouts := by simp [h.timeouts, htimer]
    stopped := fun hs => absurd hs (by simp [hstop]) }

/-- The stream is let go of, and its subscriber with it. -/
def State.dropStream (s : State) : State := State.unsubscribe { s with inboundStreamId := none }

theorem State.unsubscribe_with_none (s : State) :
    { s.unsubscribe with inboundStreamId := none } = s.dropStream := by
  unfold State.dropStream State.unsubscribe
  cases h : s.inboundUnsubscribe <;> simp only [h]

theorem State.closeStream_unsubscribe (s : State) : s.unsubscribe.closeStream =
      { s.dropStream with closedInbound := s.inboundStreamId.toList ++ s.closedInbound } := by
  cases s with
  | mk id unsubscribe => cases unsubscribe <;> cases id <;> rfl

/-- What letting go of the stream changes. -/
theorem State.dropStream_cases (s : State) :
    s.dropStream = { s with inboundStreamId := none } ∨ ∃ id, s.inboundUnsubscribe = some id ∧
      s.dropStream = { s with
        inboundStreamId := none
        subscribersByStreamId := s.subscribersByStreamId.filter (· ≠ id)
        bufferedEventsByStreamId := fun x => if x = id then [] else s.bufferedEventsByStreamId x
        inboundUnsubscribe := none } := by
  unfold State.dropStream State.unsubscribe
  split
  · exact .inl rfl
  · rename_i id h
    exact .inr ⟨id, h, rfl⟩

theorem State.dropStream_inboundStreamId (s : State) : s.dropStream.inboundStreamId = none := by
  rcases s.dropStream_cases with h | ⟨_, _, h⟩ <;> rw [h]

theorem Inv.dropStream (h : Inv s) : Inv s.dropStream := by
  unfold State.dropStream State.unsubscribe
  split
  · rename_i hnone
    have hid : s.inboundStreamId = none := h.unsubscribe ▸ hnone
    exact { h with
      opening := fun _ _ => rfl
      unsubscribe := hnone
      subscribers := fun x hx => hid ▸ h.subscribers x hx
      current := fun _ hc => nomatch hc }
  · rename_i id hsome
    have hid : s.inboundStreamId = some id := h.unsubscribe ▸ hsome
    exact { h with
      opening := fun _ _ => rfl
      unsubscribe := rfl
      subscribers := by
        intro x hx
        obtain ⟨hmem, hne⟩ := mem_filter.1 hx
        have hcur := h.subscribers x hmem
        rw [hid] at hcur
        simp [some.inj hcur] at hne
      current := fun _ hc => nomatch hc
      buffered := by
        intro x e he
        dsimp only at he
        split at he
        · simp at he
        · exact h.buffered x e he }

theorem Inv.onFrame (h : Inv s) (bytes : Frame) : Inv (s.onFrame bytes) :=
  { h with afterStop := by simpa [State.onFrame] using h.afterStop }

variable {id : StreamId} {e : InboundEvent} {i j : Nat} {b : Bool} {o : Op} {r : Reply} {c : Call}

theorem Inv.tell (h : Inv s) (hid : s.inboundStreamId = some id) (hr : id ∈ s.reported) :
    Inv (s.tell id) :=
  { h with
    told := by
      intro x hx
      rcases mem_cons.1 hx with rfl | hx
      · exact ⟨h.current x hid, hr⟩
      · exact h.told x hx }

theorem Inv.onEnded (h : Inv s) (hid : s.inboundStreamId = some id) (hr : id ∈ s.reported) :
    Inv (s.onEnded id) := by
  unfold State.onEnded
  rw [if_pos (by exact hid)]
  exact (h.tell hid hr).dropStream.scheduleInboundReopen

theorem Inv.report (h : Inv s) (id : StreamId) (e : InboundEvent) : Inv (s.report id e) := by
  unfold State.report
  split
  · exact { h with
      told := fun x hx => ⟨(h.told x hx).1, mem_cons_of_mem _ (h.told x hx).2⟩
      buffered := fun x e he hends => mem_cons_of_mem _ (h.buffered x e he hends) }
  · exact h

theorem State.mem_report (h : e.ends = true) : id ∈ (s.report id e).reported := by
  rw [State.report, if_pos h]
  exact mem_cons_self

theorem Inv.buffer (h : Inv s) (hr : e.ends = true → id ∈ s.reported) :
    Inv { s with bufferedEventsByStreamId := fun x =>
      if x = id then s.bufferedEventsByStreamId id ++ [e] else s.bufferedEventsByStreamId x } :=
  { h with
    buffered := by
      intro x e' he hends
      dsimp only at he
      split at he
      · rename_i hx
        subst hx
        rcases mem_append.1 he with he | he
        · exact h.buffered x e' he hends
        · obtain rfl := mem_singleton.1 he
          exact hr hends
      · exact h.buffered x e' he hends }

theorem Inv.dispatchOrBuffer (h : Inv s) (id : StreamId) (e : InboundEvent) :
    Inv (s.dispatchOrBuffer id e) := by
  have hrep := h.report id e
  unfold State.dispatchOrBuffer
  dsimp only
  split
  · rename_i hsub
    have hid := hrep.subscribers id hsub
    cases e with
    | frame bytes => exact hrep.onFrame bytes
    | closed | error => exact hrep.onEnded hid (State.mem_report rfl)
  · exact hrep.buffer State.mem_report

/-- While no stream is current, the handlers of a new stream only count and note what they hear. -/
theorem State.foldl_handle (id : StreamId) (es : List InboundEvent) :
    ∀ s : State, s.inboundStreamId = none → ∃ attempts failures offline cap told after,
      es.foldl (State.handle id) s = { s with
          inboundReopenAttempts := attempts
          inboundConsecutiveFailures := failures
          inboundSubscriptionOffline := offline
          inboundCapHitAtMs := cap
          toldEnded := told
          afterStop := after } ∧
      (∀ x ∈ told, x ∈ s.toldEnded ∨ (x = id ∧ ∃ e ∈ es, e.ends = true)) ∧
      after.isSome = s.afterStop.isSome := by
  induction es with
  | nil =>
    intro s _
    exact ⟨_, _, _, _, _, _, rfl, fun x hx => .inl hx, rfl⟩
  | cons e es ih =>
    intro s hs
    have hended : s.onEnded id = s.tell id := by
      simp [State.onEnded, State.tell, hs]
    have hend : e.ends = true → s.handle id e = s.tell id := by
      intro hends
      cases e with
      | frame bytes => simp [InboundEvent.ends] at hends
      | closed | error => exact hended
    rw [foldl_cons]
    cases hends : e.ends with
    | true =>
      rw [hend hends]
      obtain ⟨a, f, o, c, told, after, heq, htold, hafter⟩ :=
        ih (s.tell id) hs
      refine ⟨a, f, o, c, told, after, heq, fun x hx => ?_, hafter⟩
      rcases htold x hx with h | ⟨rfl, e', he', hends'⟩
      · rcases mem_cons.1 h with rfl | h
        · exact .inr ⟨rfl, e, mem_cons_self, hends⟩
        · exact .inl h
      · exact .inr ⟨rfl, e', mem_cons_of_mem _ he', hends'⟩
    | false =>
      cases e with
      | frame bytes =>
        obtain ⟨a, f, o, c, told, after, heq, htold, hafter⟩ := ih (s.onFrame bytes) hs
        refine ⟨a, f, o, c, told, after, heq, fun x hx => ?_, ?_⟩
        · rcases htold x hx with h | ⟨rfl, e', he', hends'⟩
          · exact .inl h
          · exact .inr ⟨rfl, e', mem_cons_of_mem _ he', hends'⟩
        · rw [hafter]
          simp [State.onFrame]
      | closed | error => simp [InboundEvent.ends] at hends

/-- What the end of an open changes. -/
theorem State.opened_eq (id : StreamId) (hs : s.inboundStreamId = none) :
    ∃ attempts failures offline cap told after, s.opened id = { s with
          inboundReopenAttempts := attempts
          inboundConsecutiveFailures := failures
          inboundSubscriptionOffline := offline
          inboundCapHitAtMs := cap
          toldEnded := told
          afterStop := after
          returned := id :: s.returned
          subscribersByStreamId := id :: s.subscribersByStreamId.filter (· ≠ id)
          bufferedEventsByStreamId := fun x => if x = id then [] else s.bufferedEventsByStreamId x
          inboundStreamId := some id
          inboundUnsubscribe := some id
          inboundOpenInFlight := s.inboundOpenInFlight.map fun p => { p with settled := true } } ∧
      (∀ x ∈ told, x ∈ s.toldEnded ∨
        (x = id ∧ ∃ e ∈ s.bufferedEventsByStreamId id, e.ends = true)) ∧
      after.isSome = s.afterStop.isSome := by
  unfold State.opened State.subscribeInbound
  obtain ⟨a, f, o, c, told, after, heq, htold, hafter⟩ :=
    State.foldl_handle id (s.bufferedEventsByStreamId id) { s with
        returned := id :: s.returned
        subscribersByStreamId := id :: s.subscribersByStreamId.filter (· ≠ id)
        bufferedEventsByStreamId := fun x => if x = id then [] else s.bufferedEventsByStreamId x } hs
  exact ⟨a, f, o, c, told, after, by rw [heq], htold, hafter⟩

/-- Every open that has returned is settled. -/
theorem State.not_opening_settle (p : Option OpenPromise) (i : Nat) :
    (p.map fun p => { p with settled := true }) ≠ some ⟨i, false⟩ := by
  cases p <;> simp

theorem Inv.opened (h : Inv s) (ho : s.Opening i false) (hcalls : s.openInboundCalls = 0)
    (hissued : id ∈ s.issued) : Inv (s.opened id) := by
  have hnone := h.opening i ho
  obtain ⟨a, f, o, c, told, after, heq, htold, hafter⟩ := State.opened_eq id hnone
  rw [heq]
  have hsubs : s.subscribersByStreamId = [] := by
    refine eq_nil_iff_forall_not_mem.2 fun x hx => ?_
    have hcur := h.subscribers x hx
    rw [hnone] at hcur
    simp at hcur
  exact { h with
    opening := fun j hj => absurd hj (State.not_opening_settle _ j)
    idle := fun _ => hcalls
    unsubscribe := rfl
    subscribers := by simp [hsubs]
    current := by
      intro x hx
      rw [some.inj hx]
      exact mem_cons_self
    told := by
      intro x hx
      rcases htold x hx with hx | ⟨rfl, e, he, hends⟩
      · exact ⟨mem_cons_of_mem _ (h.told x hx).1, (h.told x hx).2⟩
      · exact ⟨mem_cons_self, h.buffered x e he hends⟩
    issued := by
      intro x hx
      rcases mem_cons.1 hx with rfl | hx
      · exact hissued
      · exact h.issued x hx
    buffered := by
      intro x e he
      dsimp only at he
      split at he
      · simp at he
      · exact h.buffered x e he
    afterStop := fun hs => h.afterStop (hafter ▸ hs) }

theorem Inv.openFailed (h : Inv s) (hcalls : s.openInboundCalls = 0) : Inv s.openFailed := by
  have hs := h.scheduleInboundReopen
  have hcalls' : s.scheduleInboundReopen.openInboundCalls = 0 := by
    rcases s.scheduleInboundReopen_cases with ⟨heq, _⟩ | ⟨_, _, heq⟩ | ⟨_, _, _, _, _, heq⟩ <;>
      rw [heq] <;> exact hcalls
  exact { hs with
    opening := fun j hj => absurd hj (State.not_opening_settle _ j)
    idle := fun _ => hcalls' }

theorem Inv.clearTimeout (h : Inv s) :
    Inbound.clearTimeout s.inboundReopenTimer s.timeouts = [] := by
  have ht := h.timeouts
  cases htimer : s.inboundReopenTimer with
  | none =>
    rw [htimer] at ht
    simpa [Inbound.clearTimeout] using ht
  | some t =>
    rw [htimer] at ht
    refine filter_eq_nil_iff.2 fun x hx => ?_
    have hmem : x.1 ∈ s.timeouts.map (·.1) := mem_map_of_mem hx
    rw [ht] at hmem
    simpa using hmem

/-- What a stop does before it lets go of the stream. -/
def State.halt (s : State) : State :=
  { s with
    inboundStopped := true
    timeouts := []
    inboundReopenTimer := none
    inboundReopenAttempts := 0
    inboundConsecutiveFailures := 0
    inboundCapHitAtMs := none
    inboundSubscriptionOffline := false
    afterStop := some [] }

theorem Inv.halt (h : Inv s) : Inv s.halt :=
  { h with
    timeouts := rfl
    stopped := fun _ => rfl
    afterStop := fun _ => rfl }

theorem Inv.stopInboundSubscription_eq (h : Inv s) : s.stopInboundSubscription =
      { s.halt.dropStream with
        closedInbound := s.inboundStreamId.toList ++ s.closedInbound } := by
  unfold State.stopInboundSubscription
  rw [h.clearTimeout, State.closeStream_unsubscribe]
  rfl

theorem Inv.stopInboundSubscription (h : Inv s) : Inv s.stopInboundSubscription := by
  rw [h.stopInboundSubscription_eq]
  exact { h.halt.dropStream with }

/-! ## Starting -/

/-- What a start is called on. -/
theorem State.enter_cases (s : State) (e : Entry) :
    (∃ force, e = .call force ∧ s.enter e = (s, some force)) ∨
    (∃ n, s.enter e = ({ s with inboundConsumerCount := n }, none)) ∨
    s.enter e = (s, none) ∨
    (∃ n force, s.enter e = (State.resetCap { s with inboundConsumerCount := n }, some force)) ∨
    (∃ timer, (s.timeouts.any (·.1 = timer)) = true ∧
      s.enter e = (s.timeoutFired timer, some false)) := by
  cases e with
  | call force => exact .inl ⟨force, rfl, rfl⟩
  | registerInboundConsumer =>
    unfold State.enter
    dsimp only
    split
    · exact .inr (.inr (.inr (.inl ⟨_, _, rfl⟩)))
    · exact .inr (.inl ⟨_, rfl⟩)
  | resumeInboundOnForeground =>
    unfold State.enter
    dsimp only
    split
    · exact .inr (.inr (.inl rfl))
    · exact .inr (.inr (.inr (.inl ⟨s.inboundConsumerCount, true, rfl⟩)))
  | timeout timer =>
    unfold State.enter
    dsimp only
    split
    · rename_i h
      exact .inr (.inr (.inr (.inr ⟨timer, h, rfl⟩)))
    · exact .inr (.inr (.inl rfl))

theorem Inv.timeoutFired (h : Inv s) {timer : Nat}
    (hany : (s.timeouts.any (·.1 = timer)) = true) : Inv (s.timeoutFired timer) := by
  obtain ⟨x, hx, hxt⟩ := any_eq_true.1 hany
  have ht := h.timeouts
  have hmem : x.1 ∈ s.timeouts.map (·.1) := mem_map_of_mem hx
  simp only [decide_eq_true_eq] at hxt
  rw [ht, hxt] at hmem
  have htimer : s.inboundReopenTimer = some timer := by simpa using hmem
  exact { h with
    timeouts := by
      rw [State.timeoutFired, ← htimer, h.clearTimeout]
      rfl
    stopped := fun _ => rfl }

theorem Inv.enter (h : Inv s) (e : Entry) : Inv (s.enter e).1 := by
  rcases s.enter_cases e with ⟨_, _, heq⟩ | ⟨_, heq⟩ | heq | ⟨_, _, heq⟩ | ⟨_, hany, heq⟩ <;> rw [heq]
  · exact h
  · exact { h with }
  · exact h
  · exact { h with }
  · exact h.timeoutFired hany

theorem State.enter_keeps (s : State) (e : Entry) :
    (s.enter e).1.inboundOpenInFlight = s.inboundOpenInFlight ∧
    (s.enter e).1.inboundStreamId = s.inboundStreamId ∧
    (s.enter e).1.openInboundCalls = s.openInboundCalls ∧
    (s.enter e).1.returned = s.returned ∧ (s.enter e).1.reported = s.reported ∧
    (s.enter e).1.issued = s.issued := by
  rcases s.enter_cases e with ⟨_, _, heq⟩ | ⟨_, heq⟩ | heq | ⟨_, _, heq⟩ | ⟨_, _, heq⟩ <;>
    rw [heq] <;> exact ⟨rfl, rfl, rfl, rfl, rfl, rfl⟩

/-- What every start that gets past the bridge check does first. -/
def State.rearm (s : State) : State :=
  { s with
    inboundStopped := false
    started := true
    afterStop := none }

theorem Inv.rearm (h : Inv s) : Inv s.rearm :=
  { h with
    stopped := fun hs => absurd hs (by simp [State.rearm])
    afterStop := fun hs => absurd hs (by simp [State.rearm]) }

theorem Inv.dropStream_eq_self (h : Inv s) (hid : s.inboundStreamId = none) : s.dropStream = s := by
  have hu : s.inboundUnsubscribe = none := h.unsubscribe.trans hid
  rcases s.dropStream_cases with heq | ⟨id, hsome, _⟩
  · rw [heq, ← hid]
  · rw [hu] at hsome
    simp at hsome

theorem Inv.forceCycle_eq (h : Inv s) : s.forceCycle = s.dropStream := by
  unfold State.forceCycle
  split
  · exact s.unsubscribe_with_none
  · rename_i hnone
    exact (h.dropStream_eq_self (by simpa using hnone)).symm

theorem State.dropStream_inboundOpenInFlight (s : State) :
    s.dropStream.inboundOpenInFlight = s.inboundOpenInFlight := by
  rcases s.dropStream_cases with h | ⟨_, _, h⟩ <;> rw [h]

/-- The four ways of a start: no bridge, the stream is open, an open is in flight, a new open. -/
theorem Inv.startInboundSubscription_cases (h : Inv s) (available : Bool) (i : Nat) (force : Bool) :
    (available = false ∧
      s.startInboundSubscription available i force = { s with afterStop := none }) ∨
    (available = true ∧ force = false ∧ s.inboundStreamId.isSome = true ∧
      s.startInboundSubscription available i force = s.rearm) ∨
    (available = true ∧ (force = true ∨ s.inboundStreamId = none) ∧
      s.inboundOpenInFlight.isSome = true ∧
      s.startInboundSubscription available i force = s.rearm.dropStream) ∨
    (available = true ∧ (force = true ∨ s.inboundStreamId = none) ∧ s.inboundOpenInFlight = none ∧
      s.startInboundSubscription available i force =
        { s.rearm.dropStream with inboundOpenInFlight := some ⟨i, false⟩ }) := by
  cases available with
  | false => exact .inl ⟨rfl, rfl⟩
  | true =>
    right
    have hstart : ∀ d, d = (if force then s.rearm.forceCycle else s.rearm) →
        s.startInboundSubscription true i force = if d.inboundStreamId.isSome then d
          else if d.inboundOpenInFlight.isSome then d
          else { d with inboundOpenInFlight := some ⟨i, false⟩ } := by
      rintro d rfl
      rfl
    by_cases hopen : force = false ∧ s.inboundStreamId.isSome = true
    · rw [hstart s.rearm (by simp [hopen.1])]
      exact .inl ⟨rfl, hopen.1, hopen.2, if_pos hopen.2⟩
    have hforce : force = true ∨ s.inboundStreamId = none := by
      cases force with
      | true => exact .inl rfl
      | false => exact .inr (by simpa using hopen)
    have hdrop : s.rearm.dropStream = if force then s.rearm.forceCycle else s.rearm := by
      rcases hforce with rfl | hid
      · exact h.rearm.forceCycle_eq.symm
      · rw [h.rearm.forceCycle_eq, h.rearm.dropStream_eq_self hid, ite_self]
    have hid : s.rearm.dropStream.inboundStreamId.isSome = false := by
      rw [State.dropStream_inboundStreamId]
      rfl
    rw [hstart _ hdrop, hid, State.dropStream_inboundOpenInFlight]
    cases hf : s.inboundOpenInFlight with
    | none => exact .inr (.inr ⟨rfl, hforce, rfl, by simp [State.rearm, hf]⟩)
    | some p => exact .inr (.inl ⟨rfl, hforce, rfl, by simp [State.rearm, hf]⟩)

theorem Inv.startInboundSubscription (h : Inv s) (i : Nat) (force : Bool) :
    Inv (s.startInboundSubscription available i force) := by
  rcases h.startInboundSubscription_cases available i force with
    ⟨_, heq⟩ | ⟨_, _, _, heq⟩ | ⟨_, _, _, heq⟩ | ⟨_, _, hnone, heq⟩ <;> rw [heq]
  · exact { h with afterStop := fun hs => nomatch hs }
  · exact h.rearm
  · exact h.rearm.dropStream
  exact { h.rearm.dropStream with
    opening := fun _ _ => s.rearm.dropStream_inboundStreamId
    idle := fun hno => absurd rfl (hno i) }

/-! ## The outline -/

/-- What the other tasks leave alone. -/
structure Keeps (i : Nat) (s s' : State) : Prop where
  opening : ∀ b, s'.Opening i b ↔ s.Opening i b
  calls : ∀ b, s.Opening i b → s'.openInboundCalls = s.openInboundCalls
  returned : ∀ b, s.Opening i b → s'.returned = s.returned
  issued : ∀ id ∈ s.issued, id ∈ s'.issued

def Op.Pre (i : Nat) (s : State) : Op → Prop
  | .callOpenInbound => s.Opening i false ∧ s.openInboundCalls = 0
  | .opened id => s.Opening i false ∧ s.openInboundCalls = 0 ∧ id ∈ s.issued ∧ id ∉ s.returned
  | .openFailed => s.Opening i false ∧ s.openInboundCalls = 0
  | .openDone => s.Opening i true
  | _ => True

def Call.Pre (i : Nat) (s : State) : Call → Prop
  | .openInbound _ => s.Opening i false ∧ s.openInboundCalls = 1
  | _ => True

def spec (available : Bool) : Spec (machine available) where
  Inv := Inv
  Rely := Keeps
  OpPre := Op.Pre
  CallPre := Call.Pre
  Fin i s := ∀ b, ¬ s.Opening i b

theorem Keeps.refl (i : Nat) (s : State) : Keeps i s s :=
  ⟨fun _ => .rfl, fun _ _ => rfl, fun _ _ => rfl, fun _ h => h⟩

theorem Keeps.trans {s1 s2 s3 : State} (h : Keeps i s1 s2) (h' : Keeps i s2 s3) :
    Keeps i s1 s3 where
  opening b := (h'.opening b).trans (h.opening b)
  calls b hb := (h'.calls b ((h.opening b).2 hb)).trans (h.calls b hb)
  returned b hb := (h'.returned b ((h.opening b).2 hb)).trans (h.returned b hb)
  issued id hid := h'.issued id (h.issued id hid)

theorem State.Opening.owner {b' : Bool} (h : s.Opening i b) (h' : s.Opening j b') : j = i := by
  have heq := h.symm.trans h'
  simp only [some.injEq, OpenPromise.mk.injEq] at heq
  exact heq.1.symm

/-- The owner of the open in flight may do with it what it wants. -/
theorem Keeps.of_not_opening (hs : ∀ b, ¬ s.Opening j b) (hs' : ∀ b, ¬ s'.Opening j b)
    (hissued : ∀ id ∈ s.issued, id ∈ s'.issued) : Keeps j s s' :=
  ⟨fun b => ⟨fun h => absurd h (hs' b), fun h => absurd h (hs b)⟩, fun b h => absurd h (hs b),
    fun b h => absurd h (hs b), hissued⟩

theorem Keeps.of_owner {c : Bool} (ho : s.Opening i b) (ho' : s'.Opening i c) (hj : j ≠ i)
    (hissued : ∀ id ∈ s.issued, id ∈ s'.issued) : Keeps j s s' :=
  .of_not_opening (fun _ h => hj (ho.owner h)) (fun _ h => hj (ho'.owner h)) hissued

theorem Keeps.of_eq (hf : s'.inboundOpenInFlight = s.inboundOpenInFlight)
    (hc : s'.openInboundCalls = s.openInboundCalls) (hr : s'.returned = s.returned)
    (hi : s'.issued = s.issued) : Keeps i s s' :=
  ⟨fun _ => by rw [State.Opening, hf, State.Opening], fun _ _ => hc, fun _ _ => hr,
    fun _ h => hi ▸ h⟩

/-- The part of the state that only an open changes. -/
def State.openFields (s : State) : Option OpenPromise × Nat × List StreamId × List StreamId :=
  (s.inboundOpenInFlight, s.openInboundCalls, s.returned, s.issued)

theorem Keeps.of_openFields (h : s'.openFields = s.openFields) : Keeps i s s' := by
  simp only [State.openFields, Prod.mk.injEq] at h
  exact .of_eq h.1 h.2.1 h.2.2.1 h.2.2.2

theorem State.scheduleInboundReopen_openFields (s : State) :
    s.scheduleInboundReopen.openFields = s.openFields := by
  rcases s.scheduleInboundReopen_cases with ⟨h, _⟩ | ⟨_, _, h⟩ | ⟨_, _, _, _, _, h⟩ <;> rw [h] <;> rfl

theorem State.dropStream_openFields (s : State) : s.dropStream.openFields = s.openFields := by
  rcases s.dropStream_cases with h | ⟨_, _, h⟩ <;> rw [h] <;> rfl

theorem State.onEnded_openFields (s : State) (id : StreamId) :
    (s.onEnded id).openFields = s.openFields := by
  unfold State.onEnded
  dsimp only
  split
  · exact (State.scheduleInboundReopen_openFields _).trans (s.tell id).dropStream_openFields
  · rfl

theorem State.dispatchOrBuffer_openFields (s : State) (id : StreamId) (e : InboundEvent) :
    (s.dispatchOrBuffer id e).openFields = s.openFields := by
  have hrep : (s.report id e).openFields = s.openFields := by
    unfold State.report
    split <;> rfl
  unfold State.dispatchOrBuffer
  dsimp only
  rw [← hrep]
  split
  · cases e with
    | frame bytes => rfl
    | closed | error => exact State.onEnded_openFields _ id
  · rfl

theorem Inv.startInboundSubscription_keeps (h : Inv s) (hj : j ≠ i) (force : Bool) :
    Keeps j s (s.startInboundSubscription available i force) := by
  have hdrop : s.rearm.dropStream.openFields = s.openFields := s.rearm.dropStream_openFields
  rcases h.startInboundSubscription_cases available i force with
    ⟨_, heq⟩ | ⟨_, _, _, heq⟩ | ⟨_, _, _, heq⟩ | ⟨_, _, hnone, heq⟩ <;> rw [heq]
  · exact .of_eq rfl rfl rfl rfl
  · exact .of_eq rfl rfl rfl rfl
  · exact Keeps.of_openFields hdrop
  simp only [State.openFields, Prod.mk.injEq] at hdrop
  refine .of_not_opening (fun b hb => ?_) (fun b hb => ?_) fun id hid => ?_
  · exact nomatch hnone.symm.trans hb
  · simp only [State.Opening, some.injEq, OpenPromise.mk.injEq] at hb
    exact hj hb.1.symm
  · exact hdrop.2.2.2 ▸ hid

/-! ## The operations meet it -/

theorem State.opened_keeps (h : Inv s) (ho : s.Opening i false) (hj : j ≠ i) :
    Keeps j s (s.opened id) := by
  obtain ⟨_, _, _, _, _, _, heq, _⟩ := State.opened_eq id (h.opening i ho)
  rw [heq]
  refine .of_owner (c := true) ho ?_ hj fun _ hid => hid
  simp [State.Opening, show s.inboundOpenInFlight = _ from ho]

theorem Op.sound_apply (h : Inv s) (hp : o.Pre i s) :
    Inv (o.apply available i s) ∧ ∀ j, j ≠ i → Keeps j s (o.apply available i s) := by
  cases o with
  | enter e =>
    have he := h.enter e
    obtain ⟨hf, _, hc, hr, _, hi⟩ := s.enter_keeps e
    have hk : ∀ j, Keeps j s (s.enter e).1 := fun j => .of_eq hf hc hr hi
    rcases heq : s.enter e with ⟨s1, call⟩
    rw [heq] at he hk
    simp only [Op.apply, heq]
    cases call with
    | none => exact ⟨he, fun j _ => hk j⟩
    | some force =>
      exact ⟨he.startInboundSubscription i force, fun j hj =>
        (hk j).trans (he.startInboundSubscription_keeps hj force)⟩
  | callOpenInbound =>
    refine ⟨{ h with calls := ?_, idle := fun hno => absurd hp.1 (hno i) }, fun j hj => ?_⟩
    · simp [Op.apply, hp.2]
    · exact .of_owner hp.1 hp.1 hj fun _ hid => hid
  | opened id =>
    exact ⟨h.opened hp.1 hp.2.1 hp.2.2.1, fun j hj => State.opened_keeps h hp.1 hj⟩
  | openFailed =>
    have hs := s.scheduleInboundReopen_openFields
    simp only [State.openFields, Prod.mk.injEq] at hs
    refine ⟨h.openFailed hp.2, fun j hj => Keeps.of_owner hp.1 (c := true) ?_ hj ?_⟩
    · simp [Op.apply, State.openFailed, State.Opening, show s.inboundOpenInFlight = _ from hp.1]
    · exact fun _ hid => hs.2.2.2 ▸ hid
  | openDone =>
    have hno : ∀ j, ¬ s.Opening j false := by
      intro j hj
      have heq := hp.symm.trans hj
      simp at heq
    refine ⟨{ h with opening := fun j hj => ?_, idle := fun _ => h.idle hno }, fun j hj => ?_⟩
    · simp [Op.apply, State.Opening] at hj
    · refine .of_not_opening (fun b hb => hj (hp.owner hb)) (fun b hb => ?_) fun _ hid => hid
      simp [Op.apply, State.Opening] at hb
  | stop =>
    refine ⟨h.stopInboundSubscription, fun j _ => ?_⟩
    rw [Op.apply, h.stopInboundSubscription_eq]
    exact Keeps.of_openFields (State.dropStream_openFields _)
  | event id e =>
    exact ⟨h.dispatchOrBuffer id e, fun j _ =>
      Keeps.of_openFields (s.dispatchOrBuffer_openFields id e)⟩
  | unregister | clock => exact ⟨{ h with }, fun j _ => .of_eq rfl rfl rfl rfl⟩

theorem Inv.openReturned (h : Inv s) (ho : s.Opening i false) : Inv s.openReturned :=
  { h with
    calls := Nat.le_trans (Nat.sub_le _ _) h.calls
    idle := fun hno => absurd ho (hno i) }

theorem Inv.issue (h : Inv s) (id : StreamId) : Inv (s.issue id) :=
  { h with issued := fun x hx => mem_cons_of_mem _ (h.issued x hx) }

theorem Call.openInbound_perform {o : Except String StreamId}
    (hp : (Call.openInbound i).perform r s = some (s', o)) :
    (s' = s.openReturned ∧ ∀ id, o ≠ .ok id) ∨
      ∃ id, id ∉ s.issued ∧ s' = s.openReturned.issue id ∧ o = .ok id := by
  cases r with
  | ok => simp [Call.perform] at hp
  | id id =>
    simp only [Call.perform] at hp
    split at hp
    · simp at hp
    rename_i hnew
    simp only [some.injEq, Prod.mk.injEq] at hp
    exact .inr ⟨id, hnew, hp.1.symm, hp.2.symm⟩
  | fail e =>
    simp only [Call.perform, some.injEq, Prod.mk.injEq] at hp
    exact .inl ⟨hp.1.symm, fun id => by simp [← hp.2]⟩

theorem Call.openSettled_perform {o : Except String Unit}
    (hp : Call.openSettled.perform r s = some (s', o)) : s' = s ∧ o = .ok () := by
  cases r <;> simp [Call.perform] at hp
  exact ⟨hp.1.symm, hp.2.symm⟩

/-- What a performed call changes. -/
theorem Call.perform_cases {o : Except String (Ret c)} (hp : c.perform r s = some (s', o)) :
    s' = s ∨ (∃ sessionId, c = .openInbound sessionId) ∧
      (s' = s.openReturned ∨ ∃ id, id ∉ s.issued ∧ s' = s.openReturned.issue id) := by
  cases c with
  | getSession =>
    cases r <;> simp [Call.perform] at hp <;> exact .inl hp.1.symm
  | openInbound sessionId =>
    rcases Call.openInbound_perform hp with ⟨h, _⟩ | ⟨id, hnew, h, _⟩
    · exact .inr ⟨⟨_, rfl⟩, .inl h⟩
    · exact .inr ⟨⟨_, rfl⟩, .inr ⟨id, hnew, h⟩⟩
  | openSettled => exact .inl (Call.openSettled_perform hp).1

theorem Call.sound_perform {o : Except String (Ret c)} (h : Inv s) (hpre : c.Pre i s)
    (hp : c.perform r s = some (s', o)) :
    Inv s' ∧ ∀ j, j ≠ i → Keeps j s s' := by
  rcases Call.perform_cases hp with rfl | ⟨⟨sessionId, rfl⟩, rfl | ⟨id, _, rfl⟩⟩
  · exact ⟨h, fun j _ => Keeps.refl j _⟩
  · exact ⟨h.openReturned hpre.1, fun j hj => Keeps.of_owner hpre.1 hpre.1 hj fun _ hid => hid⟩
  · refine ⟨(h.openReturned hpre.1).issue id, fun j hj => Keeps.of_owner hpre.1 hpre.1 hj ?_⟩
    exact fun _ hid => mem_cons_of_mem _ hid

theorem spec_sound (available : Bool) : (spec available).Sound .any where
  refl := Keeps.refl
  trans _ _ _ _ h h' := h.trans h'
  op _ _ _ h _ hp := Op.sound_apply h hp
  call _ _ _ _ _ _ h hpre hp _ := Call.sound_perform h hpre hp
  fin _ _ _ hf hk _ b hb := hf b ((hk.opening b).1 hb)

/-! ## The programs meet it -/

/-- The state in which the body of an open begins. -/
def State.Begun (i : Nat) (s : State) : Prop := s.Opening i false ∧ s.openInboundCalls = 0

/-- What the owner of an open knows at each of its calls, more than `Call.Pre` asks. -/
def Call.During (i : Nat) (s : State) : Call → Prop
  | .getSession => s.Begun i
  | .openInbound _ => s.Opening i false ∧ s.openInboundCalls = 1
  | .openSettled => s.Opening i true

theorem Call.During.pre (h : c.During i s) : c.Pre i s := by
  cases c with
  | openInbound sessionId => exact h
  | _ => trivial

def outline (available : Bool) : Spec (machine available) :=
  { spec available with CallPre := Call.During }

theorem outline_sound (available : Bool) : (outline available).Sound .any :=
  { spec_sound available with
    call := fun _ _ _ _ _ _ h hpre hp _ => Call.sound_perform h (Call.During.pre hpre) hp }

theorem Keeps.begun (h : Keeps i s s') (hb : s.Begun i) : s'.Begun i :=
  ⟨(h.opening false).2 hb.1, (h.calls false hb.1).trans hb.2⟩

theorem State.openFailed_opening (h : s.Opening i b) : s.openFailed.Opening i true := by
  simp [State.openFailed, State.Opening, show s.inboundOpenInFlight = _ from h]

theorem State.opened_opening (hs : Inv s) (h : s.Opening i false) :
    (s.opened id).Opening i true := by
  obtain ⟨_, _, _, _, _, _, heq, _⟩ := State.opened_eq id (hs.opening i h)
  rw [heq]
  simp [State.Opening, show s.inboundOpenInFlight = _ from h]

section
variable {i : Nat}

theorem openFailed_wp (hb : s.Begun i) : (outline available).Wp Cond.any i Op.openFailed.run
      (fun r (s' : State) => r = .ok () ∧ s'.Opening i true) s :=
  .op fun _ => ⟨hb, fun _ => ⟨rfl, State.openFailed_opening hb.1⟩⟩

theorem getQuicSession_wp (hb : s.Begun i) :
    (outline available).Wp .any i getQuicSession (fun _ (s' : State) => s'.Begun i) s := by
  refine Spec.Wp.await fun s1 hk1 _ => ⟨Keeps.begun hk1 hb, fun r s2 o hp _ _ s3 hk3 _ => ?_⟩
  rcases Call.perform_cases (c := .getSession) hp with rfl | ⟨⟨_, h⟩, _⟩
  · exact (Keeps.trans hk1 hk3).begun hb
  · simp at h

/-- The stream that comes back is a new one. -/
theorem openInbound_wp {sessionId : Nat} (ho : s.Opening i false) (hc : s.openInboundCalls = 1) :
    (outline available).Wp Cond.any i (openInbound sessionId)
      (fun r (s' : State) => s'.Begun i ∧ ∀ id, r = .ok id → id ∈ s'.issued ∧ id ∉ s'.returned) s := by
  refine .await fun s1 hk1 hi1 => ?_
  have ho1 : s1.Opening i false := (hk1.opening false).2 ho
  have hc1 : s1.openInboundCalls = 1 := (hk1.calls false ho).trans hc
  refine ⟨⟨ho1, hc1⟩, fun r s2 o hp _ _ s3 hk3 hi3 => ?_⟩
  have hreturned : s1.openReturned.Begun i := ⟨ho1, by simp [State.openReturned, hc1]⟩
  rcases Call.openInbound_perform hp with ⟨rfl, hfail⟩ | ⟨id, hnew, rfl, rfl⟩
  · exact ⟨hk3.begun hreturned, fun id hid => absurd hid (hfail id)⟩
  refine ⟨hk3.begun hreturned, fun x hx => ?_⟩
  rw [← Except.ok.inj hx]
  refine ⟨hk3.issued id mem_cons_self, fun hmem => hnew ?_⟩
  rw [hk3.returned false hreturned.1] at hmem
  exact Inv.issued hi1 id hmem

theorem openBody_wp (hb : s.Begun i) : (outline available).Wp Cond.any i openBody
      (fun r (s' : State) => r = .ok () ∧ s'.Opening i true) s := by
  refine .settle (getQuicSession_wp hb) fun r s1 _ hb1 => ?_
  cases r with
  | error e => exact openFailed_wp hb1
  | ok sessionId =>
    have hcalled : (outline available).Wp Cond.any i Op.callOpenInbound.run
        (fun r (s' : State) => r = .ok () ∧ s'.Opening i false ∧ s'.openInboundCalls = 1) s1 :=
      .op fun _ => ⟨hb1, fun _ => ⟨rfl, hb1.1, by simp [Op.apply, hb1.2]⟩⟩
    refine .bind hcalled (fun _ s2 _ h2 => ?_) fun e _ _ h => nomatch h.1
    refine .settle (openInbound_wp h2.2.1 h2.2.2) fun r s3 hi3 h3 => ?_
    cases r with
    | error e => exact openFailed_wp h3.1
    | ok id =>
      obtain ⟨hissued, hnew⟩ := h3.2 id rfl
      exact .op fun _ => ⟨⟨h3.1.1, h3.1.2, hissued, hnew⟩, fun _ =>
        ⟨rfl, State.opened_opening hi3 h3.1.1⟩⟩

theorem openSettled_wp (ho : s.Opening i true) : (outline available).Wp Cond.any i openSettled
      (fun r (s' : State) => r = .ok () ∧ s'.Opening i true) s := by
  refine .await fun s1 hk1 _ =>
    ⟨(Keeps.opening hk1 true).2 ho, fun r s2 o hp _ _ s3 hk3 _ => ?_⟩
  obtain ⟨rfl, rfl⟩ := Call.openSettled_perform hp
  exact ⟨rfl, ((Keeps.trans hk1 hk3).opening true).2 ho⟩

theorem openStream_wp (hb : s.Begun i) :
    (outline available).Wp .any i openStream (fun _ (s' : State) => ∀ b, ¬ s'.Opening i b) s := by
  refine .bind (openBody_wp hb) (fun _ s1 _ h1 => ?_) fun e _ _ h => nomatch h.1
  refine .bind (openSettled_wp h1.2) (fun _ s2 _ h2 => ?_) fun e _ _ h =>
    nomatch h.1
  refine .op fun _ => ⟨h2.2, fun _ b hb => ?_⟩
  simp [Op.apply, State.Opening] at hb

/-- Whoever makes a start owns the open that it begins, and no open if it begins none. -/
theorem Inv.enter_opening (h : Inv s) (hf : ∀ b, ¬ s.Opening i b) (e : Entry) :
    (s.entryOpens available e = true ∧ ((Op.enter e).apply available i s).Begun i) ∨
    (s.entryOpens available e = false ∧ ∀ b, ¬ ((Op.enter e).apply available i s).Opening i b) := by
  have hin := (s.enter_keeps e).1
  have hinv := h.enter e
  rcases heq : s.enter e with ⟨s1, call⟩
  rw [heq] at hinv hin
  dsimp only at hinv hin
  have hf1 : ∀ b, ¬ s1.Opening i b := fun b hb => hf b (hin.symm.trans hb)
  simp only [State.entryOpens, Op.apply, heq]
  cases call with
  | none => exact .inr ⟨rfl, hf1⟩
  | some force =>
    dsimp only
    have hdrop := s1.rearm.dropStream_openFields
    simp only [State.openFields, Prod.mk.injEq] at hdrop
    rcases hinv.startInboundSubscription_cases available i force with
      ⟨hna, hstart⟩ | ⟨_, hff, hopen, hstart⟩ | ⟨_, _, hsome, hstart⟩ | ⟨ha, hforce, hnone, hstart⟩
    · exact .inr ⟨by simp [State.opens, hna], by rw [hstart]; exact hf1⟩
    · refine .inr ⟨?_, by rw [hstart]; exact hf1⟩
      obtain ⟨id, hid⟩ := isSome_iff_exists.1 hopen
      simp [State.opens, hff, hid]
    · refine .inr ⟨?_, fun b hb => ?_⟩
      · obtain ⟨p, hp⟩ := isSome_iff_exists.1 hsome
        simp [State.opens, hp]
      · rw [hstart] at hb
        exact hf1 b (hdrop.1.symm.trans hb)
    refine .inl ⟨?_, ?_⟩
    · rcases hforce with rfl | hforce
      · simp [State.opens, ha, hnone]
      · simp [State.opens, ha, hnone, hforce]
    · rw [hstart]
      refine ⟨rfl, hdrop.2.1.trans (hinv.idle fun j hj => ?_)⟩
      exact nomatch hnone.symm.trans hj

theorem start_safe {e : Entry} (h : Inv s) (hf : ∀ b, ¬ s.Opening i b) :
    (outline available).Safe .any i (start e : Prog available Unit).toTask s := by
  refine Spec.Wp.toTask ?_ fun _ _ _ hq => hq
  refine Spec.Wp.getThen ?_
  have henter : (outline available).Wp Cond.any i (Op.enter e).run
      (fun r (s' : State) => (∃ a, r = .ok a) ∧ s' = (Op.enter e).apply available i s) s :=
    .op fun _ => ⟨trivial, fun _ => ⟨⟨_, rfl⟩, rfl⟩⟩
  refine .bind henter (fun _ s1 hi1 h1 => ?_) fun e _ _ h => nomatch h.1
  obtain ⟨_, rfl⟩ := h1
  rcases h.enter_opening hf e with ⟨he, hb⟩ | ⟨he, hno⟩
  · rw [if_pos he]
    exact openStream_wp hb
  · rw [if_neg (by simp [he])]
    exact .pure hi1 hno

end

theorem op_safe (hf : ∀ b, ¬ s.Opening i b) (hp : o.Pre i s)
    (ho : (o.apply available i s).openFields = s.openFields) :
    (outline available).Safe .any i (o.run : Prog available Unit).toTask s := by
  simp only [State.openFields, Prod.mk.injEq] at ho
  have hr : (outline available).Wp .any i o.run (fun _ (s' : State) => ∀ b, ¬ s'.Opening i b) s :=
    .op fun _ => ⟨hp, fun _ b hb => hf b (ho.1.symm.trans hb)⟩
  exact hr.toTask fun _ _ _ hq => hq

theorem prog_safe_outline (available : Bool) (c : Cmd) (i : Nat) (s : State) (h : Inv s)
    (hf : ∀ b, ¬ s.Opening i b) : (outline available).Safe .any i (prog available c) s := by
  cases c with
  | start e => exact start_safe h hf
  | stopInboundSubscription =>
    refine op_safe hf trivial ?_
    rw [Op.apply, h.stopInboundSubscription_eq]
    exact State.dropStream_openFields _
  | event id e => exact op_safe hf trivial (s.dispatchOrBuffer_openFields id e)
  | unregister | clock => exact op_safe hf trivial rfl

theorem prog_safe (available : Bool) (c : Cmd) (i : Nat) (s : State) (h : Inv s)
    (hf : ∀ b, ¬ s.Opening i b) : (spec available).Safe .any i (prog available c) s := by
  have hweak : ∀ i s c, (outline available).CallPre i s c → (spec available).CallPre i s c :=
    fun _ _ _ hc => Call.During.pre hc
  exact .weaken hweak (prog_safe_outline available c i s h hf)

theorem init_inv (hs : init s) : Inv s := by
  obtain ⟨now, rfl⟩ := hs
  exact inv_initial now

theorem init_fin (i : Nat) (hs : init s) (b : Bool) : ¬ s.Opening i b := by
  obtain ⟨now, rfl⟩ := hs
  simp [State.Opening, State.initial]

/-- What the operations keep in the runs that meet `C` holds in all of those runs. -/
theorem invariant_of_reach {C : Cond (machine available)} {J : State → Prop}
    (hinit : ∀ s, init s → J s)
    (hop : ∀ i s o, Inv s → J s → C.op i s o = true → o.Pre i s → J (o.apply available i s))
    (hissue : ∀ s, J s → J s.openReturned ∧ ∀ id, J (s.openReturned.issue id))
    {w : Sys (machine available)} (h : Reach C (prog available) init w) : Inv w.state ∧ J w.state := by
  have hpool := (spec_sound available).transfer
    (fun s hs => ⟨init_inv hs, hinit s hs⟩) (fun s i hs => init_fin i hs) (prog_safe available) hop ?_ h
  · exact hpool.inv
  intro i s c r s' o _ hj _ hp _
  rcases Call.perform_cases hp with rfl | ⟨_, rfl | ⟨id, _, rfl⟩⟩
  · exact hj
  · exact (hissue s hj).1
  · exact (hissue s hj).2 id

end Inbound
