import SovereignMobile.EventLoop.Histories
import SovereignMobile.Inbound.Outline

/-! # The reopen storm is capped

Every reopen timer costs one consecutive failure, and the counter never passes the cap. Where the cap
is hit nothing is left that could open a stream: no timer is armed, no stream is up that could be
closed, no open is in flight. From there on the only way to a new open is a consumer that registers
after the quiet period. -/

namespace Inbound

open EventLoop List

variable {available : Bool} {s s' : State}

/-! ## What a history shows -/

/-- The reopen timers that are armed in an act. -/
def armed : Act (machine available) → Nat
  | .op i s o => (o.apply available i s).nextTimeout - s.nextTimeout
  | _ => 0

/-- The failure counter is put back. Where it is 0 already that is no reset, which only makes the
    stretches between two resets longer. -/
def resets : Act (machine available) → Bool
  | .op i s o => (o.apply available i s).inboundConsecutiveFailures < s.inboundConsecutiveFailures
  | _ => false

/-- When the cap was hit that stands after the act. -/
def capAfter : Act (machine available) → Option Int
  | .op i s o => (o.apply available i s).inboundCapHitAtMs
  | .issue _ s _ => s.inboundCapHitAtMs
  | .call _ s _ _ => s.inboundCapHitAtMs

def attempts : Act (machine available) → Bool
  | .issue _ _ .getSession => true
  | .issue _ _ (.openInbound _) => true
  | _ => false

/-- No foreground transition, no stop, no delivered frame, no start but those of consumers and timers;
    and time does not go back. A frame is delivered when a subscriber is there to take it, or when it
    is found in the buffer of the stream that is subscribed to. -/
def Op.calm (s : State) : Op → Bool
  | .enter (.call _) => false
  | .enter .resumeInboundOnForeground => false
  | .stop => false
  | .event id (.frame _) => decide (id ∉ s.subscribersByStreamId)
  | .opened id => (s.bufferedEventsByStreamId id).all InboundEvent.ends
  | .clock now => decide (s.now ≤ now)
  | _ => true

def calm : Act (machine available) → Bool
  | .op _ s o => Op.calm s o
  | _ => true

/-! ## The counter -/

/-- What an operation may do to the counter and the timers: a timer for a failure, or a reset. -/
structure Counts (s s' : State) : Prop where
  le : s.inboundConsecutiveFailures ≤ inboundMaxConsecutiveFailures →
    s'.inboundConsecutiveFailures ≤ inboundMaxConsecutiveFailures
  armed : s'.inboundConsecutiveFailures < s.inboundConsecutiveFailures ∨
    s'.nextTimeout + s.inboundConsecutiveFailures ≤ s'.inboundConsecutiveFailures + s.nextTimeout

theorem Counts.same (hf : s'.inboundConsecutiveFailures = s.inboundConsecutiveFailures)
    (hn : s'.nextTimeout = s.nextTimeout) : Counts s s' where
  le h := hf ▸ h
  armed := by
    right
    rw [hf, hn, Nat.add_comm]

theorem Counts.reset (hf : s'.inboundConsecutiveFailures = 0)
    (hn : s'.nextTimeout = s.nextTimeout) : Counts s s' where
  le _ := hf ▸ Nat.zero_le _
  armed := by omega

variable {s1 s0 : State} {i : Nat} {id : StreamId} {o : Op} {a : Act (machine available)}
    {h : List (Act (machine available))}

theorem Counts.congr_left (h : Counts s1 s')
    (hf : s1.inboundConsecutiveFailures = s.inboundConsecutiveFailures)
    (hn : s1.nextTimeout = s.nextTimeout) : Counts s s' := by
  obtain ⟨hle, harmed⟩ := h
  rw [hf] at hle harmed
  rw [hn] at harmed
  exact ⟨hle, harmed⟩

theorem State.scheduleInboundReopen_counts (s : State) : Counts s s.scheduleInboundReopen := by
  unfold State.scheduleInboundReopen
  split
  · exact Counts.same rfl rfl
  split
  · exact Counts.same rfl rfl
  rename_i hlt
  constructor
  · intro _
    dsimp only
    omega
  · right
    dsimp only
    omega

/-- What a start leaves alone. -/
def State.budget (s : State) : Nat × Nat × Option Int × Int :=
  (s.inboundConsecutiveFailures, s.nextTimeout, s.inboundCapHitAtMs, s.now)

theorem State.dropStream_budget (s : State) : s.dropStream.budget = s.budget := by
  rcases s.dropStream_cases with h | ⟨_, _, h⟩ <;> rw [h] <;> rfl

theorem Inv.startInboundSubscription_budget (h : Inv s) (i : Nat) (force : Bool) :
    (s.startInboundSubscription available i force).budget = s.budget := by
  have hdrop : s.rearm.dropStream.budget = s.budget := s.rearm.dropStream_budget
  rcases h.startInboundSubscription_cases available i force with
    ⟨_, heq⟩ | ⟨_, _, _, heq⟩ | ⟨_, _, _, heq⟩ | ⟨_, _, _, heq⟩ <;> rw [heq]
  · rfl
  · rfl
  · exact hdrop
  · exact hdrop

/-- An entry, up to the start that it makes. -/
theorem Inv.enter_budget (h : Inv s) (i : Nat) (e : Entry) :
    ((Op.enter e).apply available i s).budget = (s.enter e).1.budget := by
  have he := h.enter e
  rcases heq : s.enter e with ⟨s1, call⟩
  rw [heq] at he
  simp only [Op.apply, heq]
  cases call with
  | none => rfl
  | some force => exact he.startInboundSubscription_budget i force

/-- Frames in the buffer put the counter and the cap back; ends change neither, as the stream is not
    yet the current one. -/
theorem State.foldl_handle_counter (id : StreamId) (es : List InboundEvent) :
    ∀ s : State, s.inboundStreamId = none →
      ((es.foldl (State.handle id) s).inboundConsecutiveFailures = s.inboundConsecutiveFailures ∧
        (es.foldl (State.handle id) s).inboundCapHitAtMs = s.inboundCapHitAtMs) ∨
      ((es.foldl (State.handle id) s).inboundConsecutiveFailures = 0 ∧
        es.all InboundEvent.ends = false) := by
  induction es with
  | nil =>
    intro s _
    exact .inl ⟨rfl, rfl⟩
  | cons e es ih =>
    intro s hs
    have hended : s.onEnded id = s.tell id := by
      simp [State.onEnded, State.tell, hs]
    rw [foldl_cons]
    cases e with
    | frame bytes =>
      right
      rcases ih (s.onFrame bytes) hs with ⟨hf, _⟩ | ⟨hf, _⟩
      · exact ⟨hf, rfl⟩
      · exact ⟨hf, rfl⟩
    | closed | error message =>
      rw [State.handle, hended]
      exact ih (s.tell id) hs

theorem Inv.opened_counter (h : Inv s) (id : StreamId) (ho : s.Opening i false) :
    ((s.opened id).inboundConsecutiveFailures = s.inboundConsecutiveFailures ∧
      (s.opened id).inboundCapHitAtMs = s.inboundCapHitAtMs) ∨
    ((s.opened id).inboundConsecutiveFailures = 0 ∧
      (s.bufferedEventsByStreamId id).all InboundEvent.ends = false) :=
  State.foldl_handle_counter id (s.bufferedEventsByStreamId id) _ (h.opening i ho)

/-- What a subscriber that hears of the end of its stream does. -/
theorem State.onEnded_current (hid : s.inboundStreamId = some id) :
    s.onEnded id = (s.tell id).dropStream.scheduleInboundReopen := by
  unfold State.onEnded
  rw [if_pos (by exact hid)]
  rfl

theorem Inv.dispatchOrBuffer_counts (h : Inv s) (id : StreamId) (e : InboundEvent) :
    Counts s (s.dispatchOrBuffer id e) := by
  have hreport : (s.report id e).budget = s.budget := by
    unfold State.report
    split <;> rfl
  have hinv := h.report id e
  simp only [State.budget, Prod.mk.injEq] at hreport
  unfold State.dispatchOrBuffer
  dsimp only
  split
  · rename_i hsub
    have hid := hinv.subscribers id hsub
    have hended : Counts s ((s.report id e).onEnded id) := by
      rw [State.onEnded_current hid]
      have hdrop := ((s.report id e).tell id).dropStream_budget
      simp only [State.budget, Prod.mk.injEq] at hdrop
      have hcounts := ((s.report id e).tell id).dropStream.scheduleInboundReopen_counts
      exact hcounts.congr_left (hdrop.1.trans hreport.1) (hdrop.2.1.trans hreport.2.1)
    cases e with
    | frame bytes => exact Counts.reset rfl hreport.2.1
    | closed | error => exact hended
  · exact Counts.same hreport.1 hreport.2.1

theorem Op.apply_counts (h : Inv s) (hp : o.Pre i s) : Counts s (o.apply available i s) := by
  cases o with
  | enter e =>
    have hbudget : ((Op.enter e).apply available i s).budget = _ := h.enter_budget i e
    simp only [State.budget, Prod.mk.injEq] at hbudget
    obtain ⟨hf, hn, _, _⟩ := hbudget
    rcases s.enter_cases e with ⟨_, _, heq⟩ | ⟨_, heq⟩ | heq | ⟨_, _, heq⟩ | ⟨_, _, heq⟩ <;>
      rw [heq] at hf hn
    iterate 3
      · exact Counts.same hf hn
    · exact Counts.reset hf hn
    · exact Counts.same hf hn
  | opened id =>
    obtain ⟨_, _, _, _, _, _, heq, _⟩ := State.opened_eq id (h.opening i hp.1)
    have hn : (s.opened id).nextTimeout = s.nextTimeout := by rw [heq]
    rcases h.opened_counter id hp.1 with ⟨hf, _⟩ | ⟨hf, _⟩
    · exact Counts.same hf hn
    · exact Counts.reset hf hn
  | openFailed => exact ⟨s.scheduleInboundReopen_counts.le, s.scheduleInboundReopen_counts.armed⟩
  | stop =>
    have hdrop := s.halt.dropStream_budget
    simp only [State.budget, Prod.mk.injEq] at hdrop
    rw [Op.apply, h.stopInboundSubscription_eq]
    exact Counts.reset hdrop.1 hdrop.2.1
  | event id e => exact h.dispatchOrBuffer_counts id e
  | callOpenInbound | openDone | unregister | clock => exact Counts.same rfl rfl

/-! ## The cap -/

/-- Where the cap stands, nothing is under way that could open a stream. -/
structure State.AtRest (s : State) : Prop where
  timeouts : s.timeouts = []
  stream : s.inboundStreamId = none
  opening : ∀ i, ¬ s.Opening i false

def State.CapRests (s : State) : Prop := s.inboundCapHitAtMs.isSome = true → s.AtRest

theorem State.CapRests.none (h : s.inboundCapHitAtMs = none) : s.CapRests := by
  intro hsome
  rw [h] at hsome
  simp at hsome

/-- What is under way shows that there is no cap. -/
theorem State.CapRests.eq_none (h : s.CapRests) (hbusy : ¬ s.AtRest) : s.inboundCapHitAtMs = .none := by
  cases hcap : s.inboundCapHitAtMs with
  | none => rfl
  | some t => exact absurd (h (by rw [hcap]; rfl)) hbusy

/-- What an operation may do to the cap: it lets it stand, or the quiet period is over. -/
structure CapKept (s s' : State) : Prop where
  rests : s'.CapRests
  now : s.now ≤ s'.now
  kept : ∀ t, s.inboundCapHitAtMs = some t →
    s'.inboundCapHitAtMs = some t ∨ t + inboundCapQuietMs ≤ s'.now

theorem CapKept.of_none (hs : s.inboundCapHitAtMs = none) (hr : s'.CapRests) (hn : s.now ≤ s'.now) :
    CapKept s s' where
  rests := hr
  now := hn
  kept t ht := by
    rw [hs] at ht
    simp at ht

theorem CapKept.of_eq (hr : s'.CapRests) (hn : s.now ≤ s'.now)
    (hc : s'.inboundCapHitAtMs = s.inboundCapHitAtMs) : CapKept s s' where
  rests := hr
  now := hn
  kept _ ht := .inl (hc.trans ht)

/-- `scheduleInboundReopen` caps only where no timer is armed. -/
theorem Inv.scheduleInboundReopen_cap (h : Inv s) (hcap : s.inboundCapHitAtMs = none) :
    s.scheduleInboundReopen.now = s.now ∧
    s.scheduleInboundReopen.inboundStreamId = s.inboundStreamId ∧
    s.scheduleInboundReopen.inboundOpenInFlight = s.inboundOpenInFlight ∧
    (s.scheduleInboundReopen.inboundCapHitAtMs.isSome = true →
      s.scheduleInboundReopen.timeouts = []) := by
  rcases s.scheduleInboundReopen_cases with ⟨heq, _⟩ | ⟨_, htimer, heq⟩ | ⟨_, _, _, _, _, heq⟩ <;>
    rw [heq] <;> refine ⟨rfl, rfl, rfl, ?_⟩ <;> intro hsome
  · rw [hcap] at hsome
    simp at hsome
  · have ht := h.timeouts
    rw [htimer] at ht
    exact map_eq_nil_iff.1 ht
  · dsimp only at hsome
    rw [hcap] at hsome
    simp at hsome

theorem Inv.registerInboundConsumer_cap (h : Inv s) (hr : s.CapRests) :
    CapKept s ((Op.enter .registerInboundConsumer).apply available i s) := by
  have hbudget : ((Op.enter .registerInboundConsumer).apply available i s).budget = _ :=
    h.enter_budget i .registerInboundConsumer
  simp only [State.budget, Prod.mk.injEq] at hbudget
  obtain ⟨_, _, hcap, hnow⟩ := hbudget
  unfold State.enter at hcap hnow
  dsimp only at hcap hnow
  split at hcap
  · -- the first consumer, and the quiet period is over
    rename_i hfirst
    rw [if_pos hfirst] at hnow
    have hquiet : s.quietPeriodElapsed = true := by
      simp only [Bool.and_eq_true] at hfirst
      exact hfirst.2
    constructor
    · exact .none hcap
    · exact Int.le_of_eq hnow.symm
    intro t ht
    right
    rw [State.quietPeriodElapsed, ht] at hquiet
    have hle := of_decide_eq_true hquiet
    rw [hnow]
    show t + inboundCapQuietMs ≤ s.now
    omega
  · -- only the count of consumers changes
    rename_i hnot
    have heq : (Op.enter .registerInboundConsumer).apply available i s =
        { s with inboundConsumerCount := s.inboundConsumerCount + 1 } := by
      simp only [Op.apply, State.enter]
      rw [if_neg hnot]
    rw [heq]
    refine CapKept.of_eq ?_ (Int.le_refl _) rfl
    intro hsome
    have hrest := hr hsome
    exact ⟨hrest.timeouts, hrest.stream, hrest.opening⟩

theorem Inv.timeout_cap (h : Inv s) (hr : s.CapRests) (timer : Nat) :
    CapKept s ((Op.enter (.timeout timer)).apply available i s) := by
  have hbudget : ((Op.enter (.timeout timer)).apply available i s).budget = _ :=
    h.enter_budget i (.timeout timer)
  simp only [State.budget, Prod.mk.injEq] at hbudget
  obtain ⟨_, _, hcap, hnow⟩ := hbudget
  unfold State.enter at hcap hnow
  dsimp only at hcap hnow
  by_cases hany : s.timeouts.any (·.1 = timer) = true
  · -- a timer that fires was armed, so there is no cap
    rw [if_pos hany] at hcap hnow
    have hnone : s.inboundCapHitAtMs = none := by
      refine hr.eq_none ?_
      intro hrest
      rw [hrest.timeouts] at hany
      simp at hany
    exact CapKept.of_none hnone (.none (hcap.trans hnone)) (Int.le_of_eq hnow.symm)
  · have heq : (Op.enter (.timeout timer)).apply available i s = s := by
      simp only [Op.apply, State.enter]
      rw [if_neg hany]
    rw [heq]
    exact CapKept.of_eq hr (Int.le_refl _) rfl

theorem Inv.opened_cap (h : Inv s) (hr : s.CapRests) (ho : s.Opening i false)
    (hends : (s.bufferedEventsByStreamId id).all InboundEvent.ends = true) :
    CapKept s (s.opened id) := by
  have hnone : s.inboundCapHitAtMs = none := hr.eq_none fun hrest => hrest.opening i ho
  have hcap : (s.opened id).inboundCapHitAtMs = none := by
    rcases h.opened_counter id ho with ⟨_, hcap⟩ | ⟨_, hnot⟩
    · exact hcap.trans hnone
    · rw [hends] at hnot
      simp at hnot
  obtain ⟨_, _, _, _, _, _, heq, _⟩ := State.opened_eq id (h.opening i ho)
  have hnow : (s.opened id).now = s.now := by rw [heq]
  exact CapKept.of_none hnone (.none hcap) (Int.le_of_eq hnow.symm)

theorem Inv.openFailed_cap (h : Inv s) (hr : s.CapRests) (ho : s.Opening i false) :
    CapKept s s.openFailed := by
  have hnone : s.inboundCapHitAtMs = none := hr.eq_none fun hrest => hrest.opening i ho
  obtain ⟨hnow, hstream, _, htimeouts⟩ := h.scheduleInboundReopen_cap hnone
  refine CapKept.of_none hnone ?_ (Int.le_of_eq hnow.symm)
  intro hsome
  constructor
  · exact htimeouts hsome
  · exact hstream.trans (h.opening i ho)
  -- the open that failed is over
  intro j hj
  exact absurd hj (State.not_opening_settle _ j)

theorem Inv.onEnded_cap (h : Inv s) (hr : s.CapRests) (hid : s.inboundStreamId = some id)
    (hreported : id ∈ s.reported) : CapKept s (s.onEnded id) := by
  have hnone : s.inboundCapHitAtMs = none := by
    refine hr.eq_none ?_
    intro hrest
    exact nomatch hid.symm.trans hrest.stream
  have hdrop := (s.tell id).dropStream_budget
  simp only [State.budget, Prod.mk.injEq] at hdrop
  have hcap := (h.tell hid hreported).dropStream.scheduleInboundReopen_cap (hdrop.2.2.1.trans hnone)
  obtain ⟨hnow, hstream, hflight, htimeouts⟩ := hcap
  rw [State.onEnded_current hid]
  refine CapKept.of_none hnone ?_ (Int.le_of_eq (hnow.trans hdrop.2.2.2).symm)
  intro hsome
  constructor
  · exact htimeouts hsome
  · exact hstream.trans (State.dropStream_inboundStreamId _)
  -- the stream was up, so no open was in flight
  intro i hi
  have hopening : s.Opening i false :=
    ((s.tell id).dropStream_inboundOpenInFlight.symm.trans (hflight.symm.trans hi))
  exact nomatch hid.symm.trans (h.opening i hopening)

theorem Inv.dispatchOrBuffer_cap {e : InboundEvent} (h : Inv s) (hr : s.CapRests)
    (hc : Op.calm s (.event id e) = true) : CapKept s (s.dispatchOrBuffer id e) := by
  have hinv := h.report id e
  have hsame : (s.report id e).now = s.now ∧
      (s.report id e).inboundCapHitAtMs = s.inboundCapHitAtMs ∧ (s.report id e).CapRests ∧
      (s.report id e).subscribersByStreamId = s.subscribersByStreamId := by
    unfold State.report
    split
    · refine ⟨rfl, rfl, ?_, rfl⟩
      intro hsome
      have hrest := hr hsome
      exact ⟨hrest.timeouts, hrest.stream, hrest.opening⟩
    · exact ⟨rfl, rfl, hr, rfl⟩
  obtain ⟨hnow, hcap, hrests, hsubs⟩ := hsame
  unfold State.dispatchOrBuffer
  dsimp only
  split
  · rename_i hsub
    have hid := hinv.subscribers id hsub
    have hended : e.ends = true → CapKept s ((s.report id e).onEnded id) := by
      intro hends
      obtain ⟨hr', hn', hk'⟩ := hinv.onEnded_cap hrests hid (State.mem_report hends)
      rw [hnow] at hn'
      rw [hcap] at hk'
      exact ⟨hr', hn', hk'⟩
    cases e with
    | frame bytes =>
      rw [hsubs] at hsub
      exact absurd hsub (of_decide_eq_true hc)
    | closed | error => exact hended rfl
  · refine CapKept.of_eq ?_ (Int.le_of_eq hnow.symm) hcap
    intro hsome
    have hrest := hrests hsome
    exact ⟨hrest.timeouts, hrest.stream, hrest.opening⟩

/-- Every calm operation keeps the cap. -/
theorem Op.apply_cap (h : Inv s) (hp : o.Pre i s) (hr : s.CapRests) (hc : o.calm s = true) :
    CapKept s (o.apply available i s) := by
  cases o with
  | enter e =>
    cases e with
    | call | resumeInboundOnForeground => simp [Op.calm] at hc
    | registerInboundConsumer => exact h.registerInboundConsumer_cap hr
    | timeout timer => exact h.timeout_cap hr timer
  | stop => simp [Op.calm] at hc
  | opened id => exact h.opened_cap hr hp.1 hc
  | openFailed => exact h.openFailed_cap hr hp.1
  | event id e => exact h.dispatchOrBuffer_cap hr hc
  | callOpenInbound =>
    have hnone : s.inboundCapHitAtMs = none := hr.eq_none fun hrest => hrest.opening i hp.1
    exact CapKept.of_none hnone (.none hnone) (Int.le_refl _)
  | openDone =>
    refine CapKept.of_eq ?_ (Int.le_refl _) rfl
    intro hsome
    have hrest := hr hsome
    refine ⟨hrest.timeouts, hrest.stream, ?_⟩
    intro j hj
    simp [Op.apply, State.Opening] at hj
  | unregister =>
    refine CapKept.of_eq ?_ (Int.le_refl _) rfl
    intro hsome
    have hrest := hr hsome
    exact ⟨hrest.timeouts, hrest.stream, hrest.opening⟩
  | clock now =>
    refine CapKept.of_eq ?_ (of_decide_eq_true hc) rfl
    intro hsome
    have hrest := hr hsome
    exact ⟨hrest.timeouts, hrest.stream, hrest.opening⟩

/-! ## Whole histories -/

theorem Act.counts (hm : (outline available).Meets a) (hl : a.Leaves s') : Counts a.state s' ∧
      armed a + (a.state : State).nextTimeout = max (a.state : State).nextTimeout s'.nextTimeout := by
  cases a with
  | op i s o =>
    obtain rfl := hl
    refine ⟨Op.apply_counts hm.1 hm.2, ?_⟩
    simp only [armed, Act.state]
    omega
  | issue i s c =>
    obtain rfl := hl
    exact ⟨Counts.same rfl rfl, by simp [armed, Act.state]⟩
  | call i s c r =>
    obtain ⟨reply, hp⟩ := hl
    rcases Call.perform_cases hp with rfl | ⟨_, rfl | ⟨_, _, rfl⟩⟩
    · exact ⟨Counts.same rfl rfl, by simp [armed, Act.state]⟩
    · exact ⟨Counts.same rfl rfl, by simp [armed, Act.state, State.openReturned]⟩
    · exact ⟨Counts.same rfl rfl, by simp [armed, Act.state, State.openReturned, State.issue]⟩

theorem Act.cap (hm : (outline available).Meets a) (hc : calm a = true)
    (hr : (a.state : State).CapRests) (hl : a.Leaves s') :
    CapKept a.state s' ∧ capAfter a = s'.inboundCapHitAtMs := by
  have hcall : ∀ s1 : State, s1.CapRests → CapKept s1 s1.openReturned ∧
      ∀ id, CapKept s1 (s1.openReturned.issue id) := by
    intro s1 hr1
    constructor
    · exact CapKept.of_eq (fun hs => ⟨(hr1 hs).1, (hr1 hs).2, (hr1 hs).3⟩) (Int.le_refl _) rfl
    · intro id
      exact CapKept.of_eq (fun hs => ⟨(hr1 hs).1, (hr1 hs).2, (hr1 hs).3⟩) (Int.le_refl _) rfl
  cases a with
  | op i s o =>
    obtain rfl := hl
    exact ⟨Op.apply_cap hm.1 hm.2 hr hc, rfl⟩
  | issue i s c =>
    obtain rfl := hl
    exact ⟨CapKept.of_eq hr (Int.le_refl _) rfl, rfl⟩
  | call i s c r =>
    obtain ⟨reply, hp⟩ := hl
    rcases Call.perform_cases hp with rfl | ⟨_, rfl | ⟨id, _, rfl⟩⟩
    · exact ⟨CapKept.of_eq hr (Int.le_refl _) rfl, rfl⟩
    · exact ⟨(hcall s hr).1, rfl⟩
    · exact ⟨(hcall s hr).2 id, rfl⟩

/-- An attempt is made within an open. -/
theorem Act.attempts_opening (hm : (outline available).Meets a) (ha : attempts a = true) :
    ∃ i, (a.state : State).Opening i false := by
  cases a with
  | op i s o => simp [attempts] at ha
  | issue i s c =>
    obtain ⟨_, hduring⟩ := hm
    cases c with
    | getSession | openInbound => exact ⟨i, hduring.1⟩
    | openSettled => simp [attempts] at ha
  | call i s c r => simp [attempts] at ha

theorem recorded_linked {w : Sys (machine available)} (hw : Recorded (prog available) init w h) :
    ∃ s, init s ∧ Linked s h w.state ∧ ∀ a ∈ h, (outline available).Meets a :=
  (outline_sound available).recorded (fun _ => init_inv) (fun _ i hs => init_fin i hs)
    (prog_safe_outline available) hw

/-- The counter stays below the cap. -/
theorem counter_le (hl : Linked s0 h s1) (hm : ∀ a ∈ h, (outline available).Meets a)
    (hs : s0.inboundConsecutiveFailures ≤ inboundMaxConsecutiveFailures) :
    s1.inboundConsecutiveFailures ≤ inboundMaxConsecutiveFailures := by
  have hkeep : ∀ a ∈ h, ∀ s', a.state.inboundConsecutiveFailures ≤
      inboundMaxConsecutiveFailures → a.Leaves s' →
      s'.inboundConsecutiveFailures ≤ inboundMaxConsecutiveFailures := by
    intro a ha s' hle hleaves
    exact (Act.counts (hm a ha) hleaves).1.le hle
  exact Linked.keeps (I := fun s : State =>
    s.inboundConsecutiveFailures ≤ inboundMaxConsecutiveFailures) hl hkeep hs

/-- While the counter is not put back, it grows with every timer that is armed. -/
theorem armed_le (hl : Linked s0 h s1) (hm : ∀ a ∈ h, (outline available).Meets a)
    (hresets : ∀ a ∈ h, resets a = false) :
    (h.map armed).sum + s0.inboundConsecutiveFailures ≤ s1.inboundConsecutiveFailures := by
  have hgrow : ∀ a ∈ h, ∀ s', a.Leaves s' →
      armed a + a.state.inboundConsecutiveFailures ≤ s'.inboundConsecutiveFailures := by
    intro a ha s' hleaves
    obtain ⟨⟨_, harmed⟩, hmax⟩ := Act.counts (hm a ha) hleaves
    have hno : ¬ s'.inboundConsecutiveFailures < a.state.inboundConsecutiveFailures := by
      have hreset := hresets a ha
      cases a with
      | op i s o =>
        obtain rfl := hleaves
        exact of_decide_eq_false hreset
      | issue i s c =>
        obtain rfl := hleaves
        exact Nat.lt_irrefl _
      | call i s c r =>
        obtain ⟨reply, hp⟩ := hleaves
        rcases Call.perform_cases hp with rfl | ⟨_, rfl | ⟨_, _, rfl⟩⟩ <;> exact Nat.lt_irrefl _
    rcases harmed with hlt | harmed
    · exact absurd hlt hno
    · omega
  exact hl.sum_le hgrow

/-- The cap of `t` stands, or its quiet period is over. -/
def State.Waits (t : Int) (s : State) : Prop :=
  s.inboundCapHitAtMs = some t ∨ t + inboundCapQuietMs ≤ s.now

theorem waits_of_linked {t : Int} (hl : Linked s0 h s1) (hm : ∀ a ∈ h, (outline available).Meets a)
    (hcalm : ∀ a ∈ h, calm a = true) (hr : s0.CapRests) (ht : s0.Waits t) :
    s1.CapRests ∧ s1.Waits t := by
  refine hl.keeps (I := fun s : State => s.CapRests ∧ s.Waits t) ?_ ⟨hr, ht⟩
  rintro a ha s' ⟨hrests, hwaits⟩ hleaves
  obtain ⟨hkept, _⟩ := Act.cap (hm a ha) (hcalm a ha) hrests hleaves
  refine ⟨hkept.rests, ?_⟩
  rcases hwaits with hcap | hle
  · exact hkept.kept t hcap
  · exact .inr (Int.le_trans hle hkept.now)

theorem capRests_of_linked (hl : Linked s0 h s1) (hm : ∀ a ∈ h, (outline available).Meets a)
    (hcalm : ∀ a ∈ h, calm a = true) (hr : s0.CapRests) : s1.CapRests := by
  refine hl.keeps ?_ hr
  intro a ha s' hrests hleaves
  exact (Act.cap (hm a ha) (hcalm a ha) hrests hleaves).1.rests

/-- Between two resets of the counter no more timers are armed than the cap allows, and after the cap was
    hit no session and no stream is asked for before the quiet period is over. -/
theorem reopens_capped {w : Sys (machine available)} {h : List (Act (machine available))}
    (hw : Recorded (prog available) init w h) (hcalm : ∀ a ∈ h, calm a = true) :
    (∀ before between after, h = before ++ between ++ after → (∀ a ∈ between, resets a = false) →
      (between.map armed).sum ≤ inboundMaxConsecutiveFailures) ∧
    ∀ before a after, h = before ++ a :: after → attempts a = true →
      ∀ b ∈ before, ∀ t, capAfter b = some t →
        t + inboundCapQuietMs ≤ (a.state : State).now := by
  obtain ⟨s0, hinit, hlinked, hmeets⟩ := recorded_linked hw
  constructor
  · intro before between after hsplit hresets
    subst hsplit
    obtain ⟨s2, hl, _⟩ := hlinked.of_append
    obtain ⟨s1, hl1, hl2⟩ := hl.of_append
    have hstart : s0.inboundConsecutiveFailures ≤ inboundMaxConsecutiveFailures := by
      obtain ⟨now, rfl⟩ := hinit
      exact Nat.zero_le _
    have hend := counter_le hl (fun a ha => hmeets a (mem_append_left _ ha)) hstart
    have hsum := armed_le hl2 (fun a ha => hmeets a (mem_append_left _
      (mem_append_right _ ha))) hresets
    omega
  · intro before a after hsplit hattempt b hb t hcap
    subst hsplit
    obtain ⟨early, late, rfl⟩ := append_of_mem hb
    -- up to `b`, where the cap stands, and from there to the attempt
    obtain ⟨s2, hl, hrest⟩ := hlinked.of_append
    obtain ⟨s1, hl1, hl2⟩ := hl.of_append
    have hr0 : s0.CapRests := by
      obtain ⟨now, rfl⟩ := hinit
      exact .none rfl
    have hr1 := capRests_of_linked hl1 (fun x hx => hmeets x (by simp [hx]))
      (fun x hx => hcalm x (by simp [hx])) hr0
    cases hrest with
    | cons hleaves _ =>
      cases hl2 with
      | cons hleaves' hlate =>
        obtain ⟨hkept, heq⟩ := Act.cap (hmeets b (by simp)) (hcalm b (by simp)) hr1 hleaves'
        rw [heq] at hcap
        obtain ⟨hr, hwaits⟩ := waits_of_linked hlate (fun x hx => hmeets x (by simp [hx]))
          (fun x hx => hcalm x (by simp [hx])) hkept.rests (.inl hcap)
        obtain ⟨i, hopening⟩ := Act.attempts_opening (hmeets a (by simp)) hattempt
        have hnone := hr.eq_none fun hrest => hrest.opening i hopening
        rcases hwaits with hcap' | hle
        · exact nomatch hnone.symm.trans hcap'
        · exact hle

/-- The server is down: three timers and the cap, a consumer that comes back too early, and one that
    comes back after the quiet period. -/
def serverDown : List (Move (machine true) Cmd) :=
  [.start (.start .registerInboundConsumer), .perform 0 (.fail "openFailed"), .resume 0, .perform 0 .ok,
    .resume 0,
    .start (.start (.timeout 0)), .perform 1 (.fail "openFailed"), .resume 1, .perform 1 .ok, .resume 1,
    .start (.start (.timeout 1)), .perform 2 (.fail "openFailed"), .resume 2, .perform 2 .ok, .resume 2,
    .start (.clock 14000),
    .start (.start (.timeout 2)), .perform 4 (.fail "openFailed"), .resume 4, .perform 4 .ok, .resume 4,
    .start (.clock 44000), .start .unregister, .start (.start .registerInboundConsumer),
    .start (.clock 74000), .start .unregister, .start (.start .registerInboundConsumer)]

theorem reopens_capped_serverDown :
    ∃ p, (Sys.idle (State.initial 0)).record (prog true) [] serverDown = some p ∧
      ((p.2.map armed).sum = 3 ∧
        (p.2.filter attempts).map (fun a => (a.state : State).now) = [0, 0, 0, 14000, 74000] ∧
        (p.2.any fun a => capAfter a == some 14000) = true) ∧
      (∀ before between after, p.2 = before ++ between ++ after →
        (∀ a ∈ between, resets a = false) →
        (between.map armed).sum ≤ inboundMaxConsecutiveFailures) ∧
      ∀ before a after, p.2 = before ++ a :: after → attempts a = true →
        ∀ b ∈ before, ∀ t, capAfter b = some t →
          t + inboundCapQuietMs ≤ (a.state : State).now := by
  have hrun : ((Sys.idle (State.initial 0)).record (prog true) [] serverDown).map
      (fun p => ((p.2.map armed).sum, (p.2.filter attempts).map (fun a => a.state.now),
        p.2.any fun a => capAfter a == some 14000, p.2.all calm)) =
      some (3, [0, 0, 0, 14000, 74000], true, true) := by
    decide
  obtain ⟨p, hp, hobs⟩ := Option.map_eq_some_iff.1 hrun
  simp only [Prod.mk.injEq] at hobs
  obtain ⟨hsum, htimes, hcap, hcalm⟩ := hobs
  have hrecorded : Recorded (prog true) init p.1 p.2 :=
    (Recorded.idle (State.initial 0) ⟨0, rfl⟩).record serverDown hp
  refine ⟨p, hp, ⟨hsum, htimes, hcap⟩, ?_⟩
  exact reopens_capped hrecorded fun a ha => all_eq_true.1 hcalm a ha

end Inbound
