import SovereignMobile.Inbound.Outline

/-! # Stopping, dead streams and lost streams

What the subscription is for: after `stopInboundSubscription` nothing arrives, a stream that has ended
is never taken for a live one, and the native side gets every stream back. The code has each of these
in the runs that keep clear of one window. -/

namespace Inbound

open EventLoop List Option

variable {available : Bool} {s : State}

/-! ## Stopping -/

/-- From the return of `stopInboundSubscription` to the next call of `startInboundSubscription`. -/
def State.Stopped (s : State) : Prop :=
  ∀ frames, s.afterStop = some frames →
    s.inboundStreamId = none ∧ s.timeouts = [] ∧ frames = []

/-- No open comes back with a stream while the subscription is stopped. -/
def opensBeforeStop (available : Bool) : Cond (machine available) where
  op _ s o :=
    match o with
    | .opened _ => !State.inboundStopped s
    | _ => true
  call _ _ _ _ := true

/-- The part of `State.Stopped` that is not about timeouts. -/
def State.Quiet (s : State) : Prop :=
  ∀ frames, s.afterStop = some frames → s.inboundStreamId = none ∧ frames = []

theorem quiet_of_not_stopped (h : s.afterStop = none) : s.Quiet :=
  fun _ hs => nomatch h.symm.trans hs

theorem State.Quiet.startInboundSubscription (h : Inv s) (i : Nat) (force : Bool) :
    (s.startInboundSubscription available i force).Quiet := by
  refine quiet_of_not_stopped ?_
  have hdrop : s.rearm.dropStream.afterStop = none := by
    rcases s.rearm.dropStream_cases with heq | ⟨_, _, heq⟩ <;> rw [heq] <;> rfl
  rcases h.startInboundSubscription_cases available i force with
    ⟨_, heq⟩ | ⟨_, _, _, heq⟩ | ⟨_, _, _, heq⟩ | ⟨_, _, _, heq⟩ <;> rw [heq]
  · rfl
  · exact hdrop
  · exact hdrop

theorem State.enter_afterStop (s : State) (e : Entry) : (s.enter e).1.afterStop = s.afterStop := by
  rcases s.enter_cases e with ⟨_, _, heq⟩ | ⟨_, heq⟩ | heq | ⟨_, _, heq⟩ | ⟨_, _, heq⟩ <;> rw [heq] <;>
    rfl

theorem State.scheduleInboundReopen_stream (s : State) :
    s.scheduleInboundReopen.inboundStreamId = s.inboundStreamId ∧
      s.scheduleInboundReopen.afterStop = s.afterStop := by
  rcases s.scheduleInboundReopen_cases with ⟨heq, _⟩ | ⟨_, _, heq⟩ | ⟨_, _, _, _, _, heq⟩ <;>
    rw [heq] <;> exact ⟨rfl, rfl⟩

theorem State.dropStream_afterStop (s : State) : s.dropStream.afterStop = s.afterStop := by
  rcases s.dropStream_cases with heq | ⟨_, _, heq⟩ <;> rw [heq]

theorem State.onEnded_afterStop (s : State) (id : StreamId) :
    (s.onEnded id).afterStop = s.afterStop := by
  unfold State.onEnded
  dsimp only
  split
  · exact (State.scheduleInboundReopen_stream _).2.trans (s.tell id).dropStream_afterStop
  · rfl

theorem State.report_rest (s : State) (id : StreamId) (e : InboundEvent) :
    ∃ ids, s.report id e = { s with reported := ids } := by
  unfold State.report
  split
  · exact ⟨_, rfl⟩
  · exact ⟨s.reported, rfl⟩

/-- A stopped subscription has no subscribers, so what comes is buffered. -/
theorem State.Quiet.dispatchOrBuffer (h : Inv s) (hq : s.Quiet) (id : StreamId) (e : InboundEvent) :
    (s.dispatchOrBuffer id e).Quiet := by
  obtain ⟨ids, heq⟩ := s.report_rest id e
  have hafter : (s.report id e).afterStop = s.afterStop := by rw [heq]
  have hid : (s.report id e).inboundStreamId = s.inboundStreamId := by rw [heq]
  unfold State.dispatchOrBuffer
  dsimp only
  split
  · rename_i hsub
    have hcur : s.inboundStreamId = some id := hid ▸ (h.report id e).subscribers id hsub
    have hnone : s.afterStop = none := by
      cases ha : s.afterStop with
      | none => rfl
      | some frames =>
        rw [(hq frames ha).1] at hcur
        simp at hcur
    refine quiet_of_not_stopped ?_
    cases e with
    | frame bytes => simp [State.handle, State.onFrame, hafter, hnone]
    | closed | error => exact (State.onEnded_afterStop _ id).trans (hafter.trans hnone)
  · intro frames hframes
    obtain ⟨hs, hf⟩ := hq frames (hafter.symm.trans hframes)
    exact ⟨hid.trans hs, hf⟩

variable {i : Nat} {o : Op} {id : StreamId} {s' : State}

theorem State.Quiet.apply (h : Inv s) (hq : s.Quiet) (hp : o.Pre i s)
    (hc : (opensBeforeStop available).op i s o = true) : (o.apply available i s).Quiet := by
  cases o with
  | enter e =>
    have he : (s.enter e).1.Quiet := by
      intro frames hframes
      obtain ⟨hs, hf⟩ := hq frames (s.enter_afterStop e ▸ hframes)
      exact ⟨(s.enter_keeps e).2.1.trans hs, hf⟩
    have hinv := h.enter e
    rcases heq : s.enter e with ⟨s1, call⟩
    rw [heq] at he hinv
    simp only [Op.apply, heq]
    cases call with
    | none => exact he
    | some force => exact State.Quiet.startInboundSubscription hinv i force
  | opened id =>
    simp only [opensBeforeStop] at hc
    obtain ⟨_, _, _, _, _, after, heq, _, hafter⟩ := State.opened_eq id (h.opening i hp.1)
    refine quiet_of_not_stopped ?_
    have hnone : s.afterStop.isSome = false := by
      by_contra hsome
      rw [h.afterStop (by simpa [isSome_iff_ne_none] using hsome)] at hc
      simp at hc
    rw [Op.apply, heq]
    simpa [hnone] using hafter
  | openFailed =>
    obtain ⟨hid, hafter⟩ := s.scheduleInboundReopen_stream
    intro frames hframes
    obtain ⟨hs, hf⟩ := hq frames (hafter.symm.trans hframes)
    exact ⟨hid.trans hs, hf⟩
  | stop =>
    rw [Op.apply, h.stopInboundSubscription_eq]
    intro frames hframes
    have hafter : some [] = some frames := s.halt.dropStream_afterStop.symm.trans hframes
    exact ⟨s.halt.dropStream_inboundStreamId, (some.inj hafter).symm⟩
  | event id e => exact hq.dispatchOrBuffer h id e
  | callOpenInbound | openDone | unregister | clock => exact hq

/-- A run in which the open comes back with its stream after a stop. -/
def stoppedTooEarly : List (Move (machine true) Cmd) :=
  [.start (.start (.call false)), .perform 0 (.id 7), .resume 0, .start .stopInboundSubscription,
    .perform 0 (.id 1), .resume 0, .start (.event 1 (.frame [9]))]

theorem stop_not_final :
    ¬ ∀ w, Reach .any (prog true) init w → (w.state : State).Stopped := by
  intro h
  have hrun : ((Sys.idle (State.initial 0)).run Cond.any (prog true) stoppedTooEarly).map
      (fun w => (w.state.afterStop, w.state.inboundStreamId)) =
      some (some [[9]], some 1) := by
    decide
  obtain ⟨w, hw, hobs⟩ := map_eq_some_iff.1 hrun
  simp only [Prod.mk.injEq] at hobs
  have hid := (h w (.of_run ⟨0, rfl⟩ hw) _ hobs.1).1
  rw [hobs.2] at hid
  simp at hid

/-- Where every open comes back before a stop, a stop is final. -/
theorem stop_final {w : Sys (machine available)}
    (h : Reach (opensBeforeStop available) (prog available) init w) :
    (w.state : State).Stopped := by
  obtain ⟨hi, hq⟩ := invariant_of_reach (J := State.Quiet)
    (fun s hs => by
      obtain ⟨now, rfl⟩ := hs
      exact quiet_of_not_stopped rfl)
    (fun i s o hi hj hc hp => hj.apply hi hp hc) (fun s hj => ⟨hj, fun _ => hj⟩) h
  intro frames hframes
  obtain ⟨hid, hf⟩ := hq frames hframes
  have htimer : State.inboundReopenTimer w.state = none :=
    hi.stopped (hi.afterStop (by simp [hframes]))
  have htimeouts := hi.timeouts
  rw [htimer] at htimeouts
  exact ⟨hid, map_eq_nil_iff.1 htimeouts, hf⟩

/-- The stream is up before the stop; a frame that was on its way comes after it. -/
def stoppedAfterOpen : List (Move (machine true) Cmd) :=
  [.start (.start (.call false)), .perform 0 (.id 7), .resume 0, .perform 0 (.id 1), .resume 0,
    .perform 0 .ok, .resume 0, .start (.event 1 (.frame [9])), .start .stopInboundSubscription,
    .start (.event 1 (.frame [9]))]

theorem stop_final_afterOpen :
    ∃ w, (Sys.idle (State.initial 0)).run (opensBeforeStop true) (prog true) stoppedAfterOpen =
        some w ∧
      (w.state : State).closedInbound = [1] ∧ (w.state : State).Stopped := by
  have hrun : ((Sys.idle (State.initial 0)).run (opensBeforeStop true) (prog true)
      stoppedAfterOpen).map (fun w => w.state.closedInbound) = some [1] := by
    decide
  obtain ⟨w, hw, hclosed⟩ := map_eq_some_iff.1 hrun
  exact ⟨w, hw, hclosed, stop_final (.of_run ⟨0, rfl⟩ hw)⟩

/-! ## Dead streams -/

/-- No stream that has ended is taken for the current one, and a subscription that was started and not
    stopped since has a way to come back. -/
structure State.Alive (s : State) : Prop where
  dead : ∀ id ∈ s.toldEnded, s.inboundStreamId ≠ some id
  armed : s.started = true → s.inboundStopped = false →
    s.inboundStreamId.isSome = true ∨ (∃ i, s.Opening i false) ∨ s.timeouts ≠ [] ∨
      s.inboundSubscriptionOffline = true

/-- The start lets go of the stream or finds none, and joins an open whose promise is settled. -/
def State.joinsFinishedOpen (force : Bool) (s : State) : Bool :=
  (force || s.inboundStreamId.isNone) && s.inboundOpenInFlight.any fun p => p.settled

/-- A stream comes back before its end does, and a start that joins a finished open finds a timeout
    pending or the subscription marked offline. -/
def opensBeforeEnd (available : Bool) : Cond (machine available) where
  op _ s o :=
    match o with
    | .opened id => (State.bufferedEventsByStreamId s id).all fun e => !e.ends
    | .enter e =>
      match State.enter s e with
      | (_, none) => true
      | (s, some force) =>
        !s.joinsFinishedOpen force || !s.timeouts.isEmpty || s.inboundSubscriptionOffline
    | _ => true
  call _ _ _ _ := true

/-- A re-open that is asked for is pending, or the subscription is marked offline. -/
theorem Inv.armed_scheduleInboundReopen (h : Inv s)
    (hs : s.scheduleInboundReopen.inboundStopped = false) :
    s.scheduleInboundReopen.timeouts ≠ [] ∨
      s.scheduleInboundReopen.inboundSubscriptionOffline = true := by
  rcases s.scheduleInboundReopen_cases with
    ⟨heq, hstop | htimer⟩ | ⟨_, _, heq⟩ | ⟨_, _, _, _, _, heq⟩ <;> rw [heq] at hs ⊢
  · rw [hstop] at hs
    simp at hs
  · obtain ⟨timer, ht⟩ := isSome_iff_exists.1 htimer
    have htimeouts := h.timeouts
    rw [ht] at htimeouts
    left
    intro hnil
    rw [hnil] at htimeouts
    simp at htimeouts
  · exact .inr rfl
  · exact .inl (by simp)

theorem State.Alive.openFailed (h : Inv s) (ha : s.Alive) : s.openFailed.Alive where
  dead id hid := by
    have htold : s.scheduleInboundReopen.toldEnded = s.toldEnded := by
      rcases s.scheduleInboundReopen_cases with ⟨heq, _⟩ | ⟨_, _, heq⟩ | ⟨_, _, _, _, _, heq⟩ <;>
        rw [heq]
    have hsid := s.scheduleInboundReopen_stream.1
    exact fun hcur => ha.dead id (htold ▸ hid) (hsid.symm.trans hcur)
  armed _ hstop := .inr (.inr (h.armed_scheduleInboundReopen hstop))

theorem State.Alive.onEnded (h : Inv s) (hid : s.inboundStreamId = some id) (hr : id ∈ s.reported) :
    (s.onEnded id).Alive where
  dead x _ := by
    have hnone : (s.onEnded id).inboundStreamId = none := by
      unfold State.onEnded
      rw [if_pos (by exact hid)]
      exact (State.scheduleInboundReopen_stream _).1.trans (s.tell id).dropStream_inboundStreamId
    rw [hnone]
    exact fun hx => nomatch hx
  armed _ := by
    have htold := h.tell hid hr
    unfold State.onEnded
    rw [if_pos (by exact hid)]
    exact fun hstop => .inr (.inr (htold.dropStream.armed_scheduleInboundReopen hstop))

theorem State.Alive.dispatchOrBuffer (h : Inv s) (ha : s.Alive) (id : StreamId) (e : InboundEvent) :
    (s.dispatchOrBuffer id e).Alive := by
  have hrep := h.report id e
  have hends : e.ends = true → id ∈ (s.report id e).reported := State.mem_report
  have har : (s.report id e).Alive := by
    obtain ⟨ids, heq⟩ := s.report_rest id e
    rw [heq]
    exact ⟨ha.dead, ha.armed⟩
  unfold State.dispatchOrBuffer
  dsimp only
  split
  · rename_i hsub
    have hid := hrep.subscribers id hsub
    cases e with
    | frame bytes => exact ⟨har.dead, fun _ _ => .inl (by simp [State.handle, State.onFrame, hid])⟩
    | closed | error => exact State.Alive.onEnded hrep hid (hends rfl)
  · exact ⟨har.dead, har.armed⟩

theorem State.Alive.dropped (s : State) (hs : s.inboundStopped = false →
    (∃ i, s.Opening i false) ∨ s.timeouts ≠ [] ∨ s.inboundSubscriptionOffline = true) :
    s.dropStream.Alive := by
  rcases s.dropStream_cases with heq | ⟨_, _, heq⟩ <;> rw [heq]
  iterate 2
    · exact ⟨fun _ _ hx => absurd hx (by simp), fun _ hstop => .inr (hs hstop)⟩

theorem State.Alive.startInboundSubscription (h : Inv s) (hdead : ∀ id ∈ s.toldEnded,
    s.inboundStreamId ≠ some id) (havail : s.started = true → available = true) (i : Nat)
    (force : Bool)
    (hc : (!s.joinsFinishedOpen force || !s.timeouts.isEmpty || s.inboundSubscriptionOffline) = true) :
    (s.startInboundSubscription available i force).Alive := by
  rcases h.startInboundSubscription_cases available i force with
    ⟨hna, heq⟩ | ⟨_, _, hopen, heq⟩ | ⟨_, hforce, hsome, heq⟩ | ⟨_, _, _, heq⟩ <;> rw [heq]
  · refine ⟨hdead, fun hstarted => ?_⟩
    rw [havail hstarted] at hna
    simp at hna
  · exact ⟨hdead, fun _ _ => .inl hopen⟩
  · refine State.Alive.dropped _ fun _ => ?_
    obtain ⟨⟨owner, settled⟩, hp⟩ := isSome_iff_exists.1 hsome
    cases settled with
    | false => exact .inl ⟨owner, hp⟩
    | true =>
      have hjoins : s.joinsFinishedOpen force = true := by
        rcases hforce with rfl | hforce
        · simp [State.joinsFinishedOpen, hp]
        · simp [State.joinsFinishedOpen, hp, hforce]
      rw [hjoins] at hc
      simpa [State.rearm] using Or.inr hc
  · have hd : s.rearm.dropStream.inboundStreamId = none := State.dropStream_inboundStreamId _
    exact ⟨fun _ _ hx => absurd (hd.symm.trans hx) (by simp), fun _ _ => .inr (.inl ⟨i, rfl⟩)⟩

theorem State.Alive.opened (h : Inv s) (ho : s.Opening i false) (hnew : id ∉ s.returned)
    (hc : ((s.bufferedEventsByStreamId id).all fun e => !e.ends) = true) :
    (s.opened id).Alive := by
  obtain ⟨_, _, _, _, told, _, heq, htold, _⟩ := State.opened_eq id (h.opening i ho)
  rw [heq]
  refine ⟨fun x hx hcur => ?_, fun _ _ => .inl rfl⟩
  cases hcur
  rcases htold _ hx with hx | ⟨_, e, he, hends⟩
  · exact hnew (h.told _ hx).1
  have hnot := all_eq_true.1 hc e he
  rw [hends] at hnot
  simp at hnot

/-- `State.Alive`, in runs where only a client with the bridge has started the subscription. -/
def State.AliveOn (available : Bool) (s : State) : Prop :=
  s.Alive ∧ (s.started = true → available = true)

theorem State.started_keeps (s : State) :
    s.scheduleInboundReopen.started = s.started ∧ s.dropStream.started = s.started := by
  constructor
  · rcases s.scheduleInboundReopen_cases with ⟨heq, _⟩ | ⟨_, _, heq⟩ | ⟨_, _, _, _, _, heq⟩ <;> rw [heq]
  · rcases s.dropStream_cases with heq | ⟨_, _, heq⟩ <;> rw [heq]

theorem State.dispatchOrBuffer_started (s : State) (id : StreamId) (e : InboundEvent) :
    (s.dispatchOrBuffer id e).started = s.started := by
  have hrep : (s.report id e).started = s.started := by
    obtain ⟨ids, heq⟩ := s.report_rest id e
    rw [heq]
  have hended : ∀ s : State, (s.onEnded id).started = s.started := by
    intro s
    unfold State.onEnded
    dsimp only
    split
    · exact (State.started_keeps _).1.trans (s.tell id).started_keeps.2
    · rfl
  unfold State.dispatchOrBuffer
  dsimp only
  generalize s.report id e = s1 at hrep
  rw [← hrep]
  split
  · cases e with
    | frame bytes => rfl
    | closed | error => exact hended s1
  · rfl

theorem State.enter_alive (s : State) (e : Entry) :
    (s.enter e).1.toldEnded = s.toldEnded ∧ (s.enter e).1.started = s.started := by
  rcases s.enter_cases e with ⟨_, _, heq⟩ | ⟨_, heq⟩ | heq | ⟨_, _, heq⟩ | ⟨_, _, heq⟩ <;> rw [heq] <;>
    exact ⟨rfl, rfl⟩

/-- An entry that makes no start only counts consumers. -/
theorem State.Alive.enter (ha : s.Alive) {e : Entry} (hnone : (s.enter e).2 = none) :
    (s.enter e).1.Alive := by
  rcases s.enter_cases e with ⟨_, _, heq⟩ | ⟨_, heq⟩ | heq | ⟨_, _, heq⟩ | ⟨_, _, heq⟩ <;>
    rw [heq] at hnone ⊢
  · simp at hnone
  · exact ⟨ha.dead, ha.armed⟩
  · exact ha
  · simp at hnone
  · simp at hnone

theorem Inv.startInboundSubscription_started (h : Inv s) (havail : s.started = true →
    available = true) (i : Nat) (force : Bool)
    (hs : (s.startInboundSubscription available i force).started = true) : available = true := by
  rcases h.startInboundSubscription_cases available i force with
    ⟨_, heq⟩ | ⟨ha, _⟩ | ⟨ha, _⟩ | ⟨ha, _⟩
  · rw [heq] at hs
    exact havail hs
  · exact ha
  · exact ha
  · exact ha

theorem State.AliveOn.apply (h : Inv s) (ha : s.AliveOn available) (hp : o.Pre i s)
    (hc : (opensBeforeEnd available).op i s o = true) :
    (o.apply available i s).AliveOn available := by
  obtain ⟨ha, havail⟩ := ha
  cases o with
  | enter e =>
    have hinv := h.enter e
    have hno := ha.enter (e := e)
    obtain ⟨htold, hst⟩ := s.enter_alive e
    have hid := (s.enter_keeps e).2.1
    simp only [opensBeforeEnd] at hc
    rcases heq : s.enter e with ⟨s1, call⟩
    rw [heq] at hinv hno htold hst hid hc
    simp only [Op.apply, heq]
    cases call with
    | none => exact ⟨hno rfl, fun hs => havail (hst ▸ hs)⟩
    | some force =>
      have havail1 : s1.started = true → available = true := fun hs => havail (hst ▸ hs)
      have hdead : ∀ id ∈ s1.toldEnded, s1.inboundStreamId ≠ some id :=
        fun id hmem hx => ha.dead id (htold ▸ hmem) (hid.symm.trans hx)
      exact ⟨State.Alive.startInboundSubscription hinv hdead havail1 i force hc,
        hinv.startInboundSubscription_started havail1 i force⟩
  | opened id =>
    refine ⟨State.Alive.opened h hp.1 hp.2.2.2 hc, fun hs => havail ?_⟩
    obtain ⟨_, _, _, _, _, _, heq, _⟩ := State.opened_eq id (h.opening i hp.1)
    rw [Op.apply, heq] at hs
    exact hs
  | openFailed => exact ⟨ha.openFailed h, fun hs => havail (s.started_keeps.1 ▸ hs)⟩
  | openDone =>
    refine ⟨⟨ha.dead, fun hs hstop => ?_⟩, havail⟩
    rcases ha.armed hs hstop with hid | ⟨j, hj⟩ | hrest
    · exact .inl hid
    · have heq := hp.symm.trans hj
      simp at heq
    · exact .inr (.inr hrest)
  | stop =>
    rw [Op.apply, h.stopInboundSubscription_eq]
    have hd := State.Alive.dropped s.halt fun hs => absurd hs (by simp [State.halt])
    exact ⟨⟨hd.dead, hd.armed⟩, fun hs => havail (s.halt.started_keeps.2.symm.trans hs)⟩
  | event id e =>
    exact ⟨ha.dispatchOrBuffer h id e, fun hs => havail (s.dispatchOrBuffer_started id e ▸ hs)⟩
  | callOpenInbound | unregister | clock => exact ⟨⟨ha.dead, ha.armed⟩, havail⟩

/-- The end of the stream is reported before the start has attached its subscriber. -/
def closedBeforeSubscribe : List (Move (machine true) Cmd) :=
  [.start (.start (.call false)), .perform 0 (.id 7), .resume 0, .perform 0 (.id 1),
    .start (.event 1 .closed), .resume 0, .perform 0 .ok, .resume 0]

theorem dead_stream_current :
    ¬ ∀ w, Reach .any (prog true) init w → (w.state : State).Alive := by
  intro h
  have hrun : ((Sys.idle (State.initial 0)).run Cond.any (prog true) closedBeforeSubscribe).map
      (fun w => (w.state.toldEnded, w.state.inboundStreamId)) =
      some ([1], some 1) := by
    decide
  obtain ⟨w, hw, hobs⟩ := map_eq_some_iff.1 hrun
  simp only [Prod.mk.injEq] at hobs
  have halive := h w (.of_run ⟨0, rfl⟩ hw)
  exact halive.dead 1 (by simp [hobs.1]) hobs.2

/-- Where a stream comes back before its end does, and no start joins a finished open with nothing else
    under way, the subscription never goes deaf. -/
theorem alive_of_opensBeforeEnd {w : Sys (machine available)}
    (h : Reach (opensBeforeEnd available) (prog available) init w) : (w.state : State).Alive := by
  obtain ⟨_, ha⟩ := invariant_of_reach (J := State.AliveOn available)
    (fun s hs => by
      obtain ⟨now, rfl⟩ := hs
      exact ⟨⟨fun _ hid => absurd hid (by simp [State.initial]),
        fun hs => absurd hs (by simp [State.initial])⟩, fun hs => absurd hs (by simp [State.initial])⟩)
    (fun i s o hi hj hc hp => hj.apply hi hp hc)
    (fun s hj => ⟨⟨⟨hj.1.dead, hj.1.armed⟩, hj.2⟩, fun _ => ⟨⟨hj.1.dead, hj.1.armed⟩, hj.2⟩⟩) h
  exact ha.1

/-- The stream is up when its end is reported; the re-open is pending. -/
def closedAfterSubscribe : List (Move (machine true) Cmd) :=
  [.start (.start (.call false)), .perform 0 (.id 7), .resume 0, .perform 0 (.id 1), .resume 0,
    .perform 0 .ok, .resume 0, .start (.event 1 .closed)]

theorem alive_closedAfterSubscribe :
    ∃ w, (Sys.idle (State.initial 0)).run (opensBeforeEnd true) (prog true) closedAfterSubscribe =
        some w ∧
      ((w.state : State).toldEnded = [1] ∧ (w.state : State).timeouts = [(0, 2000)]) ∧
      (w.state : State).Alive := by
  have hrun : ((Sys.idle (State.initial 0)).run (opensBeforeEnd true) (prog true)
      closedAfterSubscribe).map
      (fun w => (w.state.toldEnded, w.state.timeouts)) =
      some ([1], [(0, 2000)]) := by
    decide
  obtain ⟨w, hw, hobs⟩ := map_eq_some_iff.1 hrun
  simp only [Prod.mk.injEq] at hobs
  exact ⟨w, hw, hobs, alive_of_opensBeforeEnd (.of_run ⟨0, rfl⟩ hw)⟩

/-! ## Lost streams -/

/-- Every stream that was returned is the current one, or has been reported closed or failed, or was
    handed to `closeInbound`. -/
def State.AccountedFor (s : State) : Prop :=
  ∀ id ∈ s.returned, s.inboundStreamId = some id ∨ id ∈ s.reported ∨ id ∈ s.closedInbound

/-- A forced start finds no stream, or one that has been reported closed or failed. -/
def forcesDeadStreams (available : Bool) : Cond (machine available) where
  op _ s o :=
    match o with
    | .enter e =>
      match State.enter s e with
      | (s, some true) => s.inboundStreamId.all fun id => decide (id ∈ s.reported)
      | _ => true
    | _ => true
  call _ _ _ _ := true

theorem State.AccountedFor.mono (h : s.AccountedFor) (hr : s'.returned = s.returned)
    (hi : ∀ id, s.inboundStreamId = some id → s'.inboundStreamId = some id ∨ id ∈ s'.reported ∨
      id ∈ s'.closedInbound) (hrep : ∀ id ∈ s.reported, id ∈ s'.reported)
    (hcl : ∀ id ∈ s.closedInbound, id ∈ s'.closedInbound) : s'.AccountedFor := by
  intro id hid
  rcases h id (hr ▸ hid) with hcur | hreported | hclosed
  · exact hi id hcur
  · exact .inr (.inl (hrep id hreported))
  · exact .inr (.inr (hcl id hclosed))

/-- What happens to the streams that a part of an operation leaves alone. -/
def State.streamFields (s : State) : List StreamId × List StreamId × List StreamId :=
  (s.returned, s.reported, s.closedInbound)

theorem State.scheduleInboundReopen_streamFields (s : State) :
    s.scheduleInboundReopen.streamFields = s.streamFields := by
  rcases s.scheduleInboundReopen_cases with ⟨heq, _⟩ | ⟨_, _, heq⟩ | ⟨_, _, _, _, _, heq⟩ <;>
    rw [heq] <;> rfl

theorem State.dropStream_streamFields (s : State) : s.dropStream.streamFields = s.streamFields := by
  rcases s.dropStream_cases with heq | ⟨_, _, heq⟩ <;> rw [heq] <;> rfl

/-- The current stream stays, or is accounted for where it is let go of. -/
theorem State.AccountedFor.of_streamFields (h : s.AccountedFor)
    (hf : s'.streamFields = s.streamFields)
    (hi : ∀ id, s.inboundStreamId = some id → s'.inboundStreamId = some id ∨ id ∈ s.reported) :
    s'.AccountedFor := by
  simp only [State.streamFields, Prod.mk.injEq] at hf
  obtain ⟨hr, hrep, hcl⟩ := hf
  refine h.mono hr (fun id hid => ?_) (fun id hid => hrep ▸ hid) fun id hid => hcl ▸ hid
  rcases hi id hid with hcur | hreported
  · exact .inl hcur
  · exact .inr (.inl (hrep ▸ hreported))

theorem State.AccountedFor.onEnded (h : s.AccountedFor) (hr : id ∈ s.reported) :
    (s.onEnded id).AccountedFor := by
  unfold State.onEnded
  dsimp only
  split
  · rename_i hcur
    refine h.of_streamFields ?_ fun x hx => .inr ?_
    · exact (State.scheduleInboundReopen_streamFields _).trans (s.tell id).dropStream_streamFields
    · rw [some.inj (hx.symm.trans hcur)]
      exact hr
  · exact h.of_streamFields rfl fun x hx => .inl hx

theorem State.AccountedFor.dispatchOrBuffer (h : s.AccountedFor) (id : StreamId)
    (e : InboundEvent) : (s.dispatchOrBuffer id e).AccountedFor := by
  have hends : e.ends = true → id ∈ (s.report id e).reported := State.mem_report
  have hrep : (s.report id e).AccountedFor := by
    unfold State.report
    split
    · exact h.mono rfl (fun x hx => .inl hx) (fun x hx => mem_cons_of_mem _ hx) fun x hx => hx
    · exact h
  unfold State.dispatchOrBuffer
  dsimp only
  split
  · cases e with
    | frame bytes => exact hrep.of_streamFields rfl fun x hx => .inl hx
    | closed | error => exact hrep.onEnded (hends rfl)
  · exact hrep.of_streamFields rfl fun x hx => .inl hx

theorem State.AccountedFor.startInboundSubscription (h : Inv s) (ha : s.AccountedFor) (i : Nat)
    (force : Bool) (hc : force = true → ∀ id, s.inboundStreamId = some id → id ∈ s.reported) :
    (s.startInboundSubscription available i force).AccountedFor := by
  have hdrop : (force = true ∨ s.inboundStreamId = none) → s.rearm.dropStream.AccountedFor := by
    intro hforce
    refine ha.of_streamFields s.rearm.dropStream_streamFields fun id hid => .inr ?_
    rcases hforce with hforce | hforce
    · exact hc hforce id hid
    · rw [hforce] at hid
      simp at hid
  rcases h.startInboundSubscription_cases available i force with
    ⟨_, heq⟩ | ⟨_, _, _, heq⟩ | ⟨_, hforce, _, heq⟩ | ⟨_, hforce, _, heq⟩ <;> rw [heq]
  · exact ha
  · exact ha
  · exact hdrop hforce
  · exact hdrop hforce

theorem State.enter_streamFields (s : State) (e : Entry) :
    (s.enter e).1.streamFields = s.streamFields := by
  rcases s.enter_cases e with ⟨_, _, heq⟩ | ⟨_, heq⟩ | heq | ⟨_, _, heq⟩ | ⟨_, _, heq⟩ <;> rw [heq] <;>
    rfl

theorem State.AccountedFor.apply (h : Inv s) (ha : s.AccountedFor) (hp : o.Pre i s)
    (hc : (forcesDeadStreams available).op i s o = true) :
    (o.apply available i s).AccountedFor := by
  cases o with
  | enter e =>
    have hinv := h.enter e
    have he : (s.enter e).1.AccountedFor := ha.of_streamFields (s.enter_streamFields e)
      fun id hid => .inl ((s.enter_keeps e).2.1.trans hid)
    simp only [forcesDeadStreams] at hc
    rcases heq : s.enter e with ⟨s1, call⟩
    rw [heq] at hinv he hc
    simp only [Op.apply, heq]
    cases call with
    | none => exact he
    | some force =>
      refine State.AccountedFor.startInboundSubscription hinv he i force fun hforce id hid => ?_
      subst hforce
      dsimp only at hc hid
      rw [hid] at hc
      simpa using hc
  | opened id =>
    have hnone := h.opening i hp.1
    obtain ⟨_, _, _, _, _, _, heq, _⟩ := State.opened_eq id hnone
    rw [Op.apply, heq]
    intro x hx
    rcases mem_cons.1 hx with rfl | hx
    · exact .inl rfl
    rcases ha x hx with hcur | hrest
    · rw [hnone] at hcur
      simp at hcur
    · exact .inr hrest
  | openFailed =>
    exact ha.of_streamFields s.scheduleInboundReopen_streamFields
      fun id hid => .inl (s.scheduleInboundReopen_stream.1.trans hid)
  | stop =>
    rw [Op.apply, h.stopInboundSubscription_eq]
    have hf := s.halt.dropStream_streamFields
    simp only [State.streamFields, Prod.mk.injEq] at hf
    refine ha.mono hf.1 (fun id hid => .inr (.inr ?_)) (fun id hid => hf.2.1 ▸ hid) fun id hid => ?_
    · simp [hid]
    · exact mem_append_right _ hid
  | event id e => exact ha.dispatchOrBuffer id e
  | callOpenInbound | openDone | unregister | clock => exact ha

/-- At most one open and one timeout at a time. -/
def State.OneAtATime (s : State) : Prop := s.openInboundCalls ≤ 1 ∧ s.timeouts.length ≤ 1

theorem Inv.oneAtATime (h : Inv s) : s.OneAtATime := by
  refine ⟨h.calls, ?_⟩
  rw [← length_map, h.timeouts]
  cases s.inboundReopenTimer <;> simp

/-- On a foreground transition the app lets go of a stream that is alive. -/
def forcedWhileOpen : List (Move (machine true) Cmd) :=
  [.start (.start .registerInboundConsumer), .perform 0 (.id 7), .resume 0, .perform 0 (.id 1),
    .resume 0, .perform 0 .ok, .resume 0, .start (.start .resumeInboundOnForeground)]

theorem stream_lost :
    ¬ ∀ w, Reach Cond.any (prog true) init w →
      (w.state : State).OneAtATime ∧ (w.state : State).AccountedFor := by
  intro h
  have hrun : ((Sys.idle (State.initial 0)).run Cond.any (prog true) forcedWhileOpen).map
      (fun w => (w.state.returned, w.state.inboundStreamId,
        w.state.reported, w.state.closedInbound)) =
      some ([1], none, [], []) := by
    decide
  obtain ⟨w, hw, hobs⟩ := map_eq_some_iff.1 hrun
  simp only [Prod.mk.injEq] at hobs
  obtain ⟨hreturned, hid, hreported, hclosed⟩ := hobs
  have hlost := (h w (.of_run ⟨0, rfl⟩ hw)).2 1 (by simp [hreturned])
  simp [hid, hreported, hclosed] at hlost

/-- Where forced starts find no stream that is alive, none is lost. -/
theorem accountedFor_of_forcesDeadStreams {w : Sys (machine available)}
    (h : Reach (forcesDeadStreams available) (prog available) init w) :
    (w.state : State).OneAtATime ∧ (w.state : State).AccountedFor := by
  obtain ⟨hi, ha⟩ := invariant_of_reach (J := State.AccountedFor)
    (fun s hs => by
      obtain ⟨now, rfl⟩ := hs
      exact fun _ hid => absurd hid (by simp [State.initial]))
    (fun i s o hi hj hc hp => hj.apply hi hp hc) (fun s hj => ⟨hj, fun _ => hj⟩) h
  exact ⟨hi.oneAtATime, ha⟩

/-- Two streams: the first one is closed by the peer, the second one at the sign-out. -/
def closedThenStopped : List (Move (machine true) Cmd) :=
  [.start (.start .registerInboundConsumer), .perform 0 (.id 7), .resume 0, .perform 0 (.id 1),
    .resume 0, .perform 0 .ok, .resume 0, .start (.event 1 .closed), .start (.start (.timeout 0)),
    .perform 2 (.id 7), .resume 2, .perform 2 (.id 2), .resume 2, .perform 2 .ok, .resume 2,
    .start .stopInboundSubscription]

theorem accountedFor_closedThenStopped :
    ∃ w, (Sys.idle (State.initial 0)).run (forcesDeadStreams true) (prog true) closedThenStopped =
        some w ∧
      ((w.state : State).returned = [2, 1] ∧ (w.state : State).closedInbound = [2]) ∧
      (w.state : State).OneAtATime ∧ (w.state : State).AccountedFor := by
  have hrun : ((Sys.idle (State.initial 0)).run (forcesDeadStreams true) (prog true)
      closedThenStopped).map
      (fun w => (w.state.returned, w.state.closedInbound)) =
      some ([2, 1], [2]) := by
    decide
  obtain ⟨w, hw, hobs⟩ := map_eq_some_iff.1 hrun
  simp only [Prod.mk.injEq] at hobs
  exact ⟨w, hw, hobs, accountedFor_of_forcesDeadStreams (.of_run ⟨0, rfl⟩ hw)⟩

/-! ## The stream and its subscriber -/

/-- The only subscriber is that of the current stream, which native has opened; only streams that native has
    ended count as ended; the only timeout is the pending re-open, and a stopped subscription has none. -/
structure State.Consistent (s : State) : Prop where
  unsubscribe : s.inboundUnsubscribe = s.inboundStreamId
  subscribers : ∀ id ∈ s.subscribersByStreamId, s.inboundStreamId = some id
  current : ∀ id, s.inboundStreamId = some id → id ∈ s.returned
  ended : ∀ id ∈ s.toldEnded, id ∈ s.returned ∧ id ∈ s.reported
  timeouts : s.timeouts.map (·.1) = s.inboundReopenTimer.toList
  stopped : s.inboundStopped = true → s.timeouts = []

theorem consistent_throughout {w : Sys (machine available)} (h : Reach .any (prog available) init w) :
    (w.state : State).Consistent := by
  obtain ⟨hi, -⟩ := invariant_of_reach (J := fun _ => True) (fun _ _ => trivial)
    (fun _ _ _ _ _ _ _ => trivial) (fun _ _ => ⟨trivial, fun _ => trivial⟩) h
  refine ⟨hi.unsubscribe, hi.subscribers, hi.current, hi.told, hi.timeouts, fun hstop => ?_⟩
  have hnone := hi.timeouts
  rw [hi.stopped hstop] at hnone
  exact map_eq_nil_iff.1 hnone

theorem consistent_closedThenStopped :
    ∃ w, (Sys.idle (State.initial 0)).run .any (prog true) closedThenStopped = some w ∧
      (w.state : State).Consistent := by
  have hrun : ((Sys.idle (State.initial 0)).run .any (prog true) closedThenStopped).isSome = true := by
    decide
  obtain ⟨w, hw⟩ := isSome_iff_exists.1 hrun
  exact ⟨w, hw, consistent_throughout (.of_run ⟨0, rfl⟩ hw)⟩

end Inbound
