import SovereignMobile.Quic.RequestQueue

/-! # Switching the validator

A switch clears the queue and the latches, but a worker that is connected goes on: the next request of
its identity starts a second worker beside it, and both take from the same queue. Where no request is
enqueued for an identity while such a worker runs, each request goes to the validator that was active
when it was enqueued. -/

namespace QuicRequests

open Threads List

variable {B : Build} {s : State}

/-- The connection that a worker holds. -/
def Thread.connection : Thread → Option Connection
  | .connected _ c => some c
  | .accepted _ c => some c
  | .draining _ c => some c
  | .sending _ c _ => some c
  | _ => none

/-- The same, once the DID of the peer has been compared. -/
def Thread.checked : Thread → Option Connection
  | .connected _ _ => none
  | t => t.connection

/-- A request that was enqueued after a switch was sent over a connection to the validator that was
    active then, and the handshake of that connection returned after the switch. -/
def SwitchTakesEffect (s : State) : Prop :=
  ∀ e ∈ s.sent, 0 < e.1.switches →
    e.2.peerDid = e.1.expectedDid ∧ e.1.switches ≤ e.2.switches

/-! ## The condition -/

/-- No worker of the identity holds a connection from before the last switch. -/
def freshFor (w : Pool State Thread) (id : String) : Bool :=
  w.threads.all fun t =>
    t.identity ≠ some id || t.connection.all fun c => c.switches = w.shared.switches

/-- A request is enqueued only while that is so. -/
def freshWorkers : Cond State Thread Call Input := fun w m =>
  match m with
  | .call (.request id) => freshFor w id
  | _ => true

variable {w : Pool State Thread} {id : String} {t t' : Thread} {s' : State}
    {pre post ts threads : List Thread}

theorem freshFor_iff : freshFor w id = true ↔
    ∀ t ∈ w.threads, t.identity = some id → ∀ c, t.connection = some c →
      c.switches = w.shared.switches := by
  rw [freshFor, all_eq_true]
  refine forall₂_congr fun t _ => ?_
  cases t.connection with
  | none => simp
  | some c => simp only [Bool.or_eq_true, decide_eq_true_eq, Option.all_some, ← imp_iff_not_or,
    Option.some.injEq, forall_eq']

/-! ## The invariant -/

/-- What holds of a worker and its connection in the state `s`. -/
structure Holds (s : State) (t : Thread) : Prop where
  bound : ∀ c, t.connection = some c → c.switches ≤ s.switches
  fresh : ∀ id, s.queue id ≠ [] → t.identity = some id → ∀ c, t.connection = some c →
    c.switches = s.switches
  checked : ∀ c, t.checked = some c → c.switches = s.switches → 0 < s.switches →
    c.peerDid = s.activeExpectedDid

structure Switched (w : Pool State Thread) : Prop where
  expected : 0 < w.shared.switches → w.shared.activeExpectedDid ≠ ""
  queued : ∀ id, ∀ r ∈ w.shared.queue id,
    r.switches = w.shared.switches ∧ r.expectedDid = w.shared.activeExpectedDid
  threads : ∀ t ∈ w.threads, Holds w.shared t
  sent : SwitchTakesEffect w.shared

theorem checked_connection {c : Connection} (h : t.checked = some c) : t.connection = some c := by
  cases t with
  | connected id c' => simp [Thread.checked] at h
  | _ => exact h

/-- An expected DID that is not empty is the DID of the peer. -/
theorem peerDid_of_checkDid {debug : Bool} {expectedDid peerDid : String}
    (h : checkDid debug expectedDid peerDid = .ok ()) (hne : expectedDid ≠ "") :
    peerDid = expectedDid := by
  unfold checkDid at h
  rw [if_neg hne] at h
  by_contra hpeer
  rw [if_pos hpeer] at h
  simp at h

theorem holds_of_none (h : t.connection = none) : Holds s t where
  bound _ hc := nomatch h.symm.trans hc
  fresh _ _ _ _ hc := nomatch h.symm.trans hc
  checked _ hc := nomatch h.symm.trans (checked_connection hc)

/-- A step that switches nothing and makes no queue that was empty. -/
theorem Holds.mono (h : Holds s t) (hn : s'.switches = s.switches)
    (hd : s'.activeExpectedDid = s.activeExpectedDid)
    (hq : ∀ id, s'.queue id ≠ [] → s.queue id ≠ []) : Holds s' t := by
  refine ⟨fun c hc => ?_, fun id hid => ?_, fun c hc => ?_⟩
  · rw [hn]
    exact h.bound c hc
  · rw [hn]
    exact h.fresh id (hq id hid)
  · rw [hn, hd]
    exact h.checked c hc

/-- Two threads with the same identity and the same connection, compared or not. -/
theorem Holds.of_same (h : Holds s t) (hid : t'.identity = t.identity)
    (hc : t'.connection = t.connection) (hchecked : t'.checked = t.checked) : Holds s t' := by
  refine ⟨?_, ?_, ?_⟩
  · rw [hc]
    exact h.bound
  · rw [hid, hc]
    exact h.fresh
  · rw [hchecked]
    exact h.checked

theorem Holds.moves (h : Holds s t) (hexpected : 0 < s.switches → s.activeExpectedDid ≠ "")
    (hm : Moves B s id t t') :
    Holds s t' := by
  cases hm with
  | givesUp | loads => exact holds_of_none rfl
  | connects peerDid =>
    refine ⟨fun c hc => ?_, fun _ _ _ c hc => ?_, fun c hc => absurd hc (by simp [Thread.checked])⟩
    · exact Option.some.inj hc ▸ Nat.le_refl _
    · exact Option.some.inj hc ▸ rfl
  | accepts c hcheck =>
    have hchecked : ∀ c', (proceed B.platform id c).checked = some c' → c' = c := by
      unfold proceed
      split <;> exact fun c' hc' => (Option.some.inj hc').symm
    have hconn : (proceed B.platform id c).connection = some c := by
      unfold proceed
      split <;> rfl
    have hid : (proceed B.platform id c).identity = some id := by
      unfold proceed
      split <;> rfl
    refine ⟨?_, ?_, fun c' hc' _ hpos => ?_⟩
    · rw [hconn]
      exact h.bound
    · rw [hconn, hid]
      exact h.fresh
    · rw [hchecked c' hc']
      exact peerDid_of_checkDid hcheck (hexpected hpos)
  | derives c => exact h.of_same rfl rfl rfl

/-! ## Steps and calls -/

theorem Switched.of_threads (h : Switched ⟨s, pre ++ t :: post⟩) (hn : s'.switches = s.switches)
    (hd : s'.activeExpectedDid = s.activeExpectedDid) (hq : ∀ id, ∀ r ∈ s'.queue id, r ∈ s.queue id)
    (hts : ∀ u ∈ ts, Holds s' u) (hsent : SwitchTakesEffect s') :
    Switched ⟨s', pre ++ (ts ++ post)⟩ := by
  have hne : ∀ id, s'.queue id ≠ [] → s.queue id ≠ [] := by
    intro id hne hnil
    obtain ⟨r, hr⟩ := exists_mem_of_ne_nil _ hne
    have hmem := hq id r hr
    rw [hnil] at hmem
    simp at hmem
  refine ⟨?_, fun id r hr => ?_, fun u hu => ?_, hsent⟩
  · show 0 < s'.switches → s'.activeExpectedDid ≠ ""
    rw [hn, hd]
    exact h.expected
  · show r.switches = s'.switches ∧ r.expectedDid = s'.activeExpectedDid
    rw [hn, hd]
    exact h.queued id r (hq id r hr)
  rcases mem_append.1 hu with hu | hu
  · exact (h.threads u (mem_append_left _ hu)).mono hn hd hne
  rcases mem_append.1 hu with hu | hu
  · exact hts u hu
  · exact (h.threads u (by simp [hu])).mono hn hd hne

theorem mem_queue_release {id0 : String} {r : QuinnQueuedRequest}
    (h : r ∈ (s.release id0).queue id) :
    r ∈ s.queue id := by
  rw [queue_release] at h
  split at h
  · simp at h
  · exact h

theorem Switched.step {x : Input} (h : Switched ⟨s, pre ++ t :: post⟩)
    (hstep : Outcome B s t x s' ts) :
    Switched ⟨s', pre ++ (ts ++ post)⟩ := by
  have ht : Holds s t := h.threads t (by simp)
  cases hstep with
  | throws | rejected => exact h.of_threads rfl rfl (fun _ _ hr => hr) (by simp) h.sent
  | moves id _ hm =>
    refine h.of_threads rfl rfl (fun _ _ hr => hr) ?_ h.sent
    rw [forall_mem_singleton]
    exact ht.moves h.expected hm
  | fails id error message =>
    refine h.of_threads rfl rfl (fun _ _ => mem_queue_release) ?_ h.sent
    rw [forall_mem_singleton]
    exact holds_of_none rfl
  | drained id c hq => exact h.of_threads rfl rfl (fun _ _ => mem_queue_release) (by simp) h.sent
  | takes id c r rest hq =>
    have hr := h.queued id r (by show r ∈ s.queue id; rw [hq]; exact mem_cons_self)
    have hc : c.switches = s.switches :=
      ht.fresh id (by rw [hq]; simp) rfl c rfl
    refine h.of_threads rfl rfl (fun id' r' hr' => ?_) ?_ ?_
    · rw [queue_take] at hr'
      split at hr'
      · rename_i heq
        rw [← heq, hq]
        exact mem_cons_of_mem _ hr'
      · exact hr'
    · rw [forall_mem_singleton]
      have hsending : Holds s (.sending id c r) := ht.of_same rfl rfl rfl
      refine hsending.mono rfl rfl fun id' hne hnil => hne ?_
      rw [queue_take]
      split
      · rename_i heq
        rw [← heq, hq] at hnil
        simp at hnil
      · exact hnil
    · intro e he hpos
      rcases mem_cons.1 he with rfl | he
      · refine ⟨?_, ?_⟩
        · exact (ht.checked c rfl hc (hr.1 ▸ hpos)).trans hr.2.symm
        · exact Nat.le_of_eq (hr.1.trans hc.symm)
      · exact h.sent e he hpos
  | answered id c r a =>
    refine h.of_threads rfl rfl (fun _ _ hr => hr) ?_ h.sent
    rw [forall_mem_singleton]
    have hdraining : Holds s (.draining id c) := ht.of_same rfl rfl rfl
    exact hdraining.mono rfl rfl fun _ hne => hne
  | rejects code message r rs =>
    refine h.of_threads rfl rfl (fun _ _ hr => hr) ?_ h.sent
    rw [forall_mem_singleton]
    exact holds_of_none rfl

theorem switched_initial (did : String) : Switched ⟨State.initial did, []⟩ where
  expected h := absurd h (by simp [State.initial])
  queued id r h := absurd h (by simp [State.queue, State.initial, LinkedMap.get, LinkedMap.empty])
  threads _ h := nomatch h
  sent _ h := absurd h (by simp [State.initial])

theorem Switched.enqueue (h : Switched ⟨s, threads⟩) (hfresh : freshFor ⟨s, threads⟩ id = true) :
    Switched ⟨s.addToQueue id, threads ++ (enqueue id s).2⟩ := by
  rw [freshFor_iff] at hfresh
  refine ⟨h.expected, fun id' r hr => ?_, fun t ht => ?_, h.sent⟩
  · have hr' : r ∈ (s.addToQueue id).queue id' := hr
    rw [queue_addToQueue] at hr'
    split at hr'
    · rename_i heq
      rcases mem_append.1 hr' with hr' | hr'
      · exact h.queued id r hr'
      · rw [mem_singleton.1 hr']
        exact ⟨rfl, rfl⟩
    · exact h.queued id' r hr'
  · rcases mem_append.1 ht with ht | ht
    · have hold := h.threads t ht
      refine ⟨hold.bound, fun id' hne hid c hc => ?_, hold.checked⟩
      by_cases heq : id = id'
      · subst heq
        exact hfresh t ht hid c hc
      · have hne' : (s.addToQueue id).queue id' ≠ [] := hne
        rw [queue_addToQueue, if_neg heq] at hne'
        exact hold.fresh id' hne' hid c hc
    · have hstarting : t = .starting id := by
        unfold QuicRequests.enqueue at ht
        split at ht
        · exact mem_singleton.1 ht
        · simp at ht
      exact holds_of_none (by rw [hstarting]; rfl)

/-- Everything is cleared, and the validator is the same. -/
theorem Switched.clear (h : Switched ⟨s, threads⟩) (hts : ∀ t ∈ ts, t.connection = none) :
    Switched ⟨s.clear, threads ++ ts⟩ := by
  refine ⟨h.expected, fun id r hr => absurd hr ?_, fun t ht => ?_, h.sent⟩
  · simp [State.queue, State.clear, LinkedMap.get, LinkedMap.empty]
  rcases mem_append.1 ht with ht | ht
  · exact (h.threads t ht).mono rfl rfl fun id hne => absurd rfl hne
  · exact holds_of_none (hts t ht)

theorem Switched.switch {did : String} (h : Switched ⟨s, threads⟩) (hdid : did ≠ "") :
    Switched ⟨{ s.clear with activeExpectedDid := did, switches := s.switches + 1 }, threads⟩ := by
  refine ⟨fun _ => hdid, fun id r hr => absurd hr ?_, fun t ht => ?_, h.sent⟩
  · simp [State.queue, State.clear, LinkedMap.get, LinkedMap.empty]
  have hold := h.threads t ht
  refine ⟨fun c hc => Nat.le_succ_of_le (hold.bound c hc), fun id hne => absurd rfl hne, ?_⟩
  -- a connection from before the switch
  intro c hc hsame
  have hbound := hold.bound c (checked_connection hc)
  dsimp only at hsame hbound
  omega

theorem Switched.call {c : Call} (h : Switched w) (hc : freshWorkers w (.call c) = true) :
    Switched (w.call (program B) c) := by
  obtain ⟨s, threads⟩ := w
  cases c with
  | request id => exact h.enqueue hc
  | cancelAll =>
    unfold Pool.call program QuicRequests.call cancelAll
    split
    · refine h.clear ?_
      rw [forall_mem_singleton]
      rfl
    · exact h.clear (by simp)
  | setActiveValidator host port did =>
    unfold Pool.call program QuicRequests.call
    dsimp only
    cases hset : s.setActiveValidator host port did with
    | error e =>
      rw [append_nil]
      exact h
    | ok s' =>
      obtain ⟨hdid, rfl⟩ := setActiveValidator_ok hset
      rw [append_nil]
      exact h.switch hdid

/-- **Switches take effect.** In every run in which a request is enqueued for an identity only while no
    worker of the identity holds a connection from before the last switch. -/
theorem switchTakesEffect_of_freshWorkers {w : Pool State Thread}
    (h : Reach (program B) freshWorkers init w) : SwitchTakesEffect w.shared := by
  have hswitched : Switched w := by
    refine h.invariant ?_ (fun _ _ _ ih hc => ih.call hc) fun s pre t post x s' ts _ ih _ hstep =>
      ih.step (step_outcome hstep)
    rintro s ⟨did, rfl⟩
    exact switched_initial did
  exact hswitched.sent

/-- One request before a switch and one after it, when the worker of the first one has ended. -/
def switchBetweenWorkers : List (Move Call Input) :=
  [.call (.request "a1"), .step 0 (.identity (.ok ())), .step 0 (.handshake (.ok (some "did:zhtp:v"))),
    .step 0 .go, .step 0 .go, .step 0 (.answer (.android none)), .step 0 .go,
    .call (.setActiveValidator "10.0.0.2" 443 "did:zhtp:w"), .call (.request "a1"),
    .step 0 (.identity (.ok ())), .step 0 (.handshake (.ok (some "did:zhtp:w"))), .step 0 .go,
    .step 0 .go]

theorem switchTakesEffect_switchBetweenWorkers : ∃ w, Reach (program ⟨.android, false⟩) freshWorkers
    init w ∧ w.shared.sent.map (fun e => (e.1.promise, e.2.peerDid)) =
      [(1, "did:zhtp:w"), (0, "did:zhtp:v")] ∧ SwitchTakesEffect w.shared := by
  have hrun : (Pool.run (program ⟨.android, false⟩) freshWorkers ⟨State.initial "did:zhtp:v", []⟩
      switchBetweenWorkers).map (fun w => w.shared.sent.map fun e => (e.1.promise, e.2.peerDid)) =
      some [(1, "did:zhtp:w"), (0, "did:zhtp:v")] := by decide
  obtain ⟨w, hw, hsent⟩ := Option.map_eq_some_iff.1 hrun
  have hreach : Reach (program ⟨.android, false⟩) freshWorkers init w := .of_run ⟨_, rfl⟩ hw
  exact ⟨w, hreach, hsent, switchTakesEffect_of_freshWorkers hreach⟩

/-- The worker of the first request is in the middle of it at the switch, and takes the second one. -/
def switchDuringRequest : List (Move Call Input) :=
  [.call (.request "a1"), .step 0 (.identity (.ok ())), .step 0 (.handshake (.ok (some "did:zhtp:v"))),
    .step 0 .go, .step 0 .go, .call (.setActiveValidator "10.0.0.2" 443 "did:zhtp:w"),
    .call (.request "a1"), .step 0 (.answer (.android none)), .step 0 .go]

theorem not_switchTakesEffect : ∃ w, Reach (program ⟨.android, false⟩) Cond.any init w ∧
    ¬ SwitchTakesEffect w.shared := by
  have hrun : (Pool.run (program ⟨.android, false⟩) Cond.any ⟨State.initial "did:zhtp:v", []⟩
      switchDuringRequest).map (fun w => w.shared.sent.head?) =
      some (some (⟨1, 1, "did:zhtp:w"⟩, ⟨"did:zhtp:v", 0⟩)) := by decide
  obtain ⟨w, hw, hsent⟩ := Option.map_eq_some_iff.1 hrun
  refine ⟨w, .of_run ⟨_, rfl⟩ hw, fun h => ?_⟩
  have hdid := (h _ (mem_of_head? hsent) Nat.one_pos).1
  exact nomatch hdid

end QuicRequests
