import SovereignMobile.Quic.ValidatorSwitch

/-! # Where a request goes

`rawRequest` writes the host and the port that it wants into the URL: those of the caller, or those of
the active target. The native module parses the URL, queues the request under its identity, and dials
`quinnControlPlaneHost` and `quinnControlPlanePort`, whatever the URL says. This module is the queue of
`RequestQueue.lean` with both targets beside it. -/

namespace QuicDials

open Threads QuicRequests List Function

structure DialTarget where
  host : String
  port : Int
deriving DecidableEq

/-- The host and the port in the URL of `rawRequest`; `active` may have an empty host or port 0. -/
def dialTarget (host : Option String) (port : Option Int) (active default : DialTarget) : DialTarget :=
  let fallbackHost := if active.host = "" then default.host else active.host
  let fallbackPort := if active.port = 0 then default.port else active.port
  ⟨host.getD fallbackHost, port.getD fallbackPort⟩

/-- `REWARDS_HOST` and `REWARDS_PORT` -/
def rewardsTarget : DialTarget := ⟨"g1.thesovereignnetwork.org", 9334⟩

/-- `targets` is the target in `parsedUrl` of each request, by its number. History: for every request that
    was sent, its target and the one of the connection. -/
structure State where
  requests : QuicRequests.State
  controlPlane : DialTarget
  targets : Nat → DialTarget
  carried : List (DialTarget × Option DialTarget)

/-- A thread, and the target that it has read or dialled. -/
structure Worker where
  thread : Thread
  dialled : Option DialTarget

/-- The thread goes on as `t'`; a worker without a target reads it before the handshake. -/
def Worker.becomes (t : Worker) (s : State) (t' : Thread) : Worker where
  thread := t'
  dialled :=
    match t' with
    | .handshaking _ => some (t.dialled.getD s.controlPlane)
    | _ => t.dialled

/-- The request that the thread takes, if `ts` are the threads that it goes on as. -/
def taken (t : Thread) (ts : List Thread) : Option QuinnQueuedRequest :=
  match t, ts with
  | .draining _ _, [.sending _ _ r] => some r
  | _, _ => none

def State.after (s : State) (t : Worker) (requests : QuicRequests.State) (ts : List Thread) : State :=
  { s with
    requests := requests
    carried := match taken t.thread ts with
      | some r => (s.targets r.promise, t.dialled) :: s.carried
      | none => s.carried }

section Steps
variable (B : Build)

/-- Swift reads the target before the identity is loaded, Kotlin after it. -/
def step (t : Worker) (x : Input) (s : State) : Option (State × List Worker) :=
  match B.platform, t.thread, t.dialled, x with
  | .ios, .starting _, none, .go => some (s, [{ t with dialled := some s.controlPlane }])
  | .ios, .starting _, none, _ => none
  | _, _, _, _ => (QuicRequests.step B t.thread x s.requests).map fun r =>
    (s.after t r.1 r.2, r.2.map (t.becomes s))

inductive Call where
  | request (identityId : String) (target : DialTarget)
  | cancelAll
  | setActiveValidator (host : String) (port : Int) (expectedDid : String)

/-- The threads that a call starts have not read the target yet. -/
def State.called (s : State) (r : QuicRequests.State × List Thread) : State × List Worker :=
  ({ s with requests := r.1 }, r.2.map fun t => ⟨t, none⟩)

def call (c : Call) (s : State) : State × List Worker :=
  match c with
  | .request id target =>
    State.called { s with targets := Function.update s.targets s.requests.enqueued target }
      (enqueue id s.requests)
  | .cancelAll => s.called (cancelAll B s.requests)
  | .setActiveValidator host port did =>
    match s.requests.setActiveValidator host port did with
    | .ok requests => ({ s with requests := requests, controlPlane := ⟨host, port⟩ }, [])
    | .error _ => (s, [])

def program : Program State Worker Call Input where
  call := call B
  step := step B

def init (s : State) : Prop := QuicRequests.init s.requests ∧ s.carried = []

/-- Every request was sent over a connection to its own target. -/
def ReachesTarget (s : State) : Prop := ∀ e ∈ s.carried, e.2 = some e.1

/-! ## The condition -/

/-- Every worker of the identity that may still send has dialled the control plane. -/
def workersAtControlPlane (w : Pool State Worker) (id : String) : Bool :=
  w.threads.all fun t => t.thread.identity ≠ some id || t.thread.checked.isNone ||
    t.dialled = some w.shared.controlPlane

/-- A request is for the control plane and finds no worker that is connected to another target; and a
    worker whose peer is accepted is connected to the control plane. -/
def atControlPlane : Cond State Worker Call Input := fun w m =>
  match m with
  | .call (.request id target) => target = w.shared.controlPlane && workersAtControlPlane w id
  | .step n .go =>
    match w.threads[n]? with
    | some ⟨.connected _ c, dialled⟩ =>
      match checkDid B.debug w.shared.requests.activeExpectedDid c.peerDid with
      | .ok _ => dialled = some w.shared.controlPlane
      | .error _ => true
    | _ => true
  | _ => true

end Steps

/-! ## The invariant -/

variable {B : Build} {s : State}

/-- A worker that may send, and has something to send, is connected to the control plane. -/
def Holds (s : State) (t : Worker) : Prop :=
  ∀ id, t.thread.identity = some id → t.thread.checked ≠ none → s.requests.queue id ≠ [] →
    t.dialled = some s.controlPlane

structure Inv (w : Pool State Worker) : Prop where
  bounded : ∀ id, ∀ r ∈ w.shared.requests.queue id, r.promise < w.shared.requests.enqueued
  queued : ∀ id, ∀ r ∈ w.shared.requests.queue id, w.shared.targets r.promise = w.shared.controlPlane
  workers : ∀ t ∈ w.threads, Holds w.shared t
  carried : ReachesTarget w.shared

variable {t : Worker} {s' : State} {pre post ts threads : List Worker} {x : Input} {t' : Thread}
    {id : String} {r : QuicRequests.State} {w : Pool State Worker}

theorem holds_of_none (h : t.thread.checked = none) : Holds s t :=
  fun _ _ hne => absurd h hne

/-- A step that makes no queue that was empty. -/
theorem Holds.mono (h : Holds s t) (hc : s'.controlPlane = s.controlPlane)
    (hq : ∀ id, s'.requests.queue id ≠ [] → s.requests.queue id ≠ []) : Holds s' t :=
  fun id hid hne hqueue => hc ▸ h id hid hne (hq id hqueue)

theorem Inv.of_threads (h : Inv ⟨s, pre ++ t :: post⟩)
    (hn : s.requests.enqueued = s'.requests.enqueued) (ht : s'.targets = s.targets)
    (hc : s'.controlPlane = s.controlPlane)
    (hq : ∀ id, ∀ r ∈ s'.requests.queue id, r ∈ s.requests.queue id) (hts : ∀ u ∈ ts, Holds s' u)
    (hcarried : ReachesTarget s') : Inv ⟨s', pre ++ (ts ++ post)⟩ := by
  have hne : ∀ id, s'.requests.queue id ≠ [] → s.requests.queue id ≠ [] := by
    intro id hne hnil
    obtain ⟨r, hr⟩ := exists_mem_of_ne_nil _ hne
    have hmem := hq id r hr
    rw [hnil] at hmem
    simp at hmem
  refine ⟨fun id r hr => ?_, fun id r hr => ?_, fun u hu => ?_, hcarried⟩
  · show r.promise < s'.requests.enqueued
    rw [← hn]
    exact h.bounded id r (hq id r hr)
  · show s'.targets r.promise = s'.controlPlane
    rw [ht, hc]
    exact h.queued id r (hq id r hr)
  rcases mem_append.1 hu with hu | hu
  · exact (h.workers u (mem_append_left _ hu)).mono hc hne
  rcases mem_append.1 hu with hu | hu
  · exact hts u hu
  · exact (h.workers u (by simp [hu])).mono hc hne

/-! ## Steps and calls -/

/-- A thread reads the target, or takes a step of the queue. -/
theorem step_cases (h : step B t x s = some (s', ts)) :
    (∃ id, t.thread = .starting id ∧ s' = s ∧ ts = [{ t with dialled := some s.controlPlane }]) ∨
    ∃ requests us, QuicRequests.step B t.thread x s.requests = some (requests, us) ∧
      s' = s.after t requests us ∧ ts = us.map (t.becomes s) := by
  unfold step at h
  split at h
  · rename_i id _ hid _
    cases h
    exact .inl ⟨id, hid, rfl, rfl⟩
  · simp at h
  · obtain ⟨⟨requests, us⟩, hstep, he⟩ := Option.map_eq_some_iff.1 h
    cases he
    exact .inr ⟨requests, us, hstep, rfl, rfl⟩

theorem Worker.becomes_dialled (h : ∀ id, t' ≠ .handshaking id) :
    (t.becomes s t').dialled = t.dialled := by
  unfold Worker.becomes
  split
  · rename_i id
    exact absurd rfl (h id)
  · rfl

/-- The worker goes on over the same connection. -/
theorem Holds.becomes (h : Holds s t) (hid : t'.identity = t.thread.identity)
    (hchecked : t.thread.checked ≠ none) (hsend : ∀ id, t' ≠ .handshaking id) :
    Holds s (t.becomes s t') := by
  intro id hid' _ hqueue
  rw [Worker.becomes_dialled hsend]
  exact h id (hid ▸ hid') hchecked hqueue

theorem Holds.moves (h : Holds s t) (hm : Moves B s.requests id t.thread t')
    (haccept : ∀ c, t.thread = .connected id c → t'.checked ≠ none → t.dialled = some s.controlPlane)
    :
    Holds s (t.becomes s t') := by
  obtain ⟨thread, dialled⟩ := t
  cases hm with
  | givesUp | loads | connects => exact holds_of_none rfl
  | accepts c _ =>
    intro id' _ hchecked _
    have hnot : ∀ id'', proceed B.platform id c ≠ .handshaking id'' := by
      unfold proceed
      split <;> simp
    rw [Worker.becomes_dialled hnot]
    exact haccept c rfl hchecked
  | derives c => exact h.becomes rfl (by simp [Thread.checked, Thread.connection]) (by simp)

/-- A worker may send after it has compared the DIDs and found nothing to object to. -/
theorem checkDid_of_checked {c : Connection} {r' : QuicRequests.State}
    (h : QuicRequests.step B (.connected id c) x r = some (r', [t'])) (hchecked : t'.checked ≠ none)
    :
    x = .go ∧ checkDid B.debug r.activeExpectedDid c.peerDid = .ok () := by
  cases x with
  | go =>
    refine ⟨rfl, ?_⟩
    unfold QuicRequests.step at h
    dsimp only at h
    split at h
    · rename_i hok
      exact hok
    · obtain ⟨-, ht⟩ := Prod.mk.inj (Option.some.inj h)
      obtain rfl := singleton_inj.1 ht
      exact absurd rfl hchecked
  | throws =>
    simp only [QuicRequests.step] at h
    split at h
    · exact absurd (Prod.mk.inj (Option.some.inj h)).2 (by simp)
    · simp at h
  | _ => simp [QuicRequests.step] at h

theorem taken_nil (t : Thread) : taken t [] = none := by
  cases t <;> rfl

/-- Who holds no request afterwards has taken none. -/
theorem taken_of_held (t : Thread) (h : t'.held = []) : taken t [t'] = none := by
  cases t' with
  | sending id c q => simp [Thread.held] at h
  | _ => cases t <;> rfl

theorem reachesTarget_after {ts : List Thread} (h : ReachesTarget s)
    (htaken : ∀ q, taken t.thread ts = some q → t.dialled = some (s.targets q.promise)) :
    ReachesTarget (s.after t r ts) := by
  unfold ReachesTarget State.after
  split
  · rename_i q hq
    intro e he
    rcases mem_cons.1 he with rfl | he
    · exact htaken q hq
    · exact h e he
  · exact h

theorem Inv.step (h : Inv ⟨s, pre ++ t :: post⟩)
    (hc : atControlPlane B ⟨s, pre ++ t :: post⟩ (.step pre.length x) = true)
    (hstep : step B t x s = some (s', ts)) : Inv ⟨s', pre ++ (ts ++ post)⟩ := by
  have ht : Holds s t := h.workers t (by simp)
  rcases step_cases hstep with ⟨id, hid, rfl, rfl⟩ | ⟨r, us, hnative, rfl, rfl⟩
  · refine h.of_threads rfl rfl rfl (fun _ _ hr => hr) ?_ h.carried
    rw [forall_mem_singleton]
    exact holds_of_none (by simp [hid, Thread.checked, Thread.connection])
  -- nothing is taken, so nothing is sent
  have hquiet : taken t.thread us = none → ReachesTarget (s.after t r us) := fun hnone =>
    reachesTarget_after h.carried fun q hq => by cases hnone.symm.trans hq
  obtain ⟨thread, dialled⟩ := t
  cases step_outcome hnative with
  | throws => exact h.of_threads rfl rfl rfl (fun _ _ hr => hr) (by simp) (hquiet (taken_nil _))
  | moves id _ hm =>
    refine h.of_threads rfl rfl rfl (fun _ _ hr => hr) ?_ (hquiet (taken_of_held _ hm.held.2))
    rw [map_singleton, forall_mem_singleton]
    refine ht.moves hm fun c hconnected hchecked => ?_
    subst hconnected
    obtain ⟨rfl, hok⟩ := checkDid_of_checked hnative hchecked
    simpa [atControlPlane, hok] using hc
  | fails id error message =>
    refine h.of_threads rfl rfl rfl (fun _ _ => mem_queue_release) ?_ (hquiet rfl)
    rw [map_singleton, forall_mem_singleton]
    exact holds_of_none rfl
  | drained id c hq =>
    exact h.of_threads rfl rfl rfl (fun _ _ => mem_queue_release) (by simp) (hquiet rfl)
  | takes id c q rest hq =>
    have hdialled : dialled = some s.controlPlane :=
      ht id rfl (by simp [Thread.checked, Thread.connection]) (by rw [hq]; simp)
    have hq' : q ∈ s.requests.queue id := by
      rw [hq]
      exact mem_cons_self
    refine h.of_threads rfl rfl rfl (fun id' q' hq'' => ?_) ?_ ?_
    · have hmem : q' ∈ (s.requests.take B.platform id c q rest).queue id' := hq''
      rw [queue_take] at hmem
      split at hmem
      · rename_i heq
        rw [← heq, hq]
        exact mem_cons_of_mem _ hmem
      · exact hmem
    · rw [map_singleton, forall_mem_singleton]
      exact fun _ _ _ _ => hdialled
    · refine reachesTarget_after h.carried fun q0 hq0 => ?_
      cases hq0
      have htarget : s.targets q.promise = s.controlPlane := h.queued id q hq'
      rw [hdialled, htarget]
  | answered id c q a =>
    refine h.of_threads rfl rfl rfl (fun _ _ hr => hr) ?_ (hquiet rfl)
    rw [map_singleton, forall_mem_singleton]
    exact ht.becomes rfl (by simp [Thread.checked, Thread.connection]) (by simp)
  | rejects code message q rs =>
    refine h.of_threads rfl rfl rfl (fun _ _ hr => hr) ?_ (hquiet rfl)
    rw [map_singleton, forall_mem_singleton]
    exact holds_of_none rfl
  | rejected => exact h.of_threads rfl rfl rfl (fun _ _ hr => hr) (by simp) (hquiet rfl)

theorem workersAtControlPlane_iff :
    workersAtControlPlane w id = true ↔ ∀ t ∈ w.threads, t.thread.identity = some id →
      t.thread.checked ≠ none → t.dialled = some w.shared.controlPlane := by
  rw [workersAtControlPlane, all_eq_true]
  refine forall₂_congr fun t _ => ?_
  simp only [Bool.or_eq_true, decide_eq_true_eq, Option.isNone_iff_eq_none]
  tauto

theorem Inv.enqueue (h : Inv ⟨s, threads⟩) (hworkers : workersAtControlPlane ⟨s, threads⟩ id = true)
    :
    Inv (.call (program B) ⟨s, threads⟩ (.request id s.controlPlane)) := by
  rw [workersAtControlPlane_iff] at hworkers
  -- the new request is the last one of its queue, and has a number of its own
  have hmem : ∀ id', ∀ r ∈ (s.requests.addToQueue id).queue id',
      r ∈ s.requests.queue id' ∨ r.promise = s.requests.enqueued := by
    intro id' r hr
    rw [queue_addToQueue] at hr
    split at hr
    · rename_i heq
      rcases mem_append.1 hr with hr | hr
      · exact .inl (heq ▸ hr)
      · rw [mem_singleton.1 hr]
        exact .inr rfl
    · exact .inl hr
  refine ⟨fun id' r hr => ?_, fun id' r hr => ?_, fun t ht => ?_, h.carried⟩
  · show r.promise < s.requests.enqueued + 1
    rcases hmem id' r hr with hold | hnew
    · have hlt := h.bounded id' r hold
      dsimp only at hlt
      omega
    · omega
  · show Function.update s.targets s.requests.enqueued s.controlPlane r.promise = s.controlPlane
    rcases hmem id' r hr with hold | hnew
    · rw [update_of_ne (Nat.ne_of_lt (h.bounded id' r hold))]
      exact h.queued id' r hold
    · rw [hnew, update_self]
  · rcases mem_append.1 ht with ht | ht
    · intro id' hid hchecked hne
      by_cases heq : id = id'
      · subst heq
        exact hworkers t ht hid hchecked
      · have hne' : (s.requests.addToQueue id).queue id' ≠ [] := hne
        rw [queue_addToQueue, if_neg heq] at hne'
        exact h.workers t ht id' hid hchecked hne'
    · obtain ⟨t', ht', rfl⟩ := mem_map.1 ht
      have hstarting : t' = .starting id := by
        dsimp only [QuicRequests.enqueue] at ht'
        split at ht'
        · exact mem_singleton.1 ht'
        · simp at ht'
      exact holds_of_none (by rw [hstarting]; rfl)

theorem Inv.cleared (h : Inv ⟨s, threads⟩) (hq : ∀ id, s'.requests.queue id = [])
    (hcarried : s'.carried = s.carried) (hts : ∀ t ∈ ts, t.thread.checked = none) :
    Inv ⟨s', threads ++ ts⟩ := by
  refine ⟨fun id r hr => ?_, fun id r hr => ?_, fun t ht => ?_, ?_⟩
  · simp [hq id] at hr
  · simp [hq id] at hr
  · rcases mem_append.1 ht with ht | ht
    · exact fun id _ _ hne => absurd (hq id) hne
    · exact holds_of_none (hts t ht)
  · show ∀ e ∈ s'.carried, e.2 = some e.1
    rw [hcarried]
    exact h.carried

theorem queue_clear (r : QuicRequests.State) (id : String) : r.clear.queue id = [] := by
  simp [QuicRequests.State.queue, QuicRequests.State.clear, LinkedMap.get, LinkedMap.empty]

theorem Inv.call {c : Call} (h : Inv w) (hc : atControlPlane B w (.call c) = true) :
    Inv (w.call (program B) c) := by
  obtain ⟨s, threads⟩ := w
  cases c with
  | request id target =>
    have hc' : (decide (target = s.controlPlane) && workersAtControlPlane ⟨s, threads⟩ id) = true := hc
    obtain ⟨htarget, hworkers⟩ := Bool.and_eq_true_iff.1 hc'
    obtain rfl := of_decide_eq_true htarget
    exact h.enqueue hworkers
  | cancelAll =>
    unfold Pool.call program QuicDials.call cancelAll
    dsimp only
    split
    · refine h.cleared (queue_clear _) rfl ?_
      rw [State.called, map_singleton, forall_mem_singleton]
      rfl
    · exact h.cleared (queue_clear _) rfl (by simp [State.called])
  | setActiveValidator host port did =>
    unfold Pool.call program QuicDials.call
    dsimp only
    cases hset : s.requests.setActiveValidator host port did with
    | error e =>
      rw [append_nil]
      exact h
    | ok requests =>
      obtain ⟨-, rfl⟩ := setActiveValidator_ok hset
      exact h.cleared (queue_clear s.requests) rfl (by simp)

/-- In every run in which requests are for the control plane, and no worker that is connected elsewhere
    gets them, each request is sent over a connection to its own target. -/
theorem reachesTarget_of_atControlPlane {w : Pool State Worker}
    (h : Reach (program B) (atControlPlane B) init w) : ReachesTarget w.shared := by
  have hinv : Inv w := by
    refine h.invariant ?_ (fun _ _ _ ih hc => ih.call hc) fun s pre t post x s' ts _ ih hc hstep =>
      ih.step hc hstep
    rintro s ⟨⟨did, hs⟩, hcarried⟩
    have hqueue : ∀ id, s.requests.queue id = [] := by
      intro id
      rw [hs]
      simp [QuicRequests.State.queue, QuicRequests.State.initial, LinkedMap.get, LinkedMap.empty]
    refine ⟨fun id r hr => ?_, fun id r hr => ?_, fun t ht => absurd ht (by simp), ?_⟩
    · simp [hqueue id] at hr
    · simp [hqueue id] at hr
    · show ∀ e ∈ s.carried, e.2 = some e.1
      simp [hcarried]
  exact hinv.carried

/-! ## Two runs -/

def g2 : DialTarget := ⟨"g2.thesovereignnetwork.org", 9334⟩

def atG2 : State := ⟨.initial "did:zhtp:g2", g2, fun _ => g2, []⟩

theorem init_atG2 : init atG2 := ⟨⟨_, rfl⟩, rfl⟩

/-- A request with the given target, up to the moment at which it is on the wire. -/
def sendTo (target : DialTarget) : List (Move Call Input) :=
  [.call (.request "a1" target), .step 0 (.identity (.ok ())),
    .step 0 (.handshake (.ok (some "did:zhtp:g2"))), .step 0 .go, .step 0 .go]

def carriedBy (C : Cond State Worker Call Input) (ms : List (Move Call Input)) :
    Option (List (DialTarget × Option DialTarget)) :=
  (Pool.run (program ⟨.android, false⟩) C ⟨atG2, []⟩ ms).map fun w => w.shared.carried

theorem reachesTarget_sendTo_g2 : ∃ w : Pool State Worker, w.shared.carried = [(g2, some g2)] ∧
    ReachesTarget w.shared := by
  have hrun : carriedBy (atControlPlane ⟨.android, false⟩) (sendTo (dialTarget none none g2 g2)) =
      some [(g2, some g2)] := by decide
  obtain ⟨w, hw, hcarried⟩ := Option.map_eq_some_iff.1 hrun
  exact ⟨w, hcarried, reachesTarget_of_atControlPlane (.of_run init_atG2 hw)⟩

/-- While g2 is the active target, a request for the rewards node is sent to g2. -/
theorem rewards_not_reached : ¬ ∀ (B : Build) (w : Pool State Worker),
    Reach (program B) .any init w → ReachesTarget w.shared := by
  intro hall
  have hrun : carriedBy .any
      (sendTo (dialTarget (some rewardsTarget.host) (some rewardsTarget.port) g2 g2)) =
        some [(rewardsTarget, some g2)] := by decide
  obtain ⟨w, hw, hcarried⟩ := Option.map_eq_some_iff.1 hrun
  have hreaches := hall _ w (.of_run init_atG2 hw)
  have heq := hreaches (rewardsTarget, some g2) (by rw [hcarried]; exact mem_singleton_self _)
  exact nomatch heq

end QuicDials
