import SovereignMobile.Quic.RequestQueue

/-! # Every request is settled once

A request is in one place at a time: in the queue, with a thread that is going to settle its promise,
or settled. A worker that ends gives back the latch and the queue of its identity, so whatever is
queued has a worker. Only what empties the queue and settles nothing breaks this, and an exception
that ends a worker. -/

namespace QuicRequests

open Threads List Option
open Prod (fst)

variable {B : Build} {s : State}

/-! ## Where the requests are -/

def promises (rs : List QuinnQueuedRequest) : List Nat := rs.map (·.promise)

theorem count_append_promises (p : Nat) (as bs : List QuinnQueuedRequest) :
    (promises (as ++ bs)).count p = (promises as).count p + (promises bs).count p := by
  rw [promises, map_append, count_append]
  rfl

theorem count_promises {as bs : List QuinnQueuedRequest} (h : as.Perm bs) (p : Nat) :
    (promises as).count p = (promises bs).count p :=
  (h.map _).count_eq p

theorem count_queued_release (hk : s.quinnRequestQueue.Keyed) (id : String) (p : Nat) :
    (promises (s.release id).queued).count p + (promises (s.queue id)).count p =
      (promises s.queued).count p := by
  rw [← count_append_promises]
  exact count_promises (hk.values_remove_perm id) p

theorem count_queued_addToQueue (id : String) (p : Nat) :
    (promises (s.addToQueue id).queued).count p =
      (promises s.queued).count p + (promises [s.request]).count p := by
  have hperm := s.quinnRequestQueue.values_put_perm id (s.queue id ++ [s.request])
  have hcount := count_promises hperm p
  simp only [count_append_promises] at hcount
  show (promises (s.quinnRequestQueue.put id (s.queue id ++ [s.request])).values.flatten).count p = _
  change _ + (promises (s.queue id)).count p = (promises s.queued).count p + _ at hcount
  omega

variable {id : String} {r : QuinnQueuedRequest} {rest : List QuinnQueuedRequest} {s' : State}
    {pre post ts threads : List Thread} {t : Thread} {w : Pool State Thread}

theorem withoutFirst_perm (hk : s.quinnRequestQueue.Keyed) (hq : s.queue id = r :: rest)
    (P : Platform) :
    ((State.withoutFirst P id rest s.quinnRequestQueue).values.flatten ++ [r]).Perm s.queued := by
  have hput : ((s.quinnRequestQueue.put id rest).values.flatten ++ [r]).Perm s.queued := by
    have hperm := s.quinnRequestQueue.values_put_perm id rest
    rw [show (s.quinnRequestQueue.get id).getD [] = r :: rest from hq] at hperm
    have happ : ((s.quinnRequestQueue.put id rest).values.flatten ++ [r] ++ rest).Perm
        (s.queued ++ rest) := by
      rw [append_assoc]
      exact hperm
    exact (perm_append_right_iff rest).1 happ
  unfold State.withoutFirst
  split
  · have hperm := hk.values_remove_perm id
    rw [show (s.quinnRequestQueue.get id).getD [] = [r] from hq] at hperm
    exact hperm
  · exact hput

theorem count_queued_take (hk : s.quinnRequestQueue.Keyed) (hq : s.queue id = r :: rest)
    (c : Connection) (p : Nat) :
    (promises (s.take B.platform id c r rest).queued).count p + (promises [r]).count p =
      (promises s.queued).count p := by
  rw [← count_append_promises]
  exact count_promises (withoutFirst_perm hk hq B.platform) p

theorem queued_eq_nil (hk : s.quinnRequestQueue.Keyed) (h : ∀ id, s.queue id = []) :
    s.queued = [] := by
  refine flatten_eq_nil_iff.2 fun v hv => ?_
  obtain ⟨⟨id, v⟩, hmem, rfl⟩ := mem_map.1 hv
  have hget := hk.get_of_mem hmem
  have hid := h id
  rw [State.queue, hget] at hid
  exact hid

/-! ## The invariant -/

/-- The promises of all requests that are queued, held by a thread or settled. -/
def promisesOf (w : Pool State Thread) : List Nat :=
  promises w.shared.queued ++ promises (w.threads.flatMap Thread.held) ++
    w.shared.settled.map Prod.fst

structure Accounted (w : Pool State Thread) : Prop where
  keyed : w.shared.quinnRequestQueue.Keyed
  once : ∀ p, (promisesOf w).count p = if p < w.shared.enqueued then 1 else 0
  served : ∀ id, w.shared.queue id ≠ [] ∨ id ∈ w.shared.quinnHandshakeInProgress →
    ∃ t ∈ w.threads, t.identity = some id

theorem count_promisesOf (s : State) (ts : List Thread) (p : Nat) : (promisesOf ⟨s, ts⟩).count p =
      (promises s.queued).count p + (promises (ts.flatMap Thread.held)).count p +
        (s.settled.map fst).count p := by
  rw [promisesOf, count_append, count_append]

theorem count_held (pre ts post : List Thread) (p : Nat) :
    (promises ((pre ++ (ts ++ post)).flatMap Thread.held)).count p =
      (promises (pre.flatMap Thread.held)).count p + (promises (ts.flatMap Thread.held)).count p +
        (promises (post.flatMap Thread.held)).count p := by
  rw [flatMap_append, flatMap_append, count_append_promises, count_append_promises]
  omega

/-- The promises before and after a step differ only in where they are. -/
theorem Accounted.once_step (h : Accounted ⟨s, pre ++ t :: post⟩) (hn : s'.enqueued = s.enqueued)
    (heq : ∀ p, (promises s'.queued).count p + (promises (ts.flatMap Thread.held)).count p +
        (s'.settled.map fst).count p =
      (promises s.queued).count p + (promises t.held).count p + (s.settled.map fst).count p)
    (p : Nat) : (promisesOf ⟨s', pre ++ (ts ++ post)⟩).count p =
      if p < s'.enqueued then 1 else 0 := by
  have hold := h.once p
  have hp := heq p
  rw [show pre ++ t :: post = pre ++ ([t] ++ post) from rfl] at hold
  rw [count_promisesOf, count_held] at hold ⊢
  rw [flatMap_singleton] at hold
  rw [hn]
  dsimp only at hold ⊢
  omega

/-- A worker that goes on in the same place serves whom the old one served. -/
theorem Accounted.served_step {t' : Thread} (h : Accounted ⟨s, pre ++ t :: post⟩)
    (hid : t'.identity = t.identity)
    (hold : ∀ id, s'.queue id ≠ [] ∨ id ∈ s'.quinnHandshakeInProgress →
      s.queue id ≠ [] ∨ id ∈ s.quinnHandshakeInProgress) (id : String)
    (hs : s'.queue id ≠ [] ∨ id ∈ s'.quinnHandshakeInProgress) :
    ∃ u ∈ pre ++ ([t'] ++ post), u.identity = some id := by
  obtain ⟨u, hu, huid⟩ := h.served id (hold id hs)
  rcases mem_append.1 hu with hu | hu
  · exact ⟨u, mem_append_left _ hu, huid⟩
  rcases mem_cons.1 hu with rfl | hu
  · exact ⟨t', by simp, hid.trans huid⟩
  · exact ⟨u, by simp [hu], huid⟩

/-- A worker that gives back its latch and queue leaves nobody without a worker. -/
theorem Accounted.served_release {id0 : String} (h : Accounted ⟨s, pre ++ t :: post⟩)
    (hid : t.identity = some id0) (id : String)
    (hs : (s.release id0).queue id ≠ [] ∨ id ∈ (s.release id0).quinnHandshakeInProgress) :
    ∃ u ∈ pre ++ (ts ++ post), u.identity = some id := by
  have hne : id0 ≠ id := by
    rintro rfl
    rcases hs with hs | hs
    · exact hs (by rw [queue_release, if_pos rfl])
    · simp [State.release] at hs
  have hold : s.queue id ≠ [] ∨ id ∈ s.quinnHandshakeInProgress := by
    rcases hs with hs | hs
    · rw [queue_release, if_neg hne] at hs
      exact .inl hs
    · exact .inr (mem_filter.1 hs).1
  obtain ⟨u, hu, huid⟩ := h.served id hold
  rcases mem_append.1 hu with hu | hu
  · exact ⟨u, mem_append_left _ hu, huid⟩
  rcases mem_cons.1 hu with rfl | hu
  · exact absurd (some.inj (hid.symm.trans huid)) hne
  · exact ⟨u, by simp [hu], huid⟩

theorem keyed_take (hk : s.quinnRequestQueue.Keyed) (P : Platform) (id : String) (c : Connection)
    (r : QuinnQueuedRequest) (rest : List QuinnQueuedRequest) :
    (s.take P id c r rest).quinnRequestQueue.Keyed := by
  show (State.withoutFirst P id rest s.quinnRequestQueue).Keyed
  unfold State.withoutFirst
  split
  · exact hk.remove id
  · exact hk.put id rest

/-- The first of the requests that a thread holds is settled. -/
theorem count_settle (s : State) (r : QuinnQueuedRequest) (x : Settlement)
    (rs : List QuinnQueuedRequest) (p : Nat) :
    (promises (s.settle r x).queued).count p + (promises rs).count p +
        ((s.settle r x).settled.map fst).count p =
      (promises s.queued).count p + (promises (r :: rs)).count p + (s.settled.map fst).count p := by
  have hsettled : ((s.settle r x).settled.map fst).count p =
      (promises [r]).count p + (s.settled.map fst).count p := by
    show ((r.promise :: s.settled.map fst).count p) = _
    rw [promises, map_singleton, count_cons, count_singleton]
    omega
  have hheld : (promises (r :: rs)).count p = (promises [r]).count p + (promises rs).count p :=
    count_append_promises p [r] rs
  rw [hsettled]
  show (promises s.queued).count p + _ + _ = _
  omega

/-- A step that no exception ends keeps account of every request. -/
theorem Accounted.step {x : Input} (h : Accounted ⟨s, pre ++ t :: post⟩) (hx : x ≠ .throws)
    (hstep : Outcome B s t x s' ts) :
    Accounted ⟨s', pre ++ (ts ++ post)⟩ := by
  have hk : s.quinnRequestQueue.Keyed := h.keyed
  cases hstep with
  | throws => exact absurd rfl hx
  | moves id _ hm =>
    refine ⟨hk, h.once_step rfl fun p => ?_, h.served_step ?_ fun _ hs => hs⟩
    · rw [hm.held.1, flatMap_singleton, hm.held.2]
    · rw [hm.identity.1, hm.identity.2]
  | fails id error message =>
    refine ⟨hk.remove id, h.once_step rfl fun p => ?_, h.served_release rfl⟩
    have hcount := count_queued_release hk id p
    rw [flatMap_singleton]
    exact congrArg (· + _) hcount
  | drained id c hq =>
    refine ⟨hk.remove id, h.once_step rfl fun p => ?_, h.served_release rfl⟩
    have hcount := count_queued_release hk id p
    rw [hq] at hcount
    exact congrArg (· + _) hcount
  | takes id c r rest hq =>
    refine ⟨keyed_take hk B.platform id c r rest, h.once_step rfl fun p => ?_,
      h.served_step rfl fun id' hs => ?_⟩
    · have hcount := count_queued_take (B := B) hk hq c p
      rw [flatMap_singleton]
      exact congrArg (· + _) hcount
    refine hs.imp_left fun hs hnil => hs ?_
    rw [queue_take]
    split
    · rename_i heq
      subst heq
      exact nomatch hq.symm.trans hnil
    · exact hnil
  | answered id c r a =>
    refine ⟨hk, h.once_step rfl fun p => ?_, h.served_step rfl fun _ hs => hs⟩
    exact count_settle s r a.settlement [] p
  | rejects code message r rs =>
    refine ⟨hk, h.once_step rfl fun p => ?_, h.served_step rfl fun _ hs => hs⟩
    rw [flatMap_singleton]
    exact count_settle s r (.rejected code message) rs p
  | rejected code message =>
    refine ⟨hk, h.once_step rfl fun p => rfl, fun id hs => ?_⟩
    obtain ⟨u, hu, huid⟩ := h.served id hs
    rcases mem_append.1 hu with hu | hu
    · exact ⟨u, mem_append_left _ hu, huid⟩
    rcases mem_cons.1 hu with rfl | hu
    · simp [Thread.identity] at huid
    · exact ⟨u, by simp [hu], huid⟩

/-! ## Runs -/

/-- No entry point drops a request: the validator is switched, and on iOS all requests are cancelled,
    only while nothing is queued; and no exception ends a worker. -/
def settlesAll (B : Build) : Cond State Thread Call Input := fun w m =>
  match m with
  | .call (.request _) => true
  | .call .cancelAll => B.platform = .android || w.shared.queued.isEmpty
  | .call (.setActiveValidator host port did) =>
    match w.shared.setActiveValidator host port did with
    | .ok _ => w.shared.queued.isEmpty
    | .error _ => true
  | .step _ .throws => false
  | .step _ _ => true

theorem accounted_initial (did : String) : Accounted ⟨State.initial did, []⟩ where
  keyed := LinkedMap.keyed_empty
  once p := by simp [promisesOf, promises, State.queued, State.initial, LinkedMap.values,
    LinkedMap.empty]
  served id h := by simp [State.queue, State.initial, LinkedMap.get, LinkedMap.empty] at h

theorem count_held_append (ts us : List Thread) (p : Nat) :
    (promises ((ts ++ us).flatMap Thread.held)).count p =
      (promises (ts.flatMap Thread.held)).count p +
        (promises (us.flatMap Thread.held)).count p := by
  rw [flatMap_append, count_append_promises]

theorem waits_addToQueue {id' : String}
    (h : (s.addToQueue id).queue id' ≠ [] ∨ id' ∈ (s.addToQueue id).quinnHandshakeInProgress) :
    (s.shouldStart id = true ∧ id = id') ∨
      (s.queue id' ≠ [] ∨ id' ∈ s.quinnHandshakeInProgress) := by
  by_cases hid : id = id'
  · subst hid
    by_cases hstart : s.shouldStart id = true
    · exact .inl ⟨hstart, rfl⟩
    · exact .inr (.inr (by simpa [State.shouldStart] using hstart))
  right
  rw [queue_addToQueue, if_neg hid] at h
  refine h.imp_right fun hl => ?_
  unfold State.addToQueue at hl
  split at hl
  · exact (mem_cons.1 hl).resolve_left (Ne.symm hid)
  · exact hl

theorem Accounted.enqueue (h : Accounted ⟨s, threads⟩) (id : String) :
    Accounted ⟨s.addToQueue id, threads ++ (enqueue id s).2⟩ := by
  have hk : s.quinnRequestQueue.Keyed := h.keyed
  refine ⟨hk.put id _, fun p => ?_, fun id' hs => ?_⟩
  · have hold := h.once p
    have hcount := count_queued_addToQueue (s := s) id p
    have hheld : (promises ((QuicRequests.enqueue id s).2.flatMap Thread.held)).count p = 0 := by
      unfold QuicRequests.enqueue
      split <;> rfl
    have hnew : (promises [s.request]).count p = if s.enqueued = p then 1 else 0 := by
      rw [promises, map_singleton, count_singleton]
      simp [State.request]
    rw [count_promisesOf] at hold ⊢
    rw [count_held_append, hcount, hnew]
    show _ + _ + (s.settled.map Prod.fst).count p = if p < s.enqueued + 1 then 1 else 0
    dsimp only at hold
    split at hold <;> split <;> split <;> omega
  · rcases waits_addToQueue hs with ⟨hstart, rfl⟩ | hold
    · refine ⟨.starting id, mem_append_right _ ?_, rfl⟩
      unfold QuicRequests.enqueue
      rw [if_pos hstart]
      exact mem_singleton.2 rfl
    · obtain ⟨t, ht, htid⟩ := h.served id' hold
      exact ⟨t, mem_append_left _ ht, htid⟩

/-- The queue and the latches are cleared, and a thread takes over what was queued. -/
theorem Accounted.cleared (h : Accounted ⟨s, threads⟩) (hqueue : s'.quinnRequestQueue = .empty)
    (hlatch : s'.quinnHandshakeInProgress = []) (hn : s'.enqueued = s.enqueued)
    (hsettled : s'.settled = s.settled) (hheld : ts.flatMap Thread.held = s.queued) :
    Accounted ⟨s', threads ++ ts⟩ := by
  have hqueued : s'.queued = [] := by
    rw [State.queued, hqueue]
    rfl
  refine ⟨?_, fun p => ?_, fun id hs => ?_⟩
  · show s'.quinnRequestQueue.Keyed
    rw [hqueue]
    exact LinkedMap.keyed_empty
  · have hold := h.once p
    rw [count_promisesOf] at hold ⊢
    rw [count_held_append, hheld, hqueued, hsettled, hn]
    have hnil : (promises []).count p = 0 := rfl
    dsimp only at hold ⊢
    omega
  · exfalso
    rcases hs with hs | hs
    · refine hs ?_
      rw [State.queue, hqueue]
      rfl
    · rw [show s'.quinnHandshakeInProgress = [] from hlatch] at hs
      simp at hs

theorem Accounted.call {c : Call} (h : Accounted w) (hc : settlesAll B w (.call c) = true) :
    Accounted (w.call (program B) c) := by
  obtain ⟨s, threads⟩ := w
  cases c with
  | request id => exact h.enqueue id
  | cancelAll =>
    unfold Pool.call program QuicRequests.call cancelAll
    unfold settlesAll at hc
    cases hP : B.platform with
    | android => exact h.cleared rfl rfl rfl rfl (append_nil _)
    | ios =>
      rw [hP] at hc
      have hempty : s.queued = [] := by simpa using hc
      exact h.cleared rfl rfl rfl rfl hempty.symm
  | setActiveValidator host port did =>
    unfold Pool.call program QuicRequests.call
    unfold settlesAll at hc
    dsimp only at hc ⊢
    cases hset : s.setActiveValidator host port did with
    | error e =>
      rw [append_nil]
      exact h
    | ok s' =>
      rw [hset] at hc
      have hempty : s.queued = [] := by simpa using hc
      obtain ⟨_, rfl⟩ := setActiveValidator_ok hset
      exact h.cleared rfl rfl rfl rfl hempty.symm

theorem accounted_of_settlesAll (h : Reach (program B) (settlesAll B) init w) : Accounted w := by
  refine h.invariant ?_ (fun _ _ _ ih hc => ih.call hc) ?_
  · rintro s ⟨did, rfl⟩
    exact accounted_initial did
  intro s pre t post x s' ts _ ih hc hstep
  refine ih.step ?_ (step_outcome hstep)
  rintro rfl
  simp [settlesAll] at hc

/-! ## The result -/

/-- No promise is settled twice. Once no thread runs, every request has been settled; and a latch has a
    worker at all times. -/
def SettledOnce (w : Pool State Thread) : Prop :=
  (∀ p, (w.shared.settled.map Prod.fst).count p ≤ 1) ∧
  (w.threads = [] → ∀ p < w.shared.enqueued, (w.shared.settled.map Prod.fst).count p = 1) ∧
  ∀ id ∈ w.shared.quinnHandshakeInProgress, ∃ t ∈ w.threads, t.identity = some id

theorem Accounted.settledOnce (h : Accounted w) : SettledOnce w := by
  obtain ⟨s, threads⟩ := w
  refine ⟨fun p => ?_, fun hnone p hp => ?_, fun id hid => h.served id (.inr hid)⟩
  · have hold := h.once p
    rw [count_promisesOf] at hold
    dsimp only
    split at hold <;> omega
  have hold := h.once p
  subst hnone
  have hqueued : s.queued = [] := by
    refine queued_eq_nil h.keyed fun id => ?_
    by_contra hne
    obtain ⟨t, ht, _⟩ := h.served id (.inl hne)
    simp at ht
  rw [count_promisesOf, hqueued, if_pos hp] at hold
  have hnil : (promises []).count p = 0 := rfl
  rw [flatMap_nil] at hold
  dsimp only
  omega

/-- **Settled once.** In every run in which nothing is queued when the validator is switched, nor on iOS
    when all requests are cancelled, and in which no exception ends a worker. -/
theorem settledOnce_of_settlesAll {w : Pool State Thread}
    (h : Reach (program B) (settlesAll B) init w) : SettledOnce w :=
  (accounted_of_settlesAll h).settledOnce

/-- What the runs below are compared by. -/
def summary (w : Pool State Thread) : Nat × Nat × List Nat × List String :=
  (w.threads.length, w.shared.enqueued, w.shared.settled.map Prod.fst,
    w.shared.quinnHandshakeInProgress)

/-- A request is sent and answered, and the worker finds the queue empty. -/
def oneRequest : List (Move Call Input) :=
  [.call (.request "a1"), .step 0 (.identity (.ok ())), .step 0 (.handshake (.ok (some "did:zhtp:v"))),
    .step 0 .go, .step 0 .go, .step 0 (.answer (.android none)), .step 0 .go]

theorem settledOnce_oneRequest : ∃ w, Reach (program ⟨.android, false⟩) (settlesAll ⟨.android, false⟩)
    init w ∧ summary w = (0, 1, [0], []) ∧ SettledOnce w := by
  have hrun : (Pool.run (program ⟨.android, false⟩) (settlesAll ⟨.android, false⟩)
      ⟨State.initial "did:zhtp:v", []⟩ oneRequest).map summary = some (0, 1, [0], []) := by
    decide
  obtain ⟨w, hw, hsum⟩ := map_eq_some_iff.1 hrun
  have hreach : Reach (program ⟨.android, false⟩) (settlesAll ⟨.android, false⟩) init w :=
    .of_run ⟨_, rfl⟩ hw
  exact ⟨w, hreach, hsum, settledOnce_of_settlesAll hreach⟩

/-- The validator is switched, or all requests are cancelled, while a request waits for the handshake,
    which then fails. -/
def emptiedWhileWaiting (c : Call) : List (Move Call Input) :=
  [.call (.request "a1"), .call c, .step 0 (.identity (.error "")), .step 0 .go, .step 0 .go]

theorem not_settledOnce_of_summary (h : summary w = (0, 1, [], [])) : ¬ SettledOnce w := by
  obtain ⟨hthreads, hn, hsettled, _⟩ : w.threads.length = 0 ∧ w.shared.enqueued = 1 ∧
      w.shared.settled.map fst = [] ∧ w.shared.quinnHandshakeInProgress = [] := by
    simpa [summary] using h
  intro honce
  have hcount := honce.2.1 (length_eq_zero_iff.1 hthreads) 0 (by omega)
  rw [hsettled] at hcount
  exact nomatch hcount

/-- On Android a switch, and on iOS a switch or a cancellation, leaves a promise unsettled for ever. On
    Android an exception leaves a latch without a worker. -/
theorem not_settledOnce :
    (∃ w, Reach (program ⟨.ios, false⟩) Cond.any init w ∧ ¬ SettledOnce w) ∧
    (∃ w, Reach (program ⟨.android, false⟩) Cond.any init w ∧ ¬ SettledOnce w) ∧
    ∃ w, Reach (program ⟨.android, false⟩) Cond.any init w ∧ w.threads = [] ∧
      w.shared.quinnHandshakeInProgress = ["a1"] := by
  refine ⟨?_, ?_, ?_⟩
  · have hrun : (Pool.run (program ⟨.ios, false⟩) Cond.any ⟨State.initial "did:zhtp:v", []⟩
        (emptiedWhileWaiting .cancelAll)).map summary = some (0, 1, [], []) := by decide
    obtain ⟨w, hw, hsum⟩ := map_eq_some_iff.1 hrun
    exact ⟨w, .of_run ⟨_, rfl⟩ hw, not_settledOnce_of_summary hsum⟩
  · have hrun : (Pool.run (program ⟨.android, false⟩) Cond.any ⟨State.initial "did:zhtp:v", []⟩
        (emptiedWhileWaiting (.setActiveValidator "10.0.0.2" 443 "did:zhtp:w"))).map summary =
        some (0, 1, [], []) := by decide
    obtain ⟨w, hw, hsum⟩ := map_eq_some_iff.1 hrun
    exact ⟨w, .of_run ⟨_, rfl⟩ hw, not_settledOnce_of_summary hsum⟩
  · have hrun : (Pool.run (program ⟨.android, false⟩) Cond.any ⟨State.initial "did:zhtp:v", []⟩
        [.call (.request "a1"), .step 0 (.identity (.ok ())), .step 0 .throws]).map summary =
        some (0, 1, [], ["a1"]) := by decide
    obtain ⟨w, hw, hsum⟩ := map_eq_some_iff.1 hrun
    obtain ⟨hthreads, _, _, hlatch⟩ : w.threads.length = 0 ∧ w.shared.enqueued = 1 ∧
        w.shared.settled.map fst = [] ∧ w.shared.quinnHandshakeInProgress = ["a1"] := by
      simpa [summary] using hsum
    exact ⟨w, .of_run ⟨_, rfl⟩ hw, length_eq_zero_iff.1 hthreads, hlatch⟩

end QuicRequests
