import Mathlib.Algebra.Ring.Nat
import SovereignMobile.Quic.RequestsSettled

/-! # Recovery from a desynchronised session

`runWithSessionRecovery` over the native request queue. A call whose attempt fails with the signs of a
desync resets the session for everybody: `cancelAll` empties the queue, whoever waits in it. Each call
then asks for itself again, at most three times in all. Where nothing is queued at a reset, every
call ends with what one of its own attempts returned. -/

namespace SessionRecovery

open Threads QuicRequests List Option
open Prod (fst)

/-! ## The signs of a desync -/

/-- Letters of the ASCII range without their case. -/
def containsIgnoringCase (text pattern : String) : Bool :=
  (text.toList.map Char.toLower).tails.any fun suffix => pattern.toList.isPrefixOf suffix

def SESSION_DESYNC_PATTERNS : List String :=
  ["invalid counter", "possible replay", "not enough bytes for length header", "session not found",
    "session expired", "session mismatch"]

def matchesSessionDesync (text : String) : Bool :=
  SESSION_DESYNC_PATTERNS.any (containsIgnoringCase text)

/-- Whether an authenticated attempt that ended so is followed by another one, if there is one left. -/
def retryable : Settlement → Bool
  | .resolved response => decide (response.status = 401) && matchesSessionDesync response.body
  | .rejected _ message => matchesSessionDesync message

def MAX_ATTEMPTS : Nat := 3

/-! ## The calls -/

/-- What a call waits for: the native module to take its request, the promise of the request, the
    native module to cancel, and the gap after that. `attempt` counts from 1. -/
inductive Caller where
  | requesting (call attempt : Nat)
  | waiting (call attempt promise : Nat)
  | cancelling (call attempt : Nat)
  | pausing (call attempt : Nat)

/-- A thread of the native module, or a call for the identity. -/
inductive Thread where
  | native (t : QuicRequests.Thread)
  | caller (identityId : String) (c : Caller)

/-- History: the number of calls, the promise of each attempt of each call, and how the calls ended. -/
structure State where
  native : QuicRequests.State
  calls : Nat
  attempts : List (Nat × Nat)
  ended : List (Nat × Settlement)

inductive Input where
  | native (x : QuicRequests.Input)
  | go

/-- How the promise was settled, if it was. -/
def settlement (s : QuicRequests.State) (promise : Nat) : Option Settlement :=
  (s.settled.find? fun e => e.1 = promise).map Prod.snd

section Steps
variable (B : Build)

def callerStep (identityId : String) (c : Caller) (s : State) : Option (State × List Thread) :=
  match c with
  | .requesting call attempt =>
    let promise := s.native.enqueued
    let (native, workers) := enqueue identityId s.native
    some ({ s with native, attempts := (call, promise) :: s.attempts },
      .caller identityId (.waiting call attempt promise) :: workers.map .native)
  | .waiting call attempt promise =>
    (settlement s.native promise).map fun x =>
      if retryable x && decide (attempt < MAX_ATTEMPTS) then
        (s, [.caller identityId (.cancelling call attempt)])
      else ({ s with ended := (call, x) :: s.ended }, [])
  | .cancelling call attempt =>
    let (native, rejecting) := cancelAll B s.native
    some ({ s with native },
      .caller identityId (.pausing call attempt) :: rejecting.map .native)
  | .pausing call attempt => some (s, [.caller identityId (.requesting call (attempt + 1))])

def step (t : Thread) (x : Input) (s : State) : Option (State × List Thread) :=
  match t, x with
  | .native t, .native x =>
    (QuicRequests.step B t x s.native).map fun r =>
      ({ s with native := r.1 }, r.2.map .native)
  | .caller identityId c, .go => callerStep B identityId c s
  | _, _ => none

/-- `rawRequest`, for the identity that is current. -/
def call (identityId : String) (s : State) : State × List Thread :=
  ({ s with calls := s.calls + 1 }, [.caller identityId (.requesting s.calls 1)])

def program : Program State Thread String Input where
  call := call
  step := step B

end Steps

def init (s : State) : Prop :=
  ∃ did, s = { native := QuicRequests.State.initial did, calls := 0, attempts := [], ended := [] }

/-! ## The property -/

/-- What Android's `cancelAll` rejects with. -/
def cancelled : Settlement :=
  .rejected "QUIC_CANCELLED" "Session reset"

/-- No call is harmed by another. Each ends with what one of its own attempts returned, and not because
    it was cancelled in the queue; it makes three attempts at most; and once nobody can go on, all of
    them have ended, once each. -/
structure Unharmed (B : Build) (w : Pool State Thread) : Prop where
  own : ∀ e ∈ w.shared.ended, e.2 ≠ cancelled ∧
    ∃ p, (e.1, p) ∈ w.shared.attempts ∧ (p, e.2) ∈ w.shared.native.settled
  attempts : ∀ c, (w.shared.attempts.map Prod.fst).count c ≤ MAX_ATTEMPTS
  ends : (∀ n x, w.advance (program B) n x = none) →
    w.threads = [] ∧ ∀ c < w.shared.calls, (w.shared.ended.map Prod.fst).count c = 1

/-- The session is reset only while nothing is queued, and no native call throws. -/
def quietResets : Cond State Thread String Input := fun w m =>
  match m with
  | .call _ => true
  | .step _ (.native .throws) => false
  | .step _ (.native _) => true
  | .step n .go =>
    match w.threads[n]? with
    | some (.caller _ (.cancelling _ _)) => w.shared.native.queued.isEmpty
    | _ => true

/-! ## The invariant -/

def Thread.native? : Thread → Option QuicRequests.Thread
  | .native t => some t
  | .caller _ _ => none

def Caller.call : Caller → Nat
  | .requesting call _ => call
  | .waiting call _ _ => call
  | .cancelling call _ => call
  | .pausing call _ => call

/-- The call that the thread is, if it is one. -/
def Thread.call? : Thread → Option Nat
  | .native _ => none
  | .caller _ c => some c.call

/-- The attempts that are left. -/
def Caller.left : Caller → Nat
  | .requesting _ attempt => MAX_ATTEMPTS + 1 - attempt
  | .waiting _ attempt _ => MAX_ATTEMPTS - attempt
  | .cancelling _ attempt => MAX_ATTEMPTS - attempt
  | .pausing _ attempt => MAX_ATTEMPTS - attempt

/-- The attempts that the thread has left for the call. -/
def Thread.left (call : Nat) : Thread → Nat
  | .native _ => 0
  | .caller _ c => if c.call = call then c.left else 0

/-- What holds of one thread, in the state `s`. -/
def Holds (s : State) : Thread → Prop
  | .native (.rejecting code message rs) => .rejected code message = cancelled → rs = []
  | .native _ => True
  | .caller _ (.requesting _ attempt) => attempt ≤ MAX_ATTEMPTS
  | .caller _ (.waiting call _ promise) =>
    (call, promise) ∈ s.attempts ∧ promise < s.native.enqueued
  | .caller _ (.cancelling _ attempt) => attempt < MAX_ATTEMPTS
  | .caller _ (.pausing _ attempt) => attempt < MAX_ATTEMPTS

structure Inv (w : Pool State Thread) : Prop where
  accounted : Accounted ⟨w.shared.native, w.threads.filterMap Thread.native?⟩
  threads : ∀ t ∈ w.threads, Holds w.shared t
  settled : ∀ e ∈ w.shared.native.settled, e.2 ≠ cancelled
  own : ∀ e ∈ w.shared.ended, e.2 ≠ cancelled ∧
    ∃ p, (e.1, p) ∈ w.shared.attempts ∧ (p, e.2) ∈ w.shared.native.settled
  once : ∀ c, (w.threads.filterMap Thread.call?).count c + (w.shared.ended.map Prod.fst).count c =
    if c < w.shared.calls then 1 else 0
  attempts : ∀ c, (w.shared.attempts.map Prod.fst).count c + (w.threads.map (Thread.left c)).sum ≤
    if c < w.shared.calls then MAX_ATTEMPTS else 0

variable {B : Build}

theorem filterMap_map_native (ts : List QuicRequests.Thread) :
    (ts.map Thread.native).filterMap Thread.native? = ts := by
  rw [filterMap_map]
  exact filterMap_some

theorem filterMap_call_map_native (ts : List QuicRequests.Thread) :
    (ts.map Thread.native).filterMap Thread.call? = [] := by
  rw [filterMap_map, filterMap_eq_nil_iff]
  exact fun _ _ => rfl

theorem sum_left_map_native (ts : List QuicRequests.Thread) (c : Nat) :
    ((ts.map Thread.native).map (Thread.left c)).sum = 0 := by
  induction ts with
  | nil => rfl
  | cons t ts ih => exact (Nat.zero_add _).trans ih

variable {ts : List QuicRequests.Thread} {x : QuicRequests.Input} {S s s' : State} {t : Thread}
    {pre post : List Thread} {p attempt : Nat} {id : String} {c : Caller} {w : Pool State Thread}

/-- The order of the threads does not matter. -/
theorem accounted_of_perm {s : QuicRequests.State} {ts' : List QuicRequests.Thread}
    (h : Accounted ⟨s, ts⟩) (hperm : ts.Perm ts') : Accounted ⟨s, ts'⟩ where
  keyed := h.keyed
  once p := by
    have hold := h.once p
    rw [count_promisesOf] at hold ⊢
    rw [← count_promises (hperm.flatMap_right Thread.held)]
    exact hold
  served id hid := by
    obtain ⟨t, ht, htid⟩ := h.served id hid
    exact ⟨t, hperm.mem_iff.1 ht, htid⟩

/-! ## A native thread goes on -/

theorem settled_of_outcome {s s' : QuicRequests.State} {t : QuicRequests.Thread}
    (h : Outcome B s t x s' ts) :
    s'.enqueued = s.enqueued ∧ ∀ e ∈ s.settled, e ∈ s'.settled := by
  cases h with
  | answered | rejects => exact ⟨rfl, fun e he => mem_cons_of_mem _ he⟩
  | _ => exact ⟨rfl, fun e he => he⟩

theorem answer_ne_cancelled (a : Answer) : a.settlement ≠ cancelled := by
  cases a with
  | android result =>
    unfold Answer.settlement handleStringResponse
    dsimp only
    split
    · split
      · simp [cancelled]
      · simp [cancelled]
    · simp [cancelled]
  | ios result =>
    unfold Answer.settlement settlementOf
    dsimp only
    split <;> simp [cancelled]

/-- A native thread settles nothing as cancelled, unless `cancelAll` had found something. -/
theorem not_cancelled_of_outcome {s s' : QuicRequests.State} {t : QuicRequests.Thread} {S' : State}
    (h : Outcome B s t x s' ts) (ht : Holds S (.native t)) (hs : ∀ e ∈ s.settled, e.2 ≠ cancelled) :
    (∀ e ∈ s'.settled, e.2 ≠ cancelled) ∧ ∀ t' ∈ ts, Holds S' (.native t') := by
  cases h with
  | throws | drained | rejected => exact ⟨hs, fun t' ht' => nomatch ht'⟩
  | moves id _ hm =>
    refine ⟨hs, ?_⟩
    rw [forall_mem_singleton]
    cases hm with
    | accepts c _ =>
      unfold proceed
      split
      · trivial
      · trivial
    | _ => trivial
  | fails id error message =>
    refine ⟨hs, ?_⟩
    rw [forall_mem_singleton]
    intro hcancelled
    simp [cancelled] at hcancelled
  | takes =>
    refine ⟨hs, ?_⟩
    rw [forall_mem_singleton]
    trivial
  | answered id c r a =>
    refine ⟨forall_mem_cons.2 ⟨answer_ne_cancelled a, hs⟩, ?_⟩
    rw [forall_mem_singleton]
    trivial
  | rejects code message r rs =>
    have hne : Settlement.rejected code message ≠ cancelled := by
      intro hcancelled
      exact nomatch ht hcancelled
    refine ⟨forall_mem_cons.2 ⟨hne, hs⟩, ?_⟩
    rw [forall_mem_singleton]
    exact fun hcancelled => absurd hcancelled hne

/-- More attempts, and more requests. -/
theorem Holds.mono (h : Holds s t) (ha : ∀ e ∈ s.attempts, e ∈ s'.attempts)
    (hn : s.native.enqueued ≤ s'.native.enqueued) :
    Holds s' t := by
  match t, h with
  | .native (.rejecting _ _ _), h => exact h
  | .native (.starting _), _ => trivial
  | .native (.handshaking _), _ => trivial
  | .native (.connected _ _), _ => trivial
  | .native (.accepted _ _), _ => trivial
  | .native (.failing _ _), _ => trivial
  | .native (.draining _ _), _ => trivial
  | .native (.sending _ _ _), _ => trivial
  | .caller _ (.requesting _ _), h => exact h
  | .caller _ (.waiting _ _ _), h => exact ⟨ha _ h.1, Nat.lt_of_lt_of_le h.2 hn⟩
  | .caller _ (.cancelling _ _), h => exact h
  | .caller _ (.pausing _ _), h => exact h

theorem threads_step {ts : List Thread} (h : ∀ u ∈ pre ++ t :: post, Holds s u)
    (ha : ∀ e ∈ s.attempts, e ∈ s'.attempts) (hn : s.native.enqueued ≤ s'.native.enqueued)
    (hts : ∀ u ∈ ts, Holds s' u) :
    ∀ u ∈ pre ++ (ts ++ post), Holds s' u := by
  intro u hu
  rcases mem_append.1 hu with hu | hu
  · exact (h u (mem_append_left _ hu)).mono ha hn
  rcases mem_append.1 hu with hu | hu
  · exact hts u hu
  · exact (h u (by simp [hu])).mono ha hn

theorem Inv.native {s' : QuicRequests.State} {t : QuicRequests.Thread}
    (h : Inv ⟨s, pre ++ .native t :: post⟩) (hx : x ≠ .throws)
    (hstep : Outcome B s.native t x s' ts) :
    Inv ⟨{ s with native := s' }, pre ++ (ts.map .native ++ post)⟩ := by
  have ht : Holds s (.native t) := h.threads _ (by simp)
  obtain ⟨hn, hgrows⟩ := settled_of_outcome hstep
  obtain ⟨hsettled, hts⟩ : _ ∧ ∀ u ∈ ts, Holds { s with native := s' } (.native u) :=
    not_cancelled_of_outcome hstep ht h.settled
  refine ⟨?_, ?_, hsettled, fun e he => ?_, fun c => ?_, fun c => ?_⟩
  · have hold : Accounted ⟨s.native, pre.filterMap Thread.native? ++
        t :: post.filterMap Thread.native?⟩ := by
      have haccounted := h.accounted
      rw [filterMap_append] at haccounted
      exact haccounted
    have hnew := hold.step hx hstep
    rw [filterMap_append, filterMap_append, filterMap_map_native]
    exact hnew
  · refine threads_step h.threads (fun _ he => he) (Nat.le_of_eq hn.symm) fun u hu => ?_
    obtain ⟨t', ht', rfl⟩ := mem_map.1 hu
    exact hts t' ht'
  · obtain ⟨hne, p, hp, hpe⟩ := h.own e he
    exact ⟨hne, p, hp, hgrows _ hpe⟩
  · have hold := h.once c
    rw [filterMap_append] at hold
    rw [filterMap_append, filterMap_append, filterMap_call_map_native]
    exact hold
  · have hold := h.attempts c
    rw [map_append, sum_append] at hold
    rw [map_append, sum_append, map_append, sum_append, sum_left_map_native]
    exact hold

/-! ## A call goes on -/

theorem settlement_eq_some {s : QuicRequests.State} {x : Settlement} (h : settlement s p = some x) :
    (p, x) ∈ s.settled := by
  obtain ⟨e, he, rfl⟩ := map_eq_some_iff.1 h
  have hp : e.1 = p := by simpa using find?_some he
  rw [← hp]
  exact mem_of_find?_eq_some he

theorem settlement_eq_none {s : QuicRequests.State} (h : settlement s p = none) :
    p ∉ s.settled.map fst := by
  intro hmem
  obtain ⟨e, he, hp⟩ := mem_map.1 hmem
  have hfind := find?_eq_none.1 (map_eq_none_iff.1 h) e he
  exact hfind (by simpa using hp)

/-- A call that goes on in the same place, with the attempts that it had left; native threads may have
    been started. -/
theorem Inv.caller {c' : Caller} (h : Inv ⟨s, pre ++ .caller id c :: post⟩)
    (ts : List QuicRequests.Thread) (hcall : c'.call = c.call) (hcalls : s'.calls = s.calls)
    (hended : s'.ended = s.ended) (ha : ∀ e ∈ s.attempts, e ∈ s'.attempts)
    (hn : s.native.enqueued ≤ s'.native.enqueued) (hsettled : s'.native.settled = s.native.settled)
    (haccounted : Accounted ⟨s'.native, pre.filterMap Thread.native? ++
      (ts ++ post.filterMap Thread.native?)⟩)
    (hholds : ∀ t ∈ Thread.caller id c' :: ts.map .native, Holds s' t)
    (hleft : ∀ d, (s'.attempts.map fst).count d + Thread.left d (.caller id c') ≤
      (s.attempts.map fst).count d + Thread.left d (.caller id c)) :
    Inv ⟨s', pre ++ ((.caller id c' :: ts.map .native) ++ post)⟩ := by
  refine ⟨?_, threads_step h.threads ha hn hholds, ?_, fun e he => ?_, fun d => ?_, fun d => ?_⟩
  · show Accounted ⟨s'.native, (pre ++ ((Thread.caller id c' :: ts.map Thread.native) ++
      post)).filterMap Thread.native?⟩
    rw [filterMap_append, filterMap_append, filterMap_cons, filterMap_map_native]
    exact haccounted
  · show ∀ e ∈ s'.native.settled, _
    rw [hsettled]
    exact h.settled
  · have he' : e ∈ s.ended := hended ▸ he
    obtain ⟨hne, p, hp, hpe⟩ := h.own e he'
    refine ⟨hne, p, ha _ hp, ?_⟩
    rw [hsettled]
    exact hpe
  · have hold := h.once d
    simp only [filterMap_append, count_append] at hold
    simp only [filterMap_append, filterMap_cons, Thread.call?, count_append,
      filterMap_call_map_native, hcall, hcalls, hended, cons_append]
    exact hold
  · have hold := h.attempts d
    have hd := hleft d
    simp only [map_append, map_cons, sum_append, sum_cons] at hold
    simp only [map_append, map_cons, sum_append, sum_cons, sum_left_map_native, hcalls]
    omega

theorem Inv.accounted_caller (h : Inv ⟨s, pre ++ .caller id c :: post⟩) :
    Accounted ⟨s.native, pre.filterMap Thread.native? ++ post.filterMap Thread.native?⟩ := by
  have haccounted := h.accounted
  rw [filterMap_append] at haccounted
  exact haccounted

theorem accounted_insert {s : QuicRequests.State} {pre post : List QuicRequests.Thread}
    (h : Accounted ⟨s, (pre ++ post) ++ ts⟩) : Accounted ⟨s, pre ++ (ts ++ post)⟩ := by
  refine accounted_of_perm h ?_
  rw [append_assoc]
  exact .append_left pre perm_append_comm

theorem holds_worker_enqueue {s : QuicRequests.State} :
    ∀ t ∈ (enqueue id s).2, Holds S (.native t) := by
  intro t ht
  unfold enqueue at ht
  split at ht
  · rw [mem_singleton.1 ht]
    trivial
  · simp at ht

theorem Inv.requesting {call : Nat}
    (h : Inv ⟨s, pre ++ .caller id (.requesting call attempt) :: post⟩) :
    Inv ⟨{ s with
        native := s.native.addToQueue id
        attempts := (call, s.native.enqueued) :: s.attempts },
      pre ++ ((.caller id (.waiting call attempt s.native.enqueued) ::
        (enqueue id s.native).2.map .native) ++ post)⟩ := by
  have hle : attempt ≤ MAX_ATTEMPTS := h.threads (.caller id (.requesting call attempt)) (by simp)
  refine h.caller _ rfl rfl rfl (fun _ he => mem_cons_of_mem _ he) (Nat.le_succ _) rfl ?_ ?_ ?_
  · exact accounted_insert (h.accounted_caller.enqueue id)
  · rw [forall_mem_cons]
    refine ⟨⟨mem_cons_self, Nat.lt_succ_self _⟩, fun t ht => ?_⟩
    obtain ⟨t', ht', rfl⟩ := mem_map.1 ht
    exact holds_worker_enqueue t' ht'
  intro d
  have hbefore : Thread.left d (.caller id (.requesting call attempt)) =
      if call = d then MAX_ATTEMPTS + 1 - attempt else 0 := rfl
  have hafter : Thread.left d (.caller id (.waiting call attempt s.native.enqueued)) =
      if call = d then MAX_ATTEMPTS - attempt else 0 := rfl
  rw [hbefore, hafter, map_cons, count_cons]
  simp only [beq_iff_eq]
  split <;> omega

theorem Inv.ends {call : Nat} {x : Settlement}
    (h : Inv ⟨s, pre ++ .caller id (.waiting call attempt p) :: post⟩)
    (hx : settlement s.native p = some x) :
    Inv ⟨{ s with ended := (call, x) :: s.ended }, pre ++ ([] ++ post)⟩ := by
  have hmem := settlement_eq_some hx
  have hwaiting : (call, p) ∈ s.attempts ∧ p < s.native.enqueued :=
    h.threads (.caller id (.waiting call attempt p)) (by simp)
  refine ⟨?_, threads_step h.threads (fun _ he => he) le_rfl (by simp), h.settled, ?_,
    fun d => ?_, fun d => ?_⟩
  · show Accounted ⟨s.native, (pre ++ ([] ++ post)).filterMap Thread.native?⟩
    rw [filterMap_append]
    exact h.accounted_caller
  · exact forall_mem_cons.2 ⟨⟨h.settled (p, x) hmem, p, hwaiting.1, hmem⟩, h.own⟩
  · have hold := h.once d
    simp only [filterMap_append, filterMap_cons, Thread.call?, Caller.call,
      count_append, count_cons] at hold
    simp only [nil_append, filterMap_append, count_append, map_cons, count_cons]
    omega
  · have hold := h.attempts d
    simp only [map_append, map_cons, sum_append, sum_cons] at hold
    simp only [nil_append, map_append, sum_append]
    omega

theorem Inv.retries {call : Nat} (h : Inv ⟨s, pre ++ .caller id (.waiting call attempt p) :: post⟩)
    (hlt : attempt < MAX_ATTEMPTS) :
    Inv ⟨s, pre ++ ([.caller id (.cancelling call attempt)] ++ post)⟩ := by
  refine h.caller [] rfl rfl rfl (fun _ he => he) le_rfl rfl h.accounted_caller ?_ fun d => le_rfl
  rw [map_nil, forall_mem_singleton]
  exact hlt

theorem Inv.pauses {call : Nat} (h : Inv ⟨s, pre ++ .caller id (.pausing call attempt) :: post⟩) :
    Inv ⟨s, pre ++ ([.caller id (.requesting call (attempt + 1))] ++ post)⟩ := by
  have hlt : attempt < MAX_ATTEMPTS := h.threads (.caller id (.pausing call attempt)) (by simp)
  refine h.caller [] rfl rfl rfl (fun _ he => he) le_rfl rfl h.accounted_caller ?_ fun d => ?_
  · rw [map_nil, forall_mem_singleton]
    exact hlt
  have hleft : Caller.left (.requesting call (attempt + 1)) =
      Caller.left (.pausing call attempt) := by
    simp only [Caller.left]
    omega
  simp only [Thread.left, hleft]
  exact le_rfl

/-- Nothing is queued, so nothing is cancelled. -/
theorem Inv.cancels {call : Nat} (h : Inv ⟨s, pre ++ .caller id (.cancelling call attempt) :: post⟩)
    (hq : s.native.queued = []) :
    Inv ⟨{ s with native := (cancelAll B s.native).1 },
      pre ++ ((.caller id (.pausing call attempt) ::
        (cancelAll B s.native).2.map .native) ++ post)⟩ := by
  have hlt : attempt < MAX_ATTEMPTS :=
    h.threads (.caller id (.cancelling call attempt)) (by simp)
  have hclear : (cancelAll B s.native).1 = s.native.clear := by
    unfold cancelAll
    split <;> rfl
  have haccounted : Accounted ⟨(cancelAll B s.native).1,
      (pre.filterMap Thread.native? ++ post.filterMap Thread.native?) ++
        (cancelAll B s.native).2⟩ := by
    refine h.accounted_caller.call (c := .cancelAll) ?_
    show (B.platform = .android || s.native.queued.isEmpty) = true
    rw [hq]
    simp
  refine h.caller _ rfl rfl rfl (fun _ he => he) ?_ ?_ (accounted_insert haccounted) ?_
    fun d => le_rfl
  · rw [hclear]
    exact le_rfl
  · rw [hclear]
    rfl
  rw [forall_mem_cons]
  refine ⟨hlt, fun t ht => ?_⟩
  obtain ⟨t', ht', rfl⟩ := mem_map.1 ht
  unfold cancelAll at ht'
  split at ht'
  · rw [mem_singleton.1 ht']
    exact fun _ => hq
  · simp at ht'

/-! ## Runs -/

theorem inv_initial (did : String) : Inv ⟨⟨QuicRequests.State.initial did, 0, [], []⟩, []⟩ where
  accounted := accounted_initial did
  threads t ht := nomatch ht
  settled e he := absurd he (by simp [QuicRequests.State.initial])
  own e he := nomatch he
  once c := by simp
  attempts c := by simp

theorem Inv.call (h : Inv w) (id : String) : Inv (w.call (program B) id) := by
  obtain ⟨s, threads⟩ := w
  refine ⟨?_, fun t ht => ?_, h.settled, h.own, fun c => ?_, fun c => ?_⟩
  · show Accounted ⟨s.native,
      (threads ++ [Thread.caller id (.requesting s.calls 1)]).filterMap Thread.native?⟩
    rw [filterMap_append]
    exact (append_nil (threads.filterMap Thread.native?)).symm ▸ h.accounted
  · rcases mem_append.1 ht with ht | ht
    · exact (h.threads t ht).mono (fun _ he => he) le_rfl
    · rw [mem_singleton.1 ht]
      exact Nat.le_add_left 1 2
  · have hold := h.once c
    show ((threads ++ [Thread.caller id (.requesting s.calls 1)]).filterMap Thread.call?).count c +
      (s.ended.map fst).count c = if c < s.calls + 1 then 1 else 0
    have hnew : [Thread.caller id (.requesting s.calls 1)].filterMap Thread.call? = [s.calls] := rfl
    dsimp only at hold
    rw [filterMap_append, count_append, hnew, count_singleton]
    simp only [beq_iff_eq]
    split at hold <;> split <;> split <;> omega
  · have hold := h.attempts c
    show (s.attempts.map fst).count c +
      ((threads ++ [Thread.caller id (.requesting s.calls 1)]).map (Thread.left c)).sum ≤
        if c < s.calls + 1 then MAX_ATTEMPTS else 0
    have hnew : Thread.left c (.caller id (.requesting s.calls 1)) =
        if s.calls = c then MAX_ATTEMPTS else 0 := rfl
    dsimp only at hold
    rw [map_append, sum_append, map_singleton, sum_singleton, hnew]
    split at hold <;> split <;> split <;> omega

theorem Inv.step {ts : List Thread} {x : Input} (h : Inv ⟨s, pre ++ t :: post⟩)
    (hc : quietResets ⟨s, pre ++ t :: post⟩ (.step pre.length x) = true)
    (hstep : step B t x s = some (s', ts)) : Inv ⟨s', pre ++ (ts ++ post)⟩ := by
  unfold SessionRecovery.step at hstep
  split at hstep
  · rename_i t x
    obtain ⟨⟨s1, ts1⟩, hnative, heq⟩ := map_eq_some_iff.1 hstep
    cases heq
    refine h.native ?_ (step_outcome hnative)
    rintro rfl
    simp [quietResets] at hc
  · rename_i id c
    cases c with
    | requesting call attempt =>
      cases hstep
      exact h.requesting
    | waiting call attempt p =>
      obtain ⟨y, hy, heq⟩ := map_eq_some_iff.1 hstep
      split at heq
      · rename_i hretry
        cases heq
        rw [Bool.and_eq_true, decide_eq_true_eq] at hretry
        exact h.retries hretry.2
      · cases heq
        exact h.ends hy
    | cancelling call attempt =>
      cases hstep
      have hq : s.native.queued = [] := by simpa [quietResets] using hc
      exact h.cancels hq
    | pausing call attempt =>
      cases hstep
      exact h.pauses
  · simp at hstep

theorem inv_of_quietResets (h : Reach (program B) quietResets init w) : Inv w := by
  refine h.invariant ?_ (fun _ id _ ih _ => ih.call id) ?_
  · rintro s ⟨did, rfl⟩
    exact inv_initial did
  · intro s pre t post x s' ts _ ih hc hstep
    exact ih.step hc hstep

/-! ## Nobody is left waiting -/

theorem exists_step (t : QuicRequests.Thread) (s : QuicRequests.State) :
    ∃ x, QuicRequests.step B t x s ≠ none := by
  cases t with
  | starting id => exact ⟨.identity (.ok ()), by simp [QuicRequests.step]⟩
  | handshaking id => exact ⟨.handshake (.error none), by simp [QuicRequests.step]⟩
  | connected id c =>
    refine ⟨.go, ?_⟩
    unfold QuicRequests.step
    dsimp only
    split <;> simp
  | accepted id c => exact ⟨.macKey (.ok ()), by simp [QuicRequests.step]⟩
  | failing | draining => exact ⟨.go, by simp [QuicRequests.step]⟩
  | sending id c r =>
    cases hP : B.platform with
    | android => exact ⟨.answer (.android none), by simp [QuicRequests.step, Answer.platform, hP]⟩
    | ios => exact ⟨.answer (.ios (.error "")), by simp [QuicRequests.step, Answer.platform, hP]⟩
  | rejecting code message rs =>
    cases rs with
    | nil | cons => exact ⟨.go, by simp [QuicRequests.step]⟩

/-- Only a call whose promise is not settled has no next step. -/
theorem waits_of_no_step (h : ∀ x, step B t x s = none) :
    ∃ id call attempt p, t = .caller id (.waiting call attempt p) ∧
      settlement s.native p = none := by
  cases t with
  | native t =>
    obtain ⟨x, hx⟩ := exists_step t s.native
    exact absurd (map_eq_none_iff.1 (h (.native x))) hx
  | caller id c =>
    cases c with
    | waiting call attempt p =>
      exact ⟨id, call, attempt, p, rfl, map_eq_none_iff.1 (h .go)⟩
    | requesting | cancelling | pausing => exact absurd (h .go) (by simp [step, callerStep])

theorem no_step_of_advance (h : ∀ n x, w.advance (program B) n x = none) (ht : t ∈ w.threads)
    (x : Input) : step B t x w.shared = none := by
  obtain ⟨n, hlt, hn⟩ := getElem_of_mem ht
  have hnone := h n x
  unfold Pool.advance at hnone
  rw [getElem?_eq_getElem hlt, hn] at hnone
  exact map_eq_none_iff.1 hnone

theorem Inv.threads_eq_nil (h : Inv w) (hstuck : ∀ n x, w.advance (program B) n x = none) :
    w.threads = [] := by
  have hwaits : ∀ t ∈ w.threads, ∃ id call attempt p, t = .caller id (.waiting call attempt p) ∧
      settlement w.shared.native p = none :=
    fun t ht => waits_of_no_step fun x => no_step_of_advance hstuck ht x
  have hnative : w.threads.filterMap Thread.native? = [] := by
    rw [filterMap_eq_nil_iff]
    intro t ht
    obtain ⟨_, _, _, _, rfl, _⟩ := hwaits t ht
    rfl
  refine eq_nil_iff_forall_not_mem.2 fun t ht => ?_
  obtain ⟨id, call, attempt, p, rfl, hnone⟩ := hwaits t ht
  have hwaiting : (call, p) ∈ w.shared.attempts ∧ p < w.shared.native.enqueued := h.threads _ ht
  have hsettled := h.accounted.settledOnce.2.1 hnative p hwaiting.2
  have hmem : p ∈ w.shared.native.settled.map fst :=
    count_pos_iff.1 (by rw [hsettled]; exact Nat.one_pos)
  exact settlement_eq_none hnone hmem

/-- **No call is harmed by another**, in every run in which nothing is queued when a session is reset,
    and in which no native call throws. -/
theorem unharmed_of_quietResets {w : Pool State Thread}
    (h : Reach (program B) quietResets init w) : Unharmed B w := by
  have hinv := inv_of_quietResets h
  refine ⟨hinv.own, fun c => ?_, fun hstuck => ?_⟩
  · have hattempts := hinv.attempts c
    split at hattempts <;> omega
  · have hnil := hinv.threads_eq_nil hstuck
    refine ⟨hnil, fun c hc => ?_⟩
    have honce := hinv.once c
    rw [hnil, if_pos hc] at honce
    exact (Nat.zero_add _).symm.trans honce

/-- An answer of the server, as the native module of the platform passes it on. -/
def answer (P : Platform) (status : Nat) (body : String) : Answer :=
  match P with
  | .android => .android (some ⟨some status, none, some body, some (decide (status = 200)), none⟩)
  | .ios => .ios (.ok (UInt16.ofNat status, body.toUTF8.toList))

/-- A worker, the `n`-th thread, connects. -/
def connects (P : Platform) (n : Nat) : List (Move String Input) :=
  [.step n (.native (.identity (.ok ()))), .step n (.native (.handshake (.ok (some "did:zhtp:v")))),
    .step n (.native .go)] ++
    match P with
    | .android => []
    | .ios => [.step n (.native (.macKey (.ok ())))]

/-- It takes a request and has the answer. -/
def answers (P : Platform) (n : Nat) (status : Nat) (body : String) : List (Move String Input) :=
  [.step n (.native .go), .step n (.native (.answer (answer P status body)))]

/-- One call, whose session turns out to be out of step, and which succeeds with the next one. -/
def recovers : List (Move String Input) :=
  [.call "a1", .step 0 .go] ++ connects .android 1 ++ answers .android 1 401 "Invalid counter" ++
    [.step 1 (.native .go), .step 0 .go, .step 0 .go, .step 1 (.native .go), .step 0 .go,
      .step 0 .go] ++
    connects .android 1 ++ answers .android 1 200 "" ++ [.step 1 (.native .go), .step 0 .go]

theorem unharmed_recovers : ∃ w, Reach (program ⟨.android, false⟩) quietResets init w ∧
    w.shared.attempts = [(0, 1), (0, 0)] ∧
    w.shared.ended = [(0, .resolved ⟨200, "", "", true⟩)] ∧ Unharmed ⟨.android, false⟩ w := by
  have hrun : (Pool.run (program ⟨.android, false⟩) quietResets
      ⟨⟨QuicRequests.State.initial "did:zhtp:v", 0, [], []⟩, []⟩ recovers).map
        (fun w => (w.shared.attempts, w.shared.ended)) =
      some ([(0, 1), (0, 0)], [(0, .resolved ⟨200, "", "", true⟩)]) := by decide
  obtain ⟨w, hw, heq⟩ := map_eq_some_iff.1 hrun
  obtain ⟨hattempts, hended⟩ := Prod.mk.inj heq
  have hreach : Reach (program ⟨.android, false⟩) quietResets init w := .of_run ⟨_, rfl⟩ hw
  exact ⟨w, hreach, hattempts, hended, unharmed_of_quietResets hreach⟩

/-- The same, while a second call is in the queue. -/
def resetsWhileQueued (P : Platform) : List (Move String Input) :=
  [.call "a1", .call "a1", .step 0 .go, .step 2 .go] ++ connects P 1 ++
    answers P 1 401 "Invalid counter" ++ [.step 0 .go, .step 0 .go]

/-- On iOS the first call recovers, and the second one is left over. -/
def leavesOneWaiting : List (Move String Input) :=
  resetsWhileQueued .ios ++ [.step 1 (.native .go), .step 0 .go, .step 0 .go] ++ connects .ios 1 ++
    answers .ios 1 200 "" ++ [.step 1 (.native .go), .step 0 .go]

/-- The promise that the thread waits for. -/
def Thread.promise? : Thread → Option Nat
  | .caller _ (.waiting _ _ p) => some p
  | _ => none

theorem advance_eq_none (hthreads : w.threads.map Thread.promise? = [some p])
    (hnone : settlement w.shared.native p = none) (n : Nat) (x : Input) :
    w.advance (program B) n x = none := by
  obtain ⟨t, ht, hp⟩ := map_eq_singleton_iff.1 hthreads
  unfold Pool.advance
  rw [ht]
  cases n with
  | zero =>
    match t, hp with
    | .caller id (.waiting call attempt p'), hp =>
      cases hp
      cases x with
      | native x => rfl
      | go =>
        refine map_eq_none_iff.2 ?_
        exact map_eq_none_iff.2 hnone
  | succ n => rfl

/-- On Android the second call is rejected with the cancellation; on iOS it waits for ever. -/
theorem not_unharmed :
    (∃ w, Reach (program ⟨.android, false⟩) Cond.any init w ∧ ¬ Unharmed ⟨.android, false⟩ w) ∧
    ∃ w, Reach (program ⟨.ios, false⟩) Cond.any init w ∧ ¬ Unharmed ⟨.ios, false⟩ w := by
  refine ⟨?_, ?_⟩
  · have hrun : (Pool.run (program ⟨.android, false⟩) Cond.any
        ⟨⟨QuicRequests.State.initial "did:zhtp:v", 0, [], []⟩, []⟩
        (resetsWhileQueued .android ++ [.step 1 (.native .go), .step 3 .go])).map
          (fun w => w.shared.ended) = some [(1, cancelled)] := by decide
    obtain ⟨w, hw, hended⟩ := map_eq_some_iff.1 hrun
    refine ⟨w, .of_run ⟨_, rfl⟩ hw, fun h => ?_⟩
    exact (h.own (1, cancelled) (by rw [hended]; exact mem_cons_self)).1 rfl
  · have hrun : (Pool.run (program ⟨.ios, false⟩) Cond.any
        ⟨⟨QuicRequests.State.initial "did:zhtp:v", 0, [], []⟩, []⟩ leavesOneWaiting).map
          (fun w => (w.threads.map Thread.promise?, settlement w.shared.native 1)) =
        some ([some 1], none) := by decide +kernel
    obtain ⟨w, hw, heq⟩ := map_eq_some_iff.1 hrun
    obtain ⟨hthreads, hnone⟩ := Prod.mk.inj heq
    refine ⟨w, .of_run ⟨_, rfl⟩ hw, fun h => ?_⟩
    have hnil := (h.ends (advance_eq_none hthreads hnone)).1
    rw [hnil] at hthreads
    simp at hthreads

end SessionRecovery
