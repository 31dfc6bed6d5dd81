import SovereignMobile.Threads.Basic
import Mathlib.Algebra.Ring.Nat

/-! # The request rate of the Android client

`SubmissionClient.kt`: `requestChallenge` and `submitBatch` look at the timestamps of earlier requests,
send one or two native requests, and write a timestamp when they are through. The calls of a client run
side by side, on a clock that does not go back. What the requests contain is left out. -/

namespace SubmissionClient

open Threads List Bool

def MAX_REQUESTS_PER_MINUTE : Nat := 50

def RATE_LIMIT_WINDOW_MS : Int := 60000

def MAX_BATCH_SIZE : Nat := 100

/-- History: when native requests were issued. -/
structure State where
  now : Int
  requestTimestamps : List Int
  issued : List Int

/-- Where a call stands: before `checkRateLimit`, before each of its native requests and until they are
    answered, and before `recordRequest`. -/
inductive Stage where
  | checking
  | primary
  | atPrimary
  | legacy
  | atLegacy
  | recording
deriving DecidableEq

inductive Input where
  | go
  /-- the native library is not there: `request` answers in its place -/
  | notInitialized
  /-- what `withContext` returns; 0 is a status that is no `Int` -/
  | response (status : Int)
  /-- an exception, or the coroutine is cancelled -/
  | fails
deriving DecidableEq

/-- `requestTimestamps.removeAll { now - it > RATE_LIMIT_WINDOW_MS }` -/
def State.cleanUp (s : State) : State :=
  { s with requestTimestamps :=
      s.requestTimestamps.filter fun it => !decide (s.now - it > RATE_LIMIT_WINDOW_MS) }

/-- `NativeQuicBridge.request` -/
def State.issue (s : State) : State := { s with issued := s.now :: s.issued }

def State.recordRequest (s : State) : State :=
  { s with requestTimestamps := s.requestTimestamps ++ [s.now] }

def step (t : Stage) (x : Input) (s : State) : Option (State × List Stage) :=
  match t, x with
  | .checking, .go =>
    -- "Rate limit exceeded."
    if s.cleanUp.requestTimestamps.length ≥ MAX_REQUESTS_PER_MINUTE then some (s.cleanUp, [])
    else some (s.cleanUp, [.primary])
  | .primary, .go => some (s.issue, [.atPrimary])
  | .primary, .notInitialized => some (s, [.recording])
  | .atPrimary, .response status => some (s, if status ≠ 404 then [.recording] else [.legacy])
  | .legacy, .go => some (s.issue, [.atLegacy])
  | .legacy, .notInitialized => some (s, [.recording])
  | .atLegacy, .response _ => some (s, [.recording])
  | .recording, .go => some (s.recordRequest, [])
  -- the payload cannot be built or signed, or the coroutine is cancelled
  | .primary, .fails => some (s, [])
  | .atPrimary, .fails => some (s, [])
  | .legacy, .fails => some (s, [])
  | .atLegacy, .fails => some (s, [])
  | _, _ => none

inductive Call where
  | requestChallenge
  | submitBatch (receipts : Nat)
  /-- time passes -/
  | elapse (ms : Nat)

def call (c : Call) (s : State) : State × List Stage :=
  match c with
  | .requestChallenge => (s, [.checking])
  | .submitBatch receipts =>
    -- no receipts are a success, and too many an exception
    (s, if receipts = 0 ∨ receipts > MAX_BATCH_SIZE then [] else [.checking])
  | .elapse ms => ({ s with now := s.now + ms }, [])

def program : Program State Stage Call Input := ⟨call, step⟩

/-- A new client, at any time. -/
def init (s : State) : Prop := s.requestTimestamps = [] ∧ s.issued = []

/-- How many of the times are in the window that begins at `a`, both ends included. -/
def inWindow (a : Int) (times : List Int) : Nat :=
  times.countP fun t => a ≤ t ∧ t ≤ a + RATE_LIMIT_WINDOW_MS

/-- In no window were more requests issued than allowed. -/
def State.RateLimited (s : State) : Prop := ∀ a, inWindow a s.issued ≤ MAX_REQUESTS_PER_MINUTE

/-! ## The condition -/

/-- Between the check and the timestamp. -/
def Stage.underWay : Stage → Bool
  | .checking => false
  | _ => true

/-- A call that the check lets through finds room beside the calls under way, no primary path is
    answered with 404, and no call ends between its native request and its timestamp. -/
def countsAll : Cond State Stage Call Input := fun w m =>
  match m with
  | .call _ => true
  | .step n x =>
    match w.threads[n]? with
    | some .checking =>
      let timestamps := w.shared.cleanUp.requestTimestamps.length
      timestamps ≥ MAX_REQUESTS_PER_MINUTE ||
        timestamps + w.threads.countP Stage.underWay < MAX_REQUESTS_PER_MINUTE
    | some .atPrimary => decide (x ≠ .fails ∧ x ≠ .response 404)
    | _ => true

/-! ## The invariant -/

/-- How many of the times are `a` or later. -/
def since (a : Int) (times : List Int) : Nat := times.countP fun t => a ≤ t

/-- The native request is issued, the timestamp not yet written. -/
def Stage.unrecorded : Stage → Bool
  | .atPrimary => true
  | .recording => true
  | _ => false

/-- Whatever was issued in the last minute has a timestamp, or will have one; and there is a place for
    each call under way. -/
structure Inv (w : Pool State Stage) : Prop where
  stages : ∀ t ∈ w.threads, t ≠ .legacy ∧ t ≠ .atLegacy
  past : ∀ t ∈ w.shared.issued, t ≤ w.shared.now
  counted : ∀ a, w.shared.now - RATE_LIMIT_WINDOW_MS ≤ a →
    since a w.shared.issued ≤ since a w.shared.requestTimestamps +
      w.threads.countP Stage.unrecorded
  room : since (w.shared.now - RATE_LIMIT_WINDOW_MS) w.shared.requestTimestamps +
    w.threads.countP Stage.underWay ≤ MAX_REQUESTS_PER_MINUTE
  limited : w.shared.RateLimited

section Counts
variable {a b t : Int} {times : List Int}

theorem since_anti (h : a ≤ b) (times : List Int) : since b times ≤ since a times := by
  apply countP_mono_left
  intro t _ ht
  exact decide_eq_true (Int.le_trans h (of_decide_eq_true ht))

theorem since_snoc : since a (times ++ [t]) = since a times + if a ≤ t then 1 else 0 := by
  unfold since
  rw [countP_append]
  simp

theorem since_cons : since a (t :: times) = since a times + if a ≤ t then 1 else 0 := by
  unfold since
  rw [countP_cons]
  simp

theorem since_eq_zero (h : ∀ t ∈ times, t < a) : since a times = 0 := by
  unfold since
  rw [countP_eq_zero]
  intro t ht
  have := h t ht
  simp
  omega

theorem inWindow_le_since (a : Int) (times : List Int) : inWindow a times ≤ since a times := by
  apply countP_mono_left
  intro t _ ht
  exact decide_eq_true (of_decide_eq_true ht).1

/-- Cleaning up takes nothing away that is of the last minute. -/
theorem since_cleanUp (s : State) (h : s.now - RATE_LIMIT_WINDOW_MS ≤ a) :
    since a s.cleanUp.requestTimestamps = since a s.requestTimestamps := by
  unfold since State.cleanUp
  rw [countP_filter]
  apply countP_congr
  intro t _
  simp only [and_eq_true, not_eq_true', decide_eq_true_eq, decide_eq_false_iff_not]
  omega

/-- What is left after it is of the last minute. -/
theorem length_cleanUp (s : State) : s.cleanUp.requestTimestamps.length =
    since (s.now - RATE_LIMIT_WINDOW_MS) s.requestTimestamps := by
  rw [← since_cleanUp s (Int.le_refl _), since, eq_comm, countP_eq_length]
  intro t ht
  have hkept := (mem_filter.1 ht).2
  simp only [not_eq_true', decide_eq_false_iff_not] at hkept
  exact decide_eq_true (by omega)

end Counts

section Steps
variable {s : State} {pre post ts : List Stage} {t : Stage}

variable {threads : List Stage}

theorem Inv.cleanUp (hw : Inv ⟨s, threads⟩) : Inv ⟨s.cleanUp, threads⟩ where
  stages := hw.stages
  past := hw.past
  counted a ha := by
    have hcounted := hw.counted a ha
    rwa [← since_cleanUp s ha] at hcounted
  room := by
    have hroom := hw.room
    rwa [← since_cleanUp s (Int.le_refl _)] at hroom
  limited := hw.limited

theorem Inv.goesOn (hw : Inv ⟨s, pre ++ t :: post⟩)
    (hstages : ∀ u ∈ ts, u ≠ .legacy ∧ u ≠ .atLegacy)
    (hunrecorded : [t].countP Stage.unrecorded ≤ ts.countP Stage.unrecorded)
    (hunderWay : ts.countP Stage.underWay ≤ [t].countP Stage.underWay) :
    Inv ⟨s, pre ++ (ts ++ post)⟩ := by
  have hsplit : pre ++ t :: post = pre ++ ([t] ++ post) := rfl
  constructor
  · intro u hu
    rcases mem_stepped hu with hnew | hold
    · exact hstages u hnew
    · exact hw.stages u hold
  · exact hw.past
  · intro a ha
    have hcounted := hw.counted a ha
    rw [hsplit] at hcounted
    simp only [countP_append] at hcounted ⊢
    omega
  · have hroom := hw.room
    rw [hsplit] at hroom
    simp only [countP_append] at hroom ⊢
    omega
  · exact hw.limited

theorem Inv.passes (hw : Inv ⟨s, pre ++ .checking :: post⟩)
    (hroom : s.cleanUp.requestTimestamps.length +
      (pre ++ .checking :: post).countP Stage.underWay < MAX_REQUESTS_PER_MINUTE) :
    Inv ⟨s.cleanUp, pre ++ ([.primary] ++ post)⟩ := by
  have hclean := hw.cleanUp
  have hone : [Stage.primary].countP Stage.underWay = 1 := rfl
  have hsplit : pre ++ .checking :: post = pre ++ ([.checking] ++ post) := rfl
  have hnone' : [Stage.checking].countP Stage.unrecorded = 0 := rfl
  constructor
  · intro u hu
    rcases mem_stepped hu with hnew | hold
    · rw [mem_singleton.1 hnew]
      decide
    · exact hw.stages u hold
  · exact hclean.past
  · intro a ha
    have hcounted := hclean.counted a ha
    rw [hsplit] at hcounted
    simp only [countP_append] at hcounted ⊢
    omega
  · rw [length_cleanUp, hsplit] at hroom
    have hsame : since (s.cleanUp.now - RATE_LIMIT_WINDOW_MS) s.cleanUp.requestTimestamps =
        since (s.now - RATE_LIMIT_WINDOW_MS) s.requestTimestamps := since_cleanUp s (Int.le_refl _)
    rw [hsame]
    simp only [countP_append] at hroom ⊢
    omega
  · exact hclean.limited

theorem Inv.issues (hw : Inv ⟨s, pre ++ .primary :: post⟩) :
    Inv ⟨s.issue, pre ++ ([.atPrimary] ++ post)⟩ := by
  have hsplit : pre ++ .primary :: post = pre ++ ([.primary] ++ post) := rfl
  have hone : [Stage.atPrimary].countP Stage.unrecorded = 1 := rfl
  have hnone : [Stage.primary].countP Stage.unrecorded = 0 := rfl
  have hsame : [Stage.atPrimary].countP Stage.underWay = [Stage.primary].countP Stage.underWay := rfl
  have hcounted : ∀ a, s.now - RATE_LIMIT_WINDOW_MS ≤ a →
      since a s.issue.issued ≤ since a s.requestTimestamps +
        (pre ++ ([Stage.atPrimary] ++ post)).countP Stage.unrecorded := by
    intro a ha
    have hold := hw.counted a ha
    rw [hsplit] at hold
    have hnew : since a s.issue.issued ≤ since a s.issued + 1 := by
      rw [State.issue, since_cons]
      split <;> omega
    simp only [countP_append] at hold ⊢
    omega
  have hroom : since (s.now - RATE_LIMIT_WINDOW_MS) s.requestTimestamps +
      (pre ++ ([Stage.atPrimary] ++ post)).countP Stage.underWay ≤ MAX_REQUESTS_PER_MINUTE := by
    have hold := hw.room
    rw [hsplit] at hold
    simp only [countP_append] at hold ⊢
    omega
  constructor
  · intro u hu
    rcases mem_stepped hu with hnew | hold
    · rw [mem_singleton.1 hnew]
      decide
    · exact hw.stages u hold
  · intro t ht
    rcases mem_cons.1 ht with rfl | ht
    · exact Int.le_refl _
    · exact hw.past t ht
  · exact hcounted
  · exact hroom
  intro a
  by_cases hin : a ≤ s.now ∧ s.now ≤ a + RATE_LIMIT_WINDOW_MS
  · -- the window reaches back no further than the timestamps
    have hunrecorded : (pre ++ ([Stage.atPrimary] ++ post)).countP Stage.unrecorded ≤
        (pre ++ ([Stage.atPrimary] ++ post)).countP Stage.underWay := by
      apply countP_mono_left
      intro u _ hu
      cases u with
      | checking => cases hu
      | _ => rfl
    have hback : s.now - RATE_LIMIT_WINDOW_MS ≤ a := by omega
    calc inWindow a s.issue.issued ≤ since a s.issue.issued := inWindow_le_since a _
      _ ≤ since a s.requestTimestamps + (pre ++ ([Stage.atPrimary] ++ post)).countP Stage.unrecorded :=
          hcounted a hback
      _ ≤ since (s.now - RATE_LIMIT_WINDOW_MS) s.requestTimestamps +
            (pre ++ ([Stage.atPrimary] ++ post)).countP Stage.underWay :=
          Nat.add_le_add (since_anti hback _) hunrecorded
      _ ≤ MAX_REQUESTS_PER_MINUTE := hroom
  · have hsame : inWindow a s.issue.issued = inWindow a s.issued := by
      unfold inWindow State.issue
      rw [countP_cons_of_neg]
      simpa using hin
    rw [hsame]
    exact hw.limited a

theorem Inv.records (hw : Inv ⟨s, pre ++ .recording :: post⟩) :
    Inv ⟨s.recordRequest, pre ++ ([] ++ post)⟩ := by
  have hsplit : pre ++ .recording :: post = pre ++ ([.recording] ++ post) := rfl
  have hone : [Stage.recording].countP Stage.unrecorded = 1 := rfl
  have hone' : [Stage.recording].countP Stage.underWay = 1 := rfl
  constructor
  · intro u hu
    exact hw.stages u ((mem_stepped hu).resolve_left (by simp))
  · exact hw.past
  · intro a ha
    have hold := hw.counted a ha
    rw [hsplit] at hold
    show since a s.issued ≤ since a (s.requestTimestamps ++ [s.now]) + _
    rw [since_snoc]
    by_cases hle : a ≤ s.now
    · rw [if_pos hle]
      simp only [countP_append] at hold ⊢
      omega
    have hzero : since a s.issued = 0 := since_eq_zero fun t ht => by
      have hpast : t ≤ s.now := hw.past t ht
      omega
    rw [hzero]
    exact Nat.zero_le _
  · have hold := hw.room
    rw [hsplit] at hold
    have hnew : since (s.now - RATE_LIMIT_WINDOW_MS) s.recordRequest.requestTimestamps ≤
        since (s.now - RATE_LIMIT_WINDOW_MS) s.requestTimestamps + 1 := by
      rw [State.recordRequest, since_snoc]
      split <;> omega
    show since (s.now - RATE_LIMIT_WINDOW_MS) s.recordRequest.requestTimestamps + _ ≤ _
    simp only [countP_append, countP_nil] at hold ⊢
    omega
  · exact hw.limited

theorem Inv.elapse (hw : Inv ⟨s, threads⟩) (ms : Nat) :
    Inv ⟨{ s with now := s.now + ms }, threads⟩ := by
  constructor
  · exact hw.stages
  · intro t ht
    have hpast : t ≤ s.now := hw.past t ht
    show t ≤ s.now + ms
    omega
  · intro a ha
    have ha' : s.now + ms - RATE_LIMIT_WINDOW_MS ≤ a := ha
    apply hw.counted a
    show s.now - RATE_LIMIT_WINDOW_MS ≤ a
    omega
  · have hle : since (s.now + ms - RATE_LIMIT_WINDOW_MS) s.requestTimestamps ≤
        since (s.now - RATE_LIMIT_WINDOW_MS) s.requestTimestamps := since_anti (by omega) _
    exact Nat.le_trans (Nat.add_le_add_right hle _) hw.room
  · exact hw.limited

end Steps

theorem Inv.step {s s' : State} {pre post ts : List Stage} {t : Stage} {x : Input}
    (hw : Inv ⟨s, pre ++ t :: post⟩)
    (hc : countsAll ⟨s, pre ++ t :: post⟩ (.step pre.length x) = true)
    (hstep : step t x s = some (s', ts)) : Inv ⟨s', pre ++ (ts ++ post)⟩ := by
  have hthread : (pre ++ t :: post)[pre.length]? = some t := by simp
  have ⟨hlegacy, hatLegacy⟩ := hw.stages t (by simp)
  unfold SubmissionClient.step at hstep
  split at hstep
  · -- the check
    split at hstep
    · cases hstep
      exact hw.cleanUp.goesOn (by simp) (by decide) (by decide)
    rename_i hlet
    cases hstep
    simp only [countsAll, hthread, or_eq_true, decide_eq_true_eq] at hc
    exact hw.passes (hc.resolve_left hlet)
  · cases hstep
    exact hw.issues
  · cases hstep
    exact hw.goesOn (by simp) (by decide) (by decide)
  · -- no 404
    rename_i status
    simp only [countsAll, hthread, decide_eq_true_eq] at hc
    have hstatus : status ≠ 404 := fun h => hc.2 (congrArg Input.response h)
    rw [if_pos hstatus] at hstep
    cases hstep
    exact hw.goesOn (by simp) (by decide) (by decide)
  · exact absurd rfl hlegacy
  · exact absurd rfl hlegacy
  · exact absurd rfl hatLegacy
  · cases hstep
    exact hw.records
  · cases hstep
    exact hw.goesOn (by simp) (by decide) (by decide)
  · simp only [countsAll, hthread, decide_eq_true_eq] at hc
    exact absurd rfl hc.1
  · exact absurd rfl hlegacy
  · exact absurd rfl hatLegacy
  · cases hstep

theorem inv_of_reach {w : Pool State Stage} (h : Reach program countsAll init w) : Inv w := by
  apply Reach.invariant ?_ ?_ ?_ h
  · rintro s ⟨htimestamps, hissued⟩
    constructor
    · intro t ht
      cases ht
    · intro t ht
      rw [hissued] at ht
      cases ht
    · intro a _
      rw [hissued]
      exact Nat.zero_le _
    · rw [htimestamps]
      exact Nat.zero_le _
    · intro a
      rw [hissued]
      exact Nat.zero_le _
  · intro w c _ hw _
    have hchecking : Inv ⟨w.shared, w.threads ++ [.checking]⟩ := by
      constructor
      · intro t ht
        rcases mem_append.1 ht with ht | ht
        · exact hw.stages t ht
        · rw [mem_singleton.1 ht]
          decide
      · exact hw.past
      · intro a ha
        rw [countP_append]
        exact hw.counted a ha
      · rw [countP_append]
        exact hw.room
      · exact hw.limited
    cases c with
    | requestChallenge => exact hchecking
    | submitBatch receipts =>
      unfold Pool.call program call
      dsimp only
      split
      · rw [append_nil]
        exact hw
      · exact hchecking
    | elapse ms =>
      unfold Pool.call program call
      rw [append_nil]
      exact hw.elapse ms
  · intro s pre t post x s' ts _ hw hc hstep
    exact hw.step hc hstep

/-- **No window of a minute has more than 50 native requests**, in every run in which a call is let
    through only with room for those under way, and every native request gets its timestamp. -/
theorem rate_limited {w : Pool State Stage} (h : Reach program countsAll init w) :
    w.shared.RateLimited :=
  (inv_of_reach h).limited

/-- A challenge is requested and, a second later, one receipt submitted. -/
def challengeAndReceipt : List (Move Call Input) :=
  [.call .requestChallenge, .step 0 .go, .step 0 .go, .step 0 (.response 200), .step 0 .go,
    .call (.elapse 1000), .call (.submitBatch 1), .step 0 .go, .step 0 .go, .step 0 (.response 202),
    .step 0 .go]

def opened : State := ⟨0, [], []⟩

theorem rate_limited_challengeAndReceipt :
    ∃ w, Reach program countsAll init w ∧ w.shared.issued = [1000, 0] ∧ w.shared.RateLimited := by
  have hrun : (Pool.run program countsAll ⟨opened, []⟩ challengeAndReceipt).map
      (fun w => w.shared.issued) = some [1000, 0] := by decide
  obtain ⟨w, hw, hissued⟩ := Option.map_eq_some_iff.1 hrun
  have hreach : Reach program countsAll init w := .of_run ⟨rfl, rfl⟩ hw
  exact ⟨w, hreach, hissued, rate_limited hreach⟩

/-- Every one of the calls looks before any of them has written a timestamp. -/
def atOnce : List (Move Call Input) :=
  List.replicate 51 (.call .requestChallenge) ++ (List.range 51).map (.step · .go) ++
    (List.range 51).map (.step · .go)

theorem fifty_one_at_once : ¬ ∀ w, Reach program Cond.any init w → w.shared.RateLimited := by
  intro h
  have hrun : (Pool.run program Cond.any ⟨opened, []⟩ atOnce).map
      (fun w => w.shared.issued) = some (replicate 51 0) := by decide +kernel
  obtain ⟨w, hw, hissued⟩ := Option.map_eq_some_iff.1 hrun
  have hlimited := h w (.of_run ⟨rfl, rfl⟩ hw) 0
  rw [hissued] at hlimited
  exact nomatch hlimited

end SubmissionClient
