import Mathlib.Data.List.Infix
import SovereignMobile.EventLoop.Sequential

/-! # Reward triggers

The claims that `RewardsService.ts` makes by itself: `welcome` when an identity is activated, and
`daily_checkin` then and whenever the app comes to the foreground. The guards against repeated claims are
variables of the module, one for all identities. -/

namespace RewardsService

open EventLoop List Option

/-- A call of a trigger, and whether it has made a claim; the outcome of a check-in that was made for a
    day. -/
inductive Entry where
  | welcome (did : String) (attempted : Bool)
  | checkin (did : String) (day : Nat) (attempted : Bool)
  | succeeded (did : String) (day : Nat)
  | failed (did : String) (day : Nat)
  deriving DecidableEq

inductive Phase where
  | sleeping | claiming | ended
  deriving DecidableEq

/-- A call of `fireWelcomeClaim` in its loop. -/
structure WelcomeRun where
  did : String
  attempt : Nat
  phase : Phase

/-- A `daily_checkin` claim. -/
structure Checkin where
  did : String
  day : Nat
  settled : Bool

structure State where
  welcomeFired : Bool := false
  lastCheckinUtcDay : Option Nat := none
  today : Nat := 0
  /-- `currentIdentity?.did` of the effect that ran last. -/
  did : Option String := none
  welcomes : List WelcomeRun := []
  checkins : List Checkin := []
  -- history: the newest entry is the first
  log : List Entry := []

inductive Event where
  | setIdentity (did : Option String)
  | foreground
  | nextDay
  | checkinSettles (i : Nat) (ok : Bool)
  | welcomeSettles (i : Nat) (ok : Bool)
  | wakes (i : Nat)

def backoffMs : List Nat := [0, 8000, 24000]

/-- How an attempt begins, if there is one. -/
def phaseOf (attempt : Nat) : Phase :=
  match backoffMs[attempt]? with
  | none => .ended
  | some ms => if 0 < ms then .sleeping else .claiming

namespace State

def fireWelcomeClaim (s : State) (did : String) : State :=
  if did = "" then s
  else if s.welcomeFired then { s with log := .welcome did false :: s.log }
  else
    { s with
      welcomeFired := true
      welcomes := s.welcomes ++ [⟨did, 0, phaseOf 0⟩]
      log := .welcome did (phaseOf 0 = .claiming) :: s.log }

def fireDailyCheckin (s : State) (did : String) : State :=
  if did = "" then s
  else if s.lastCheckinUtcDay = some s.today then { s with log := .checkin did s.today false :: s.log }
  else
    { s with
      lastCheckinUtcDay := some s.today
      checkins := s.checkins ++ [⟨did, s.today, false⟩]
      log := .checkin did s.today true :: s.log }

/-- The effect runs when the DID has changed. -/
def rewardsEffect (s : State) (did : Option String) : State :=
  if did = s.did then s
  else
    match did with
    | none => { s with did := none }
    | some d => (({ s with did := some d } : State).fireWelcomeClaim d).fireDailyCheckin d

/-- The claim was made, or its error re-arms the guard. -/
def settleCheckin (s : State) (i : Nat) (ok : Bool) : State :=
  match s.checkins[i]? with
  | none => s
  | some c =>
    if c.settled then s
    else
      let checkins := s.checkins.set i { c with settled := true }
      if ok then { s with checkins := checkins, log := .succeeded c.did c.day :: s.log }
      else
        { s with
          checkins := checkins
          lastCheckinUtcDay := none
          log := .failed c.did c.day :: s.log }

def settleWelcome (s : State) (i : Nat) (ok : Bool) : State :=
  match s.welcomes[i]? with
  | some ⟨did, attempt, .claiming⟩ =>
    { s with
      welcomes := s.welcomes.set i
        (if ok then ⟨did, attempt, .ended⟩ else ⟨did, attempt + 1, phaseOf (attempt + 1)⟩) }
  | _ => s

def wake (s : State) (i : Nat) : State :=
  match s.welcomes[i]? with
  | some ⟨did, attempt, .sleeping⟩ =>
    { s with welcomes := s.welcomes.set i ⟨did, attempt, .claiming⟩ }
  | _ => s

def step (s : State) : Event → State
  | .setIdentity did => s.rewardsEffect did
  | .foreground => match s.did with
    | none => s
    | some did => s.fireDailyCheckin did
  | .nextDay => { s with today := s.today + 1 }
  | .checkinSettles i ok => s.settleCheckin i ok
  | .welcomeSettles i ok => s.settleWelcome i ok
  | .wakes i => s.wake i

end State

/-! ## Triggers of one's own -/

/-- A check-in of the day has failed since the last call for it. -/
def failedSince (did : String) (day : Nat) : List Entry → Bool
  | [] => false
  | .checkin d t _ :: log => if d = did ∧ t = day then false else failedSince did day log
  | .failed d t :: log => if d = did ∧ t = day then true else failedSince did day log
  | _ :: log => failedSince did day log

/-- The check-in of the day has not succeeded, and has not been called for, or has failed since. -/
def Due (log : List Entry) (did : String) (day : Nat) : Prop :=
  .succeeded did day ∉ log ∧
    ((∀ attempted, .checkin did day attempted ∉ log) ∨ failedSince did day log = true)

/-- What an identity may expect of a call, after those before. -/
def Fulfilled (log : List Entry) : Entry → Prop
  | .welcome did attempted => (∀ a, .welcome did a ∉ log) → attempted = true
  | .checkin did day attempted =>
    (Due log did day → attempted = true) ∧ (.succeeded did day ∈ log → attempted = false)
  | _ => True

def OwnTriggers (s : State) : Prop :=
  ∀ e log, e :: log <:+ s.log → Fulfilled log e

/-- The last attempt or failure was a failure. -/
def failedLast : List Entry → Bool
  | [] => false
  | .checkin _ _ true :: _ => false
  | .failed _ _ :: _ => true
  | _ :: log => failedLast log

/-- The check-in of today has succeeded, and another one has failed since, with no attempt after that. -/
def Rearmed (s : State) (did : String) : Prop :=
  .succeeded did s.today ∈ s.log ∧ failedLast s.log = true

/-- One DID is activated in a launch, and nothing comes for it on a day whose check-in has succeeded when
    another one has failed since. -/
def Allows (s : State) : Event → Prop
  | .setIdentity (some did) =>
    did = "" ∨ some did = s.did ∨ (∀ d a, .welcome d a ∈ s.log → d = did) ∧ ¬Rearmed s did
  | .foreground => ∀ did, s.did = some did → did = "" ∨ ¬Rearmed s did
  | _ => True

variable {s t : State} {did : String}

theorem ownTriggers_cons {e : Entry} (h : t.log = e :: s.log) :
    OwnTriggers t ↔ Fulfilled s.log e ∧ OwnTriggers s := by
  unfold OwnTriggers
  rw [h]
  constructor
  · intro hall
    constructor
    · exact hall e s.log suffix_rfl
    · intro e' log hsuffix
      exact hall e' log (hsuffix.trans (suffix_cons e s.log))
  · rintro ⟨hhead, htail⟩ e' log hsuffix
    rcases suffix_cons_iff.1 hsuffix with heq | hsuffix
    · obtain ⟨rfl, rfl⟩ := cons.inj heq
      exact hhead
    · exact htail e' log hsuffix

/-! ## What the guards know -/

/-- The guards and the history, where one DID has been activated. -/
structure Kept (s : State) : Prop where
  fired : s.welcomeFired = true ↔ ∃ d a, .welcome d a ∈ s.log
  single : ∀ d a d' a', .welcome d a ∈ s.log → .welcome d' a' ∈ s.log → d = d'
  called : ∀ d t a, .checkin d t a ∈ s.log → t ≤ s.today ∧ ∃ a', .welcome d a' ∈ s.log
  succeeded : ∀ d t, .succeeded d t ∈ s.log → .checkin d t true ∈ s.log
  attempts : ∀ c ∈ s.checkins, .checkin c.did c.day true ∈ s.log
  armed : ∀ t, s.lastCheckinUtcDay = some t →
    ∃ d, .checkin d t true ∈ s.log ∧ failedSince d t s.log = false
  rearmed : failedLast s.log = true → s.lastCheckinUtcDay = none
  standing : failedLast s.log = false → ∀ d t, .checkin d t true ∈ s.log →
    ∃ t', s.lastCheckinUtcDay = some t' ∧ t ≤ t'

/-- Whose effect has run has been welcomed. -/
def Welcomed (s : State) : Prop :=
  ∀ d, s.did = some d → d = "" ∨ ∃ a, .welcome d a ∈ s.log

section
variable {s : State} {did : String}

/-- The guard of a day whose check-in has succeeded. -/
theorem Kept.guard_iff (h : Kept s) (hsucceeded : .succeeded did s.today ∈ s.log) :
    s.lastCheckinUtcDay = some s.today ↔ failedLast s.log = false := by
  constructor
  · intro hguard
    rw [← Bool.not_eq_true]
    intro hfailed
    rw [h.rearmed hfailed] at hguard
    cases hguard
  · intro hstanding
    obtain ⟨t, ht, hle⟩ := h.standing hstanding did s.today (h.succeeded _ _ hsucceeded)
    obtain ⟨d, hmem, -⟩ := h.armed t ht
    rw [ht, Nat.le_antisymm (h.called _ _ _ hmem).1 hle]

variable {a b : Bool}

/-- While the guard stands, no check-in of the one DID is due. -/
theorem Kept.not_due (h : Kept s) (hdid : .welcome did a ∈ s.log)
    (hguard : s.lastCheckinUtcDay = some s.today) : ¬Due s.log did s.today := by
  obtain ⟨d, hmem, hfailed⟩ := h.armed _ hguard
  obtain ⟨a', hother⟩ := (h.called _ _ _ hmem).2
  rw [h.single d a' did a hother hdid] at hmem hfailed
  rintro ⟨-, hnone | hsince⟩
  · exact hnone true hmem
  · rw [hfailed] at hsince
    cases hsince

/-- A check-in is as it should be exactly if the guard has not been re-armed after a success. -/
theorem Kept.fulfilled_checkin (h : Kept s) (hdid : .welcome did a ∈ s.log) :
    Fulfilled s.log (.checkin did s.today (!decide (s.lastCheckinUtcDay = some s.today))) ↔
      ¬Rearmed s did := by
  constructor
  · rintro ⟨-, hnot⟩ ⟨hsucceeded, hlast⟩
    have hguard := hnot hsucceeded
    rw [Bool.not_eq_false', decide_eq_true_eq, h.guard_iff hsucceeded, hlast] at hguard
    cases hguard
  intro hnot
  constructor
  · intro hdue
    rw [Bool.not_eq_true', decide_eq_false_iff_not]
    intro hguard
    exact h.not_due hdid hguard hdue
  · intro hsucceeded
    rw [Bool.not_eq_false', decide_eq_true_eq, h.guard_iff hsucceeded, ← Bool.not_eq_true]
    intro hlast
    exact hnot ⟨hsucceeded, hlast⟩

theorem fireDailyCheckin_log (hne : did ≠ "") : (s.fireDailyCheckin did).log =
      .checkin did s.today (!decide (s.lastCheckinUtcDay = some s.today)) :: s.log := by
  rw [State.fireDailyCheckin, if_neg hne]
  split
  · rename_i hguard
    rw [decide_eq_true hguard]
    rfl
  · rename_i hguard
    rw [decide_eq_false hguard]
    rfl

/-- Another check-in of a DID that has been welcomed is of no later day than today. -/
theorem Kept.called_checkin (h : Kept s) (hdid : .welcome did a ∈ s.log) (d : String) (t : Nat)
    (b' : Bool) (hmem : .checkin d t b' ∈ Entry.checkin did s.today b :: s.log) :
    t ≤ s.today ∧ ∃ a', .welcome d a' ∈ Entry.checkin did s.today b :: s.log := by
  rcases mem_cons.1 hmem with heq | hmem
  · cases heq
    exact ⟨le_rfl, a, mem_cons_of_mem _ hdid⟩
  · obtain ⟨hle, a', hwelcome⟩ := h.called d t b' hmem
    exact ⟨hle, a', mem_cons_of_mem _ hwelcome⟩

/-- A check-in is no success yet. -/
theorem Kept.succeeded_checkin (h : Kept s) (d : String) (t : Nat)
    (hmem : .succeeded d t ∈ Entry.checkin did s.today b :: s.log) :
    .checkin d t true ∈ Entry.checkin did s.today b :: s.log := by
  rcases mem_cons.1 hmem with heq | hmem
  · cases heq
  · exact mem_cons_of_mem _ (h.succeeded d t hmem)

theorem Kept.fireDailyCheckin (h : Kept s) (hdid : .welcome did a ∈ s.log) (hne : did ≠ "") :
    Kept (s.fireDailyCheckin did) := by
  rw [State.fireDailyCheckin, if_neg hne]
  split
  · -- skipped: the guard and the attempts are as before
    constructor
    · simpa using h.fired
    · simpa using h.single
    · exact h.called_checkin hdid
    · exact h.succeeded_checkin
    · exact fun c hc => mem_cons_of_mem _ (h.attempts c hc)
    · intro t ht
      obtain ⟨d, hmem, hfailed⟩ := h.armed t ht
      refine ⟨d, mem_cons_of_mem _ hmem, ?_⟩
      rw [failedSince, hfailed, ite_self]
    · exact h.rearmed
    · intro hlast d t hmem
      rcases mem_cons.1 hmem with heq | hmem
      · cases heq
      · exact h.standing hlast d t hmem
  · -- attempted: the guard is set to today, and no attempt is of a later day
    constructor
    · simpa using h.fired
    · simpa using h.single
    · exact h.called_checkin hdid
    · exact h.succeeded_checkin
    · intro c hc
      rcases mem_append.1 hc with hc | hc
      · exact mem_cons_of_mem _ (h.attempts c hc)
      · rw [mem_singleton.1 hc]
        exact mem_cons_self
    · intro t ht
      rw [← some.inj ht]
      exact ⟨did, mem_cons_self, if_pos ⟨rfl, rfl⟩⟩
    · exact fun hlast => absurd hlast Bool.false_ne_true
    · exact fun _ d t hmem => ⟨s.today, rfl, (h.called_checkin hdid d t true hmem).1⟩

/-- The first welcome is claimed; another one is as it should be if it is for the same DID. -/
theorem fireWelcomeClaim_spec (h : Kept s) (hne : did ≠ "") :
    (OwnTriggers (s.fireWelcomeClaim did) ↔ OwnTriggers s ∧ ∀ d a, .welcome d a ∈ s.log → d = did) ∧
    ((∀ d a, .welcome d a ∈ s.log → d = did) → Kept (s.fireWelcomeClaim did)) ∧
    ∃ a, (s.fireWelcomeClaim did).log = .welcome did a :: s.log := by
  have hlog : (s.fireWelcomeClaim did).log = .welcome did (!s.welcomeFired) :: s.log := by
    rw [State.fireWelcomeClaim, if_neg hne]
    split
    · rename_i hfired
      rw [hfired]
      rfl
    rename_i hfired
    rw [Bool.not_eq_true] at hfired
    rw [hfired]
    rfl
  refine ⟨?_, ?_, _, hlog⟩
  · rw [ownTriggers_cons hlog, and_comm]
    refine and_congr_right fun _ => ?_
    constructor
    · intro hfulfilled d a hmem
      by_contra hother
      have hfirst : ∀ a', .welcome did a' ∉ s.log := fun a' hmem' => hother (h.single d a did a' hmem hmem')
      have hnot := hfulfilled hfirst
      rw [h.fired.2 ⟨d, a, hmem⟩] at hnot
      cases hnot
    · intro hsingle hfirst
      rw [Bool.not_eq_true', ← Bool.not_eq_true]
      intro hfired
      obtain ⟨d, a, hmem⟩ := h.fired.1 hfired
      exact hfirst a (hsingle d a hmem ▸ hmem)
  · intro hsingle
    have hfields : (s.fireWelcomeClaim did).welcomeFired = true ∧
        (s.fireWelcomeClaim did).lastCheckinUtcDay = s.lastCheckinUtcDay ∧
        (s.fireWelcomeClaim did).today = s.today ∧ (s.fireWelcomeClaim did).checkins = s.checkins := by
      rw [State.fireWelcomeClaim, if_neg hne]
      split
      · rename_i hfired
        exact ⟨hfired, rfl, rfl, rfl⟩
      · exact ⟨rfl, rfl, rfl, rfl⟩
    obtain ⟨hfired, hguard, htoday, hcheckins⟩ := hfields
    have hsame : ∀ d a, .welcome d a ∈ Entry.welcome did (!s.welcomeFired) :: s.log → d = did := by
      intro d a hmem
      rcases mem_cons.1 hmem with heq | hmem
      · cases heq
        rfl
      · exact hsingle d a hmem
    constructor
    · rw [hfired, hlog]
      exact iff_of_true rfl ⟨did, _, mem_cons_self⟩
    · rw [hlog]
      intro d a d' a' hmem hmem'
      rw [hsame d a hmem, hsame d' a' hmem']
    · rw [hlog, htoday]
      intro d t b hmem
      rcases mem_cons.1 hmem with heq | hmem
      · cases heq
      · obtain ⟨hle, a', hwelcome⟩ := h.called d t b hmem
        exact ⟨hle, a', mem_cons_of_mem _ hwelcome⟩
    · rw [hlog]
      simpa using h.succeeded
    · rw [hlog, hcheckins]
      exact fun c hc => mem_cons_of_mem _ (h.attempts c hc)
    · rw [hlog, hguard]
      intro t ht
      obtain ⟨d, hmem, hfailed⟩ := h.armed t ht
      exact ⟨d, mem_cons_of_mem _ hmem, hfailed⟩
    · rw [hlog, hguard]
      exact h.rearmed
    · rw [hlog, hguard]
      intro hlast d t hmem
      rcases mem_cons.1 hmem with heq | hmem
      · cases heq
      · exact h.standing hlast d t hmem

/-- An outcome is put down for the attempt that it is of. -/
theorem settleCheckin_cases (s : State) (i : Nat) (ok : Bool) : s.settleCheckin i ok = s ∨
      ∃ c ∈ s.checkins, s.settleCheckin i ok = { s with
          checkins := s.checkins.set i { c with settled := true }
          lastCheckinUtcDay := if ok then s.lastCheckinUtcDay else none
          log := (if ok then .succeeded c.did c.day else .failed c.did c.day) :: s.log } := by
  rw [State.settleCheckin]
  split
  · exact .inl rfl
  rename_i c hc
  split
  · exact .inl rfl
  refine .inr ⟨c, mem_of_getElem? hc, ?_⟩
  cases ok with
  | false | true => rfl

theorem Kept.settled (h : Kept s) {c : Checkin} (hc : c ∈ s.checkins) (i : Nat) (ok : Bool) :
    Kept { s with
      checkins := s.checkins.set i { c with settled := true }
      lastCheckinUtcDay := if ok then s.lastCheckinUtcDay else none
      log := (if ok then .succeeded c.did c.day else .failed c.did c.day) :: s.log } := by
  have hattempts : ∀ c' ∈ s.checkins.set i { c with settled := true },
      .checkin c'.did c'.day true ∈ s.log := by
    intro c' hc'
    rcases mem_or_eq_of_mem_set hc' with hc' | rfl
    · exact h.attempts c' hc'
    · exact h.attempts c hc
  cases ok with
  | true =>
    constructor
    · simpa using h.fired
    · simpa using h.single
    · simpa using h.called
    · intro d t hmem
      rcases mem_cons.1 hmem with heq | hmem
      · cases heq
        exact mem_cons_of_mem _ (h.attempts c hc)
      · exact mem_cons_of_mem _ (h.succeeded d t hmem)
    · exact fun c' hc' => mem_cons_of_mem _ (hattempts c' hc')
    · intro t ht
      obtain ⟨d, hmem, hfailed⟩ := h.armed t ht
      exact ⟨d, mem_cons_of_mem _ hmem, hfailed⟩
    · exact h.rearmed
    · intro hlast d t hmem
      rcases mem_cons.1 hmem with heq | hmem
      · cases heq
      · exact h.standing hlast d t hmem
  | false =>
    constructor
    · simpa using h.fired
    · simpa using h.single
    · simpa using h.called
    · intro d t hmem
      rcases mem_cons.1 hmem with heq | hmem
      · cases heq
      · exact mem_cons_of_mem _ (h.succeeded d t hmem)
    · exact fun c' hc' => mem_cons_of_mem _ (hattempts c' hc')
    · exact fun t ht => nomatch ht
    · exact fun _ => rfl
    · exact fun hlast => nomatch hlast

end

/-! ## Every step -/

theorem Welcomed.of_log (h : Welcomed s) (hdid : t.did = s.did)
    (hlog : ∀ d a, .welcome d a ∈ s.log → .welcome d a ∈ t.log) : Welcomed t := by
  intro d hd
  rw [hdid] at hd
  rcases h d hd with hempty | ⟨a, hmem⟩
  · exact .inl hempty
  · exact .inr ⟨a, hlog d a hmem⟩

theorem Kept.congr (h : Kept s) (hfired : t.welcomeFired = s.welcomeFired)
    (hguard : t.lastCheckinUtcDay = s.lastCheckinUtcDay) (htoday : s.today ≤ t.today)
    (hcheckins : t.checkins = s.checkins) (hlog : t.log = s.log) : Kept t := by
  constructor
  · rw [hfired, hlog]
    exact h.fired
  · rw [hlog]
    exact h.single
  · rw [hlog]
    intro d day a hmem
    obtain ⟨hle, hwelcome⟩ := h.called d day a hmem
    exact ⟨Nat.le_trans hle htoday, hwelcome⟩
  · rw [hlog]
    exact h.succeeded
  · rw [hlog, hcheckins]
    exact h.attempts
  · rw [hlog, hguard]
    exact h.armed
  · rw [hlog, hguard]
    exact h.rearmed
  · rw [hlog, hguard]
    exact h.standing

/-- A check-in, for the DID that has been activated. -/
theorem fireDailyCheckin_spec (h : Kept s) (hne : did ≠ "") {a : Bool}
    (hdid : .welcome did a ∈ s.log) :
    (OwnTriggers (s.fireDailyCheckin did) ↔ OwnTriggers s ∧ ¬Rearmed s did) ∧
      Kept (s.fireDailyCheckin did) ∧ (s.fireDailyCheckin did).did = s.did := by
  refine ⟨?_, h.fireDailyCheckin hdid hne, ?_⟩
  · rw [ownTriggers_cons (fireDailyCheckin_log hne), h.fulfilled_checkin hdid, and_comm]
  · rw [State.fireDailyCheckin, if_neg hne]
    split <;> rfl

/-- The effect of another DID. -/
theorem activated_spec (h : Kept s) (hown : OwnTriggers s) (hne : did ≠ "")
    (hother : some did ≠ s.did) :
    let t := (({ s with did := some did } : State).fireWelcomeClaim did).fireDailyCheckin did
    (OwnTriggers t ↔ Allows s (.setIdentity (some did))) ∧
      (Allows s (.setIdentity (some did)) → Kept t ∧ Welcomed t) := by
  have hkept : Kept { s with did := some did } := h.congr rfl rfl le_rfl rfl rfl
  obtain ⟨hwelcome, hsingle, a, hlog⟩ := fireWelcomeClaim_spec hkept hne
  have hdid : (({ s with did := some did } : State).fireWelcomeClaim did).did = some did ∧
      (({ s with did := some did } : State).fireWelcomeClaim did).today = s.today := by
    rw [State.fireWelcomeClaim, if_neg hne]
    split <;> exact ⟨rfl, rfl⟩
  generalize ({ s with did := some did } : State).fireWelcomeClaim did = w at hwelcome hsingle hlog hdid ⊢
  have hmem : .welcome did a ∈ w.log := by
    rw [hlog]
    exact mem_cons_self
  have hrearmed : Rearmed w did ↔ Rearmed s did := by
    rw [Rearmed, Rearmed, hlog, hdid.2]
    simp [failedLast]
  have hallows : Allows s (.setIdentity (some did)) ↔
      (∀ d b, .welcome d b ∈ s.log → d = did) ∧ ¬Rearmed s did := by
    rw [Allows, or_iff_right hne, or_iff_right hother]
  have howns : OwnTriggers { s with did := some did } := hown
  rw [hallows]
  intro t
  constructor
  · constructor
    · intro ht
      have hw : OwnTriggers w := ((ownTriggers_cons (fireDailyCheckin_log hne)).1 ht).2
      have hone := (hwelcome.1 hw).2
      have hcheckin := (fireDailyCheckin_spec (hsingle hone) hne hmem).1.1 ht
      exact ⟨hone, fun hr => hcheckin.2 (hrearmed.2 hr)⟩
    · rintro ⟨hone, hnot⟩
      refine (fireDailyCheckin_spec (hsingle hone) hne hmem).1.2 ⟨hwelcome.2 ⟨howns, hone⟩, ?_⟩
      exact fun hr => hnot (hrearmed.1 hr)
  · rintro ⟨hone, -⟩
    obtain ⟨-, hkept', hsame⟩ := fireDailyCheckin_spec (hsingle hone) hne hmem
    refine ⟨hkept', ?_⟩
    intro d hd
    rw [hsame, hdid.1] at hd
    refine .inr ⟨a, ?_⟩
    rw [fireDailyCheckin_log hne, ← some.inj hd]
    exact mem_cons_of_mem _ hmem

theorem step_spec (h : Kept s ∧ Welcomed s) (hown : OwnTriggers s) (e : Event) :
    (OwnTriggers (s.step e) ↔ Allows s e) ∧ (Allows s e → Kept (s.step e) ∧ Welcomed (s.step e)) := by
  obtain ⟨hkept, hwelcomed⟩ := h
  cases e with
  | setIdentity did =>
    by_cases hsame : did = s.did
    · have heq : s.step (.setIdentity did) = s := if_pos hsame
      rw [heq]
      refine ⟨iff_of_true hown ?_, fun _ => ⟨hkept, hwelcomed⟩⟩
      cases did with
      | none => trivial
      | some d => exact .inr (.inl hsame)
    · cases did with
      | none =>
        have heq : s.step (.setIdentity none) = { s with did := none } := if_neg hsame
        rw [heq]
        refine ⟨iff_of_true hown trivial, fun _ => ⟨?_, fun d hd => nomatch hd⟩⟩
        exact hkept.congr rfl rfl le_rfl rfl rfl
      | some d =>
        have heq : s.step (.setIdentity (some d)) =
            (({ s with did := some d } : State).fireWelcomeClaim d).fireDailyCheckin d := if_neg hsame
        rw [heq]
        by_cases hempty : d = ""
        · -- no identity
          rw [State.fireDailyCheckin, if_pos hempty, State.fireWelcomeClaim, if_pos hempty]
          refine ⟨iff_of_true hown (.inl hempty), fun _ => ⟨?_, ?_⟩⟩
          · exact hkept.congr rfl rfl le_rfl rfl rfl
          intro d' hd
          rw [← some.inj hd]
          exact .inl hempty
        · exact activated_spec hkept hown hempty hsame
  | foreground =>
    cases hs : s.did with
    | none =>
      have heq : s.step .foreground = s := by rw [State.step, hs]
      rw [heq]
      refine ⟨iff_of_true hown fun d hd => ?_, fun _ => ⟨hkept, hwelcomed⟩⟩
      rw [hs] at hd
      cases hd
    | some did =>
      have heq : s.step .foreground = s.fireDailyCheckin did := by rw [State.step, hs]
      have hallows : Allows s .foreground ↔ did = "" ∨ ¬Rearmed s did := by
        constructor
        · exact fun h => h did hs
        intro h d hd
        rw [hs] at hd
        rwa [← some.inj hd]
      rw [heq, hallows]
      by_cases hempty : did = ""
      · rw [State.fireDailyCheckin, if_pos hempty]
        exact ⟨iff_of_true hown (.inl hempty), fun _ => ⟨hkept, hwelcomed⟩⟩
      obtain ⟨a, hdid⟩ := (hwelcomed did hs).resolve_left hempty
      obtain ⟨hiff, hkept', hsame⟩ := fireDailyCheckin_spec hkept hempty hdid
      rw [hiff, and_iff_right hown, or_iff_right hempty]
      refine ⟨.rfl, fun _ => ⟨hkept', hwelcomed.of_log hsame fun d b hmem => ?_⟩⟩
      rw [fireDailyCheckin_log hempty]
      exact mem_cons_of_mem _ hmem
  | nextDay =>
    refine ⟨iff_of_true hown trivial, fun _ => ⟨?_, hwelcomed⟩⟩
    exact hkept.congr rfl rfl (Nat.le_succ _) rfl rfl
  | checkinSettles i ok =>
    rw [State.step]
    rcases settleCheckin_cases s i ok with heq | ⟨c, hc, heq⟩
    · rw [heq]
      exact ⟨iff_of_true hown trivial, fun _ => ⟨hkept, hwelcomed⟩⟩
    rw [heq]
    have hfulfilled : Fulfilled s.log (if ok then .succeeded c.did c.day else .failed c.did c.day) := by
      cases ok <;> trivial
    refine ⟨iff_of_true ((ownTriggers_cons rfl).2 ⟨hfulfilled, hown⟩) trivial, fun _ => ⟨?_, ?_⟩⟩
    · exact hkept.settled hc i ok
    · exact hwelcomed.of_log rfl fun d a hmem => mem_cons_of_mem _ hmem
  | welcomeSettles i ok =>
    rw [State.step, State.settleWelcome]
    split
    · exact ⟨iff_of_true hown trivial, fun _ => ⟨hkept.congr rfl rfl le_rfl rfl rfl, hwelcomed⟩⟩
    · exact ⟨iff_of_true hown trivial, fun _ => ⟨hkept, hwelcomed⟩⟩
  | wakes i =>
    rw [State.step, State.wake]
    split
    · exact ⟨iff_of_true hown trivial, fun _ => ⟨hkept.congr rfl rfl le_rfl rfl rfl, hwelcomed⟩⟩
    · exact ⟨iff_of_true hown trivial, fun _ => ⟨hkept, hwelcomed⟩⟩

/-! ## Launches -/

theorem kept_launch (today : Nat) : Kept { today := today } where
  fired := iff_of_false Bool.false_ne_true fun ⟨_, _, hmem⟩ => nomatch hmem
  single _ _ _ _ hmem := nomatch hmem
  called _ _ _ hmem := nomatch hmem
  succeeded _ _ hmem := nomatch hmem
  attempts _ hc := nomatch hc
  armed _ ht := nomatch ht
  rearmed _ := rfl
  standing _ _ _ hmem := nomatch hmem

theorem ownTriggers_launch (today : Nat) : OwnTriggers { today := today } := by
  intro e log hsuffix
  exact absurd (eq_nil_of_suffix_nil hsuffix) (cons_ne_nil e log)

theorem own_triggers_iff (today : Nat) (events : List Event) :
    HoldsThroughout State.step OwnTriggers { today := today } events ↔
      StepsMeet State.step Allows { today := today } events :=
  holdsThroughout_iff_of_kept (fun _ e h hown => step_spec h hown e) events _
    ⟨kept_launch today, fun _ hd => nomatch hd⟩ (ownTriggers_launch today)

/-- A check-in of yesterday that fails late is followed by a second one of today. -/
example : ([Event.setIdentity (some "did:zhtp:a"), .nextDay, .foreground, .checkinSettles 1 true,
    .checkinSettles 0 false, .foreground].foldl State.step {}).log.take 3 =
      [.checkin "did:zhtp:a" 1 true, .failed "did:zhtp:a" 0, .succeeded "did:zhtp:a" 1] := by decide

/-- Two identities on one day: the second is neither welcomed nor checked in. -/
theorem second_identity_skipped :
    ([Event.setIdentity (some "did:zhtp:a"), .setIdentity (some "did:zhtp:b")].foldl State.step {}).log =
      [.checkin "did:zhtp:b" 0 false, .welcome "did:zhtp:b" false, .checkin "did:zhtp:a" 0 true,
        .welcome "did:zhtp:a" true] ∧
    ¬ ∀ (today : Nat) (events : List Event),
      HoldsThroughout State.step OwnTriggers { today := today } events := by
  have hlog : ([Event.setIdentity (some "did:zhtp:a"), .setIdentity (some "did:zhtp:b")].foldl
      State.step {}).log = [.checkin "did:zhtp:b" 0 false, .welcome "did:zhtp:b" false,
        .checkin "did:zhtp:a" 0 true, .welcome "did:zhtp:a" true] := by decide
  refine ⟨hlog, fun hall => ?_⟩
  have hown := (hall 0 [.setIdentity (some "did:zhtp:a"), .setIdentity (some "did:zhtp:b")]).last
  have hsuffix : Entry.welcome "did:zhtp:b" false :: [.checkin "did:zhtp:a" 0 true,
      .welcome "did:zhtp:a" true] <:+ ([Event.setIdentity (some "did:zhtp:a"),
        .setIdentity (some "did:zhtp:b")].foldl State.step {}).log := by
    rw [hlog]
    exact suffix_cons _ _
  exact absurd (hown _ _ hsuffix (by simp)) Bool.false_ne_true

end RewardsService
