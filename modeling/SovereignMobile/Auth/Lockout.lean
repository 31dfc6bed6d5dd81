import SovereignMobile.Auth.RateLimiter

/-! # How long a lockout lasts

Five failures announce a lockout of 30 minutes. The record that it rests on is dropped by whoever looks
at it more than 15 minutes after the first of them. -/

namespace Auth.RateLimiter

open EventLoop List Option
open Function (update update_eq_self update_of_ne update_self)

/-! ## Calls of the limiter -/

/-- What the limiter says, or would say, of an identifier whose record is looked at, and until when it
    had announced to block it. -/
structure Look where
  time : Nat
  announced : List Nat
  blocked : Bool

structure Limiter where
  attempts : String → Option AttemptRecord := fun _ => none
  now : Nat
  -- history: the failures since the last reset, the ends of the lockouts announced since the last
  -- `clearAttempts`, and every look at a record
  failures : String → Nat := fun _ => 0
  announced : String → List Nat := fun _ => []
  looks : List Look := []

inductive Call where
  | recordAttempt (identifier : String)
  | isBlocked (identifier : String)
  | getRemainingAttempts (identifier : String)
  | clearAttempts (identifier : String)
  deriving DecidableEq

namespace Limiter

/-- The record as a query leaves it. A reset starts the count anew. -/
def leave (s : Limiter) (identifier : String) (record : Option AttemptRecord) : Limiter :=
  { s with
    attempts := Function.update s.attempts identifier record
    failures := Function.update s.failures identifier
      (if record.isNone then 0 else s.failures identifier)
    looks :=
      { time := s.now
        announced := s.announced identifier
        blocked := (RateLimiter.isBlocked s.now (s.attempts identifier)).1.blocked } :: s.looks }

def announce (s : Limiter) (identifier : String) (lockedUntil : Nat) : Limiter :=
  { s with announced := Function.update s.announced identifier (lockedUntil :: s.announced identifier) }

def recordAttempt (s : Limiter) (identifier : String) : Limiter :=
  let record := RateLimiter.recordAttempt s.now (s.attempts identifier)
  let failures := s.failures identifier + 1
  let s' := { s with
    attempts := Function.update s.attempts identifier (some record)
    failures := Function.update s.failures identifier failures }
  if maxAttempts ≤ failures then s'.announce identifier (s.now + lockoutMs) else s'

/-- The last of the announced seconds may have begun already. -/
def isBlocked (s : Limiter) (identifier : String) : Limiter :=
  let (status, record) := RateLimiter.isBlocked s.now (s.attempts identifier)
  match status.retryAfterSeconds with
  | none => s.leave identifier record
  | some r => (s.leave identifier record).announce identifier (s.now + (r - 1) * 1000)

def getRemainingAttempts (s : Limiter) (identifier : String) : Limiter :=
  s.leave identifier (RateLimiter.getRemainingAttempts s.now (s.attempts identifier)).2

def clearAttempts (s : Limiter) (identifier : String) : Limiter :=
  { s with
    attempts := Function.update s.attempts identifier none
    failures := Function.update s.failures identifier 0
    announced := Function.update s.announced identifier [] }

def call (s : Limiter) : Call → Limiter
  | .recordAttempt identifier => s.recordAttempt identifier
  | .isBlocked identifier => s.isBlocked identifier
  | .getRemainingAttempts identifier => s.getRemainingAttempts identifier
  | .clearAttempts identifier => s.clearAttempts identifier

def wait (s : Limiter) (elapsed : Nat) : Limiter := { s with now := s.now + elapsed }

/-- A call, so many milliseconds after the one before. -/
def step (s : Limiter) (c : Nat × Call) : Limiter := (s.wait c.1).call c.2

/-- Whoever has been announced to be locked out is blocked whenever somebody looks, and no attempts remain
    exactly while the limiter blocks. -/
structure LastsAsAnnounced (s : Limiter) : Prop where
  blocked : ∀ q ∈ s.looks, (∃ e ∈ q.announced, q.time < e) → q.blocked = true
  none_remaining : ∀ identifier t, s.now ≤ t →
    ((RateLimiter.getRemainingAttempts t (s.attempts identifier)).1 = 0 ↔
      (RateLimiter.isBlocked t (s.attempts identifier)).1.blocked = true)

/-- Nobody looks at a record of five failures or more between the end of its window and the end of the
    lockout. -/
def NotBetween (now : Nat) (record : Option AttemptRecord) : Prop :=
  ∀ r ∈ record, maxAttempts ≤ r.count → now < r.lastAttempt + lockoutMs → ¬r.Expired now

def Allows (s : Limiter) : Nat × Call → Prop
  | (elapsed, .isBlocked identifier) | (elapsed, .getRemainingAttempts identifier) =>
    NotBetween (s.now + elapsed) (s.attempts identifier)
  | _ => True

/-! ## The records and the history -/

/-- The record of an identifier counts the failures since the last reset, and from the fifth on the lockout
    is announced. -/
structure Counts (now : Nat) (record : Option AttemptRecord) (failures : Nat) (announced : List Nat) :
    Prop where
  ordered : ∀ r, record = some r → r.Ordered now
  count : failures = (record.map AttemptRecord.count).getD 0
  announces : ∀ r, record = some r → maxAttempts ≤ r.count → r.lastAttempt + lockoutMs ∈ announced

/-- A lockout that goes on has a record behind it. -/
def Backed (now : Nat) (record : Option AttemptRecord) (announced : List Nat) : Prop :=
  ∀ e ∈ announced, now < e →
    ∃ r, record = some r ∧ maxAttempts ≤ r.count ∧ e ≤ r.lastAttempt + lockoutMs

section
variable {now later failures : Nat} {record : Option AttemptRecord} {announced : List Nat}

theorem Counts.wait (h : Counts now record failures announced) (hle : now ≤ later) :
    Counts later record failures announced where
  ordered r hr := ⟨(h.ordered r hr).first_le, Nat.le_trans (h.ordered r hr).last_le hle⟩
  count := h.count
  announces := h.announces

theorem Backed.wait (h : Backed now record announced) (hle : now ≤ later) :
    Backed later record announced := by
  intro e he hlt
  exact h e he (Nat.lt_of_le_of_lt hle hlt)

theorem Counts.announce (h : Counts now record failures announced) (e : Nat) :
    Counts now record failures (e :: announced) where
  ordered := h.ordered
  count := h.count
  announces r hr hcount := mem_cons_of_mem e (h.announces r hr hcount)

theorem counts_none (now : Nat) (announced : List Nat) : Counts now none 0 announced where
  ordered _ hr := nomatch hr
  count := rfl
  announces _ hr := nomatch hr

variable {left : Option AttemptRecord}

theorem Counts.look (h : Counts now record failures announced) (hleft : left = none ∨ left = record)
    :
    Counts now left (if left.isNone then 0 else failures) announced := by
  rcases hleft with rfl | rfl
  · exact counts_none now announced
  cases hr : left with
  | none => exact counts_none now announced
  | some r =>
    rw [hr] at h
    exact h

/-- The fifth failure and those after it announce a lockout. -/
theorem Counts.recordAttempt (h : Counts now record failures announced) :
    Counts now (some (RateLimiter.recordAttempt now record)) (failures + 1)
      (if maxAttempts ≤ failures + 1 then (now + lockoutMs) :: announced else announced) := by
  have hcount : (RateLimiter.recordAttempt now record).count = failures + 1 := by
    rw [h.count]
    cases record with
    | none | some => rfl
  have hlast : (RateLimiter.recordAttempt now record).lastAttempt = now := by
    cases record with
    | none | some => rfl
  constructor
  · intro r hr
    rw [← some.inj hr]
    exact ordered_recordAttempt h.ordered
  · exact hcount.symm
  intro r hr hle
  rw [← some.inj hr] at hle ⊢
  rw [hcount] at hle
  rw [if_pos hle, hlast]
  exact mem_cons_self

theorem Backed.recordAttempt (hc : Counts now record failures announced)
    (h : Backed now record announced) :
    Backed now (some (RateLimiter.recordAttempt now record))
      (if maxAttempts ≤ failures + 1 then (now + lockoutMs) :: announced else announced) := by
  have hcount := hc.recordAttempt.count
  have hlast : (RateLimiter.recordAttempt now record).lastAttempt = now := by
    cases record with
    | none | some => rfl
  have hold : ∀ e ∈ announced, now < e → ∃ r, some (RateLimiter.recordAttempt now record) = some r ∧
      maxAttempts ≤ r.count ∧ e ≤ r.lastAttempt + lockoutMs := by
    intro e he hlt
    obtain ⟨r, hr, hle, hend⟩ := h e he hlt
    have hordered := (hc.ordered r hr).last_le
    refine ⟨_, rfl, ?_, ?_⟩
    · rw [hr]
      exact Nat.le_succ_of_le hle
    · rw [hlast]
      omega
  intro e he hlt
  split at he
  · rename_i hfifth
    rcases mem_cons.1 he with rfl | he
    · refine ⟨_, rfl, ?_, ?_⟩
      · rw [map_some, getD_some] at hcount
        rwa [← hcount]
      · rw [hlast]
    · exact hold e he hlt
  · exact hold e he hlt

/-- What is left of a record by either query. -/
theorem left_of_look (h : ∀ r, record = some r → r.Ordered now) :
    (RateLimiter.isBlocked now record).2 = record.filter (fun r => ¬r.Expired now) ∧
      (RateLimiter.getRemainingAttempts now record).2 = record.filter (fun r => ¬r.Expired now) := by
  cases record with
  | none => exact ⟨rfl, rfl⟩
  | some r =>
    have hfilter : (some r).filter (fun r => ¬r.Expired now) = if r.Expired now then none else some r := by
      rw [filter_some]
      by_cases hexp : r.Expired now <;> simp
    rw [hfilter, getRemainingAttempts_snd]
    exact ⟨checkRecord_snd (h r rfl), rfl⟩

/-- Whoever looks finds a lockout that goes on exactly if he does not look between. -/
theorem blocked_iff_notBetween (hc : Counts now record failures announced)
    (h : Backed now record announced) :
    ((∃ e ∈ announced, now < e) → (RateLimiter.isBlocked now record).1.blocked = true) ↔
      NotBetween now record := by
  constructor
  · intro hblocked r hr hcount hlt
    have hb := hblocked ⟨_, hc.announces r hr hcount, hlt⟩
    rw [hr] at hb
    exact ((checkRecord_blocked (hc.ordered r hr)).1 hb).1
  · rintro hnot ⟨e, he, hlt⟩
    obtain ⟨r, hr, hcount, hend⟩ := h e he hlt
    have hexp := hnot r hr hcount (Nat.lt_of_lt_of_le hlt hend)
    rw [hr]
    exact (checkRecord_blocked (hc.ordered r hr)).2 ⟨hexp, hcount⟩

theorem Backed.look (h : Backed now record announced) (hnot : NotBetween now record) :
    Backed now (record.filter fun r => ¬r.Expired now) announced := by
  intro e he hlt
  obtain ⟨r, hr, hcount, hend⟩ := h e he hlt
  have hexp := hnot r hr hcount (Nat.lt_of_lt_of_le hlt hend)
  refine ⟨r, ?_, hcount, hend⟩
  rw [hr, filter_some, if_pos (decide_eq_true hexp)]

/-- The seconds that are announced end before the lockout does. -/
theorem Backed.announce {seconds : Nat} (hc : Counts now record failures announced)
    (h : Backed now left announced) (hleft : left = record.filter fun r => ¬r.Expired now)
    (hr : (RateLimiter.isBlocked now record).1.retryAfterSeconds = some seconds) :
    Backed now left ((now + (seconds - 1) * 1000) :: announced) := by
  intro e he hlt
  rcases mem_cons.1 he with rfl | he
  · cases hrec : record with
    | none =>
      rw [hrec] at hr
      cases hr
    | some r =>
      rw [hrec] at hr hleft
      obtain ⟨hexp, hcount, hlock, hseconds⟩ := checkRecord_retryAfterSeconds hr
      refine ⟨r, ?_, hcount, ?_⟩
      · rw [hleft, filter_some, if_pos (decide_eq_true hexp)]
      · unfold lockoutMs at hlock hseconds ⊢
        omega
  · exact h e he hlt

end

/-! ## Every step -/

/-- The invariant of the histories in which nobody looks between. -/
structure Sound (s : Limiter) : Prop where
  counts : ∀ x, Counts s.now (s.attempts x) (s.failures x) (s.announced x)
  backed : ∀ x, Backed s.now (s.attempts x) (s.announced x)

theorem forall_update {α β γ : Type} {P : α → β → γ → Prop} {f : String → α} {g : String → β}
    {h : String → γ} {i : String} {a : α} {b : β} {c : γ} (hi : P a b c)
    (hother : ∀ x, P (f x) (g x) (h x)) :
    ∀ x, P (update f i a x) (update g i b x) (update h i c x) := by
  intro x
  by_cases hx : x = i
  · rw [hx, update_self, update_self, update_self]
    exact hi
  · rw [update_of_ne hx, update_of_ne hx, update_of_ne hx]
    exact hother x

variable {s t : Limiter} {identifier : String}

theorem none_remaining_of_counts
    (h : ∀ x, Counts s.now (s.attempts x) (s.failures x) (s.announced x)) (identifier : String)
    (t : Nat) (hle : s.now ≤ t) :
    (RateLimiter.getRemainingAttempts t (s.attempts identifier)).1 = 0 ↔
      (RateLimiter.isBlocked t (s.attempts identifier)).1.blocked = true :=
  getRemainingAttempts_eq_zero_iff ((h identifier).wait hle).ordered

theorem recordAttempt_eq (s : Limiter) (identifier : String) : s.recordAttempt identifier = { s with
        attempts := Function.update s.attempts identifier
          (some (RateLimiter.recordAttempt s.now (s.attempts identifier)))
        failures := Function.update s.failures identifier (s.failures identifier + 1)
        announced := Function.update s.announced identifier
          (if maxAttempts ≤ s.failures identifier + 1 then (s.now + lockoutMs) :: s.announced identifier
            else s.announced identifier) } := by
  rw [recordAttempt]
  split
  · rfl
  · rw [Function.update_eq_self]

theorem counts_announce (h : ∀ x, Counts t.now (t.attempts x) (t.failures x) (t.announced x))
    (identifier : String) (lockedUntil : Nat) :
    ∀ x, Counts t.now ((t.announce identifier lockedUntil).attempts x)
      ((t.announce identifier lockedUntil).failures x)
      ((t.announce identifier lockedUntil).announced x) := by
  intro x
  have hall := @forall_update _ _ _ (fun a b c => Counts t.now a b c) t.attempts t.failures t.announced
    identifier _ _ _ ((h identifier).announce lockedUntil) h x
  rwa [update_eq_self, update_eq_self] at hall

theorem backed_announce (h : ∀ x, Backed t.now (t.attempts x) (t.announced x)) {lockedUntil : Nat}
    (hnew : Backed t.now (t.attempts identifier) (lockedUntil :: t.announced identifier)) :
    ∀ x, Backed t.now ((t.announce identifier lockedUntil).attempts x)
      ((t.announce identifier lockedUntil).announced x) := by
  intro x
  have hall := @forall_update _ _ _ (fun a _ c => Backed t.now a c) t.attempts t.failures t.announced
    identifier _ 0 _ hnew h x
  rwa [update_eq_self] at hall

/-- A query of an identifier. -/
structure Looked (s : Limiter) (identifier : String) (t : Limiter) : Prop where
  counts : ∀ x, Counts t.now (t.attempts x) (t.failures x) (t.announced x)
  backed : NotBetween s.now (s.attempts identifier) →
    ∀ x, Backed t.now (t.attempts x) (t.announced x)
  looks : t.looks =
    { time := s.now
      announced := s.announced identifier
      blocked := (RateLimiter.isBlocked s.now (s.attempts identifier)).1.blocked } :: s.looks

section
variable {s t : Limiter} {identifier : String}
  (hc : ∀ x, Counts s.now (s.attempts x) (s.failures x) (s.announced x))
  (hb : ∀ x, Backed s.now (s.attempts x) (s.announced x))

include hc hb

theorem leave_looked {left : Option AttemptRecord}
    (hleft : left = (s.attempts identifier).filter fun r => ¬r.Expired s.now) :
    Looked s identifier (s.leave identifier left) where
  counts := by
    have hcases : left = none ∨ left = s.attempts identifier := by
      rw [hleft]
      cases hr : s.attempts identifier with
      | none => exact .inl rfl
      | some r =>
        rw [filter_some]
        split
        · exact .inr rfl
        · exact .inl rfl
    intro x
    have hall := @forall_update _ _ _ (fun a b c => Counts s.now a b c) s.attempts s.failures s.announced
      identifier _ _ _ ((hc identifier).look hcases) hc x
    rwa [update_eq_self] at hall
  backed := by
    intro hnot x
    have hall := @forall_update _ _ _ (fun a _ c => Backed s.now a c) s.attempts s.failures s.announced
      identifier left 0 _ (hleft ▸ (hb identifier).look hnot) hb x
    rwa [update_eq_self] at hall
  looks := rfl

theorem getRemainingAttempts_looked : Looked s identifier (s.getRemainingAttempts identifier) :=
  leave_looked hc hb (left_of_look (hc identifier).ordered).2

theorem isBlocked_looked : Looked s identifier (s.isBlocked identifier) := by
  have hleft := (left_of_look (hc identifier).ordered).1
  have hlooked := leave_looked hc hb hleft
  rw [isBlocked]
  dsimp only
  split
  · exact hlooked
  rename_i seconds hseconds
  refine ⟨counts_announce hlooked.counts _ _, ?_, hlooked.looks⟩
  intro hnot
  refine backed_announce (hlooked.backed hnot) ?_
  have hself : (s.leave identifier (RateLimiter.isBlocked s.now (s.attempts identifier)).2).attempts
      identifier = (RateLimiter.isBlocked s.now (s.attempts identifier)).2 := Function.update_self ..
  rw [hself, hleft]
  exact ((hb identifier).look hnot).announce (hc identifier) rfl hseconds

theorem recordAttempt_backed : (∀ x, Counts s.now ((s.recordAttempt identifier).attempts x)
      ((s.recordAttempt identifier).failures x) ((s.recordAttempt identifier).announced x)) ∧
    ∀ x, Backed s.now ((s.recordAttempt identifier).attempts x)
      ((s.recordAttempt identifier).announced x) := by
  rw [recordAttempt_eq]
  constructor
  · exact @forall_update _ _ _ (fun a b c => Counts s.now a b c) _ _ _ _ _ _ _
      (hc identifier).recordAttempt hc
  · intro x
    exact @forall_update _ _ _ (fun a _ c => Backed s.now a c) _ s.failures _ _ _ 0 _
      ((hb identifier).recordAttempt (hc identifier)) hb x

theorem clearAttempts_backed : (∀ x, Counts s.now ((s.clearAttempts identifier).attempts x)
      ((s.clearAttempts identifier).failures x) ((s.clearAttempts identifier).announced x)) ∧
    ∀ x, Backed s.now ((s.clearAttempts identifier).attempts x)
      ((s.clearAttempts identifier).announced x) := by
  constructor
  · exact @forall_update _ _ _ (fun a b c => Counts s.now a b c) _ _ _ _ _ _ _
      (counts_none s.now []) hc
  intro x
  refine @forall_update _ _ _ (fun a _ c => Backed s.now a c) _ s.failures _ _ _ 0 _ ?_ hb x
  intro e he
  cases he

/-- A query keeps the promise exactly if it does not come between. -/
theorem Looked.sound_and_iff (hp : LastsAsAnnounced s) (h : Looked s identifier t) :
    (LastsAsAnnounced t ↔ NotBetween s.now (s.attempts identifier)) ∧
      (NotBetween s.now (s.attempts identifier) → Sound t) := by
  have hiff : LastsAsAnnounced t ↔ NotBetween s.now (s.attempts identifier) := by
    rw [← blocked_iff_notBetween (hc identifier) (hb identifier)]
    constructor
    · intro ht
      exact ht.blocked _ (by rw [h.looks]; exact mem_cons_self)
    intro hblocked
    refine ⟨?_, none_remaining_of_counts h.counts⟩
    intro q hq
    rw [h.looks] at hq
    rcases mem_cons.1 hq with rfl | hq
    · exact hblocked
    · exact hp.blocked q hq
  exact ⟨hiff, fun hnot => ⟨h.counts, h.backed hnot⟩⟩

end

theorem step_spec (hs : Sound s) (hp : LastsAsAnnounced s) (c : Nat × Call) :
    (LastsAsAnnounced (s.step c) ↔ s.Allows c) ∧ (s.Allows c → Sound (s.step c)) := by
  obtain ⟨elapsed, c⟩ := c
  have hle : s.now ≤ s.now + elapsed := Nat.le_add_right _ _
  have hc : ∀ x, Counts (s.wait elapsed).now ((s.wait elapsed).attempts x)
      ((s.wait elapsed).failures x) ((s.wait elapsed).announced x) := fun x => (hs.counts x).wait hle
  have hb : ∀ x, Backed (s.wait elapsed).now ((s.wait elapsed).attempts x)
      ((s.wait elapsed).announced x) := fun x => (hs.backed x).wait hle
  have hp' : LastsAsAnnounced (s.wait elapsed) := ⟨hp.blocked, none_remaining_of_counts hc⟩
  cases c with
  | recordAttempt identifier =>
    obtain ⟨hcounts, hbacked⟩ := @recordAttempt_backed _ identifier hc hb
    have hlooks : ((s.wait elapsed).recordAttempt identifier).looks = s.looks := by
      rw [recordAttempt_eq]
      rfl
    have hnow : ((s.wait elapsed).recordAttempt identifier).now = (s.wait elapsed).now := by
      rw [recordAttempt_eq]
    have hkept : LastsAsAnnounced ((s.wait elapsed).recordAttempt identifier) :=
      ⟨by rw [hlooks]; exact hp.blocked, none_remaining_of_counts (by rw [hnow]; exact hcounts)⟩
    refine ⟨iff_of_true hkept trivial, fun _ => ⟨?_, ?_⟩⟩
    · rw [step, call, hnow]
      exact hcounts
    · rw [step, call, hnow]
      exact hbacked
  | isBlocked identifier => exact (isBlocked_looked hc hb).sound_and_iff hc hb hp'
  | getRemainingAttempts identifier => exact (getRemainingAttempts_looked hc hb).sound_and_iff hc hb hp'
  | clearAttempts identifier =>
    obtain ⟨hcounts, hbacked⟩ := @clearAttempts_backed _ identifier hc hb
    have hkept : LastsAsAnnounced ((s.wait elapsed).clearAttempts identifier) :=
      ⟨hp.blocked, none_remaining_of_counts hcounts⟩
    exact ⟨iff_of_true hkept trivial, fun _ => ⟨hcounts, hbacked⟩⟩

/-! ## Histories -/

theorem sound_fresh (start : Nat) : Sound { now := start } where
  counts _ := counts_none start []
  backed _ _ he := nomatch he

theorem lastsAsAnnounced_fresh (start : Nat) : LastsAsAnnounced { now := start } where
  blocked _ hq := nomatch hq
  none_remaining := none_remaining_of_counts (sound_fresh start).counts

end Limiter

theorem lockout_lasts_iff (start : Nat) (calls : List (Nat × Call)) :
    HoldsThroughout Limiter.step Limiter.LastsAsAnnounced { now := start } calls ↔
      StepsMeet Limiter.step Limiter.Allows { now := start } calls :=
  holdsThroughout_iff_of_kept (fun _ c hi hp => Limiter.step_spec hi hp c) calls _
    (Limiter.sound_fresh start) (Limiter.lastsAsAnnounced_fresh start)

/-- Five failures in five seconds, and a look after 16 minutes. -/
def fiveFailures : List (Nat × Call) :=
  List.replicate 5 (1000, .recordAttempt "alice") ++ [(960000, .isBlocked "alice")]

theorem lockout_cut_short :
    ¬ ∀ (start : Nat) (calls : List (Nat × Call)),
      HoldsThroughout Limiter.step Limiter.LastsAsAnnounced { now := start } calls := by
  intro hall
  have hlast := (hall 0 fiveFailures).last
  have hlook : (⟨965000, [1805000], false⟩) ∈
      (fiveFailures.foldl Limiter.step { now := 0 }).looks := by
    exact mem_singleton_self _
  exact absurd (hlast.blocked _ hlook ⟨1805000, mem_singleton_self _, by decide⟩)
    Bool.false_ne_true

end Auth.RateLimiter
