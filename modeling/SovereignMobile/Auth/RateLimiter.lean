import SovereignMobile.Auth.Types

/-! # The login rate limiter

`RateLimiter.ts`: failed attempts are counted per identifier, in a window that starts with the first
of them. The query itself drops a record whose window has passed. -/

namespace Auth

structure AttemptRecord where
  count : Nat
  firstAttempt : Nat
  lastAttempt : Nat
  deriving DecidableEq

structure RateLimitStatus where
  blocked : Bool
  reason : Option String := none
  retryAfterSeconds : Option Nat := none
  deriving DecidableEq

namespace RateLimiter

def maxAttempts : Nat := 5

/-- 15 minutes -/
def windowMs : Nat := 15 * 60 * 1000

/-- 30 minutes after max exceeded -/
def lockoutMs : Nat := 30 * 60 * 1000

end RateLimiter

/-- The window of the record has passed. -/
def AttemptRecord.Expired (record : AttemptRecord) (now : Nat) : Prop :=
  RateLimiter.windowMs < now - record.firstAttempt

instance (record : AttemptRecord) (now : Nat) : Decidable (record.Expired now) :=
  inferInstanceAs (Decidable (_ < _))

/-- The first attempt of a record is not after the last one, and none is in the future. -/
structure AttemptRecord.Ordered (record : AttemptRecord) (now : Nat) : Prop where
  first_le : record.firstAttempt ≤ record.lastAttempt
  last_le : record.lastAttempt ≤ now

namespace RateLimiter

/-- `isBlocked` where attempts are recorded, with what is left of the record. -/
def checkRecord (now : Nat) (record : AttemptRecord) : RateLimitStatus × Option AttemptRecord :=
  if windowMs < now - record.firstAttempt then ({ blocked := false }, none)
  else if maxAttempts ≤ record.count then
    let timeSinceLockout := now - record.lastAttempt
    if timeSinceLockout < lockoutMs then
      let remainingSeconds := (lockoutMs - timeSinceLockout + 999) / 1000
      ({ blocked := true
         reason := some s!"Too many login attempts. Please try again in {remainingSeconds} seconds."
         retryAfterSeconds := some remainingSeconds }, some record)
    else ({ blocked := false }, none)
  else
    let remainingAttempts := maxAttempts - record.count
    if remainingAttempts ≤ 2 then
      ({ blocked := false
         reason := some s!"Warning: {remainingAttempts} login attempts remaining" }, some record)
    else ({ blocked := false }, some record)

def isBlocked (now : Nat) : Option AttemptRecord → RateLimitStatus × Option AttemptRecord
  | none => ({ blocked := false }, none)
  | some record => checkRecord now record

def recordAttempt (now : Nat) : Option AttemptRecord → AttemptRecord
  | none => { count := 1, firstAttempt := now, lastAttempt := now }
  | some record => { record with count := record.count + 1, lastAttempt := now }

/-- The remaining attempts, with what is left of the record. -/
def getRemainingAttempts (now : Nat) : Option AttemptRecord → Nat × Option AttemptRecord
  | none => (maxAttempts, none)
  | some record =>
    if windowMs < now - record.firstAttempt then (maxAttempts, none)
    else (maxAttempts - record.count, some record)

variable {now : Nat} {record : AttemptRecord}

theorem ordered_recordAttempt {r : Option AttemptRecord}
    (h : ∀ record, r = some record → record.Ordered now) :
    (recordAttempt now r).Ordered now := by
  cases r with
  | none => exact ⟨le_rfl, le_rfl⟩
  | some record =>
    have hr := h record rfl
    exact ⟨Nat.le_trans hr.first_le hr.last_le, le_rfl⟩

/-- A record whose window has passed is dropped, any other is kept: the lockout, longer than the
    window, never ends by itself. -/
theorem checkRecord_snd (h : record.Ordered now) :
    (checkRecord now record).2 = if record.Expired now then none else some record := by
  have hfirst := h.first_le
  unfold checkRecord
  by_cases hexp : record.Expired now
  · rw [if_pos hexp]
    exact congrArg Prod.snd (if_pos hexp)
  rw [if_neg hexp]
  unfold AttemptRecord.Expired windowMs at hexp
  have hlock : now - record.lastAttempt < lockoutMs := by
    unfold lockoutMs
    omega
  split
  · rename_i hnot
    exact absurd hnot hexp
  split
  · exact congrArg Prod.snd (if_pos hlock)
  · dsimp only
    split <;> rfl

/-- The limiter blocks exactly while five attempts are counted in a window that has not passed. -/
theorem checkRecord_blocked (h : record.Ordered now) :
    (checkRecord now record).1.blocked = true ↔ ¬record.Expired now ∧ maxAttempts ≤ record.count := by
  have hfirst := h.first_le
  unfold checkRecord
  split
  · rename_i hexp
    constructor
    · exact fun hb => nomatch hb
    · rintro ⟨hnot, _⟩
      exact absurd hexp hnot
  rename_i hexp
  split
  · rename_i hcount
    have hlock : now - record.lastAttempt < lockoutMs := by
      unfold windowMs at hexp
      unfold lockoutMs
      omega
    rw [if_pos hlock]
    exact ⟨fun _ => ⟨hexp, hcount⟩, fun _ => rfl⟩
  · rename_i hcount
    constructor
    · intro hb
      dsimp only at hb
      split at hb <;> simp at hb
    · rintro ⟨_, hle⟩
      exact absurd hle hcount

/-- Seconds are only announced by an answer that blocks, and are counted from the last attempt. -/
theorem checkRecord_retryAfterSeconds {seconds : Nat}
    (h : (checkRecord now record).1.retryAfterSeconds = some seconds) :
    ¬record.Expired now ∧ maxAttempts ≤ record.count ∧ now - record.lastAttempt < lockoutMs ∧
      seconds = (lockoutMs - (now - record.lastAttempt) + 999) / 1000 := by
  unfold checkRecord at h
  split at h
  · cases h
  rename_i hexp
  split at h
  · rename_i hcount
    dsimp only at h
    split at h
    · rename_i hlock
      exact ⟨hexp, hcount, hlock, (Option.some.inj h).symm⟩
    · cases h
  · dsimp only at h
    split at h <;> cases h

/-- No attempt remains exactly while the limiter blocks. -/
theorem getRemainingAttempts_eq_zero_iff {record : Option AttemptRecord}
    (h : ∀ r, record = some r → r.Ordered now) :
    (getRemainingAttempts now record).1 = 0 ↔ (isBlocked now record).1.blocked = true := by
  cases record with
  | none => exact iff_of_false (show maxAttempts ≠ 0 by decide) Bool.false_ne_true
  | some r =>
    rw [isBlocked, checkRecord_blocked (h r rfl), getRemainingAttempts]
    split
    · rename_i hexp
      refine iff_of_false (by decide) ?_
      rintro ⟨hnot, -⟩
      exact hnot hexp
    · rename_i hexp
      rw [Nat.sub_eq_zero_iff_le]
      exact ⟨fun hle => ⟨hexp, hle⟩, fun hb => hb.2⟩

theorem getRemainingAttempts_snd (now : Nat) (record : AttemptRecord) :
    (getRemainingAttempts now (some record)).2 = if record.Expired now then none else some record := by
  rw [getRemainingAttempts]
  by_cases hexp : record.Expired now
  · rw [if_pos hexp]
    exact congrArg Prod.snd (if_pos hexp)
  · rw [if_neg hexp]
    exact congrArg Prod.snd (if_neg hexp)

end RateLimiter

end Auth
