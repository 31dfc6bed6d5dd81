import SovereignMobile.Auth.Programs
import SovereignMobile.EventLoop.Wp

/-! # How many sign-ins can fail

`signIn` asks the limiter before it waits for the auth service, and counts a failure afterwards. The
limit of five failures in fifteen minutes holds in the runs in which nobody is let through while the
counted failures and those at the auth service together reach five, and no record is dropped that
still counts a failure of the last fifteen minutes. -/

namespace Auth

open EventLoop RateLimiter List Option

/-! ## What happened -/

def SignInEvent.time : SignInEvent → Nat
  | .failed _ t | .succeeded _ t | .rejectionCounted _ t => t

def SignInEvent.failedAt (identifier : String) : SignInEvent → Option Nat
  | .failed x t => if x = identifier then some t else none
  | _ => none

def SignInEvent.succeededAt (identifier : String) : SignInEvent → Option Nat
  | .succeeded x t => if x = identifier then some t else none
  | _ => none

/-- When calls that had reached the auth service failed. -/
def failureTimes (identifier : String) (log : List SignInEvent) : List Nat :=
  log.filterMap fun e => e.failedAt identifier

/-- When the auth service let somebody in. -/
def successTimes (identifier : String) (log : List SignInEvent) : List Nat :=
  log.filterMap fun e => e.succeededAt identifier

/-- At most five of the calls that reach the auth service fail within fifteen minutes without a
    success, and a call that the limiter rejects is not counted. -/
structure BruteForceBounded (s : State) : Prop where
  failures : ∀ identifier a b, b ≤ a + windowMs →
    (∀ t ∈ successTimes identifier s.signIns, ¬(a ≤ t ∧ t ≤ b)) →
    ((failureTimes identifier s.signIns).filter fun t => a ≤ t ∧ t ≤ b).length ≤ maxAttempts
  rejections : ∀ identifier t, .rejectionCounted identifier t ∉ s.signIns

/-! ## The condition -/

/-- The calls with this identifier that are at the auth service, or on the way back from it. -/
def State.pending (s : State) (identifier : String) : Nat :=
  s.atService.countP fun e => e.2 = identifier

/-- With the failures that the record counts and the pending calls, there is room for another one; and
    a record that is dropped counts nothing recent. -/
def HasRoom (now pending : Nat) : Option AttemptRecord → Prop
  | none => pending < maxAttempts
  | some record =>
    if record.Expired now then windowMs < now - record.lastAttempt ∧ pending < maxAttempts
    else record.count + pending < maxAttempts

instance (now pending : Nat) (record : Option AttemptRecord) :
    Decidable (HasRoom now pending record) :=
  match record with
  | none => inferInstanceAs (Decidable (_ < _))
  | some record =>
    inferInstanceAs (Decidable (if record.Expired now then
      windowMs < now - record.lastAttempt ∧ pending < maxAttempts
      else record.count + pending < maxAttempts))

/-- Whoever asks the limiter finds room. -/
def limiterCond : Cond machine where
  op _ (s : State) (o : Op) := match o with
    | .isBlocked identifier =>
      decide (HasRoom s.now (s.pending identifier) (s.attempts identifier))
    | _ => true
  call _ _ _ _ := true

/-! ## The tally of one identifier -/

/-- The failures since the last success. -/
def forgive (identifier : String) (ts : List Nat) : SignInEvent → List Nat
  | .failed x t => if x = identifier then ts ++ [t] else ts
  | .succeeded x _ => if x = identifier then [] else ts
  | .rejectionCounted _ _ => ts

def unforgiven (identifier : String) (log : List SignInEvent) : List Nat :=
  log.foldl (forgive identifier) []

/-- How many of `ts` are not earlier than `a`. -/
def since (a : Nat) (ts : List Nat) : Nat := ts.countP fun t => a ≤ t

/-- How many of `ts` are of the last fifteen minutes. -/
def recent (now : Nat) (ts : List Nat) : Nat := ts.countP fun t => now ≤ t + windowMs

structure Tallied (identifier : String) (record : Option AttemptRecord) (now pending : Nat)
    (log : List SignInEvent) : Prop where
  ordered : ∀ r, record = some r → r.Ordered now
  last : ∀ r, record = some r → ∀ t ∈ unforgiven identifier log, t ≤ r.lastAttempt
  counted : recent now (unforgiven identifier log) ≤ (record.map AttemptRecord.count).getD 0
  within : recent now (unforgiven identifier log) + pending ≤ maxAttempts
  times : ∀ e ∈ log, e.time ≤ now
  kept : ∀ a, (∀ t ∈ successTimes identifier log, t < a) →
    since a (failureTimes identifier log) ≤ since a (unforgiven identifier log)
  bounded : ∀ a b, b ≤ a + windowMs →
    (∀ t ∈ successTimes identifier log, ¬(a ≤ t ∧ t ≤ b)) →
    ((failureTimes identifier log).filter fun t => a ≤ t ∧ t ≤ b).length ≤ maxAttempts

section Log
variable {identifier : String} {log : List SignInEvent}

theorem unforgiven_snoc (e : SignInEvent) :
    unforgiven identifier (log ++ [e]) = forgive identifier (unforgiven identifier log) e := by
  simp [unforgiven]

theorem failureTimes_snoc (e : SignInEvent) : failureTimes identifier (log ++ [e]) =
    failureTimes identifier log ++ (e.failedAt identifier).toList := by
  cases h : e.failedAt identifier <;> simp [failureTimes, h]

theorem successTimes_snoc (e : SignInEvent) : successTimes identifier (log ++ [e]) =
    successTimes identifier log ++ (e.succeededAt identifier).toList := by
  cases h : e.succeededAt identifier <;> simp [successTimes, h]

variable {t : Nat}

theorem mem_failureTimes (h : t ∈ failureTimes identifier log) : ∃ e ∈ log, e.time = t := by
  obtain ⟨e, he, ht⟩ := mem_filterMap.1 h
  refine ⟨e, he, ?_⟩
  cases e with
  | failed x t' =>
    simp only [SignInEvent.failedAt, ite_none_right_eq_some, some.injEq] at ht
    exact ht.2
  | succeeded | rejectionCounted => simp [SignInEvent.failedAt] at ht

theorem mem_successTimes (h : t ∈ successTimes identifier log) : ∃ e ∈ log, e.time = t := by
  obtain ⟨e, he, ht⟩ := mem_filterMap.1 h
  refine ⟨e, he, ?_⟩
  cases e with
  | succeeded x t' =>
    simp only [SignInEvent.succeededAt, ite_none_right_eq_some, some.injEq] at ht
    exact ht.2
  | failed | rejectionCounted => simp [SignInEvent.succeededAt] at ht

theorem mem_unforgiven (h : t ∈ unforgiven identifier log) : ∃ e ∈ log, e.time = t := by
  induction log using reverseRecOn with
  | nil => simp [unforgiven] at h
  | append_singleton log e ih =>
    rw [unforgiven_snoc] at h
    have hold : t ∈ unforgiven identifier log → ∃ e' ∈ log ++ [e], e'.time = t := by
      intro ht
      obtain ⟨e', he', rfl⟩ := ih ht
      exact ⟨e', mem_append_left _ he', rfl⟩
    cases e with
    | failed x t' =>
      simp only [forgive] at h
      split at h
      · rcases mem_append.1 h with h | h
        · exact hold h
        · exact ⟨_, mem_append_right _ (mem_singleton_self _), (mem_singleton.1 h).symm⟩
      · exact hold h
    | succeeded x t' =>
      simp only [forgive] at h
      split at h
      · simp at h
      · exact hold h
    | rejectionCounted x t' => exact hold h

end Log

variable {now i : Nat} {s : State} {o : Op} {α : Type} {m : Prog α}

/-- As time passes, less is recent. -/
theorem recent_le {now' : Nat} (h : now ≤ now') (ts : List Nat) :
    recent now' ts ≤ recent now ts := by
  refine countP_mono_left fun t _ ht => ?_
  simp only [decide_eq_true_eq] at ht ⊢
  omega

theorem since_le_recent {a : Nat} (h : now ≤ a + windowMs) (ts : List Nat) :
    since a ts ≤ recent now ts := by
  refine countP_mono_left fun t _ ht => ?_
  simp only [decide_eq_true_eq] at ht ⊢
  omega

theorem recent_eq_zero {ts : List Nat} (h : ∀ t ∈ ts, t + windowMs < now) : recent now ts = 0 := by
  refine countP_eq_zero.2 fun t ht => ?_
  have := h t ht
  simp only [decide_eq_true_eq]
  omega

namespace Tallied

variable {identifier : String} {record : Option AttemptRecord} {now pending : Nat}
  {log : List SignInEvent}

variable {e : SignInEvent}

theorem times_snoc (h : Tallied identifier record now pending log) (ht : e.time ≤ now) :
    ∀ e' ∈ log ++ [e], e'.time ≤ now := by
  intro e' he'
  rcases mem_append.1 he' with he' | he'
  · exact h.times e' he'
  · rw [mem_singleton.1 he']
    exact ht

theorem other (h : Tallied identifier record now pending log) (hf : e.failedAt identifier = none)
    (hs : e.succeededAt identifier = none) (ht : e.time ≤ now) :
    Tallied identifier record now pending (log ++ [e]) := by
  have hu : unforgiven identifier (log ++ [e]) = unforgiven identifier log := by
    rw [unforgiven_snoc]
    cases e with
    | failed x t =>
      have hx : ¬x = identifier := by simpa [SignInEvent.failedAt] using hf
      exact if_neg hx
    | succeeded x t =>
      have hx : ¬x = identifier := by simpa [SignInEvent.succeededAt] using hs
      exact if_neg hx
    | rejectionCounted x t => rfl
  have hfail : failureTimes identifier (log ++ [e]) = failureTimes identifier log := by
    simp [failureTimes_snoc, hf]
  have hsucc : successTimes identifier (log ++ [e]) = successTimes identifier log := by
    simp [successTimes_snoc, hs]
  exact
    { ordered := h.ordered
      last := by rw [hu]; exact h.last
      counted := by rw [hu]; exact h.counted
      within := by rw [hu]; exact h.within
      times := h.times_snoc ht
      kept := by rw [hu, hfail, hsucc]; exact h.kept
      bounded := by rw [hfail, hsucc]; exact h.bounded }

theorem advance (h : Tallied identifier record now pending log) (ms : Nat) :
    Tallied identifier record (now + ms) pending log := by
  have hrec := recent_le (Nat.le_add_right now ms) (unforgiven identifier log)
  have hwithin := h.within
  exact { h with
      ordered := fun r hr => ⟨(h.ordered r hr).first_le,
        Nat.le_trans (h.ordered r hr).last_le (Nat.le_add_right _ _)⟩
      counted := Nat.le_trans hrec h.counted
      within := by omega
      times := fun e he => Nat.le_trans (h.times e he) (Nat.le_add_right _ _) }

theorem fewer (h : Tallied identifier record now pending log) {pending' : Nat}
    (hle : pending' ≤ pending) : Tallied identifier record now pending' log :=
  { h with within := Nat.le_trans (Nat.add_le_add_left hle _) h.within }

/-- Where there is room, the limiter lets the call through, and what is left of the record counts
    all that is recent. -/
theorem admits (h : Tallied identifier record now pending log) (hroom : HasRoom now pending record) :
    (isBlocked now record).1.blocked = false ∧
      Tallied identifier (isBlocked now record).2 now (pending + 1) log := by
  have hcounted := h.counted
  cases record with
  | none =>
    have hroom' : pending < maxAttempts := hroom
    have hzero : recent now (unforgiven identifier log) ≤ 0 := hcounted
    exact ⟨rfl, { h with within := by omega }⟩
  | some r =>
    have hord := h.ordered r rfl
    have hsnd : (isBlocked now (some r)).2 = if r.Expired now then none else some r :=
      checkRecord_snd hord
    have hblocked : (isBlocked now (some r)).1.blocked = true ↔ _ := checkRecord_blocked hord
    rw [HasRoom] at hroom
    by_cases hexp : r.Expired now
    · -- the record is dropped, and what it counted is older than the window
      rw [if_pos hexp] at hroom hsnd
      have hzero : recent now (unforgiven identifier log) = 0 := by
        refine recent_eq_zero fun t ht => ?_
        have := h.last r rfl t ht
        omega
      constructor
      · rw [← Bool.not_eq_true, hblocked]
        exact fun hnot => hnot.1 hexp
      rw [hsnd]
      exact { h with
          ordered := fun _ hr => nomatch hr
          last := fun _ hr => nomatch hr
          counted := Nat.le_of_eq hzero
          within := by omega }
    · -- the record stays, and counts at least what is recent
      rw [if_neg hexp] at hroom hsnd
      have hcount : recent now (unforgiven identifier log) ≤ r.count := hcounted
      constructor
      · rw [← Bool.not_eq_true, hblocked]
        exact fun hnot => absurd hnot.2 (by omega)
      · rw [hsnd]
        exact { h with within := by omega }

theorem fail (h : Tallied identifier record now (pending + 1) log) :
    Tallied identifier (some (recordAttempt now record)) now pending
      (log ++ [.failed identifier now]) := by
  have hu : unforgiven identifier (log ++ [.failed identifier now]) =
      unforgiven identifier log ++ [now] := by
    rw [unforgiven_snoc]
    exact if_pos rfl
  have hfail : failureTimes identifier (log ++ [.failed identifier now]) =
      failureTimes identifier log ++ [now] := by
    simp [failureTimes_snoc, SignInEvent.failedAt]
  have hsucc : successTimes identifier (log ++ [.failed identifier now]) =
      successTimes identifier log := by
    simp [successTimes_snoc, SignInEvent.succeededAt]
  have hrecent : recent now (unforgiven identifier log ++ [now]) =
      recent now (unforgiven identifier log) + 1 := by
    simp [recent]
  have hsince : ∀ a ts, since a (ts ++ [now]) = since a ts + if a ≤ now then 1 else 0 := by
    intro a ts
    simp [since, countP_append]
  have hlast : (recordAttempt now record).lastAttempt = now := by cases record <;> rfl
  have hcount : (recordAttempt now record).count =
      (record.map AttemptRecord.count).getD 0 + 1 := by
    cases record <;> rfl
  have hcounted := h.counted
  have hwithin := h.within
  have hold : ∀ t ∈ unforgiven identifier log, t ≤ now := by
    intro t ht
    obtain ⟨e, he, rfl⟩ := mem_unforgiven ht
    exact h.times e he
  refine
    { ordered := fun r hr => some.inj hr ▸ ordered_recordAttempt h.ordered
      last := fun r hr t ht => ?_
      counted := ?_
      within := ?_
      times := h.times_snoc (Nat.le_refl now)
      kept := fun a ha => ?_
      bounded := fun a b hab hno => ?_ }
  · rw [← some.inj hr, hlast]
    rw [hu] at ht
    rcases mem_append.1 ht with ht | ht
    · exact hold t ht
    · exact Nat.le_of_eq (mem_singleton.1 ht)
  · rw [hu, map_some, getD_some]
    omega
  · -- the call is recent now and no longer pending
    rw [hu]
    omega
  · rw [hsucc] at ha
    rw [hu, hfail, hsince, hsince]
    have := h.kept a ha
    omega
  rw [hsucc] at hno
  rw [hfail, filter_append, length_append]
  by_cases hin : a ≤ now ∧ now ≤ b
  · -- the period reaches up to now: what failed in it is unforgiven and recent
    have hafter : ∀ t ∈ successTimes identifier log, t < a := by
      intro t ht
      obtain ⟨e, he, rfl⟩ := mem_successTimes ht
      have hle := h.times e he
      have := hno e.time ht
      omega
    have hperiod : ((failureTimes identifier log).filter fun t => a ≤ t ∧ t ≤ b).length ≤
        since a (failureTimes identifier log) := by
      rw [← countP_eq_length_filter]
      refine countP_mono_left fun t _ ht => ?_
      simp only [decide_eq_true_eq] at ht ⊢
      exact ht.1
    have hkept := h.kept a hafter
    have hrec : since a (unforgiven identifier log) ≤ recent now (unforgiven identifier log) :=
      since_le_recent (by omega) _
    have hone := length_filter_le (fun t => decide (a ≤ t ∧ t ≤ b)) [now]
    simp only [length_singleton] at hone
    omega
  · -- the failure is outside the period
    have hnone : ([now].filter fun t => a ≤ t ∧ t ≤ b) = [] := by
      simpa using hin
    rw [hnone]
    exact h.bounded a b hab hno

theorem succeed (h : Tallied identifier record now pending log) :
    Tallied identifier none now pending (log ++ [.succeeded identifier now]) := by
  have hu : unforgiven identifier (log ++ [.succeeded identifier now]) = [] := by
    rw [unforgiven_snoc]
    exact if_pos rfl
  have hfail : failureTimes identifier (log ++ [.succeeded identifier now]) =
      failureTimes identifier log := by
    simp [failureTimes_snoc, SignInEvent.failedAt]
  have hsucc : successTimes identifier (log ++ [.succeeded identifier now]) =
      successTimes identifier log ++ [now] := by
    simp [successTimes_snoc, SignInEvent.succeededAt]
  have hnone : recent now [] = 0 := rfl
  have hwithin := h.within
  refine
    { ordered := fun _ hr => nomatch hr
      last := fun _ hr => nomatch hr
      counted := ?_
      within := ?_
      times := h.times_snoc (Nat.le_refl now)
      kept := fun a ha => ?_
      bounded := fun a b hab hno => ?_ }
  · rw [hu]
    exact Nat.zero_le _
  · rw [hu]
    omega
  · -- only a period that begins after now has no success, and nothing has failed in it yet
    rw [hsucc] at ha
    rw [hu, hfail]
    have hlt := ha now (mem_append_right _ (mem_singleton_self _))
    refine Nat.le_of_eq (countP_eq_zero.2 fun t ht => ?_)
    obtain ⟨e, he, rfl⟩ := mem_failureTimes ht
    have := h.times e he
    simp only [decide_eq_true_eq]
    omega
  · rw [hsucc] at hno
    rw [hfail]
    exact h.bounded a b hab fun t ht => hno t (mem_append_left _ ht)

end Tallied

/-! ## What the operations keep -/

structure State.Tallied (s : State) : Prop where
  identifiers : ∀ x, Auth.Tallied x (s.attempts x) s.now (s.pending x) s.signIns
  rejections : ∀ x t, .rejectionCounted x t ∉ s.signIns

theorem State.Tallied.bounded (h : s.Tallied) : BruteForceBounded s :=
  ⟨fun x => (h.identifiers x).bounded, h.rejections⟩

/-- Only a call at the auth service records an attempt. -/
def limiterSpec : Spec machine where
  Inv (s : State) := s.Tallied
  Rely i (s s' : State) := ∀ x, (i, x) ∈ s.atService → (i, x) ∈ s'.atService
  OpPre i (s : State) (o : Op) := match o with
    | .recordAttempt x => (i, x) ∈ s.atService
    | _ => True
  CallPre _ _ _ := True
  Fin _ _ := True

section Ops
variable {s : State} {i : Nat}

theorem pending_cons (x y : String) (es : List (Nat × String)) :
    ((i, x) :: es).countP (fun e => e.2 = y) =
      es.countP (fun e => e.2 = y) + if x = y then 1 else 0 := by
  simp [countP_cons]

variable {x : String}

/-- Whoever is let through has found room. -/
theorem tallied_isBlocked (h : s.Tallied) (hroom : HasRoom s.now (s.pending x) (s.attempts x)) :
    (isBlocked s.now (s.attempts x)).1.blocked = false ∧ (s.isBlocked i x).Tallied ∧
      (s.isBlocked i x).atService = (i, x) :: s.atService := by
  obtain ⟨hblocked, hx⟩ := (h.identifiers x).admits hroom
  have hat : (s.isBlocked i x).atService = (i, x) :: s.atService := by
    simp [State.isBlocked, hblocked]
  refine ⟨hblocked, ⟨fun y => ?_, h.rejections⟩, hat⟩
  unfold State.pending
  rw [hat, pending_cons]
  by_cases hy : x = y
  · subst hy
    rw [if_pos rfl]
    simp only [State.isBlocked, Function.update_self]
    exact hx
  · rw [if_neg hy]
    simp only [State.isBlocked, Function.update_of_ne (.symm hy)]
    exact h.identifiers y

theorem tallied_recordAttempt (h : s.Tallied) (hat : (i, x) ∈ s.atService) :
    (s.recordAttempt i x).Tallied := by
  have hcons : s.atService.Perm ((i, x) :: s.atService.erase (i, x)) :=
    perm_cons_erase hat
  have hpending : ∀ y, s.pending y = (s.recordAttempt i x).pending y + if x = y then 1 else 0 := by
    intro y
    unfold State.pending
    rw [hcons.countP_eq, pending_cons]
    rfl
  have hlog : (s.recordAttempt i x).signIns = s.signIns ++ [.failed x s.now] := by
    simp [State.recordAttempt, hat]
  refine ⟨fun y => ?_, fun y t hmem => ?_⟩
  · have hy := h.identifiers y
    rw [hpending y] at hy
    rw [hlog]
    by_cases hxy : x = y
    · subst hxy
      rw [if_pos rfl] at hy
      simp only [State.recordAttempt, Function.update_self]
      exact hy.fail
    · rw [if_neg hxy] at hy
      simp only [State.recordAttempt, Function.update_of_ne (.symm hxy)]
      exact hy.other (if_neg hxy) rfl le_rfl
  · rw [hlog] at hmem
    rcases mem_append.1 hmem with hmem | hmem
    · exact h.rejections y t hmem
    · exact nomatch mem_singleton.1 hmem

theorem tallied_clearAttempts (h : s.Tallied) (x : String) : (s.clearAttempts x).Tallied := by
  refine ⟨fun y => ?_, fun y t hmem => ?_⟩
  · by_cases hxy : x = y
    · subst hxy
      simp only [State.clearAttempts, Function.update_self]
      exact (h.identifiers x).succeed
    · simp only [State.clearAttempts, Function.update_of_ne (.symm hxy)]
      exact (h.identifiers y).other rfl (if_neg hxy) le_rfl
  · rcases mem_append.1 hmem with hmem | hmem
    · exact h.rejections y t hmem
    · exact nomatch mem_singleton.1 hmem

theorem limiterSpec_sound : limiterSpec.Sound limiterCond where
  refl _ _ _ h := h
  trans _ _ _ _ h1 h2 x h := h2 x (h1 x h)
  op i s o hinv hc hpre := by
    have hsame : ∀ {s' : State}, s'.Tallied → s'.atService = State.atService s →
        limiterSpec.Inv s' ∧ ∀ j, j ≠ i → limiterSpec.Rely j s s' :=
      fun h hat => ⟨h, fun _ _ x hx => hat ▸ hx⟩
    cases o with
    | isBlocked x =>
      obtain ⟨_, htallied, hat⟩ := tallied_isBlocked hinv (of_decide_eq_true hc)
      refine ⟨htallied, fun j _ y hy => ?_⟩
      change _ ∈ (State.isBlocked s i x).atService
      rw [hat]
      exact mem_cons_of_mem _ hy
    | recordAttempt x =>
      refine ⟨tallied_recordAttempt hinv hpre, fun j hj y hy => ?_⟩
      exact (mem_erase_of_ne (by simp [hj])).2 hy
    | clearAttempts x => exact hsame (tallied_clearAttempts hinv x) rfl
    | advance ms =>
      exact hsame ⟨fun x => (hinv.identifiers x).advance ms, hinv.rejections⟩ rfl
    | settled o =>
      refine ⟨⟨fun x => (hinv.identifiers x).fewer ?_, hinv.rejections⟩, fun j hj y hy => ?_⟩
      · exact filter_sublist.countP_le
      · exact mem_filter.2 ⟨hy, by simpa using hj⟩
    | setCurrentIdentity | setHydrated | setLobbySession | setIsLoading | setIsBootstrapping
    | setMigrationRequired | setError | setRestoreWarning | stashPassword | saveLoginCredentials
    | clearPendingPassword | bindQuicIdentity | setLastSeedRecoveryNotFound =>
      exact hsame ⟨hinv.identifiers, hinv.rejections⟩ rfl
  call i s c r s' o hinv _ hp _ := by
    obtain ⟨device, b, rfl⟩ := perform_state (i := i) hp
    exact ⟨⟨hinv.identifiers, hinv.rejections⟩, fun _ _ _ hx => hx⟩
  fin _ _ _ _ _ _ := trivial

end Ops

/-! ## The programs -/

/-- The operations that may change who is at the auth service. -/
def Op.limits : Op → Bool
  | .isBlocked _ | .recordAttempt _ | .settled _ => true
  | _ => false

theorem atService_apply (h : o.limits = false) : (apply i o s).atService = s.atService := by
  cases o <;> first | rfl | simp [Op.limits] at h

/-- Task `i` is at the auth service with `x`, where there is such an `x`. -/
def Admitted (i : Nat) (x : Option String) (s : State) : Prop :=
  ∀ identifier, x = some identifier → (i, identifier) ∈ s.atService

theorem Admitted.apply {x : Option String} (h : o.limits = false) (hs : Admitted i x s) :
    Admitted i x (Auth.apply i o s) := by
  intro identifier hx
  rw [atService_apply h]
  exact hs identifier hx

abbrev KeepsAdmitted {α : Type} (i : Nat) (x : Option String) (m : Prog α) : Prop :=
  limiterSpec.Keeps limiterCond i (Admitted i x) m

namespace KeepsAdmitted

variable {i : Nat} {x : Option String} {α : Type}

theorem rely {s s' : State} (h : Admitted i x s) (hr : limiterSpec.Rely i s s')
    (_ : limiterSpec.Inv s') : Admitted i x s' :=
  fun identifier hx => hr identifier (h identifier hx)

theorem op {o : Op} (h : o.limits = false) : KeepsAdmitted i x (Auth.op o) := by
  refine Spec.Keeps.op fun s _ hF _ => ⟨?_, Admitted.apply h hF⟩
  cases o <;> trivial

theorem await (c : Call) : KeepsAdmitted i x (.await c) := by
  refine Spec.Keeps.await (fun _ _ => rely) (fun _ _ _ => trivial) ?_
  intro s r s' o _ hF hp _
  obtain ⟨device, b, rfl⟩ := perform_state (i := i) hp
  exact hF

theorem spawn {m : Prog α} (hm : ∀ j, KeepsAdmitted j none m) :
    KeepsAdmitted i x (Async.spawn m : Prog Unit) := by
  refine Spec.Keeps.spawn (fun _ _ => rely) fun s j hi _ _ => ?_
  exact Spec.Wp.toTask (hm j s hi fun _ h => nomatch h) fun _ _ _ _ => trivial

end KeepsAdmitted

theorem keepsAdmitted_sequential : Judgement.Sequential (fun _ m => ∀ i x, KeepsAdmitted i x m) Op.Routine where
  pure a _ _ := .pure a
  throw e _ _ := .throw (M := machine) e
  bind hm hf i x := .bind (hm i x) fun a => hf a i x
  settle hm hf i x := .settle (hm i x) fun r => hf r i x
  tryCatch hm hf i x := .tryCatch (hm i x) fun e => hf e i x
  read hf i x := .getThen fun s => hf s i x
  op o ho i x := .op (by cases o <;> first | rfl | exact ho.elim)
  await c _ i x := .await c

theorem keepsAdmitted_unrestricted :
    Judgement.Unrestricted fun _ m => ∀ i x, KeepsAdmitted i x m := by
  have hwrite : ∀ w i x, KeepsAdmitted i x (write w) := fun w _ _ => .await _
  have hstore : ∀ identity i x,
      KeepsAdmitted i x (SecureIdentityStorage.setIdentity identity) := fun identity =>
    keepsAdmitted_sequential.steady.storeOf fun w _ => hwrite w
  exact { keepsAdmitted_sequential with
      present := fun identity _ i x => .op rfl
      store := fun identity _ => hstore identity
      hydrate := fun identity _ =>
        keepsAdmitted_sequential.steady.applyHydration hstore (fun _ _ i x => .op rfl) identity
      hide := fun i x => .op rfl
      clear := keepsAdmitted_sequential.steady.clearOf fun w _ => hwrite w
      uncache := hwrite _
      spawn := fun hm i x => .spawn fun j => hm j none }

theorem admitted_none (i : Nat) (s : State) : Admitted i none s := fun _ hx => nomatch hx

/-- An operation of the context, and the note of how it ended. -/
theorem safe_noting (h : limiterSpec.Wp limiterCond i m (fun _ _ => True) s) (ended : α → Outcome) :
    limiterSpec.Safe limiterCond i (noting m ended).toTask s := by
  have hnoted : limiterSpec.Wp limiterCond i (noting m ended) (fun _ _ => True) s := by
    refine .settle h fun r s' _ _ => ?_
    exact .op fun _ => ⟨trivial, fun _ => trivial⟩
  exact Spec.Wp.toTask hnoted fun _ _ _ _ => trivial

theorem KeepsAdmitted.safe (h : KeepsAdmitted i none m) (ended : α → Outcome) (hs : s.Tallied) :
    limiterSpec.Safe limiterCond i (noting m ended).toTask s :=
  safe_noting ((h s hs (admitted_none i s)).mono fun _ _ _ _ => trivial) ended

/-- A task goes on from `s` with `m`. -/
abbrev Runs {α : Type} (i : Nat) (m : Prog α) (s : State) : Prop :=
  limiterSpec.Wp limiterCond i m (fun _ _ => True) s

theorem runs_finallyDo {f : Prog Unit} (hm : Runs i m s)
    (hf : ∀ s' : State, s'.Tallied → Runs i f s') : Runs i (finallyDo m f) s := by
  refine .settle hm fun r s' hi _ => ?_
  refine .bind (hf s' hi) (fun _ s'' hi' _ => ?_) fun _ _ _ _ => trivial
  cases r with
  | ok a => exact .pure hi' trivial
  | error message => exact .throw hi' trivial

/-- `F` is what the handler needs. -/
theorem runs_onError {handle : String → Prog Unit} {F : State → Prop}
    (hm : limiterSpec.Wp limiterCond i m (fun _ => F) s)
    (hh : ∀ e (s' : State), s'.Tallied → F s' → Runs i (handle e) s') :
    Runs i (onError m handle) s := by
  refine .tryCatch hm (fun _ _ _ _ => trivial) fun e s' hi hF => ?_
  refine .bind (hh e s' hi hF) (fun _ s'' hi' _ => ?_) fun _ _ _ _ => trivial
  exact .throw hi' trivial

theorem runs_op (h : o.limits = false) (hs : s.Tallied) : Runs i (op o) s :=
  (KeepsAdmitted.op h s hs (admitted_none i s)).mono fun _ _ _ _ => trivial

theorem runs_then (ho : Runs i (op o) s) (hm : ∀ s' : State, s'.Tallied → Runs i m s') :
    Runs i (do op o; m) s :=
  .bind ho (fun _ s' hi _ => hm s' hi) fun _ _ _ _ => trivial

/-- Whoever gets past the limiter is at the auth service until the call has ended. -/
theorem runs_signIn (i : Nat) (identityId : String) (password : Password) (hs : s.Tallied) :
    Runs i (signIn identityId password) s := by
  refine runs_then (runs_op rfl hs) fun s1 h1 => runs_then (runs_op rfl h1) fun s2 h2 => ?_
  refine runs_finallyDo (runs_onError (F := Admitted i (some (trim identityId))) ?_
    fun e s3 h3 hat => ?_) fun s3 h3 => runs_op rfl h3
  · refine .getThen ?_
    -- the call is admitted, and what it runs then leaves it so up to the catch block
    have hadmitted : limiterSpec.Wp limiterCond i (op (.isBlocked (trim identityId)))
        (fun _ s' => (isBlocked s2.now (s2.attempts (trim identityId))).1.blocked = false ∧
          Admitted i (some (trim identityId)) s') s2 := by
      refine .op fun hc => ⟨trivial, fun _ => ?_⟩
      obtain ⟨hblocked, _, hat⟩ := tallied_isBlocked h2 (of_decide_eq_true hc)
      refine ⟨hblocked, fun identifier hx => ?_⟩
      change _ ∈ (State.isBlocked s2 i (trim identityId)).atService
      rw [hat, some.inj hx]
      exact mem_cons_self
    refine .bind hadmitted (fun _ s3 h3 hin => ?_) fun e s3 _ hin => hin.2
    rw [if_neg (by simp [hin.1])]
    have hrest : KeepsAdmitted i (some (trim identityId)) (do
        let identity ← RealAuthService.signIn ⟨trim identityId, password⟩
        op (.clearAttempts (trim identityId))
        SecureIdentityStorage.setIdentity identity
        op (.setCurrentIdentity (some identity))
        restoreHandle identity
        applyHydration identity) :=
      .bind (keepsAdmitted_unrestricted.steady.serviceSignIn _ i _) fun identity =>
        .bind (KeepsAdmitted.op rfl) fun _ =>
          keepsAdmitted_unrestricted.adopt identity trivial i _
    exact hrest s3 h3 hin.2
  · refine runs_then (.op fun _ => ⟨hat _ rfl, fun _ => trivial⟩) fun s4 h4 => ?_
    exact runs_op rfl h4

/-! ## Every run -/

/-- A process that has just started: nobody signs in, and nothing is counted. -/
structure Launched (s : State) : Prop where
  attempts : ∀ x, s.attempts x = none
  atService : s.atService = []
  signIns : s.signIns = []

theorem Launched.tallied (h : Launched s) : s.Tallied := by
  refine ⟨fun x => ?_, fun x t => by simp [h.signIns]⟩
  rw [h.attempts, h.signIns]
  have hpending : s.pending x = 0 := by simp [State.pending, h.atService]
  rw [hpending]
  exact
    { ordered := fun _ hr => nomatch hr
      last := fun _ hr => nomatch hr
      counted := le_rfl
      within := Nat.zero_le _
      times := fun e he => nomatch he
      kept := fun _ _ => le_rfl
      bounded := fun a b _ _ => Nat.zero_le _ }

theorem program_safe (c : Command) (i : Nat) (hs : s.Tallied) :
    limiterSpec.Safe limiterCond i (program c) s := by
  have h := keepsAdmitted_unrestricted
  cases c with
  | bootstrap => exact KeepsAdmitted.safe (h.restoreIdentity i none) _ hs
  | signIn identityId password => exact safe_noting (runs_signIn i identityId password hs) _
  | createIdentity data => exact KeepsAdmitted.safe (h.createIdentity data i none) _ hs
  | recoverIdentity method data =>
    exact KeepsAdmitted.safe (h.recoverIdentity method data i none) _ hs
  | setIdentity identity => exact KeepsAdmitted.safe (h.setIdentity trivial i none) _ hs
  | migrateIdentityFromSeed displayName seedPhrase =>
    exact KeepsAdmitted.safe (h.migrateIdentityFromSeed displayName seedPhrase i none) _ hs
  | updateProfile displayName avatar =>
    exact KeepsAdmitted.safe (h.updateProfile displayName avatar i none) _ hs
  | claimUsername username => exact KeepsAdmitted.safe (h.claimUsername username i none) _ hs
  | signOut => exact KeepsAdmitted.safe (h.signOut i none) _ hs
  | registerAccount displayName password identityType =>
    exact KeepsAdmitted.safe (h.registerAccount displayName password identityType i none) _ hs
  | passwordSignIn username password =>
    exact KeepsAdmitted.safe (h.loading (h.opaqueSignIn _ _) i none) _ hs
  | upgradeLegacyAccount username password =>
    exact KeepsAdmitted.safe (h.upgradeLegacyAccount username password i none) _ hs
  | wait ms => exact Spec.Wp.toTask (runs_op rfl hs) fun _ _ _ _ => trivial

/-- In every run in which whoever asks the limiter finds room, at most five sign-ins fail at the auth
    service within fifteen minutes without a success, and no rejection is counted. -/
theorem bruteForceBounded {w : Sys machine} (h : Reach limiterCond program Launched w) :
    BruteForceBounded w.state := by
  have hpool := limiterSpec_sound.reach (fun _ hs => Launched.tallied hs) (fun _ _ _ => trivial)
    (fun c i s hs _ => program_safe c i hs) h
  exact hpool.inv.bounded

/-! ## Six guesses at once -/

/-- A device with an identity whose password is known to nobody who tries. -/
def guarded : State := { device := { credentials := some ("did:zhtp:a", "correct horse") } }

theorem launched_guarded : Launched guarded := ⟨fun _ => rfl, rfl, rfl⟩

def guess : Move machine Command := .start (.signIn " alice " "wrong guess")

/-- The auth service finds the identity of call `i`, compares its password, and the call fails. -/
def refuse (i : Nat) : List (Move machine Command) :=
  [.perform i { localIdentity := some { identityId := "a", did := "did:zhtp:a" } }, .resume i,
    .perform i {}, .resume i]

/-- Six calls that overlap all get through, and all fail. -/
theorem not_bruteForceBounded :
    ¬∀ w : Sys machine, Reach Cond.any program Launched w → BruteForceBounded w.state := by
  intro h
  have hrun : ((Sys.idle guarded).run Cond.any program
      (replicate 6 guess ++ (range 6).flatMap refuse)).map (fun w => w.state.signIns) =
      some (replicate 6 (.failed "alice" 0)) := by
    decide
  obtain ⟨w, hw, hlog⟩ := map_eq_some_iff.1 hrun
  have hbounded := (h w (.of_run launched_guarded hw)).failures "alice" 0 0 (Nat.zero_le _)
  rw [hlog] at hbounded
  exact nomatch hbounded (by decide)

/-- Two calls that overlap, and three more after them. -/
theorem bruteForceBounded_overlapping : ∃ w : Sys machine, Reach limiterCond program Launched w ∧
    failureTimes "alice" w.state.signIns = [0, 0, 0, 0, 0] ∧ BruteForceBounded w.state := by
  have hrun : ((Sys.idle guarded).run limiterCond program
      ([guess, guess] ++ refuse 1 ++ refuse 0 ++
        [2, 3, 4].flatMap fun i => guess :: refuse i)).map (fun w => w.state.signIns) =
      some (replicate 5 (.failed "alice" 0)) := by
    decide
  obtain ⟨w, hw, hlog⟩ := map_eq_some_iff.1 hrun
  have hreach := Reach.of_run launched_guarded hw
  exact ⟨w, hreach, by rw [hlog]; decide, bruteForceBounded hreach⟩

end Auth
