import SovereignMobile.Auth.Types
import SovereignMobile.EventLoop.Wp
import SovereignMobile.Quic.SessionRecovery
import SovereignMobile.Signing.Addresses

/-! # The prefix of the session id

`quic.ts` keeps the session id prefix of the last authenticated response in one variable, whose identity
it does not know. When `getCurrentAuthSessionIdPrefix` returns a prefix of a session of the stored
identity: exactly when the prefix was captured for this identity. -/

namespace SessionPrefix

open EventLoop List Option Function
open Auth (truthy toLowerCase)
open SessionRecovery (matchesSessionDesync MAX_ATTEMPTS)
open Async (tryCatch)

/-! ## The native module and the storage -/

structure Response where
  status : Nat
  body : String
  sessionIdPrefix : Option String

/-- A call that has returned a prefix: the prefix, the identity it was captured for, and what was stored
    and which sessions had been established at that moment. -/
structure Returned where
  sid : String
  capturedFor : String
  stored : Option String
  sessions : List (String × String)
  deriving DecidableEq

/-- `latest` is `latestAuthSessionIdPrefix`, `prefixes` is `quinnSessionIdPrefixByIdentity`. Identities go
    by their id, without `did:zhtp:`. The last three are the history: the identity that `latest` was
    captured for, the sessions that have been established, and the prefixes that were returned. -/
structure State where
  latest : Option String
  stored : Option String
  prefixes : String → Option String
  capturedFor : String
  sessions : List (String × String)
  returned : List Returned

/-- A public request names no identity. -/
inductive Call where
  | bootstrapReady
  | getIdentityId
  | request (identityId : Option String)
  | cancelAll
  | getCurrentSessionIdPrefix (identityId : String)
  | setTimeout

abbrev Call.Ret : Call → Type
  | .bootstrapReady | .cancelAll | .setTimeout => Unit
  | .getIdentityId | .getCurrentSessionIdPrefix _ => Option String
  | .request _ => Response

inductive Reply where
  | ok (status : Nat) (body : String)
  | fail (message : String)

/-- An exception is known by its message. -/
def Call.perform : (c : Call) → Reply → State → Option (State × Except String c.Ret)
  | .bootstrapReady, _, s => some (s, .ok ())
  | .getIdentityId, .ok _ _, s => some (s, .ok s.stored)
  -- an error is caught there
  | .getIdentityId, .fail _, s => some (s, .ok none)
  | .request identityId, .ok status body, s =>
    some (s, .ok ⟨status, body, identityId.bind s.prefixes⟩)
  | .request _, .fail message, s => some (s, .error message)
  | .cancelAll, .ok _ _, s => some ({ s with prefixes := fun _ => none }, .ok ())
  | .cancelAll, .fail message, s => some (s, .error message)
  | .getCurrentSessionIdPrefix identityId, .ok _ _, s => some (s, .ok (s.prefixes identityId))
  | .getCurrentSessionIdPrefix _, .fail message, s => some (s, .error message)
  | .setTimeout, _, s => some (s, .ok ())

/-- `handshake` and `setActiveValidator` are the native module's own, `setIdentity` is the storage's. -/
inductive Op where
  | setLatest (identityId sid : String)
  | clearLatest
  | returnLatest
  | setIdentity (identityId : Option String)
  | handshake (identityId sid : String)
  | setActiveValidator

def Op.apply : Op → State → State
  | .setLatest identityId sid, s => { s with latest := some sid, capturedFor := identityId }
  | .clearLatest, s => { s with latest := none }
  | .returnLatest, s =>
    match s.latest with
    | none => s
    | some sid => { s with returned := s.returned ++ [⟨sid, s.capturedFor, s.stored, s.sessions⟩] }
  | .setIdentity identityId, s => { s with stored := identityId }
  | .handshake identityId sid, s =>
    { s with
      prefixes := Function.update s.prefixes identityId (some sid)
      sessions := s.sessions ++ [(identityId, sid)] }
  | .setActiveValidator, s => { s with prefixes := fun _ => none }

def machine : Machine where
  State := State
  Op := Op
  Call := Call
  Ret := Call.Ret
  Err := String
  Reply := Reply
  apply _ := Op.apply
  perform _ := Call.perform

def await (c : Call) : Async machine c.Ret := Async.await (M := machine) c

def op (o : Op) : Async machine Unit := Async.op (M := machine) o

/-! ## The requests -/

/-- `/^[0-9a-fA-F]{16}$/` -/
def isSidPrefix (sid : String) : Bool :=
  sid.length = 16 && sid.toList.all fun c => (NativeIdentityProvisioning.hexValue c).isSome

def resetAuthSession : Async machine Unit := do
  Async.tryCatch (await .cancelAll) fun _ => pure ()
  op .clearLatest
  await .setTimeout

/-- `attempts` are left. -/
def runWithSessionRecovery (identityId : Option String) : Nat → Async machine Response
  | 0 => Async.throw (M := machine) "QUIC request exhausted retry attempts"
  | attempts + 1 => Async.settle (await (.request identityId)) fun
    | .error message =>
      if identityId.isSome && matchesSessionDesync message && attempts ≠ 0 then do
        resetAuthSession
        runWithSessionRecovery identityId attempts
      else Async.throw (M := machine) message
    | .ok current =>
      if identityId.isSome && current.status = 401 && matchesSessionDesync current.body && attempts ≠ 0 then do
        resetAuthSession
        runWithSessionRecovery identityId attempts
      else pure current

/-- What a response says of its session is kept. -/
def capture (identityId : String) : Option String → Async machine Unit
  | some sid => if isSidPrefix sid then op (.setLatest identityId (toLowerCase sid)) else pure ()
  | none => pure ()

/-- `registering` is the identity in the body of a registration. -/
def rawRequest (authenticated : Bool) (registering : Option String) : Async machine Response := do
  await .bootstrapReady
  if authenticated then do
    let stored ← await .getIdentityId
    match truthy (truthy stored <|> registering) with
    | none => Async.throw (M := machine) "Missing identity for authenticated request"
    | some identityId => do
      let response ← runWithSessionRecovery (some identityId) MAX_ATTEMPTS
      capture identityId response.sessionIdPrefix
      pure response
  else runWithSessionRecovery none MAX_ATTEMPTS

/-- Returns `latest`, which is not null. -/
def returnLatest : Async machine (Option String) := do
  op .returnLatest
  let s : State ← Async.get
  pure s.latest

/-- `if (forceRefresh)` -/
def refreshIf (forceRefresh : Bool) : Async machine Unit :=
  if forceRefresh then do
    op .clearLatest
    Async.tryCatch (do
      let _ ← rawRequest true none
      await .setTimeout) fun _ => pure ()
  else pure ()

/-- The prefix that the native module has for the identity. -/
def nativePrefix (identityId : String) : Async machine (Option String) := do
  let sid ← await (.getCurrentSessionIdPrefix identityId)
  match sid with
  | some sid =>
    if isSidPrefix sid then do
      op (.setLatest identityId (toLowerCase sid))
      returnLatest
    else pure none
  | none => pure none

/-- From `getIdentityId` on. -/
def lookUp (forceRefresh : Bool) : Async machine (Option String) := do
  let stored ← await .getIdentityId
  match truthy stored with
  | none => pure none
  | some identityId => do
    refreshIf forceRefresh
    Async.tryCatch (nativePrefix identityId) fun _ => pure none

def getCurrentAuthSessionIdPrefix (forceRefresh : Bool) : Async machine (Option String) := do
  let s : State ← Async.get
  if !forceRefresh && (truthy s.latest).isSome then returnLatest
  else lookUp forceRefresh

inductive Cmd where
  | rawRequest (authenticated : Bool) (registering : Option String)
  | getCurrentAuthSessionIdPrefix (forceRefresh : Bool)
  | setIdentity (identityId : Option String)
  | handshake (identityId sid : String)
  | setActiveValidator

def prog : Cmd → Task machine
  | .rawRequest authenticated registering => (SessionPrefix.rawRequest authenticated registering).toTask
  | .getCurrentAuthSessionIdPrefix forceRefresh =>
    (SessionPrefix.getCurrentAuthSessionIdPrefix forceRefresh).toTask
  | .setIdentity identityId => (op (.setIdentity identityId)).toTask
  | .handshake identityId sid => (op (.handshake identityId sid)).toTask
  | .setActiveValidator => (op .setActiveValidator).toTask

def launched (stored : Option String) : State := ⟨none, stored, fun _ => none, "", [], []⟩

/-! ## Whose prefix it is -/

/-- One of the sessions of the identity has this prefix. -/
def Established (sessions : List (String × String)) (identityId sid : String) : Prop :=
  ∃ whole, (identityId, whole) ∈ sessions ∧ toLowerCase whole = sid

/-- The prefix is of a session of the stored identity. -/
def Returned.Own (r : Returned) : Prop :=
  ∃ identityId, r.stored = some identityId ∧ Established r.sessions identityId r.sid

/-- No two identities have sessions with the same prefix. -/
def Distinct (sessions : List (String × String)) : Prop :=
  ∀ a sid b, Established sessions a sid → Established sessions b sid → a = b

structure State.Inv (s : State) : Prop where
  prefixes : ∀ identityId sid, s.prefixes identityId = some sid → (identityId, sid) ∈ s.sessions
  latest : ∀ sid, s.latest = some sid → Established s.sessions s.capturedFor sid
  returned : ∀ r ∈ s.returned, Established r.sessions r.capturedFor r.sid

/-- What is put into the variable is of a session of the identity that it was captured for. -/
def spec : Spec machine where
  Inv := State.Inv
  Rely _ s s' := s.sessions ⊆ s'.sessions
  OpPre _ s
    | .setLatest identityId sid => Established (State.sessions s) identityId sid
    | _ => True
  CallPre _ _ _ := True
  Fin _ _ := True

theorem Established.mono {sessions sessions' : List (String × String)} {identityId sid : String}
    (h : Established sessions identityId sid) (hsub : sessions ⊆ sessions') :
    Established sessions' identityId sid := by
  obtain ⟨whole, hmem, hlower⟩ := h
  exact ⟨whole, hsub hmem, hlower⟩

section
variable {s s' : State} {i : Nat}

variable {o : Op} {c : Call} {r : Reply} {out : Except String c.Ret}

theorem State.Inv.apply (h : s.Inv) (hpre : spec.OpPre i s o) :
    (o.apply s).Inv ∧ s.sessions ⊆ (o.apply s).sessions := by
  cases o with
  | setLatest identityId sid =>
    refine ⟨⟨h.prefixes, fun sid' hsid => ?_, h.returned⟩, List.Subset.refl _⟩
    cases hsid
    exact hpre
  | clearLatest =>
    exact ⟨⟨h.prefixes, fun _ hsid => absurd hsid (by simp [Op.apply]), h.returned⟩, List.Subset.refl _⟩
  | returnLatest =>
    cases hlatest : s.latest with
    | none =>
      have hsame : Op.returnLatest.apply s = s := by simp only [Op.apply, hlatest]
      rw [hsame]
      exact ⟨h, List.Subset.refl _⟩
    | some sid =>
      have hlogged : Op.returnLatest.apply s =
          { s with returned := s.returned ++ [⟨sid, s.capturedFor, s.stored, s.sessions⟩] } := by
        simp only [Op.apply, hlatest]
      rw [hlogged]
      refine ⟨⟨h.prefixes, h.latest, fun r hr => ?_⟩, List.Subset.refl _⟩
      rcases mem_append.1 hr with hr | hr
      · exact h.returned r hr
      · rw [mem_singleton.1 hr]
        exact h.latest sid hlatest
  | setIdentity identityId => exact ⟨⟨h.prefixes, h.latest, h.returned⟩, List.Subset.refl _⟩
  | handshake identityId sid =>
    have hsub : s.sessions ⊆ s.sessions ++ [(identityId, sid)] := subset_append_left _ _
    refine ⟨⟨fun id sid' hsid => ?_, fun sid' hsid => (h.latest sid' hsid).mono hsub, h.returned⟩, hsub⟩
    simp only [Op.apply] at hsid ⊢
    by_cases hid : id = identityId
    · rw [hid, update_self] at hsid
      rw [hid, some.inj hsid]
      exact mem_append_right _ (mem_singleton.2 rfl)
    · rw [update_of_ne hid] at hsid
      exact hsub (h.prefixes id sid' hsid)
  | setActiveValidator =>
    exact ⟨⟨fun _ _ hsid => absurd hsid (by simp [Op.apply]), h.latest, h.returned⟩, List.Subset.refl _⟩

/-- A call changes nothing but the prefixes, which it may drop. -/
theorem perform_state (h : c.perform r s = some (s', out)) :
    s' = s ∨ s' = { s with prefixes := fun _ => none } := by
  cases c <;> cases r <;> simp only [Call.perform, some.injEq, Prod.mk.injEq] at h
  all_goals first
    | exact .inl h.1.symm
    | exact .inr h.1.symm

theorem State.Inv.perform (h : s.Inv) (hp : c.perform r s = some (s', out)) :
    s'.Inv ∧ s.sessions ⊆ s'.sessions := by
  rcases perform_state hp with rfl | rfl
  · exact ⟨h, List.Subset.refl _⟩
  · exact ⟨⟨fun _ _ hsid => absurd hsid (by simp), h.latest, h.returned⟩, List.Subset.refl _⟩

theorem spec_sound : spec.Sound Cond.any where
  refl _ _ := List.Subset.refl _
  trans _ _ _ _ h h' := List.Subset.trans h h'
  op _ _ _ hi _ hpre := ⟨(hi.apply hpre).1, fun _ _ => (hi.apply hpre).2⟩
  call _ _ _ _ _ _ hi _ hp _ := ⟨(hi.perform hp).1, fun _ _ => (hi.perform hp).2⟩
  fin _ _ _ h _ _ := h

/-! ## The programs -/

theorem await_wp {Q : Except String c.Ret → State → Prop}
    (h : ∀ s1 r s2 out s3, State.Inv s1 → c.perform r s1 = some (s2, out) →
      State.sessions s2 ⊆ State.sessions s3 → Q out s3) : spec.Wp Cond.any i (await c) Q s := by
  refine .await fun s1 _ hi1 => ⟨trivial, fun r s2 out hp _ _ s3 hr3 _ => ?_⟩
  exact h s1 r s2 out s3 hi1 hp hr3

theorem await_any : spec.Wp Cond.any i (await c) (fun _ _ => True) s :=
  await_wp fun _ _ _ _ _ _ _ _ => trivial

theorem op_wp {Q : Except String Unit → State → Prop} (hpre : spec.OpPre i s o)
    (h : Q (.ok ()) (o.apply s)) : spec.Wp Cond.any i (op o) Q s :=
  .op fun _ => ⟨hpre, fun _ => h⟩

theorem resetAuthSession_wp : spec.Wp Cond.any i resetAuthSession (fun _ _ => True) s := by
  refine .bind (R := fun _ _ => True) ?_ (fun _ s1 hi1 _ => ?_) fun _ _ _ _ => trivial
  · refine .tryCatch await_any (fun _ _ _ _ => trivial) ?_
    exact fun _ s1 hi1 _ => .pure hi1 trivial
  · refine .bind (R := fun _ _ => True) (op_wp trivial trivial) ?_ fun _ _ _ _ => trivial
    exact fun _ _ _ _ => await_any

/-- The prefix in a response is of a session of the identity that was asked for. -/
def ResponseOk (identityId : Option String) (out : Except String Response) (s : State) : Prop :=
  ∀ response sid id, out = .ok response → response.sessionIdPrefix = some sid → identityId = some id →
    (id, sid) ∈ s.sessions

theorem request_wp (identityId : Option String) :
    spec.Wp Cond.any i (await (.request identityId)) (ResponseOk identityId) s := by
  refine await_wp fun s1 r s2 out s3 hi1 hp hsub response sid id hout hsid hid => ?_
  cases r with
  | ok status body =>
    cases hp
    cases hout
    rw [hid, bind_some] at hsid
    exact hsub (hi1.prefixes id sid hsid)
  | fail message =>
    cases hp
    simp at hout

theorem runWithSessionRecovery_wp (identityId : Option String) (attempts : Nat) : ∀ {s : State}, s.Inv →
    spec.Wp Cond.any i (runWithSessionRecovery identityId attempts) (ResponseOk identityId) s := by
  induction attempts with
  | zero => exact fun hi => .throw hi fun _ _ _ hout => nomatch hout
  | succ attempts ih =>
    intro s hi
    have hretry : ∀ s' : State, s'.Inv → spec.Wp Cond.any i (do
        resetAuthSession
        runWithSessionRecovery identityId attempts) (ResponseOk identityId) s' := by
      intro s' _
      refine .bind resetAuthSession_wp (fun _ s1 hi1 _ => ih hi1) ?_
      exact fun _ _ _ _ _ _ _ hout => nomatch hout
    refine .settle (request_wp identityId) fun out s' hi' hout => ?_
    cases out with
    | error message =>
      dsimp only
      split
      · exact hretry s' hi'
      · exact .throw hi' fun _ _ _ h => nomatch h
    | ok current =>
      dsimp only
      split
      · exact hretry s' hi'
      · exact .pure hi' hout

theorem capture_wp (hi : s.Inv) {identityId : String} {sid : Option String}
    (h : ∀ whole, sid = some whole → (identityId, whole) ∈ s.sessions) :
    spec.Wp Cond.any i (capture identityId sid) (fun _ _ => True) s := by
  cases sid with
  | none => exact .pure hi trivial
  | some sid =>
    rw [capture]
    split
    · exact op_wp ⟨sid, h sid rfl, rfl⟩ trivial
    · exact .pure hi trivial

theorem rawRequest_wp (authenticated : Bool) (registering : Option String) :
    spec.Wp Cond.any i (rawRequest authenticated registering) (fun _ _ => True) s := by
  refine .bind await_any (fun _ s1 hi1 _ => ?_) fun _ _ _ _ => trivial
  cases authenticated with
  | false =>
    exact (runWithSessionRecovery_wp none MAX_ATTEMPTS hi1).mono fun _ _ _ _ => trivial
  | true =>
    refine .bind await_any (fun stored s2 hi2 _ => ?_) fun _ _ _ _ => trivial
    split
    · exact .throw hi2 trivial
    rename_i identityId _
    refine .bind (runWithSessionRecovery_wp (some identityId) MAX_ATTEMPTS hi2)
      (fun response s3 hi3 hresponse => ?_) fun _ _ _ _ => trivial
    refine .bind (capture_wp hi3 fun sid hsid => hresponse response sid identityId rfl hsid rfl)
      (fun _ s4 hi4 _ => .pure hi4 trivial) fun _ _ _ _ => trivial

theorem returnLatest_wp : spec.Wp Cond.any i returnLatest (fun _ _ => True) s := by
  refine .bind (R := fun _ _ => True) (op_wp trivial trivial) (fun _ s1 hi1 _ => ?_)
    fun _ _ _ _ => trivial
  exact .getThen (.pure hi1 trivial)

/-- What the native module has for an identity is the prefix of one of its sessions. -/
theorem nativePrefix_wp (identityId : String) :
    spec.Wp Cond.any i (nativePrefix identityId) (fun _ _ => True) s := by
  refine .bind (R := fun out (s' : State) => ∀ sid, out = .ok (some sid) →
    (identityId, sid) ∈ s'.sessions) ?_ (fun sid s1 hi1 hsid => ?_) fun _ _ _ _ => trivial
  · refine await_wp fun s1 r s2 out s3 hi1 hp hsub sid hout => ?_
    cases r with
    | ok status body =>
      cases hp
      exact hsub (hi1.prefixes identityId sid (Except.ok.inj hout))
    | fail message =>
      cases hp
      simp at hout
  · split
    · rename_i sid
      split
      · refine .bind (R := fun _ _ => True) ?_ ?_ fun _ _ _ _ => trivial
        · exact op_wp ⟨sid, hsid sid rfl, rfl⟩ trivial
        · exact fun _ _ _ _ => returnLatest_wp
      · exact .pure hi1 trivial
    · exact .pure hi1 trivial

theorem lookUp_wp (forceRefresh : Bool) :
    spec.Wp Cond.any i (lookUp forceRefresh) (fun _ _ => True) s := by
  have hcatch : ∀ {α : Type} {m : Async machine α} {a : α} {s : State},
      spec.Wp Cond.any i m (fun _ _ => True) s →
      spec.Wp Cond.any i (tryCatch m fun _ => pure a) (fun _ _ => True) s := by
    intro α m a s h
    exact .tryCatch h (fun _ _ _ _ => trivial) fun _ _ hi _ => .pure hi trivial
  refine .bind await_any (fun stored s1 hi1 _ => ?_) fun _ _ _ _ => trivial
  split
  · exact .pure hi1 trivial
  rename_i identityId _
  refine .bind (R := fun _ _ => True) ?_ (fun _ s2 _ _ => hcatch (nativePrefix_wp identityId))
    fun _ _ _ _ => trivial
  unfold refreshIf
  split
  · refine .bind (R := fun _ _ => True) (op_wp trivial trivial) (fun _ s2 hi2 _ => ?_)
      fun _ _ _ _ => trivial
    refine hcatch (.bind (rawRequest_wp true none) ?_ fun _ _ _ _ => trivial)
    exact fun _ _ _ _ => await_any
  · exact .pure hi1 trivial

theorem prog_safe (c : Cmd) : spec.Safe Cond.any i (prog c) s := by
  have hdone : ∀ {α : Type} {m : Async machine α}, spec.Wp Cond.any i m (fun _ _ => True) s →
      spec.Safe Cond.any i m.toTask s := fun h => h.toTask fun _ _ _ _ => trivial
  cases c with
  | rawRequest authenticated registering => exact hdone (rawRequest_wp authenticated registering)
  | getCurrentAuthSessionIdPrefix forceRefresh =>
    refine hdone (.getThen ?_)
    split
    · exact returnLatest_wp
    · exact lookUp_wp forceRefresh
  | setIdentity | handshake | setActiveValidator => exact hdone (op_wp trivial trivial)

end

def Launched (s : State) : Prop := ∃ stored, s = launched stored

theorem Launched.inv {s : State} (h : Launched s) : s.Inv := by
  obtain ⟨stored, rfl⟩ := h
  exact ⟨fun _ _ hsid => absurd hsid (by simp [launched]), fun _ hsid => absurd hsid (by simp [launched]),
    fun _ hr => absurd hr not_mem_nil⟩

/-- **Whose prefix is returned.** -/
theorem returned_own_iff {w : Sys machine} (h : Reach Cond.any prog Launched w) :
    ∀ r ∈ State.returned w.state, (r.stored = some r.capturedFor → r.Own) ∧
      (Distinct r.sessions → r.Own → r.stored = some r.capturedFor) := by
  have hinv : State.Inv w.state :=
    (spec_sound.reach (fun _ h => h.inv) (fun _ _ _ => trivial) (fun c _ _ _ _ => prog_safe c) h).inv
  intro r hr
  refine ⟨fun hstored => ⟨r.capturedFor, hstored, hinv.returned r hr⟩, ?_⟩
  rintro hdistinct ⟨identityId, hstored, hown⟩
  rw [hstored, hdistinct identityId r.sid r.capturedFor hown (hinv.returned r hr)]

/-! ## The prefix of the identity before -/

def first : String := "00112233445566aa"

/-- A request of the identity a, whose session is established before the response. -/
def requestOfA : List (Move machine Cmd) :=
  [.start (.rawRequest true none), .perform 0 (.ok 0 ""), .resume 0, .perform 0 (.ok 0 ""), .resume 0,
   .start (.handshake "a" first), .perform 0 (.ok 200 ""), .resume 0]

theorem returned_own_iff_first :
    ∃ w : Sys machine, (Sys.idle (M := machine) (launched (some "a"))).run Cond.any prog
        (requestOfA ++ [.start (.getCurrentAuthSessionIdPrefix false)]) = some w ∧
      State.returned w.state = [⟨first, "a", some "a", [("a", first)]⟩] ∧
      ∀ r ∈ State.returned w.state, r.Own := by
  have hw : ((Sys.idle (launched (some "a"))).run Cond.any prog
      (requestOfA ++ [.start (.getCurrentAuthSessionIdPrefix false)])).map
        (fun w => State.returned w.state) = some [⟨first, "a", some "a", [("a", first)]⟩] := by
    decide
  obtain ⟨w, hrun, hreturned⟩ := map_eq_some_iff.1 hw
  refine ⟨w, hrun, hreturned, fun r hr => ?_⟩
  refine (returned_own_iff (.of_run ⟨some "a", rfl⟩ hrun) r hr).1 ?_
  rw [hreturned, mem_singleton] at hr
  rw [hr]

/-- The identity changes to b, and the prefix of a is still there. -/
theorem returned_other :
    ∃ w : Sys machine, Reach Cond.any prog Launched w ∧ ∃ r ∈ State.returned w.state, ¬r.Own := by
  have hw : ((Sys.idle (launched (some "a"))).run Cond.any prog
      (requestOfA ++ [.start (.setIdentity (some "b")), .start (.getCurrentAuthSessionIdPrefix false)])).map
        (fun w => State.returned w.state) = some [⟨first, "a", some "b", [("a", first)]⟩] := by
    decide
  obtain ⟨w, hrun, hreturned⟩ := map_eq_some_iff.1 hw
  refine ⟨w, .of_run ⟨some "a", rfl⟩ hrun, ⟨first, "a", some "b", [("a", first)]⟩, ?_, ?_⟩
  · rw [hreturned]
    exact mem_singleton.2 rfl
  · rintro ⟨identityId, hstored, whole, hmem, -⟩
    obtain rfl : "b" = identityId := some.inj hstored
    simp at hmem

end SessionPrefix
