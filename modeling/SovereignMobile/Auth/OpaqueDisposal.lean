import SovereignMobile.Auth.OpaqueStates

/-! # Who frees an OPAQUE state

A finish that has reached lib-client has freed the state, whether it reports success or not. The catch
blocks of `opaqueLogin` and of the callers of the register functions do not know that, and cancel the
state again. -/

namespace LobbyAuth

open Resources Stateful List Option

variable {decodeB64 : String → Option (List UInt8)} {password : String} {ν : Native}

/-! ## What the outcomes decide -/

/-- lib-client returns a state. -/
def StartOutcome.starts (password : String) (o : StartOutcome) : Bool :=
  (jstring_to_cstring o.getString password).isSome && o.ffi.isSome

/-- The state reaches the service. -/
def StartOutcome.handsOver (o : StartOutcome) : Bool := o.byteArray && o.thrown.isNone

/-- The finish reaches lib-client. -/
def FinishOutcome.consumes {γ : Type} (decodeB64 : String → Option (List UInt8))
    (password serverMsgB64 : String) (o : FinishOutcome γ) : Bool :=
  (decodeB64 serverMsgB64).isSome && (jstring_to_cstring o.getString password).isSome &&
    o.convertByteArray

/-- What lib-client returns reaches the service as a success. -/
def FinishOutcome.succeeds {γ : Type} (o : FinishOutcome γ) : Bool :=
  o.rc = 0 && o.byteArray && o.thrown.isNone

/-! ## The bridge -/

variable {o : StartOutcome} {h' : Nat}

theorem opaqueStart_unstarted (path : String) (h : o.starts password = false) :
    ∃ e, Ends (opaqueStart path password o) ν (.error e) ν := by
  have hnative : nativeOpaqueStart password o ν = (none, ν) := by
    unfold nativeOpaqueStart
    unfold StartOutcome.starts at h
    cases hpw : jstring_to_cstring o.getString password with
    | none => rfl
    | some pw =>
      cases hffi : o.ffi with
      | none => rfl
      | some request =>
        rw [hpw, hffi] at h
        simp at h
  have hrun := Ends.run (ε := Thrown) (m := nativeOpaqueStart password o) (s := ν)
  rw [hnative] at hrun
  exact ⟨_, hrun.bind .throw⟩

theorem nativeOpaqueStart_starts (h : o.starts password = true) :
    ∃ request, nativeOpaqueStart password o ν =
      (if o.byteArray then some (ν.next, request) else none, ν.start) := by
  unfold StartOutcome.starts at h
  obtain ⟨hpw, hffi⟩ := Bool.and_eq_true_iff.1 h
  obtain ⟨pw, hpw⟩ := isSome_iff_exists.1 hpw
  obtain ⟨request, hffi⟩ := isSome_iff_exists.1 hffi
  refine ⟨request, ?_⟩
  unfold nativeOpaqueStart
  rw [hpw, hffi]
  rfl

theorem opaqueStart_left (path : String) (h : o.starts password = true)
    (hleft : o.handsOver = false) :
    ∃ e, Ends (opaqueStart path password o) ν (.error e) ν.start := by
  obtain ⟨request, hnative⟩ := nativeOpaqueStart_starts h
  have hrun := Ends.run (ε := Thrown) (m := nativeOpaqueStart password o) (s := ν)
  rw [hnative] at hrun
  unfold StartOutcome.handsOver at hleft
  cases hbytes : o.byteArray with
  | false =>
    rw [hbytes] at hrun
    exact ⟨_, hrun.bind .throw⟩
  | true =>
    rw [hbytes] at hrun hleft
    obtain ⟨message, hthrown⟩ : ∃ message, o.thrown = some message := by
      rw [← isSome_iff_exists]
      simpa using hleft
    refine ⟨.rejected "START_FAILED" (message.getD (path ++ " start failed")), hrun.bind ?_⟩
    dsimp only
    rw [if_pos rfl]
    dsimp only
    rw [hthrown]
    exact .throw

theorem opaqueStart_ok (path : String) (h : o.starts password = true) (hover : o.handsOver = true) :
    ∃ request, Ends (opaqueStart path password o) ν (.ok ⟨ν.next, request⟩) ν.start := by
  obtain ⟨request, hnative⟩ := nativeOpaqueStart_starts h
  obtain ⟨hbytes, hthrown⟩ := Bool.and_eq_true_iff.1 hover
  have hrun := Ends.run (ε := Thrown) (m := nativeOpaqueStart password o) (s := ν)
  rw [hnative, hbytes] at hrun
  refine ⟨request, hrun.bind ?_⟩
  dsimp only
  rw [if_pos rfl]
  dsimp only
  rw [isNone_iff_eq_none.1 hthrown]
  exact .pure

section Finish
variable {γ : Type} (path : String) {serverMsgB64 : String} (loginPath : Bool) (stateId : Nat)
  {o : FinishOutcome γ}

theorem vec_to_jbytes_code (b : Int) :
    ∃ t, unpackFinish (vec_to_jbytes o (.code b)) = .error t := by
  unfold vec_to_jbytes
  split
  · exact ⟨_, rfl⟩
  · exact ⟨_, rfl⟩

theorem finishPromise_error (t : Throwable) :
    ∃ e, finishPromise (γ := γ) path loginPath o.thrown (.error t) = .error e := by
  cases t with
  | opaqueFinish | other => exact ⟨_, rfl⟩

/-- The native finish, and what becomes of its result. -/
theorem finishOnBridge_ends {msg : List UInt8} {packed : Option (Packed γ)} {ν' : Native}
    (hmsg : decodeB64 serverMsgB64 = some msg)
    (hnative : nativeOpaqueFinish stateId password o ν = (packed, ν')) :
    Ends (finishOnBridge decodeB64 path loginPath stateId password serverMsgB64 o) ν
      (finishPromise path loginPath o.thrown (unpackFinish packed)) ν' := by
  have hfinish : opaqueFinish stateId password o ν = (unpackFinish packed, ν') := by
    have hstep : opaqueFinish stateId password o ν =
        (unpackFinish (nativeOpaqueFinish stateId password o ν).1,
          (nativeOpaqueFinish stateId password o ν).2) := rfl
    rw [hstep, hnative]
  have hrun := Ends.run (ε := Thrown) (m := opaqueFinish stateId password o) (s := ν)
  rw [hfinish] at hrun
  unfold finishOnBridge
  rw [hmsg]
  exact hrun.bind (.answer rfl)

/-- A finish that does not reach lib-client is rejected. -/
theorem finishOnBridge_unconsumed (h : o.consumes decodeB64 password serverMsgB64 = false) :
    ∃ e, Ends (finishOnBridge decodeB64 path loginPath stateId password serverMsgB64 o) ν
      (.error e) ν := by
  cases hmsg : decodeB64 serverMsgB64 with
  | none =>
    unfold finishOnBridge
    rw [hmsg]
    exact ⟨_, .throw⟩
  | some msg =>
    have hnative : nativeOpaqueFinish stateId password o ν = (vec_to_jbytes o (.code (-1)), ν) := by
      unfold nativeOpaqueFinish
      cases hpw : jstring_to_cstring o.getString password with
      | none => rfl
      | some pw =>
        have hconvert : o.convertByteArray = false := by
          simpa [FinishOutcome.consumes, hmsg, hpw] using h
        rw [hconvert]
        rfl
    obtain ⟨t, ht⟩ := vec_to_jbytes_code (-1)
    obtain ⟨e, he⟩ := finishPromise_error path loginPath t
    have hends := finishOnBridge_ends path loginPath stateId hmsg hnative
    rw [ht, he] at hends
    exact ⟨e, hends⟩

theorem nativeOpaqueFinish_consumes (h : o.consumes decodeB64 password serverMsgB64 = true) :
    nativeOpaqueFinish stateId password o ν =
      (vec_to_jbytes o (if o.rc ≠ 0 then .code (o.rc.bmod 256) else .payload o.out),
        ν.dispose stateId .finish) := by
  obtain ⟨hpw, hconvert⟩ := Bool.and_eq_true_iff.1 h
  obtain ⟨pw, hpw⟩ := isSome_iff_exists.1 (Bool.and_eq_true_iff.1 hpw).2
  unfold nativeOpaqueFinish
  rw [hpw, hconvert]
  rfl

/-- A finish that reaches lib-client frees the state, also where it is rejected. -/
theorem finishOnBridge_consumes (h : o.consumes decodeB64 password serverMsgB64 = true) :
    ∃ r, Ends (finishOnBridge decodeB64 path loginPath stateId password serverMsgB64 o) ν r
      (ν.dispose stateId .finish) ∧
      if o.succeeds then r = .ok o.out else ∃ e, r = .error e := by
  obtain ⟨msg, hmsg⟩ := isSome_iff_exists.1 (Bool.and_eq_true_iff.1 (Bool.and_eq_true_iff.1 h).1).1
  refine ⟨_, finishOnBridge_ends path loginPath stateId hmsg (nativeOpaqueFinish_consumes stateId h), ?_⟩
  unfold FinishOutcome.succeeds
  by_cases hrc : o.rc = 0
  · rw [if_neg (not_not.2 hrc)]
    cases hbytes : o.byteArray with
    | false => simp [vec_to_jbytes, hbytes, unpackFinish, finishPromise]
    | true =>
      cases hthrown : o.thrown with
      | none => simp [vec_to_jbytes, hbytes, hrc, unpackFinish, finishPromise]
      | some message => simp [vec_to_jbytes, hbytes, unpackFinish, finishPromise]
  · obtain ⟨t, ht⟩ := vec_to_jbytes_code (o.rc.bmod 256)
    rw [if_pos hrc, ht]
    simpa [hrc] using finishPromise_error path loginPath t

end Finish

theorem ignoring_cancelOnBridge {σ : Type} {x : σ} (stateId : Nat) :
    Ends (ignoring (liftM (cancelOnBridge stateId)) : Local Thrown σ Native Unit) (x, ν) (.ok ())
      (x, ν.dispose stateId .cancel) :=
  .ignoring (.lift (.run))

/-! ## The service -/

section Begin
variable {o : BeginOutcome}

theorem opaqueRegisterBegin_unstarted (h : o.start.starts password = false) :
    ∃ e, Ends (opaqueRegisterBegin password o) ν (.error e) ν := by
  obtain ⟨e, he⟩ := opaqueStart_unstarted "register" h
  exact ⟨_, .withLocals (.tryCatch_error (.bind_error he.lift) (Ends.getLocal.bind Ends.throw))⟩

theorem opaqueRegisterBegin_left (h : o.start.starts password = true)
    (hleft : o.start.handsOver = false) :
    ∃ e, Ends (opaqueRegisterBegin password o) ν (.error e) ν.start := by
  obtain ⟨e, he⟩ := opaqueStart_left "register" h hleft
  exact ⟨_, .withLocals (.tryCatch_error (.bind_error he.lift) (Ends.getLocal.bind Ends.throw))⟩

theorem opaqueRegisterBegin_refused {err : Thrown} (h : o.start.starts password = true)
    (hover : o.start.handsOver = true) (hreply : o.registerStart = .error err) :
    ∃ e, Ends (opaqueRegisterBegin password o) ν (.error e) (ν.start.dispose ν.next .cancel) := by
  obtain ⟨request, hstart⟩ := opaqueStart_ok "register" h hover
  have hpost : Ends (postOpaque o.registerStart) ν.start (.error err) ν.start :=
    .answer hreply
  exact ⟨_, .withLocals (.tryCatch_error
    (hstart.lift.bind (Ends.setLocal.bind (Ends.bind_error hpost.lift)))
    (Ends.getLocal.bind ((ignoring_cancelOnBridge ν.next).bind Ends.throw)))⟩

theorem opaqueRegisterBegin_ok {res : StartResponse} (h : o.start.starts password = true)
    (hover : o.start.handsOver = true) (hreply : o.registerStart = .ok res) :
    Ends (opaqueRegisterBegin password o) ν (.ok ⟨ν.next, res.request_id, res.msg2_b64⟩) ν.start := by
  obtain ⟨request, hstart⟩ := opaqueStart_ok "register" h hover
  have hpost : Ends (postOpaque o.registerStart) ν.start (.ok res) ν.start :=
    .answer hreply
  exact .withLocals (.tryCatch (hstart.lift.bind (Ends.setLocal.bind (hpost.lift.bind Ends.pure))))

end Begin

/-- The login returns a session. -/
def LoginOutcome.succeeds (decodeB64 : String → Option (List UInt8)) (password : String)
    (o : LoginOutcome) : Bool :=
  o.start.starts password && o.start.handsOver &&
    match o.loginStart with
    | .error _ => false
    | .ok res => o.finish.consumes decodeB64 password res.msg2_b64 && o.finish.succeeds &&
        o.loginFinish.isOk

/-- What a login does to the state `h` that it starts. -/
def LoginOutcome.events (decodeB64 : String → Option (List UInt8)) (password : String) (h : Nat)
    (o : LoginOutcome) : List (Event Nat Way) :=
  if o.start.starts password then
    .started h ::
      if o.start.handsOver then
        match o.loginStart with
        | .error _ => [.disposed h .cancel]
        | .ok res =>
          if o.finish.consumes decodeB64 password res.msg2_b64 then
            .disposed h .finish :: if o.finish.succeeds then [] else [.disposed h .cancel]
          else [.disposed h .cancel]
      else []
  else []

def Native.afterLogin (ν : Native) (decodeB64 : String → Option (List UInt8)) (password : String)
    (o : LoginOutcome) : Native :=
  ⟨if o.start.starts password then ν.next + 1 else ν.next, ν.events ++ o.events decodeB64 password ν.next⟩

section Login
variable {o : LoginOutcome}

theorem opaqueLogin_unstarted (decodeB64 : String → Option (List UInt8))
    (h : o.start.starts password = false) :
    ∃ e, Ends (opaqueLogin decodeB64 password o) ν (.error e) ν := by
  obtain ⟨e, he⟩ := opaqueStart_unstarted "login" h
  exact ⟨_, .withLocals (.tryCatch_error (.bind_error he.lift) (Ends.getLocal.bind Ends.throw))⟩

theorem opaqueLogin_left (decodeB64 : String → Option (List UInt8))
    (h : o.start.starts password = true) (hleft : o.start.handsOver = false) :
    ∃ e, Ends (opaqueLogin decodeB64 password o) ν (.error e) ν.start := by
  obtain ⟨e, he⟩ := opaqueStart_left "login" h hleft
  exact ⟨_, .withLocals (.tryCatch_error (.bind_error he.lift) (Ends.getLocal.bind Ends.throw))⟩

variable {err : Thrown} {res : StartResponse} {ν' : Native}

/-- The inner catch block cancels the state, and leaves nothing to the outer one. -/
theorem opaqueLogin_refused (decodeB64 : String → Option (List UInt8))
    (h : o.start.starts password = true) (hover : o.start.handsOver = true)
    (hreply : o.loginStart = .error err) :
    ∃ e, Ends (opaqueLogin decodeB64 password o) ν (.error e) (ν.start.dispose ν.next .cancel) := by
  obtain ⟨request, hstart⟩ := opaqueStart_ok "login" h hover
  have hpost : Ends (postOpaque o.loginStart) ν.start (.error err) ν.start :=
    .answer hreply
  exact ⟨_, .withLocals (.tryCatch_error
    (hstart.lift.bind (Ends.setLocal.bind (Ends.bind_error (Ends.tryCatch_error hpost.lift
      ((ignoring_cancelOnBridge ν.next).bind (Ends.setLocal.bind Ends.throw))))))
    (Ends.getLocal.bind Ends.throw))⟩

variable (h : o.start.starts password = true) (hover : o.start.handsOver = true)
include h hover

/-- A rejected finish leaves the state to the outer catch block. -/
theorem opaqueLogin_rejected (hreply : o.loginStart = .ok res)
    (hfinish : Ends (finishOnBridge decodeB64 "login" true ν.next password res.msg2_b64 o.finish)
      ν.start (.error err) ν') :
    ∃ e, Ends (opaqueLogin decodeB64 password o) ν (.error e) (ν'.dispose ν.next .cancel) := by
  obtain ⟨request, hstart⟩ := opaqueStart_ok "login" h hover
  have hpost : Ends (postOpaque o.loginStart) ν.start (.ok res) ν.start :=
    .answer hreply
  exact ⟨_, .withLocals (.tryCatch_error
    (hstart.lift.bind (Ends.setLocal.bind ((Ends.tryCatch hpost.lift).bind
      (.bind_error hfinish.lift))))
    (Ends.getLocal.bind ((ignoring_cancelOnBridge ν.next).bind Ends.throw)))⟩

theorem opaqueLogin_finished {x : OpaqueLoginFinishResult} (hreply : o.loginStart = .ok res)
    (hfinish : Ends (finishOnBridge decodeB64 "login" true ν.next password res.msg2_b64 o.finish)
      ν.start (.ok x) ν') :
    ∃ r, Ends (opaqueLogin decodeB64 password o) ν r ν' ∧ r.isOk = o.loginFinish.isOk := by
  obtain ⟨request, hstart⟩ := opaqueStart_ok "login" h hover
  have hpost : Ends (postOpaque o.loginStart) ν.start (.ok res) ν.start :=
    .answer hreply
  cases hlast : o.loginFinish with
  | error err =>
    have hpost' : Ends (postOpaque o.loginFinish) ν' (.error err) ν' :=
      .answer hlast
    exact ⟨_, .withLocals (.tryCatch_error
      (hstart.lift.bind (Ends.setLocal.bind ((Ends.tryCatch hpost.lift).bind
        (hfinish.lift.bind (Ends.setLocal.bind (Ends.bind_error hpost'.lift))))))
      (Ends.getLocal.bind Ends.throw)), rfl⟩
  | ok loginRes =>
    have hpost' : Ends (postOpaque o.loginFinish) ν' (.ok loginRes) ν' :=
      .answer hlast
    exact ⟨_, .withLocals (.tryCatch
      (hstart.lift.bind (Ends.setLocal.bind ((Ends.tryCatch hpost.lift).bind
        (hfinish.lift.bind (Ends.setLocal.bind (hpost'.lift.bind Ends.pure))))))), rfl⟩

end Login

theorem opaqueLogin_ends (decodeB64 : String → Option (List UInt8)) (password : String) (ν : Native)
    (o : LoginOutcome) :
    ∃ r, Ends (opaqueLogin decodeB64 password o) ν r (ν.afterLogin decodeB64 password o) ∧
      r.isOk = o.succeeds decodeB64 password := by
  unfold Native.afterLogin LoginOutcome.events LoginOutcome.succeeds
  cases hstarts : o.start.starts password with
  | false =>
    obtain ⟨e, he⟩ := opaqueLogin_unstarted decodeB64 hstarts
    exact ⟨_, by simpa using he, rfl⟩
  | true =>
    cases hover : o.start.handsOver with
    | false =>
      obtain ⟨e, he⟩ := opaqueLogin_left decodeB64 hstarts hover
      exact ⟨_, he, rfl⟩
    | true =>
      cases hreply : o.loginStart with
      | error err =>
        obtain ⟨e, he⟩ := opaqueLogin_refused decodeB64 hstarts hover hreply
        exact ⟨_, by simpa [Native.start, Native.dispose] using he, rfl⟩
      | ok res =>
        dsimp only
        cases hcons : o.finish.consumes decodeB64 password res.msg2_b64 with
        | false =>
          obtain ⟨e, he⟩ := finishOnBridge_unconsumed "login" true ν.next hcons
          obtain ⟨e', he'⟩ := opaqueLogin_rejected hstarts hover hreply he
          exact ⟨_, by simpa [Native.start, Native.dispose] using he', rfl⟩
        | true =>
          obtain ⟨r, hr, hresult⟩ := finishOnBridge_consumes "login" true ν.next hcons
          cases hsucc : o.finish.succeeds with
          | false =>
            rw [hsucc] at hresult
            obtain ⟨e, rfl⟩ := hresult
            obtain ⟨e', he'⟩ := opaqueLogin_rejected hstarts hover hreply hr
            exact ⟨_, by simpa [Native.start, Native.dispose] using he', rfl⟩
          | true =>
            rw [hsucc] at hresult
            obtain rfl : r = .ok o.finish.out := hresult
            obtain ⟨r', hr', hok⟩ := opaqueLogin_finished hstarts hover hreply hr
            exact ⟨r', by simpa [Native.start, Native.dispose] using hr', by simpa using hok⟩

def CompleteOutcome.succeeds (decodeB64 : String → Option (List UInt8)) (password serverMsg2B64 : String)
    (o : CompleteOutcome) : Bool :=
  o.finish.consumes decodeB64 password serverMsg2B64 && o.finish.succeeds && o.registerFinish.isOk

def CompleteOutcome.events (decodeB64 : String → Option (List UInt8)) (handle : RegisterHandle)
    (password : String) (o : CompleteOutcome) : List (Event Nat Way) :=
  if o.finish.consumes decodeB64 password handle.serverMsg2B64 then [.disposed handle.stateId .finish]
  else []

theorem opaqueRegisterComplete_ends (decodeB64 : String → Option (List UInt8)) (handle : RegisterHandle)
    (password : String) (ν : Native) (o : CompleteOutcome) :
    ∃ r, Ends (opaqueRegisterComplete decodeB64 handle password o) ν r
        ⟨ν.next, ν.events ++ o.events decodeB64 handle password⟩ ∧
      r.isOk = o.succeeds decodeB64 password handle.serverMsg2B64 := by
  unfold CompleteOutcome.events CompleteOutcome.succeeds
  cases hcons : o.finish.consumes decodeB64 password handle.serverMsg2B64 with
  | false =>
    obtain ⟨e, he⟩ := finishOnBridge_unconsumed "register" false handle.stateId hcons
    have hends : Ends (opaqueRegisterComplete decodeB64 handle password o) ν
        (.error (asLobbyError e)) ν := .tryCatch_error (.bind_error he) .throw
    exact ⟨_, by simpa using hends, rfl⟩
  | true =>
    obtain ⟨r, hr, hresult⟩ := finishOnBridge_consumes "register" false handle.stateId hcons
    cases hsucc : o.finish.succeeds with
    | false =>
      rw [hsucc] at hresult
      obtain ⟨e, rfl⟩ := hresult
      exact ⟨_, .tryCatch_error (.bind_error hr) .throw, rfl⟩
    | true =>
      rw [hsucc] at hresult
      obtain rfl : r = .ok o.finish.out := hresult
      cases hlast : o.registerFinish with
      | error err =>
        have hpost : Ends (postOpaque o.registerFinish) (ν.dispose handle.stateId .finish)
            (.error err) (ν.dispose handle.stateId .finish) :=
          .answer hlast
        exact ⟨_, .tryCatch_error (hr.bind hpost) .throw, rfl⟩
      | ok _ =>
        have hpost : Ends (postOpaque o.registerFinish) (ν.dispose handle.stateId .finish)
            (.ok ()) (ν.dispose handle.stateId .finish) :=
          .answer hlast
        exact ⟨_, .tryCatch (hr.bind hpost), rfl⟩

theorem opaqueRegisterCancel_ends (handle : RegisterHandle) :
    Ends (opaqueRegisterCancel handle) ν (.ok ()) (ν.dispose handle.stateId .cancel) :=
  .ignoring (.run)

/-! ## The callers -/

/-- The call frees the state. -/
def RegisterCall.disposes (decodeB64 : String → Option (List UInt8)) (serverMsg2B64 : String) :
    RegisterCall → Bool
  | .complete password o => o.finish.consumes decodeB64 password serverMsg2B64
  | .cancel => true

def RegisterCall.events (decodeB64 : String → Option (List UInt8)) (handle : RegisterHandle) :
    RegisterCall → List (Event Nat Way)
  | .complete password o => o.events decodeB64 handle password
  | .cancel => [.disposed handle.stateId .cancel]

theorem makeCalls_ends (handle : RegisterHandle) (calls : List RegisterCall) :
    ∀ ν : Native, Ends (makeCalls decodeB64 handle calls) ν (.ok ())
      ⟨ν.next, ν.events ++ calls.flatMap (RegisterCall.events decodeB64 handle)⟩ := by
  induction calls with
  | nil =>
    intro ν
    have hends : Ends (makeCalls decodeB64 handle []) ν (.ok ()) ν := .pure
    simpa using hends
  | cons c cs ih =>
    intro ν
    have hcall : Ends (ignoring (c.run decodeB64 handle)) ν (.ok ())
        ⟨ν.next, ν.events ++ c.events decodeB64 handle⟩ := by
      cases c with
      | complete password o =>
        obtain ⟨r, hr, -⟩ := opaqueRegisterComplete_ends decodeB64 handle password ν o
        exact hr.ignoring
      | cancel => exact (opaqueRegisterCancel_ends handle).ignoring
    have hrest : Ends (makeCalls decodeB64 handle (c :: cs)) ν _ _ := hcall.bind (ih _)
    simpa using hrest

theorem disposals_calls (handle : RegisterHandle) (calls : List RegisterCall) :
    disposals handle.stateId (calls.flatMap (RegisterCall.events decodeB64 handle)) =
      calls.countP (RegisterCall.disposes decodeB64 handle.serverMsg2B64) := by
  induction calls with
  | nil => rfl
  | cons c cs ih =>
    rw [flatMap_cons, disposals_append, countP_cons, Nat.add_comm]
    congr 1
    cases c with
    | complete password o =>
      rw [RegisterCall.events, CompleteOutcome.events, RegisterCall.disposes]
      split
      · simp [disposals, Event.disposes]
      · rfl
    | cancel => simp [disposals, Event.disposes, RegisterCall.events, RegisterCall.disposes]

theorem started_not_mem_calls (handle : RegisterHandle) (calls : List RegisterCall) (h : Nat) :
    .started h ∉ calls.flatMap (RegisterCall.events decodeB64 handle) := by
  rw [mem_flatMap]
  rintro ⟨c, -, hmem⟩
  cases c with
  | complete password o =>
    rw [RegisterCall.events, CompleteOutcome.events] at hmem
    split at hmem
    · simp at hmem
    · simp at hmem
  | cancel => simp [RegisterCall.events] at hmem

/-! ## Clean outcomes -/

/-- Every state that a login starts reaches it, and a finish that reaches lib-client succeeds. -/
def LoginOutcome.Clean (decodeB64 : String → Option (List UInt8)) (password : String)
    (o : LoginOutcome) : Prop :=
  o.start.starts password = true → o.start.handsOver = true ∧ ∀ res, o.loginStart = .ok res →
    o.finish.consumes decodeB64 password res.msg2_b64 = true → o.finish.succeeds = true

/-- Every state that a registration starts reaches it, and what follows is as `P` says. -/
def BeginOutcome.Then (password : String) (o : BeginOutcome) (P : StartResponse → Prop) : Prop :=
  o.start.starts password = true → o.start.handsOver = true ∧ ∀ res, o.registerStart = .ok res → P res

/-- One of the calls frees the state. Where the caller cancels after a failure, a finish that reaches
    lib-client is followed by none. -/
def Flow.Clean (decodeB64 : String → Option (List UInt8)) : Flow → Prop
  | .login password o => o.Clean decodeB64 password
  | .registration password o calls => o.Then password fun res =>
    calls.countP (RegisterCall.disposes decodeB64 res.msg2_b64) = 1
  | .registerAccount password o => o.registerBegin.Then password fun res =>
    o.createIdentity.isOk = true → o.setIdentity.isOk = true →
      o.complete.finish.consumes decodeB64 password res.msg2_b64 = true →
        o.complete.finish.succeeds = true ∧ o.complete.registerFinish.isOk = true ∧
          o.login.succeeds decodeB64 password = true ∧ o.adoptLobbySession.isOk = true
  | .upgradeLegacyAccount password o => o.registerBegin.Then password fun res =>
    o.complete.finish.consumes decodeB64 password res.msg2_b64 = true →
      o.complete.finish.succeeds = true ∧ o.complete.registerFinish.isOk = true ∧
        o.login.Clean decodeB64 password

theorem BeginOutcome.then_congr {o : BeginOutcome} {P Q : StartResponse → Prop}
    (h : ∀ res, P res ↔ Q res) : o.Then password P ↔ o.Then password Q :=
  imp_congr_right fun _ => and_congr_right fun _ => forall_congr' fun res =>
    imp_congr_right fun _ => h res

theorem events_of_ends {m : Service Unit} {r : Except Thrown Unit} {ν ν' : Native}
    (h : Ends m ν r ν') : (m ν).2.events = ν'.events := by
  rw [Ends] at h
  rw [h]

theorem disposedOnce_begin {o : BeginOutcome} {rest : RegisterHandle → Service Unit} :
    DisposedOnce ((opaqueRegisterBegin password o >>= rest) ⟨0, []⟩).2.events ↔
      o.Then password fun res => DisposedOnce
        (rest ⟨0, res.request_id, res.msg2_b64⟩ ⟨1, [.started 0]⟩).2.events := by
  unfold BeginOutcome.Then
  cases hstarts : o.start.starts password with
  | false =>
    obtain ⟨e, he⟩ := opaqueRegisterBegin_unstarted hstarts
    rw [events_of_ends (.bind_error he)]
    simp [DisposedOnce]
  | true =>
    cases hover : o.start.handsOver with
    | false =>
      obtain ⟨e, he⟩ := opaqueRegisterBegin_left hstarts hover
      rw [events_of_ends (.bind_error he)]
      simp [DisposedOnce, Native.start, disposals, Event.disposes]
    | true =>
      cases hreply : o.registerStart with
      | error err =>
        obtain ⟨e, he⟩ := opaqueRegisterBegin_refused hstarts hover hreply
        rw [events_of_ends (.bind_error he)]
        simp [DisposedOnce, Native.start, Native.dispose, disposals, Event.disposes]
      | ok res =>
        have hbegin := opaqueRegisterBegin_ok (ν := ⟨0, []⟩) hstarts hover hreply
        have hthen : Ends (opaqueRegisterBegin password o >>= rest) ⟨0, []⟩
            (rest ⟨0, res.request_id, res.msg2_b64⟩ ⟨1, [.started 0]⟩).1
            (rest ⟨0, res.request_id, res.msg2_b64⟩ ⟨1, [.started 0]⟩).2 := hbegin.bind rfl
        rw [events_of_ends hthen]
        simp

theorem loginEvents_about {h : Nat} {o : LoginOutcome} {e : Event Nat Way}
    (hmem : e ∈ o.events decodeB64 password h) :
    e = .started h ∨ ∃ how, e = .disposed h how := by
  unfold LoginOutcome.events at hmem
  split at hmem
  · rcases mem_cons.1 hmem with rfl | hmem
    · exact .inl rfl
    split at hmem
    · split at hmem
      · exact .inr ⟨_, mem_singleton.1 hmem⟩
      split at hmem
      · rcases mem_cons.1 hmem with rfl | hmem
        · exact .inr ⟨_, rfl⟩
        split at hmem
        · exact absurd hmem not_mem_nil
        · exact .inr ⟨_, mem_singleton.1 hmem⟩
      · exact .inr ⟨_, mem_singleton.1 hmem⟩
    · exact absurd hmem not_mem_nil
  · exact absurd hmem not_mem_nil

theorem disposals_loginEvents {h : Nat} (hne : h ≠ h') (o : LoginOutcome) :
    disposals h' (o.events decodeB64 password h) = 0 := by
  refine countP_eq_zero.2 fun e hmem => ?_
  rcases loginEvents_about hmem with rfl | ⟨how, rfl⟩
  · simp [Event.disposes]
  · simp [Event.disposes, hne]

theorem disposedOnce_loginEvents (decodeB64 : String → Option (List UInt8)) (h : Nat) (o : LoginOutcome) :
    DisposedOnce (o.events decodeB64 password h) ↔ o.Clean decodeB64 password := by
  unfold LoginOutcome.events LoginOutcome.Clean
  cases hstarts : o.start.starts password with
  | false => simp [DisposedOnce]
  | true =>
    cases hover : o.start.handsOver with
    | false => simp [DisposedOnce, disposals, Event.disposes]
    | true =>
      cases hreply : o.loginStart with
      | error err => simp [DisposedOnce, disposals, Event.disposes]
      | ok res =>
        dsimp only
        cases hcons : o.finish.consumes decodeB64 password res.msg2_b64 with
        | false => simp [DisposedOnce, disposals, Event.disposes, hcons]
        | true =>
          cases hsucc : o.finish.succeeds <;> simp [DisposedOnce, disposals, Event.disposes, hcons]

theorem started_loginEvents {h : Nat} {o : LoginOutcome}
    (hmem : .started h' ∈ o.events decodeB64 password h) : h' = h := by
  rcases loginEvents_about hmem with heq | ⟨how, heq⟩
  · exact Event.started.inj heq
  · simp at heq

/-- A login whose session arrives has cleaned up. -/
theorem LoginOutcome.Clean.of_succeeds {o : LoginOutcome} (h : o.succeeds decodeB64 password = true) :
    o.Clean decodeB64 password := by
  unfold LoginOutcome.succeeds at h
  obtain ⟨hstart, hrest⟩ := Bool.and_eq_true_iff.1 h
  intro _
  refine ⟨(Bool.and_eq_true_iff.1 hstart).2, fun res hreply _ => ?_⟩
  rw [hreply] at hrest
  exact (Bool.and_eq_true_iff.1 (Bool.and_eq_true_iff.1 hrest).1).2

theorem disposedOnce_finishedThenLogin (o : LoginOutcome) :
    DisposedOnce ([.started 0, .disposed 0 .finish] ++ o.events decodeB64 password 1) ↔
      o.Clean decodeB64 password := by
  rw [disposedOnce_append, disposedOnce_loginEvents]
  · simp [DisposedOnce, disposals, Event.disposes]
  · intro h hmem
    obtain rfl : h = 0 := by simpa using hmem
    exact disposals_loginEvents (by decide) o
  · intro h hmem
    obtain rfl := started_loginEvents hmem
    rfl

section Callers

theorem flow_login (o : LoginOutcome) :
    DisposedOnce ((Flow.login password o).trace decodeB64) ↔ o.Clean decodeB64 password := by
  obtain ⟨r, hr, -⟩ := opaqueLogin_ends decodeB64 password ⟨0, []⟩ o
  have hends : ∃ r', Ends ((Flow.login password o).run decodeB64) ⟨0, []⟩ r'
      (Native.afterLogin ⟨0, []⟩ decodeB64 password o) := by
    cases r with
    | error e => exact ⟨_, .bind_error hr⟩
    | ok session => exact ⟨_, hr.bind .pure⟩
  obtain ⟨r', hr'⟩ := hends
  rw [Flow.trace, events_of_ends hr', ← disposedOnce_loginEvents decodeB64 0]
  simp [Native.afterLogin]

theorem flow_registration (o : BeginOutcome) (calls : List RegisterCall) :
    DisposedOnce ((Flow.registration password o calls).trace decodeB64) ↔
      (Flow.registration password o calls).Clean decodeB64 := by
  rw [Flow.trace, Flow.run, disposedOnce_begin]
  refine BeginOutcome.then_congr fun res => ?_
  rw [events_of_ends (makeCalls_ends _ calls _), singleton_append,
    disposedOnce_cons (started_not_mem_calls _ calls)]
  exact Eq.congr_left (disposals_calls ⟨0, res.request_id, res.msg2_b64⟩ calls)

theorem not_disposedOnce_twice (events : List (Event Nat Way)) :
    ¬ DisposedOnce ([.started 0, .disposed 0 .finish] ++ (events ++ [.disposed 0 .cancel])) := by
  intro hall
  have h1 := hall 0 mem_cons_self
  rw [disposals_append, disposals_append] at h1
  have hfinish : disposals 0 [.started 0, .disposed 0 Way.finish] = 1 := rfl
  have hcancel : disposals 0 [.disposed 0 Way.cancel] = 1 := rfl
  omega

/-- The state of a registration that has begun. -/
def begun : Native := ⟨1, [.started 0]⟩

variable {o : AccountOutcome} {ν' : Native} {err : Thrown} {handle : RegisterHandle}

theorem registerWith_caught (decodeB64 : String → Option (List UInt8)) (password : String)
    (handle : RegisterHandle) (h : Ends (do
      answer o.createIdentity
      answer o.setIdentity
      opaqueRegisterComplete decodeB64 handle password o.complete
      let _ ← opaqueLogin decodeB64 password o.login
      answer o.adoptLobbySession : Service Unit) ν (.error err) ν') :
    Ends (registerWith decodeB64 handle password o) ν (.error err)
      (ν'.dispose handle.stateId .cancel) :=
  .tryCatch_error h ((opaqueRegisterCancel_ends handle).ignoring.bind .throw)

/-- The states after a login that follows the finish of the registration. -/
theorem afterLogin_finished (o : LoginOutcome) :
    (Native.afterLogin ⟨1, [.started 0, .disposed 0 .finish]⟩ decodeB64 password o).events =
      [.started 0, .disposed 0 .finish] ++ o.events decodeB64 password 1 := rfl

theorem stored_ends {f : Unit → Service Unit} {r : Except Thrown Unit}
    (hcreate : o.createIdentity = .ok ()) (hset : o.setIdentity = .ok ()) (hf : Ends (f ()) ν r ν')
    :
    Ends (answer o.createIdentity >>= fun _ => answer o.setIdentity >>= f) ν r ν' :=
  (Ends.answer hcreate).bind ((Ends.answer hset).bind hf)

section Register
variable {handle : RegisterHandle} {o : AccountOutcome} (hhandle : handle.stateId = 0)
include hhandle

theorem disposedOnce_unused : DisposedOnce (begun.dispose handle.stateId .cancel).events := by
  rw [hhandle]
  simp [begun, Native.dispose, DisposedOnce, disposals, Event.disposes]

theorem not_disposedOnce_cancelled (n : Nat) (events : List (Event Nat Way)) :
    ¬ DisposedOnce (Native.dispose ⟨n, [.started 0, .disposed 0 .finish] ++ events⟩
      handle.stateId .cancel).events := by
  rw [hhandle, Native.dispose]
  exact not_disposedOnce_twice events

/-- Once the finish has freed the state, every failure makes the catch block free it again. -/
theorem disposedOnce_registerWith_consumed (hcreate : o.createIdentity = .ok ())
    (hset : o.setIdentity = .ok ())
    (hcons : o.complete.finish.consumes decodeB64 password handle.serverMsg2B64 = true) :
    DisposedOnce (registerWith decodeB64 handle password o begun).2.events ↔
      o.complete.finish.succeeds = true ∧ o.complete.registerFinish.isOk = true ∧
        o.login.succeeds decodeB64 password = true ∧ o.adoptLobbySession.isOk = true := by
  obtain ⟨r, hr, hok⟩ := opaqueRegisterComplete_ends decodeB64 handle password begun o.complete
  unfold CompleteOutcome.events CompleteOutcome.succeeds at *
  rw [hcons, hhandle] at hr
  rw [hcons] at hok
  cases r with
  | error err =>
    rw [events_of_ends (registerWith_caught decodeB64 password handle
      (stored_ends hcreate hset (.bind_error hr)))]
    refine iff_of_false (not_disposedOnce_cancelled hhandle _ []) fun h => ?_
    rw [h.1, h.2.1] at hok
    simp [Except.toBool] at hok
  | ok _ =>
    obtain ⟨hsucc, hlast⟩ := Bool.and_eq_true_iff.1 hok.symm
    obtain ⟨r', hr', hok'⟩ := opaqueLogin_ends decodeB64 password
      ⟨1, [.started 0, .disposed 0 .finish]⟩ o.login
    cases r' with
    | error err =>
      rw [events_of_ends (registerWith_caught decodeB64 password handle
        (stored_ends hcreate hset (hr.bind (.bind_error hr'))))]
      refine iff_of_false (not_disposedOnce_cancelled hhandle _ _) fun h => ?_
      rw [h.2.2.1] at hok'
      simp [Except.toBool] at hok'
    | ok session =>
      cases hadopt : o.adoptLobbySession with
      | error err =>
        rw [events_of_ends (registerWith_caught decodeB64 password handle
          (stored_ends hcreate hset (hr.bind (hr'.bind (.answer hadopt)))))]
        refine iff_of_false (not_disposedOnce_cancelled hhandle _ _) fun h => ?_
        exact absurd h.2.2.2 Bool.false_ne_true
      | ok _ =>
        have hends : Ends (registerWith decodeB64 handle password o) begun (.ok ()) _ :=
          .tryCatch (stored_ends hcreate hset (hr.bind (hr'.bind (.answer hadopt))))
        rw [events_of_ends hends, afterLogin_finished, disposedOnce_finishedThenLogin]
        exact iff_of_true (.of_succeeds hok'.symm) ⟨hsucc, hlast, hok'.symm, rfl⟩

theorem disposedOnce_registerWith (o : AccountOutcome) :
    DisposedOnce (registerWith decodeB64 handle password o begun).2.events ↔
      (o.createIdentity.isOk = true → o.setIdentity.isOk = true →
        o.complete.finish.consumes decodeB64 password handle.serverMsg2B64 = true →
          o.complete.finish.succeeds = true ∧ o.complete.registerFinish.isOk = true ∧
            o.login.succeeds decodeB64 password = true ∧ o.adoptLobbySession.isOk = true) := by
  cases hcreate : o.createIdentity with
  | error err =>
    have hbody := registerWith_caught decodeB64 password handle (ν := begun)
      (.bind_error (.answer hcreate))
    rw [events_of_ends hbody]
    exact iff_of_true (disposedOnce_unused hhandle) fun h => absurd h Bool.false_ne_true
  | ok _ =>
    cases hset : o.setIdentity with
    | error err =>
      have hbody := registerWith_caught decodeB64 password handle (ν := begun)
        ((Ends.answer hcreate).bind (Ends.bind_error (Ends.answer hset)))
      rw [events_of_ends hbody]
      exact iff_of_true (disposedOnce_unused hhandle) fun _ h => absurd h Bool.false_ne_true
    | ok _ =>
      cases hcons : o.complete.finish.consumes decodeB64 password handle.serverMsg2B64 with
      | true =>
        rw [disposedOnce_registerWith_consumed hhandle hcreate hset hcons]
        exact ⟨fun h _ _ _ => h, fun h => h rfl rfl rfl⟩
      | false =>
        obtain ⟨r, hr, hok⟩ :=
          opaqueRegisterComplete_ends decodeB64 handle password begun o.complete
        unfold CompleteOutcome.events CompleteOutcome.succeeds at *
        rw [hcons] at hr hok
        cases r with
        | ok _ => simp [Except.toBool] at hok
        | error err =>
          rw [events_of_ends (registerWith_caught decodeB64 password handle
            (stored_ends hcreate hset (.bind_error hr)))]
          exact iff_of_true (by simpa using disposedOnce_unused hhandle)
            fun _ _ h => absurd h Bool.false_ne_true

end Register

theorem flow_registerAccount (o : AccountOutcome) :
    DisposedOnce ((Flow.registerAccount password o).trace decodeB64) ↔
      (Flow.registerAccount password o).Clean decodeB64 := by
  rw [Flow.trace, Flow.run, registerAccount, disposedOnce_begin]
  refine BeginOutcome.then_congr fun res => ?_
  have hhandle : (⟨0, res.request_id, res.msg2_b64⟩ : RegisterHandle).stateId = 0 := rfl
  exact disposedOnce_registerWith hhandle o

theorem upgradeWith_caught {o : UpgradeOutcome}
    (h : Ends (opaqueRegisterComplete decodeB64 handle password o.complete) ν (.error err) ν') :
    Ends (upgradeWith decodeB64 handle password o) ν (.error err) (ν'.dispose handle.stateId .cancel) :=
  .bind_error (.tryCatch_error h ((opaqueRegisterCancel_ends handle).bind .throw))

theorem upgradeWith_completed {o : UpgradeOutcome}
    (h : Ends (opaqueRegisterComplete decodeB64 handle password o.complete) ν (.ok ()) ν') :
    ∃ r, Ends (upgradeWith decodeB64 handle password o) ν r (ν'.afterLogin decodeB64 password o.login) := by
  obtain ⟨r, hr, -⟩ := opaqueLogin_ends decodeB64 password ν' o.login
  cases r with
  | error e => exact ⟨_, (Ends.tryCatch h).bind (Ends.bind_error hr)⟩
  | ok session => exact ⟨_, (Ends.tryCatch h).bind (hr.bind Ends.pure)⟩

theorem disposedOnce_upgradeWith (hhandle : handle.stateId = 0) (o : UpgradeOutcome) :
    DisposedOnce (upgradeWith decodeB64 handle password o begun).2.events ↔
      (o.complete.finish.consumes decodeB64 password handle.serverMsg2B64 = true →
        o.complete.finish.succeeds = true ∧ o.complete.registerFinish.isOk = true ∧
          o.login.Clean decodeB64 password) := by
  obtain ⟨r, hr, hok⟩ := opaqueRegisterComplete_ends decodeB64 handle password begun o.complete
  unfold CompleteOutcome.events CompleteOutcome.succeeds at *
  cases hcons : o.complete.finish.consumes decodeB64 password handle.serverMsg2B64 with
  | false =>
    rw [hcons] at hr hok
    cases r with
    | ok _ => simp [Except.toBool] at hok
    | error err =>
      rw [events_of_ends (upgradeWith_caught hr)]
      exact iff_of_true (by simpa using disposedOnce_unused hhandle)
        fun h => absurd h Bool.false_ne_true
  | true =>
    rw [hcons, hhandle] at hr
    rw [hcons] at hok
    cases r with
    | error err =>
      rw [events_of_ends (upgradeWith_caught hr)]
      refine iff_of_false (not_disposedOnce_cancelled hhandle _ []) fun h => ?_
      obtain ⟨hsucc, hlast, -⟩ := h rfl
      rw [hsucc, hlast] at hok
      simp [Except.toBool] at hok
    | ok _ =>
      obtain ⟨r', hr'⟩ := upgradeWith_completed hr
      rw [events_of_ends hr']
      refine (disposedOnce_finishedThenLogin o.login).trans ?_
      obtain ⟨hsucc, hlast⟩ := Bool.and_eq_true_iff.1 hok.symm
      exact ⟨fun h _ => ⟨hsucc, hlast, h⟩, fun h => (h rfl).2.2⟩

theorem flow_upgradeLegacyAccount (o : UpgradeOutcome) :
    DisposedOnce ((Flow.upgradeLegacyAccount password o).trace decodeB64) ↔
      (Flow.upgradeLegacyAccount password o).Clean decodeB64 := by
  rw [Flow.trace, Flow.run, upgradeLegacyAccount, disposedOnce_begin]
  refine BeginOutcome.then_congr fun res => ?_
  have hhandle : (⟨0, res.request_id, res.msg2_b64⟩ : RegisterHandle).stateId = 0 := rfl
  exact disposedOnce_upgradeWith hhandle o

theorem Flow.disposedOnce_iff (f : Flow) :
    DisposedOnce (f.trace decodeB64) ↔ f.Clean decodeB64 := by
  cases f with
  | login password o => exact flow_login o
  | registration password o calls => exact flow_registration o calls
  | registerAccount password o => exact flow_registerAccount o
  | upgradeLegacyAccount password o => exact flow_upgradeLegacyAccount o

end Callers

/-- **Whatever flows run beside each other**, each state that is started is freed once exactly if the
    outcomes of every flow are clean. -/
theorem statesDisposedOnce_iff (decodeB64 : String → Option (List UInt8)) (flows : List Flow)
    (tr : List (Event (Nat × Nat) Way))
    (h : tr.Perm (tagged 0 (flows.map (Flow.trace decodeB64)))) :
    DisposedOnce tr ↔ ∀ f ∈ flows, f.Clean decodeB64 := by
  rw [DisposedOnce.perm h, disposedOnce_tagged, List.forall_mem_map]
  exact forall₂_congr fun f _ => f.disposedOnce_iff

/-! ## Short flows -/

def started : StartOutcome := ⟨true, some "msg1", true, none⟩

/-- The server's first answer is good base64; the password is wrong. -/
def wrongPassword : LoginOutcome where
  start := started
  loginStart := .ok ⟨"msg2", "req"⟩
  finish := ⟨true, true, -3, ⟨"", ""⟩, true, none⟩
  loginFinish := .error (.other "")
  now := 0

/-- The server does not answer. -/
def unanswered : LoginOutcome :=
  { wrongPassword with
    loginStart := .error (.lobbyAuthError .unknown "Server error (500). Please try again.") }

def decodeAny (_ : String) : Option (List UInt8) := some []

theorem statesDisposedOnce_unanswered :
    DisposedOnce (tagged 0 [(Flow.login "secret" unanswered).trace decodeAny]) := by
  refine (statesDisposedOnce_iff decodeAny [.login "secret" unanswered] _ (.refl _)).2 ?_
  intro f hf
  obtain rfl := mem_singleton.1 hf
  exact fun _ => ⟨rfl, fun res hreply => absurd hreply (by simp [unanswered])⟩

/-- A wrong password frees the state twice. -/
theorem wrongPassword_freed_twice :
    ¬ ∀ (decodeB64 : String → Option (List UInt8)) (flows : List Flow) (tr : List (Event (Nat × Nat) Way)),
      tr.Perm (tagged 0 (flows.map (Flow.trace decodeB64))) → DisposedOnce tr := by
  intro hall
  have htwice := hall decodeAny [.login "secret" wrongPassword] _ (.refl _) (0, 0)
  revert htwice
  decide

end LobbyAuth
