import SovereignMobile.Quic.AuthSession

/-! # Sequence numbers of an authenticated QUIC handle

The counter of a handle lives in the `SESSIONS` map, but a call advances its own clone and writes
it back only on success. Two overlapping calls therefore build requests with the same number, and
so do a call that fails after it built its request and the next one. What does hold is that calls
which take turns, and all return `Ok` once they have built a request, never reuse a number: the
clone they advance is the current one. -/

namespace Quic

open EventLoop List Option
open Function (update_of_ne)

def State.builtOf (s : State) (h : Nat) : List Nat :=
  (s.built.filter fun p => p.1 = h).map Prod.snd

def State.wireOf (s : State) (h : Nat) : List Nat :=
  (s.wire.filter fun p => p.1 = h).map fun p => p.2.authContext.sequence

/-- No number is put on the wire twice for one handle, and later-built requests carry larger
    ones. -/
def FreshSequences (s : State) : Prop :=
  ∀ h, (s.wireOf h).Nodup ∧ (s.builtOf h).Pairwise (· < ·)

/-- A call clones the session of a handle only while no other call holds a clone of it (so the
    earlier ones have written theirs back, or built no request), and below the end of the
    counter. -/
def takesTurns : Cond machine where
  op _ s o :=
    match o with
    | .cloned h => decide (s.holder h = none) && (s.sessions h).all fun ses => ses.sequence < u64Max
    | _ => true
  call _ _ _ _ := true

/-! ## What holds at every moment -/

structure Inv (s : State) : Prop where
  increasing : ∀ h, (s.builtOf h).Pairwise (· < ·)
  sent : ∀ h, (s.wireOf h).Sublist (s.builtOf h)
  current : ∀ h ses, s.holder h = none → s.sessions h = some ses →
    ∀ q ∈ s.builtOf h, q < ses.sequence
  unopened : ∀ h, s.nextId ≤ h → s.holder h = none ∧ s.sessions h = none ∧ s.builtOf h = []

/-- While call `i` holds the clone of a handle, nobody else builds or sends on it. -/
structure Rely (i : Nat) (s s' : State) : Prop where
  nextId : s.nextId ≤ s'.nextId
  held : ∀ h, s.holder h = some i → s'.holder h = some i ∧ s'.builtOf h = s.builtOf h ∧
    s'.wireOf h = s.wireOf h ∧ ∀ ses, s'.sessions h = some ses → s.sessions h = some ses

def OpPre (i : Nat) (s : State) : Op → Prop
  | .insertSession h ses => s.holder h = some i ∧ ∀ q ∈ s.builtOf h, q < ses.sequence
  | .cloned h => (s.sessions h).isSome
  | .builtRequest h q => s.holder h = some i ∧ ∀ q' ∈ s.builtOf h, q' < q
  | .gaveUp h => s.holder h = some i ∧
      ∀ ses, s.sessions h = some ses → ∀ q ∈ s.builtOf h, q < ses.sequence
  | _ => True

def CallPre (i : Nat) (s : State) : Call → Prop
  | .writeAll h req => s.holder h = some i ∧
      (s.wireOf h ++ [req.authContext.sequence]).Sublist (s.builtOf h)
  | _ => True

def spec : Spec machine where
  Inv := Inv
  Rely := Rely
  OpPre := OpPre
  CallPre := CallPre
  Fin _ _ := True

theorem Rely.refl (i : Nat) (s : State) : Rely i s s :=
  ⟨Nat.le_refl _, fun _ hh => ⟨hh, rfl, rfl, fun _ h => h⟩⟩

variable {i h : Nat} {s s' : State} {c : Call} {r : Reply} {o : Except String (Ret c)}

theorem Rely.trans {s1 s2 s3 : State} (h1 : Rely i s1 s2) (h2 : Rely i s2 s3) : Rely i s1 s3 := by
  refine ⟨Nat.le_trans h1.nextId h2.nextId, fun h hh => ?_⟩
  obtain ⟨a1, b1, c1, d1⟩ := h1.held h hh
  obtain ⟨a2, b2, c2, d2⟩ := h2.held h a1
  exact ⟨a2, b2.trans b1, c2.trans c1, fun ses hses => d1 ses (d2 ses hses)⟩

theorem builtOf_append (s : State) (h q h' : Nat) :
    State.builtOf { s with built := s.built ++ [(h, q)] } h'
      = if h = h' then s.builtOf h' ++ [q] else s.builtOf h' := by
  by_cases hh : h = h' <;> simp [State.builtOf, hh]

theorem wireOf_append (s : State) (h : Nat) (req : ZhtpRequestWire) (h' : Nat) :
    State.wireOf { s with wire := s.wire ++ [(h, req)] } h'
      = if h = h' then s.wireOf h' ++ [req.authContext.sequence] else s.wireOf h' := by
  by_cases hh : h = h' <;> simp [State.wireOf, hh]

theorem Inv.opened (hs : Inv s) (hh : s.holder h = some i) : h < s.nextId := by
  by_contra hlt
  rw [(hs.unopened h (by omega)).1] at hh
  simp at hh

theorem Inv.opened_of_session (hs : Inv s) (hh : (s.sessions h).isSome) : h < s.nextId := by
  by_contra hlt
  rw [(hs.unopened h (by omega)).2.1] at hh
  simp at hh

/-! ## One operation -/

/-- An operation on handle `h` leaves alone every call that holds another handle. -/
theorem rely_of_other {j : Nat} (hid : s.nextId ≤ s'.nextId) (hj : s.holder h ≠ some j)
    (hother : ∀ h', h' ≠ h → s'.holder h' = s.holder h' ∧ s'.builtOf h' = s.builtOf h' ∧
      s'.wireOf h' = s.wireOf h' ∧ s'.sessions h' = s.sessions h') : Rely j s s' := by
  refine ⟨hid, fun h' hh' => ?_⟩
  have hne : h' ≠ h := fun e => hj (e ▸ hh')
  obtain ⟨a, b, c, d⟩ := hother h' hne
  exact ⟨a ▸ hh', b, c, fun ses hses => d ▸ hses⟩

/-- An operation of call `i` on the handle that it holds. -/
theorem rely_of_own {j : Nat} (hh : s.holder h = some i) (hj : j ≠ i) (hid : s.nextId ≤ s'.nextId)
    (hother : ∀ h', h' ≠ h → s'.holder h' = s.holder h' ∧ s'.builtOf h' = s.builtOf h' ∧
      s'.wireOf h' = s.wireOf h' ∧ s'.sessions h' = s.sessions h') : Rely j s s' :=
  rely_of_other hid (by rw [hh]; simpa using fun e => hj e.symm) hother

theorem inv_op {o : Op} (hs : Inv s) (hc : takesTurns.op i s o = true) (hpre : OpPre i s o) :
    Inv (apply i o s) ∧ ∀ j, j ≠ i → Rely j s (apply i o s) := by
  cases o with
  | insertClient =>
    have hfresh := hs.unopened s.nextId (Nat.le_refl _)
    refine ⟨⟨hs.increasing, hs.sent, ?_, ?_⟩, fun j _ => ?_⟩
    · intro h ses hh hses
      by_cases he : h = s.nextId
      · subst he
        simp [apply] at hh
      · simp only [apply, update_of_ne he] at hh
        exact hs.current h ses hh hses
    · intro h hle
      have hle' : s.nextId + 1 ≤ h := hle
      have he : h ≠ s.nextId := by omega
      simp only [apply, update_of_ne he]
      exact hs.unopened h (by omega)
    · refine rely_of_other (h := s.nextId) (Nat.le_succ _) ?_ fun h' hne => ?_
      · rw [hfresh.1]
        simp
      · simp [apply, State.builtOf, State.wireOf, update_of_ne hne]
  | insertSession h ses =>
    obtain ⟨hh, hlt⟩ := hpre
    have hopen := hs.opened hh
    refine ⟨⟨hs.increasing, hs.sent, ?_, ?_⟩, fun j hj => ?_⟩
    · intro h' ses' hh' hses'
      by_cases he : h' = h
      · subst he
        simp only [apply, Function.update_self, some.injEq] at hses'
        subst hses'
        exact hlt
      · simp only [apply, update_of_ne he] at hh' hses'
        exact hs.current h' ses' hh' hses'
    · intro h' hle
      simp only [apply, update_of_ne (Nat.ne_of_gt (Nat.lt_of_lt_of_le hopen hle))]
      exact hs.unopened h' hle
    · refine rely_of_own hh hj (Nat.le_refl _) fun h' hne => ?_
      simp [apply, State.builtOf, State.wireOf, update_of_ne hne]
  | removeClient h | advanceClock ms =>
    exact ⟨⟨hs.increasing, hs.sent, hs.current, hs.unopened⟩, fun j _ =>
      ⟨Nat.le_refl _, fun _ hh => ⟨hh, rfl, rfl, fun _ hses => hses⟩⟩⟩
  | removeSession h =>
    refine ⟨⟨hs.increasing, hs.sent, ?_, ?_⟩, fun j _ => ?_⟩
    · intro h' ses hh hses
      by_cases he : h' = h
      · subst he
        simp [apply] at hses
      · simp only [apply, update_of_ne he] at hses
        exact hs.current h' ses hh hses
    · intro h' hle
      obtain ⟨a, b, c⟩ := hs.unopened h' hle
      refine ⟨a, ?_, c⟩
      by_cases he : h' = h
      · subst he
        simp [apply]
      · simpa only [apply, update_of_ne he] using b
    · refine ⟨Nat.le_refl _, fun h' hh => ⟨hh, rfl, rfl, fun ses hses => ?_⟩⟩
      by_cases he : h' = h
      · subst he
        simp [apply] at hses
      · simpa only [apply, update_of_ne he] using hses
  | cloned h =>
    simp only [takesTurns, Bool.and_eq_true, decide_eq_true_eq] at hc
    have hopen := hs.opened_of_session hpre
    refine ⟨⟨hs.increasing, hs.sent, ?_, ?_⟩, fun j _ => ?_⟩
    · intro h' ses hh hses
      by_cases he : h' = h
      · subst he
        simp [apply] at hh
      · simp only [apply, update_of_ne he] at hh
        exact hs.current h' ses hh hses
    · intro h' hle
      simp only [apply, update_of_ne (Nat.ne_of_gt (Nat.lt_of_lt_of_le hopen hle))]
      exact hs.unopened h' hle
    · refine rely_of_other (h := h) (Nat.le_refl _) ?_ fun h' hne => ?_
      · rw [hc.1]
        simp
      · simp [apply, State.builtOf, State.wireOf, update_of_ne hne]
  | builtRequest h q =>
    obtain ⟨hh, hlt⟩ := hpre
    have hopen := hs.opened hh
    refine ⟨⟨?_, ?_, ?_, ?_⟩, fun j hj => ?_⟩
    · intro h'
      rw [apply, builtOf_append]
      split
      · rename_i he
        subst he
        rw [pairwise_append]
        exact ⟨hs.increasing h, pairwise_singleton _ _, fun a ha b hb => by
          rw [mem_singleton] at hb
          exact hb ▸ hlt a ha⟩
      · exact hs.increasing h'
    · intro h'
      rw [apply, builtOf_append]
      split
      · exact (hs.sent h').trans (sublist_append_left _ _)
      · exact hs.sent h'
    · intro h' ses hh' hses
      have he : h ≠ h' := by
        rintro rfl
        simp only [apply, hh] at hh'
        simp at hh'
      rw [apply, builtOf_append, if_neg he]
      exact hs.current h' ses hh' hses
    · intro h' hle
      have hle' : s.nextId ≤ h' := hle
      have he : h ≠ h' := by omega
      rw [apply, builtOf_append, if_neg he]
      exact hs.unopened h' hle
    · refine rely_of_own hh hj (Nat.le_refl _) fun h' hne => ?_
      rw [apply, builtOf_append, if_neg (Ne.symm hne)]
      exact ⟨rfl, rfl, rfl, rfl⟩
  | gaveUp h =>
    obtain ⟨hh, hlt⟩ := hpre
    have hopen := hs.opened hh
    refine ⟨⟨hs.increasing, hs.sent, ?_, ?_⟩, fun j hj => ?_⟩
    · intro h' ses hh' hses
      by_cases he : h' = h
      · subst he
        exact hlt ses hses
      · simp only [apply, update_of_ne he] at hh'
        exact hs.current h' ses hh' hses
    · intro h' hle
      simp only [apply, update_of_ne (Nat.ne_of_gt (Nat.lt_of_lt_of_le hopen hle))]
      exact hs.unopened h' hle
    · refine rely_of_own hh hj (Nat.le_refl _) fun h' hne => ?_
      simp [apply, State.builtOf, State.wireOf, update_of_ne hne]

/-! ## One performed call -/

theorem perform_quiet (hc : ∀ h req, c ≠ .writeAll h req) (hp : perform i c r s = some (s', o)) :
    s' = s := by
  cases c with
  | writeAll h req => exact absurd rfl (hc h req)
  | preempt =>
    simp only [perform, some.injEq, Prod.mk.injEq] at hp
    exact hp.1.symm
  | openBi h | readToEnd h =>
    cases r <;> simp only [perform, some.injEq, Prod.mk.injEq, reduceCtorEq] at hp <;>
      exact hp.1.symm

theorem perform_writeAll {req : ZhtpRequestWire} {o : Except String (Ret (.writeAll h req))}
    (hp : perform i (.writeAll h req) r s = some (s', o)) :
    s' = s ∨ s' = { s with wire := s.wire ++ [(h, req)] } := by
  cases r <;> simp only [perform, some.injEq, Prod.mk.injEq, reduceCtorEq] at hp
  · exact .inr hp.1.symm
  · exact .inl hp.1.symm
  · exact .inr hp.1.symm

theorem inv_call (hs : Inv s) (hpre : CallPre i s c) (hp : perform i c r s = some (s', o)) :
    Inv s' ∧ ∀ j, j ≠ i → Rely j s s' := by
  have hsame : s' = s → Inv s' ∧ ∀ j, j ≠ i → Rely j s s' := by
    rintro rfl
    exact ⟨hs, fun j _ => Rely.refl j s'⟩
  cases c with
  | preempt | openBi | readToEnd => exact hsame (perform_quiet (by simp) hp)
  | writeAll h req =>
    obtain ⟨hh, hsub⟩ := hpre
    have hsent : s' = { s with wire := s.wire ++ [(h, req)] } →
        Inv s' ∧ ∀ j, j ≠ i → Rely j s s' := by
      rintro rfl
      refine ⟨⟨hs.increasing, ?_, hs.current, hs.unopened⟩, fun j hj => ?_⟩
      · intro h'
        rw [wireOf_append]
        split
        · rename_i he
          exact he ▸ hsub
        · exact hs.sent h'
      · refine rely_of_own hh hj (Nat.le_refl _) fun h' hne => ?_
        rw [wireOf_append, if_neg (Ne.symm hne)]
        exact ⟨rfl, rfl, rfl, rfl⟩
    rcases perform_writeAll hp with he | he
    · exact hsame he
    · exact hsent he

theorem spec_sound : spec.Sound takesTurns where
  refl := Rely.refl
  trans _ _ _ _ := .trans
  op _ _ _ hs hc hpre := inv_op hs hc hpre
  call _ _ _ _ _ _ hs hpre hp _ := inv_call hs hpre hp
  fin _ _ _ _ _ _ := trivial

/-! ## The programs -/

/-- A wait that changes nothing itself: what the call relies on is still there afterwards. -/
theorem safe_quiet {k : Except String (Ret c) → Task machine} (hc : ∀ h req, c ≠ .writeAll h req)
    (hk : ∀ o s', Rely i s s' → Inv s' → spec.Safe takesTurns i (k o) s') :
    spec.Safe takesTurns i (.await c k) s := by
  intro s1 hr1 _
  refine ⟨?_, fun r s2 o hp _ _ s3 hr3 hi3 => ?_⟩
  · cases c with
    | writeAll h req => exact absurd rfl (hc h req)
    | preempt | openBi | readToEnd => exact trivial
  · obtain rfl := perform_quiet (i := i) hc hp
    exact hk o s3 (hr1.trans hr3) hi3

/-- A call that fails before it built a request may hand the session back unchanged. -/
theorem safe_failUnbuilt {α : Type} {e : String} {k : Except String α → Task machine}
    (hh : s.holder h = some i)
    (hcur : ∀ ses, s.sessions h = some ses → ∀ q ∈ s.builtOf h, q < ses.sequence)
    (hk : ∀ s', Inv s' → spec.Safe takesTurns i (k (.error e)) s') :
    spec.Safe takesTurns i ((failUnbuilt h e).run k) s :=
  fun _ => ⟨⟨hh, hcur⟩, fun hi => hk _ hi⟩

/-- The exchange of a request that was built under the held session: the session stays held and
    nothing else is built on the handle meanwhile. -/
theorem safe_exchange {wire : ZhtpRequestWire} {k : Except String (Nat × List UInt8) → Task machine}
    (hh : s.holder h = some i)
    (hsub : (s.wireOf h ++ [wire.authContext.sequence]).Sublist (s.builtOf h))
    (hk : ∀ r s', Inv s' → s'.holder h = some i → s'.builtOf h = s.builtOf h →
      spec.Safe takesTurns i (k r) s') :
    spec.Safe takesTurns i ((exchange h wire).run k) s := by
  refine safe_quiet (by simp) fun o s1 hr1 hi1 => ?_
  obtain ⟨hh1, hb1, hw1, -⟩ := hr1.held h hh
  cases o with
  | error e => exact hk _ s1 hi1 hh1 hb1
  | ok u =>
    -- `write_all`: the request goes on the wire here, if at all
    intro s2 hr2 _
    obtain ⟨hh2, hb2, hw2, -⟩ := hr2.held h hh1
    refine ⟨⟨hh2, by rw [hb2, hb1, hw2, hw1]; exact hsub⟩, fun r s3 o hp _ _ s4 hr4 hi4 => ?_⟩
    have hs3 : s3.holder h = some i ∧ s3.builtOf h = s.builtOf h := by
      rcases perform_writeAll (i := i) hp with rfl | rfl <;> exact ⟨hh2, hb2.trans hb1⟩
    obtain ⟨hh4, hb4, -, -⟩ := hr4.held h hs3.1
    cases o with
    | error e => exact hk _ s4 hi4 hh4 (hb4.trans hs3.2)
    | ok u =>
      refine safe_quiet (by simp) fun o s5 hr5 hi5 => ?_
      obtain ⟨hh5, hb5, -, -⟩ := hr5.held h hh4
      have hb : s5.builtOf h = s.builtOf h := hb5.trans (hb4.trans hs3.2)
      cases o with
      | error e => exact hk _ s5 hi5 hh5 hb
      | ok response =>
        dsimp only
        split
        · exact hk _ s5 hi5 hh5 hb
        · exact hk _ s5 hi5 hh5 hb

section Programs
variable (computeRequestMac : List UInt8 → List UInt8 → List UInt8)

variable {session : AuthSession}

theorem buildAuthContext_sequence {method : ZhtpMethod} {path body : List UInt8} {sequence : Nat}
    {ctx : AuthContext}
    (h : buildAuthContextWithSequence computeRequestMac session method path body sequence
      = .ok ctx) : ctx.sequence = sequence := by
  unfold buildAuthContextWithSequence at h
  split at h
  · simp at h
  · simp only [Except.ok.injEq] at h
    rw [← h]

/-- What the whole send does to the session it holds: on success the clone's counter lies above
    everything built on the handle. -/
theorem safe_sendAuthenticatedZhtpRequest {i h : Nat} {s : State} {args : RequestArgs}
    {k : Except String (AuthSession × (Nat × List UInt8)) → Task machine} (hi : Inv s)
    (hh : s.holder h = some i) (hlt : session.sequence < u64Max)
    (hcur : ∀ q ∈ s.builtOf h, q < session.sequence)
    (hmap : ∀ ses, s.sessions h = some ses → ses = session)
    (herr : ∀ e s', Inv s' → spec.Safe takesTurns i (k (.error e)) s')
    (hok : ∀ ses r s', Inv s' → s'.holder h = some i → (∀ q ∈ s'.builtOf h, q < ses.sequence) →
      spec.Safe takesTurns i (k (.ok (ses, r))) s') :
    spec.Safe takesTurns i
      ((sendAuthenticatedZhtpRequest computeRequestMac h session args).run k) s := by
  have hcur' : ∀ ses, s.sessions h = some ses → ∀ q ∈ s.builtOf h, q < ses.sequence :=
    fun ses hses => hmap ses hses ▸ hcur
  unfold sendAuthenticatedZhtpRequest
  simp only [Async.bind_run, Async.get_run]
  rw [Spec.safe_read]
  split
  · exact safe_failUnbuilt hh hcur' fun s' hs' => herr _ s' hs'
  split
  · exact safe_failUnbuilt hh hcur' fun s' hs' => herr _ s' hs'
  rename_i ctx hctx
  have hseq : ctx.sequence = session.sequence := buildAuthContext_sequence _ hctx
  -- the request is built here, with a number above all earlier ones
  refine fun _ => ⟨⟨hh, by rw [hseq]; exact hcur⟩, fun hi' => ?_⟩
  have hb : (apply i (.builtRequest h ctx.sequence) s).builtOf h
      = s.builtOf h ++ [ctx.sequence] := by
    rw [apply, builtOf_append, if_pos rfl]
  refine safe_exchange hh ?_ ?_
  · rw [hb]
    exact (hi.sent h).append (.refl _)
  intro r s' hs' hh' hb'
  cases r with
  | error e => exact herr e s' hs'
  | ok result =>
    refine hok _ result s' hs' hh' ?_
    rw [hb', hb]
    have hnext : session.nextSequence.2.sequence = session.sequence + 1 := by
      simp only [AuthSession.nextSequence]
      omega
    intro q hq
    rw [mem_append, mem_singleton] at hq
    show q < session.nextSequence.2.sequence
    rcases hq with hq | rfl
    · have := hcur q hq
      omega
    · omega

theorem safe_quicAuthenticatedRequest (h : Nat) (args : RequestArgs) (i : Nat) (s : State) :
    spec.Safe takesTurns i (quicAuthenticatedRequest computeRequestMac h args).toTask s := by
  unfold quicAuthenticatedRequest preempt
  simp only [Async.toTask, Async.bind_run, Async.get_run]
  rw [Spec.safe_read]
  split
  · exact trivial
  refine safe_quiet (by simp) fun o s1 _ hi1 => ?_
  cases o with
  | error e => exact trivial
  | ok u =>
    simp only [Async.bind_run, Async.get_run]
    rw [Spec.safe_read]
    split
    · exact trivial
    rename_i session hses
    -- the session is cloned here: nobody else holds it, so its counter is current
    intro hc
    refine ⟨by simp [OpPre, spec, hses], fun _ => ?_⟩
    simp only [takesTurns, Bool.and_eq_true, decide_eq_true_eq, hses, all_some] at hc
    have hcur := hi1.current h session hc.1 hses
    refine safe_quiet (by simp) fun o s2 hr2 hi2 => ?_
    obtain ⟨hh2, hb2, -, hm2⟩ := hr2.held h (by simp [apply])
    cases o with
    | error e => exact trivial
    | ok u =>
      refine safe_sendAuthenticatedZhtpRequest _ hi2 hh2 hc.2 (hb2 ▸ hcur) ?_
        (fun _ _ _ => trivial) ?_
      · intro ses hs
        have hsame : s1.sessions h = some ses := hm2 ses hs
        rw [hses, some.injEq] at hsame
        exact hsame.symm
      intro ses r s3 _ hh3 hb3
      refine safe_quiet (by simp) fun o s4 hr4 _ => ?_
      obtain ⟨hh4, hb4, -, -⟩ := hr4.held h hh3
      cases o with
      | error e => exact trivial
      | ok u => exact fun _ => ⟨⟨hh4, hb4 ▸ hb3⟩, fun _ => trivial⟩

theorem safe_prog (c : Cmd) (i : Nat) (s : State) (hs : Inv s) :
    spec.Safe takesTurns i (prog computeRequestMac c) s := by
  cases c with
  | connect sid key cl sv =>
    -- the new handle is held by its opener until the session is in the map
    have hnew := (hs.unopened s.nextId (Nat.le_refl _)).2.2
    refine fun _ => ⟨trivial, fun _ => safe_quiet (by simp) fun o s1 hr1 _ => ?_⟩
    obtain ⟨hh1, hb1, -, -⟩ := hr1.held s.nextId (by simp [apply])
    cases o with
    | error e => exact trivial
    | ok u =>
      refine fun _ => ⟨⟨hh1, fun q hq => ?_⟩, fun _ => trivial⟩
      rw [hb1] at hq
      change q ∈ s.builtOf s.nextId at hq
      rw [hnew] at hq
      simp at hq
  | request h args => exact safe_quicAuthenticatedRequest _ h args i s
  | close h =>
    refine fun _ => ⟨trivial, fun _ => safe_quiet (by simp) fun o s1 _ _ => ?_⟩
    cases o with
    | error e => exact trivial
    | ok u => exact fun _ => ⟨trivial, fun _ => trivial⟩
  | tick ms => exact fun _ => ⟨trivial, fun _ => trivial⟩

/-- Nothing opened yet. -/
def Init (s : State) : Prop := s = State.init

theorem init_init : Init State.init := rfl

theorem inv_init : Inv State.init where
  increasing h := by simp [State.init, State.builtOf]
  sent h := by simp [State.init, State.wireOf]
  current h ses _ hses := absurd hses (by simp [State.init])
  unopened h _ := by simp [State.init, State.builtOf]

/-- **Sequence numbers under serial use.** In every run in which a call clones a session only
    while no other call holds it, no number of a handle is used twice and later-built requests
    carry larger ones. -/
theorem freshSequences_of_takesTurns {w : Sys machine}
    (h : Reach takesTurns (prog computeRequestMac) Init w) :
    FreshSequences w.state := by
  have hinit : ∀ s, Init s → Inv s := fun s hs => by rw [hs]; exact inv_init
  have hinv : Inv w.state := (spec_sound.reach hinit (fun _ _ _ => trivial)
    (fun c i s hs _ => safe_prog computeRequestMac c i s hs) h).inv
  intro h
  exact ⟨(hinv.sent h).nodup ((hinv.increasing h).imp Nat.ne_of_lt), hinv.increasing h⟩

end Programs

/-! ## The counter is reused -/

/-- A `GET /` without headers or body. -/
def plainGet : RequestArgs where
  method := "GET"
  path := "/"
  headers := []
  body := none
  urandom := List.replicate 16 7

/-- One handle, opened with a session of the right shape. -/
def connected : List (Move machine Cmd) :=
  [.start (.connect (List.replicate 32 1) (List.replicate 32 2) "did:zhtp:a" "did:zhtp:b"),
   .perform 0 .ok, .resume 0]

/-- Task `i` up to the point where its request is on the wire. -/
def upToWire (i : Nat) : List (Move machine Cmd) :=
  [.perform i .ok, .resume i, .perform i .ok, .resume i, .perform i .ok, .resume i, .perform i .ok]

/-- Task `i` from there to its successful end. -/
def toEnd (i : Nat) : List (Move machine Cmd) :=
  [.resume i, .perform i (.response ⟨List.replicate 16 7, 200, []⟩), .resume i, .perform i .ok,
   .resume i]

/-- Two requests that clone the session before either has written it back. -/
def overlapping : List (Move machine Cmd) :=
  connected ++ [.start (.request 1 plainGet), .start (.request 1 plainGet)] ++ upToWire 1
    ++ upToWire 2

theorem not_freshSequences : ¬ ∀ (mac : List UInt8 → List UInt8 → List UInt8) (w : Sys machine),
    Reach .any (prog mac) Init w → FreshSequences w.state := by
  intro hall
  have hw : ((Sys.idle State.init).run Cond.any (prog fun _ _ => []) overlapping).map
      (fun w => w.state.wireOf 1) = some [1, 1] := by decide
  rw [map_eq_some_iff] at hw
  obtain ⟨w, hrun, hwire⟩ := hw
  have hreach : Reach .any (prog fun _ _ => []) Init w := .of_run init_init hrun
  have hnodup := (hall _ w hreach 1).1
  rw [hwire] at hnodup
  exact nomatch hnodup

/-- Two requests one after the other, the second after the first was answered. -/
theorem freshSequences_serial :
    ∃ w : Sys machine,
      (Sys.idle State.init).run takesTurns (prog fun _ _ => [])
        (connected ++ [.start (.request 1 plainGet)] ++ upToWire 1 ++ toEnd 1
          ++ [.start (.request 1 plainGet)] ++ upToWire 2) = some w ∧
      w.state.wireOf 1 = [1, 2] ∧ FreshSequences w.state := by
  have hw : ((Sys.idle State.init).run takesTurns (prog fun _ _ => [])
      (connected ++ [.start (.request 1 plainGet)] ++ upToWire 1 ++ toEnd 1
        ++ [.start (.request 1 plainGet)] ++ upToWire 2)).map (fun w => w.state.wireOf 1)
      = some [1, 2] := by decide
  rw [map_eq_some_iff] at hw
  obtain ⟨w, hrun, hwire⟩ := hw
  exact ⟨w, hrun, hwire, freshSequences_of_takesTurns _ (.of_run init_init hrun)⟩

end Quic
