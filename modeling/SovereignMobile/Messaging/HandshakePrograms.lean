import SovereignMobile.Messaging.HandshakeRoles

/-! # The functions keep to the script

The handshake is followed statement by statement, from the reset of a session to the end of
`getOrInitSendSession` and in the task that it forks; everything else keeps the role of its task
(`Fine`), so that `Functions.lean` takes care of it. -/

namespace Handshakes

open Messaging EventLoop Option
open Function (update update_of_ne update_self)

section Suspended
variable {i : Nat} {r : Role} {c : Conf}

variable {k : Call} {K : Except Err (Ret k) → EventLoop.Task machine} {α : Type}
    {Q : Except Err α → Conf → Prop}

theorem safe_await {post : Conf → Prop} (hpost : post c) (hwaits : script.Waits i (c.role i) k K) :
    script.Safe (.await (M := machine) k K) i c post :=
  ⟨c.role i, .keep k, (Config.assign_self c i).symm ▸ hpost, hwaits⟩

theorem waits_quiet (hsince : r.since = none) (hk : Quiet k)
    (hK : ∀ out c, At i r c → script.Safe (K out) i c Inv) : script.Waits i r k K := by
  intro c₁ hi1 hr1 _ reply s out hperf
  have hpre : CallPre i c₁ k out r := hr1 ▸ .quiet k out hk (hr1 ▸ hsince)
  have hinv' : Inv (c₁.call i k out s r) := hr1 ▸ hi1.keep (sameFlights_call hperf) rfl
  exact ⟨r, hpre, hinv', fun c2 hi2 hr2 hlt2 => hK out c2 ⟨hi2, hr2, hlt2⟩⟩

theorem wp_self {me : Did} {f : Client → Prog α}
    (h : script.Wp i (f (State.client c.state me)) Q c) :
    script.Wp i (self me >>= f) Q c := h

theorem wp_dateNow {f : Nat → Prog α} (h : script.Wp i (f (State.now c.state)) Q c) :
    script.Wp i (dateNow >>= f) Q c := h

end Suspended

/-! ## Restoring -/

theorem fine_restoreSend (me did : Did) :
    Fine .plain (Option Nat) any (tryRestoreSession me did .send) := by
  have h : (Fine .plain).Sequential Call.Routine := fine_sequential rfl
  refine h.bind (fine_self me) fun c _ => ?_
  dsimp only
  split
  · exact h.pure _ trivial
  rename_i blob _
  refine h.bind (fine_neutral trivial) fun _ _ => ?_
  refine h.settle (h.mono (fine_call (k := .deserializeSession me .send blob) rfl trivial
    fun _ _ _ _ _ _ => trivial) fun _ _ => trivial) fun r _ => ?_
  cases r with
  | ok sid =>
    refine h.bind (fine_op trivial fun i c hc => ?_) fun _ _ => h.pure _ trivial
    exact .restored me did sid hc.role
  | error e => exact h.bind (fine_neutral trivial) fun _ _ => h.pure _ trivial

/-! ## The handshake -/

/-- The task has come to the end of the handshake with the outcome `res`. -/
def Ended (i : Nat) (me did : Did) (p : PromiseId) (res : Except Err Nat) (c : Conf) : Prop :=
  ∃ phase, At i (.handshake me did p phase) c ∧
    ∀ sid, res = .ok sid → phase = .restored sid ∨ ∃ x, phase = .shipped x ∧ x.sid = sid

theorem At.ended_error {i : Nat} {me did : Did} {p : PromiseId} {phase : Phase} {e : Err} {c : Conf}
    (h : At i (.handshake me did p phase) c) : Ended i me did p (.error e) c :=
  ⟨phase, h, fun _ hr => nomatch hr⟩

section Handshake
variable {i : Nat} {me did : Did} {p : PromiseId} {c : Conf}

/-- Nobody else runs a handshake with the peer. -/
theorem Inv.noOther (h : Inv c) (hi : (c.role i).runs = some (me, did, p)) : NoOther c i me did :=
  fun j hj q hq => hj (h.oneRuns j i me did q p hq hi)

theorem Inv.phase {c' : Conf} {phase phase' : Phase} (h : Inv c)
    (hi : c.role i = .handshake me did p phase) (hs : SameFlights c.state c'.state)
    (hrole : c'.role = Function.update c.role i (.handshake me did p phase')) : Inv c' :=
  h.update hs hrole (fun x hx => by rw [hi]; exact hx) (fun x hx => absurd hx (by simp [Role.owns]))
    (fun _ _ _ hx => absurd hx (by simp [Role.waitsFor])) trivial

variable {x : NewSession} {post : Conf → Prop} {c₁ : Conf}

theorem wp_ship {e : Envelope} (hc : At i (.handshake me did p (.cached x)) c)
    (htype : e.contentType = .keyExchange) (hsender : e.senderDid = me)
    (hremote : e.recipientDid = x.remote) (hgen : e.gen = x.gen) :
    script.Wp i (sendEnvelope e) (fun res c' => match res with
      | .ok _ => At i (.handshake me did p (.shipped x)) c'
      | .error _ => At i (.handshake me did p (.lost x)) c') c := by
  intro k hk
  refine safe_await hc.inv ?_
  rw [hc.role]
  intro c₁ hi1 hr1 _ reply s out hperf
  cases out with
  | ok st =>
    refine ⟨_, .shipped me did p x e st hr1 htype hsender hremote hgen,
      hi1.phase hr1 (sameFlights_call hperf) rfl, fun c2 hi2 hr2 hlt2 => ?_⟩
    exact hk (.ok st) c2 ⟨hi2, hr2, hlt2⟩
  | error err =>
    refine ⟨_, .lost me did p x e err hr1 htype hsender hremote hgen,
      hi1.phase hr1 (sameFlights_call hperf) rfl, fun c2 hi2 hr2 hlt2 => ?_⟩
    exact hk (.error err) c2 ⟨hi2, hr2, hlt2⟩

theorem wp_initiate (remote : Did) (hc : At i (.handshake me did p .asked) c) :
    script.Wp i (NativeMessaging.initiateSession me did remote) (fun res c' => match res with
      | .ok r => At i (.handshake me did p (.made ⟨r.sessionId, r.gen, remote⟩)) c'
      | .error _ => At i (.handshake me did p .asked) c') c := by
  intro k hk
  refine safe_await hc.inv ?_
  rw [hc.role]
  intro c₁ hi1 hr1 _ reply s out hperf
  cases out with
  | ok r =>
    refine ⟨_, .made me did remote p r hr1, hi1.phase hr1 (sameFlights_call hperf) rfl,
      fun c2 hi2 hr2 hlt2 => ?_⟩
    exact hk (.ok r) c2 ⟨hi2, hr2, hlt2⟩
  | error err =>
    refine ⟨_, .notMade me did remote p err hr1, hi1.phase hr1 (sameFlights_call hperf) rfl,
      fun c2 hi2 hr2 hlt2 => ?_⟩
    exact hk (.error err) c2 ⟨hi2, hr2, hlt2⟩

theorem wp_cache (hc : At i (.handshake me did p (.made x)) c) :
    script.Wp i (exec me (.send (.setSession did x.sid)))
      (fun res c' => res = .ok () ∧ At i (.handshake me did p (.cached x)) c') c := by
  have hruns : (c.role i).runs = some (me, did, p) := hc.role ▸ rfl
  refine .op _ (.cached me did p x hc.role (hc.inv.noOther hruns)) ⟨rfl, ?_, ?_, hc.lt⟩
  · exact hc.inv.phase hc.role (sameFlights_op trivial) rfl
  · exact update_self ..

/-- The first contact, from the lookup of the peer to the persisted session. -/
theorem wp_firstContact (recipient : String) (hc : At i (.handshake me did p .asked) c) :
    script.Wp i (firstContact me did recipient) (Ended i me did p) c := by
  have hseq : ∀ phase, (Fine (.handshake me did p phase)).Sequential Call.Routine :=
    fun phase => fine_sequential rfl
  have hfails : ∀ phase e c', At i (.handshake me did p phase) c' →
      Ended i me did p (.error e) c' := fun _ _ _ h => h.ended_error
  refine .bind ((hseq .asked).plain.sessionInitFor recipient i c hc) (fun init c₁ h1 => ?_)
    fun e c' h => hfails _ e c' h.1
  refine .bind (fine_neutral (o := .store (.upsertContact init.recipientDid _)) trivial i c₁
    h1.1) (fun _ c2 h2 => ?_) fun e c' h => hfails _ e c' h.1
  refine .bind (wp_initiate init.recipientDid h2.1) (fun r c3 h3 => ?_)
    fun e c' h => hfails _ e c' h
  refine .bind (wp_cache h3) (fun _ c4 h4 => ?_) fun e c' h => nomatch h.1
  -- what the native library seals announces the session just made
  have hseal : Fine (.handshake me did p (.cached ⟨r.sessionId, r.gen, init.recipientDid⟩)) Envelope
      (fun e => e.contentType = .keyExchange ∧ e.senderDid = me ∧
        e.recipientDid = init.recipientDid ∧ e.gen = r.gen)
      (NativeMessaging.sealKeyExchangeSigned me init.recipientDid r.gen) := by
    refine fine_call (k := .sealKeyExchangeSigned me init.recipientDid r.gen) rfl trivial ?_
    intro j s reply s' e hperf
    have hs := Call.succeed_of_ok rfl hperf
    simp only [Call.succeed] at hs
    split at hs
    · simp only [some.injEq, Prod.mk.injEq] at hs
      rw [← hs.2]
      exact ⟨rfl, rfl, rfl, rfl⟩
    · simp at hs
  refine .bind (hseal i c4 h4.2) (fun e c5 h5 => ?_) fun e c' h => hfails _ e c' h.1
  obtain ⟨htype, hsender, hremote, hgen⟩ := h5.2 e rfl
  refine .bind (wp_ship h5.1 htype hsender hremote hgen) (fun _ c6 h6 => ?_)
    fun e c' h => hfails _ e c' h
  have hpersist : Fine (.handshake me did p (.shipped ⟨r.sessionId, r.gen, init.recipientDid⟩)) Unit
      any (awaitFn (persistSession me did .send r.sessionId)) :=
    (hseq _).plain.awaitFn
      ((hseq _).plain.persistSession (fun o ho => fine_routine ho.routine) .send r.sessionId)
  refine .bind (hpersist i c6 h6) (fun _ c7 h7 => ?_) fun e c' h => hfails _ e c' h.1
  refine .pure ⟨_, h7.1, fun sid hsid => .inr ⟨_, rfl, ?_⟩⟩
  exact Except.ok.inj hsid

theorem Inv.done {o : SendOp} (h : Inv c)
    (hruns : ∀ j, j ≠ i → ∀ did q, (c.role j).runs = some (me, did, q) →
      (o.apply i (side c me)).sendSessionInitInFlight did = some q ∧
        (o.apply i (side c me)).promises q = none)
    (howns : ∀ j, j ≠ i → ∀ did q heard, (c.role j).owns = some (me, did, q, heard) →
      (o.apply i (side c me)).sendSessionInitInFlight did = some q ∧
        (heard = true → (o.apply i (side c me)).promises q ≠ none))
    (hsettled : ∀ q, (o.apply i (side c me)).promises q ≠ none →
      q.n < (o.apply i (side c me)).nextPromise)
    (hinFlight : ∀ did q, (o.apply i (side c me)).sendSessionInitInFlight did = some q →
      q.did = did ∧ q.n < (o.apply i (side c me)).nextPromise)
    (hnext : (o.apply i (side c me)).nextPromise = (side c me).nextPromise) :
    Inv (c.op i (.client me (.send o)) .plain) := by
  have hrole : (c.op i (.client me (.send o)) .plain).role = Function.update c.role i .plain := rfl
  have hrun : ∀ {j x}, ((c.op i (.client me (.send o)) .plain).role j).runs = some x →
      j ≠ i ∧ (c.role j).runs = some x := fun {j x} hj => by
    rcases role_cases hrole j with ⟨_, hr⟩ | ⟨hne, hr⟩
    · exact absurd (hr ▸ hj) (by simp [Role.runs])
    · exact ⟨hne, hr ▸ hj⟩
  have hown : ∀ {j x}, ((c.op i (.client me (.send o)) .plain).role j).owns = some x →
      j ≠ i ∧ (c.role j).owns = some x := fun {j x} hj => by
    rcases role_cases hrole j with ⟨_, hr⟩ | ⟨hne, hr⟩
    · exact absurd (hr ▸ hj) (by simp [Role.owns])
    · exact ⟨hne, hr ▸ hj⟩
  constructor
  · intro j me' did q hj
    obtain ⟨hne, hj'⟩ := hrun hj
    by_cases hme : me' = me
    · subst hme
      rw [side_op_self]
      exact hruns j hne did q hj'
    · rw [side_op_ne c i hme]
      exact h.runs j me' did q hj'
  · intro j me' did q heard hj
    obtain ⟨hne, hj'⟩ := hown hj
    by_cases hme : me' = me
    · subst hme
      rw [side_op_self]
      exact howns j hne did q heard hj'
    · rw [side_op_ne c i hme]
      exact h.owns j me' did q heard hj'
  · intro j k me' did q q' hj hk
    exact h.oneRuns j k me' did q q' (hrun hj).2 (hrun hk).2
  · intro j k me' did q q' heard heard' hj hk
    exact h.oneOwns j k me' did q q' heard heard' (hown hj).2 (hown hk).2
  · intro me' q hq
    by_cases hme : me' = me
    · subst hme
      rw [side_op_self] at hq ⊢
      exact hsettled q hq
    · rw [side_op_ne c i hme] at hq ⊢
      exact h.settled me' q hq
  · intro me' did q hq
    by_cases hme : me' = me
    · subst hme
      rw [side_op_self] at hq ⊢
      exact hinFlight did q hq
    · rw [side_op_ne c i hme] at hq ⊢
      exact h.inFlight me' did q hq
  · intro j me' did q hj
    have hold : (c.role j).waitsFor = some (me', did, q) := by
      rcases role_cases hrole j with ⟨_, hr⟩ | ⟨_, hr⟩
      · exact absurd (hr ▸ hj) (by simp [Role.waitsFor])
      · exact hr ▸ hj
    by_cases hme : me' = me
    · subst hme
      rw [side_op_self, hnext]
      exact h.waited j me' did q hold
    · rw [side_op_ne c i hme]
      exact h.waited j me' did q hold
  · intro j
    rcases role_cases hrole j with ⟨_, hr⟩ | ⟨_, hr⟩
    · rw [hr]
      trivial
    · rw [hr]
      exact h.suspends j

/-- The promise of a handshake that is over stays in the map until its owner takes it out. -/
theorem Inv.settle (h : Inv c) (hi : (c.role i).runs = some (me, did, p)) (res : Except Err Nat) :
    Inv (c.op i (.client me (.send (.settle p res))) .plain) := by
  obtain ⟨hflight, _⟩ := h.runs i me did p hi
  obtain ⟨hdid, hn⟩ := h.inFlight me did p hflight
  refine h.done ?_ ?_ ?_ ?_ rfl
  · intro j hne did' q hj
    obtain ⟨hf, hq⟩ := h.runs j me did' q hj
    have hqp : q ≠ p := by
      rintro rfl
      have hd := (h.inFlight me did' q hf).1
      rw [hdid] at hd
      subst hd
      exact hne (h.oneRuns j i me did q q hj hi)
    exact ⟨hf, (Function.update_of_ne hqp _ _).trans hq⟩
  · intro j _ did' q heard hj
    obtain ⟨hf, hq⟩ := h.owns j me did' q heard hj
    refine ⟨hf, fun hh => ?_⟩
    change Function.update (side c me).promises p (some res) q ≠ none
    by_cases hqp : q = p
    · rw [hqp]
      simp
    · rw [Function.update_of_ne hqp]
      exact hq hh
  · intro q hq
    change Function.update (side c me).promises p (some res) q ≠ none at hq
    by_cases hqp : q = p
    · exact hqp ▸ hn
    · rw [Function.update_of_ne hqp] at hq
      exact h.settled me q hq
  · exact fun did' q hq => h.inFlight me did' q hq

/-- The map entry goes with the handshake that it stands for. -/
theorem Inv.deleteInFlight (h : Inv c) (hi : c.role i = .released me did p) :
    Inv (c.op i (.client me (.send (.deleteInFlight did))) .plain) ∧
      ∀ j q, (c.role j).runs ≠ some (me, did, q) := by
  have howns : (c.role i).owns = some (me, did, p, true) := hi ▸ rfl
  obtain ⟨hflight, hp⟩ := h.owns i me did p true howns
  have hnone : ∀ j q, (c.role j).runs ≠ some (me, did, q) := by
    intro j q hj
    obtain ⟨hf, hq⟩ := h.runs j me did q hj
    rw [hflight, some.injEq] at hf
    subst hf
    exact hp rfl hq
  refine ⟨h.done ?_ ?_ ?_ ?_ rfl, hnone⟩
  · intro j _ did' q hj
    have hd : did' ≠ did := fun hd => hnone j q (hd ▸ hj)
    obtain ⟨hf, hq⟩ := h.runs j me did' q hj
    exact ⟨(Function.update_of_ne hd _ _).trans hf, hq⟩
  · intro j hne did' q heard hj
    have hd : did' ≠ did := fun hd => hne (h.oneOwns j i me did q p heard true (hd ▸ hj) howns)
    obtain ⟨hf, hq⟩ := h.owns j me did' q heard hj
    exact ⟨(Function.update_of_ne hd _ _).trans hf, hq⟩
  · exact fun q hq => h.settled me q hq
  intro did' q hq
  change Function.update (side c me).sendSessionInitInFlight did none did' = some q at hq
  by_cases hd : did' = did
  · rw [hd] at hq
    simp at hq
  · rw [Function.update_of_ne hd] at hq
    exact h.inFlight me did' q hq

/-- The outcome of the handshake settles its promise. -/
theorem safe_settle {res : Except Err Nat} (h : Ended i me did p res c) :
    script.Safe (.op (M := machine) (.client me (.send (.settle p res))) .done) i c Inv := by
  obtain ⟨phase, ⟨hinv, hrole, hlt⟩, hres⟩ := h
  have hruns : (c.role i).runs = some (me, did, p) := hrole ▸ rfl
  have hflight := (hinv.runs i me did p hruns).1
  have honly : ∀ d, (side c me).sendSessionInitInFlight d = some p ↔ d = did := fun d =>
    ⟨fun hd => (hinv.inFlight me d p hd).1.symm.trans (hinv.inFlight me did p hflight).1,
      fun hd => hd ▸ hflight⟩
  have hwaits : ∀ j d, (c.role j).waitsFor = some (me, d, p) → d = did := fun j d hj =>
    (hinv.waited j me d p hj).1.symm.trans (hinv.inFlight me did p hflight).1
  exact ⟨.plain, .settle me did p phase res hrole hres honly (hinv.noOther hruns) hwaits,
    hinv.settle hruns res⟩

/-! ## The task of the handshake -/

/-- The task that `startInit` forks. -/
def handshakeTask (me did : Did) (recipient : String) (p : PromiseId) : EventLoop.Task machine :=
  (Async.settle (initSendSession me did recipient) fun r => exec me (.send (.settle p r))).toTask

/-- What it does when `tryRestoreSession` comes back with `r`. -/
def afterRestore (me did : Did) (recipient : String) (p : PromiseId)
    (r : Except Err (Option Nat)) : EventLoop.Task machine :=
  (do
    let restored ← (do
      tick
      ofExcept r : Prog (Option Nat))
    match restored with
    | some sid => pure sid
    | none => firstContact me did recipient : Prog Nat).run fun r =>
      .op (.client me (.send (.settle p r))) .done

theorem handshakeTask_eq (recipient : String) : handshakeTask me did recipient p =
    .read fun s => ((match (State.client s me).send.blobs did with
      | none => pure none
      | some blob => restoreSend me did blob : Prog (Option Nat)).run
        (afterRestore me did recipient p)) := rfl

theorem safe_afterRestore (recipient : String) (restored : Option Nat)
    (hrole : c.role i = .handshake me did p (restored.elim .asked .restored)) (hpost : post c) :
    script.Safe (afterRestore me did recipient p (.ok restored)) i c post := by
  refine safe_await hpost ?_
  rw [hrole]
  refine waits_quiet rfl trivial fun out c' hc' => ?_
  cases out with
  | error e => exact safe_settle hc'.ended_error
  | ok u =>
    cases restored with
    | none => exact wp_firstContact recipient hc' _ fun _ _ h => safe_settle h
    | some sid => exact safe_settle ⟨_, hc', fun sid' h => .inl (Except.ok.inj h ▸ rfl)⟩

/-- Up to its first suspension the task has at most begun to restore the session. -/
theorem safe_handshakeTask (recipient : String) (hrole : c.role i = .handshake me did p .asked)
    (hpost : post c)
    (hpost' : post (c.op i (.client me (.send (.beginRestore did))) (.handshake me did p .asked))) :
    script.Safe (handshakeTask me did recipient p) i c post := by
  rw [handshakeTask_eq]
  change script.Safe ((match (State.client c.state me).send.blobs did with
      | none => pure none
      | some blob => restoreSend me did blob : Prog (Option Nat)).run
        (afterRestore me did recipient p)) i c post
  split
  · exact safe_afterRestore recipient none hrole hpost
  rename_i blob _
  refine ⟨.handshake me did p .asked, hrole ▸ .neutral me _ trivial, safe_await hpost' ?_⟩
  have hown : (c.op i (.client me (.send (.beginRestore did))) (.handshake me did p .asked)).role i =
      .handshake me did p .asked := Function.update_self ..
  rw [hown]
  refine waits_quiet rfl trivial fun out c' hc' => ?_
  cases out with
  | ok sid =>
    refine ⟨.handshake me did p (.restored sid), .restoredOwn me did sid p hc'.role, ?_⟩
    refine safe_afterRestore recipient (some sid) (Function.update_self ..) ?_
    exact hc'.inv.phase hc'.role (sameFlights_op trivial) rfl
  | error e =>
    refine ⟨.handshake me did p .asked, hc'.role ▸ .neutral me _ trivial, ?_⟩
    refine safe_afterRestore recipient none (Function.update_self ..) ?_
    exact hc'.inv.phase hc'.role (sameFlights_op trivial) rfl

/-! ## Starting a handshake -/

/-- Task `i` has forked a handshake in `c`, and is about to put its promise into the map. -/
structure Started (i : Nat) (me did : Did) (since : Option Nat) (c c' : Conf) : Prop where
  own : c'.role i = .starts me did ⟨did, (side c me).nextPromise⟩ since
  child : c'.role c.next = .handshake me did ⟨did, (side c me).nextPromise⟩ .asked
  others : ∀ j, j ≠ i → j ≠ c.next → c'.role j = c.role j
  next : c'.next = c.next + 1
  inFlight : ∀ me', (side c' me').sendSessionInitInFlight = (side c me').sendSessionInitInFlight
  promises : ∀ me', (side c' me').promises = (side c me').promises
  nextPromise : (side c' me).nextPromise = (side c me).nextPromise + 1
  otherPromise : ∀ me', me' ≠ me → (side c' me').nextPromise = (side c me').nextPromise
  cache : (side c' me).sendSessionByDid = (side c me).sendSessionByDid
  blobs : (side c' me).blobs = (side c me).blobs

variable {since : Option Nat} {c' : Conf}

/-- Task `i` has forked the handshake behind `p` since `c`, and waits for it. -/
structure InMap (i : Nat) (me did : Did) (p : PromiseId) (c c₁ : Conf) : Prop where
  roles : ∀ j, (j = i ∧ ∃ since, c₁.role j = .waits me did p true since) ∨
    (j = c.next ∧ c₁.role j = .handshake me did p .asked) ∨
      (c₁.role j = (c.assign i .plain).role j)
  old : ∀ me' did' q, (side c me').sendSessionInitInFlight did' = some q →
    (side c₁ me').sendSessionInitInFlight did' = some q
  new : (side c₁ me).sendSessionInitInFlight did = some p
  only : ∀ me' did' q, (side c₁ me').sendSessionInitInFlight did' = some q →
    (side c me').sendSessionInitInFlight did' = some q ∨ me' = me ∧ did' = did ∧ q = p
  promises : ∀ me', (side c₁ me').promises = (side c me').promises
  nextPromise : ∀ me', (side c me').nextPromise ≤ (side c₁ me').nextPromise
  lt : p.n < (side c₁ me).nextPromise

/-- The promise is in the map before anybody else can look. -/
theorem Started.inMap (h : Started i me did since c c')
    (hflight : (side c me).sendSessionInitInFlight did = none) :
    InMap i me did ⟨did, (side c me).nextPromise⟩ c
      (c'.op i (.client me (.send (.setInFlight did ⟨did, (side c me).nextPromise⟩)))
        (.waits me did ⟨did, (side c me).nextPromise⟩ true since)) := by
  generalize hp : (⟨did, (side c me).nextPromise⟩ : PromiseId) = p
  have hrole : (c'.op i (.client me (.send (.setInFlight did p))) (.waits me did p true since)).role
      = update c'.role i (.waits me did p true since) := rfl
  have hself : side (c'.op i (.client me (.send (.setInFlight did p))) (.waits me did p true since)) me
      = SendOp.apply i (.setInFlight did p) (side c' me) := side_op_self ..
  have hother : ∀ me', me' ≠ me →
      side (c'.op i (.client me (.send (.setInFlight did p))) (.waits me did p true since)) me' =
        side c' me' := fun me' hme => side_op_ne c' i hme _ _
  generalize c'.op i (.client me (.send (.setInFlight did p))) (.waits me did p true since) = c₁
    at hrole hself hother ⊢
  have hmap : (side c₁ me).sendSessionInitInFlight =
      update (side c me).sendSessionInitInFlight did (some p) := by
    rw [hself, ← h.inFlight me]
    rfl
  have hnext : (side c₁ me).nextPromise = (side c me).nextPromise + 1 := by
    rw [hself]
    exact h.nextPromise
  constructor
  · intro j
    rcases role_cases hrole j with ⟨hj, hr⟩ | ⟨hj, hr⟩
    · exact .inl ⟨hj, _, hr⟩
    by_cases hchild : j = c.next
    · exact .inr (.inl ⟨hchild, hr.trans (by rw [hchild, h.child, hp])⟩)
    · refine .inr (.inr (hr.trans ((h.others j hj hchild).trans ?_)))
      exact (update_of_ne hj _ _).symm
  · intro me' did' q hq
    by_cases hme : me' = me
    · subst hme
      have hd : did' ≠ did := fun hd => by rw [hd, hflight] at hq; simp at hq
      rw [hmap]
      exact (update_of_ne hd _ _).trans hq
    · rw [hother me' hme, h.inFlight]
      exact hq
  · rw [hmap]
    exact update_self ..
  · intro me' did' q hq
    by_cases hme : me' = me
    · subst hme
      rw [hmap] at hq
      by_cases hd : did' = did
      · subst hd
        rw [update_self, some.injEq] at hq
        exact .inr ⟨rfl, rfl, hq.symm⟩
      · rw [update_of_ne hd] at hq
        exact .inl hq
    · rw [hother me' hme, h.inFlight] at hq
      exact .inl hq
  · intro me'
    by_cases hme : me' = me
    · subst hme
      rw [hself]
      exact h.promises me'
    · rw [hother me' hme, h.promises]
  · intro me'
    by_cases hme : me' = me
    · rw [hme, hnext]
      exact Nat.le_succ _
    · exact Nat.le_of_eq (by rw [hother me' hme, h.otherPromise me' hme])
  · rw [hnext, ← hp]
    exact Nat.lt_succ_self _

theorem InMap.inv (h : InMap i me did p c c₁) (hinv : Inv (c.assign i .plain))
    (hflight : (side c me).sendSessionInitInFlight did = none)
    (hp : p = ⟨did, (side c me).nextPromise⟩) : Inv c₁ := by
  have hfresh : (side c me).promises p = none := by
    by_contra hsome
    have hn : p.n < (side c me).nextPromise := hinv.settled me p hsome
    rw [hp] at hn
    exact absurd hn (Nat.lt_irrefl _)
  have hnoRuns : ∀ j q, ((c.assign i .plain).role j).runs ≠ some (me, did, q) := fun j q hj =>
    by cases hflight.symm.trans (hinv.runs j me did q hj).1
  have hnoOwns : ∀ j q heard, ((c.assign i .plain).role j).owns ≠ some (me, did, q, heard) :=
    fun j q heard hj => by cases hflight.symm.trans (hinv.owns j me did q heard hj).1
  -- who runs and who owns what
  have hruns : ∀ {j x}, (c₁.role j).runs = some x →
      (j = c.next ∧ x = (me, did, p)) ∨ ((c.assign i .plain).role j).runs = some x := fun {j x} hj => by
    rcases h.roles j with ⟨_, _, hr⟩ | ⟨hnext, hr⟩ | hr
    · rw [hr] at hj
      simp [Role.runs] at hj
    · rw [hr] at hj
      exact .inl ⟨hnext, (some.inj hj).symm⟩
    · exact .inr (hr ▸ hj)
  have howns : ∀ {j x}, (c₁.role j).owns = some x →
      (j = i ∧ x = (me, did, p, false)) ∨ ((c.assign i .plain).role j).owns = some x :=
    fun {j x} hj => by
      rcases h.roles j with ⟨hi, _, hr⟩ | ⟨_, hr⟩ | hr
      · rw [hr] at hj
        exact .inl ⟨hi, (some.inj hj).symm⟩
      · rw [hr] at hj
        simp [Role.owns] at hj
      · exact .inr (hr ▸ hj)
  constructor
  · intro j me' did' q hj
    rw [h.promises]
    rcases hruns hj with ⟨_, hx⟩ | hj
    · cases hx
      exact ⟨h.new, hfresh⟩
    · exact (hinv.runs j me' did' q hj).imp_left (h.old me' did' q)
  · intro j me' did' q heard hj
    rw [h.promises]
    rcases howns hj with ⟨_, hx⟩ | hj
    · cases hx
      exact ⟨h.new, fun hh => by cases hh⟩
    · exact (hinv.owns j me' did' q heard hj).imp_left (h.old me' did' q)
  · intro j k me' did' q q' hj hk
    rcases hruns hj with ⟨hj', hx⟩ | hj <;> rcases hruns hk with ⟨hk', hy⟩ | hk
    · exact hj'.trans hk'.symm
    · cases hx
      exact absurd hk (hnoRuns k q')
    · cases hy
      exact absurd hj (hnoRuns j q)
    · exact hinv.oneRuns j k me' did' q q' hj hk
  · intro j k me' did' q q' heard heard' hj hk
    rcases howns hj with ⟨hj', hx⟩ | hj <;> rcases howns hk with ⟨hk', hy⟩ | hk
    · exact hj'.trans hk'.symm
    · cases hx
      exact absurd hk (hnoOwns k q' heard')
    · cases hy
      exact absurd hj (hnoOwns j q heard)
    · exact hinv.oneOwns j k me' did' q q' heard heard' hj hk
  · intro me' q hq
    rw [h.promises] at hq
    exact Nat.lt_of_lt_of_le (hinv.settled me' q hq) (h.nextPromise me')
  · intro me' did' q hq
    rcases h.only me' did' q hq with hq | ⟨rfl, rfl, rfl⟩
    · exact (hinv.inFlight me' did' q hq).imp_right fun hn =>
        Nat.lt_of_lt_of_le hn (h.nextPromise me')
    · exact ⟨hp ▸ rfl, h.lt⟩
  · intro j me' did' q hj
    rcases h.roles j with ⟨_, _, hr⟩ | ⟨_, hr⟩ | hr
    · rw [hr] at hj
      cases hj
      exact ⟨hp ▸ rfl, h.lt⟩
    · rw [hr] at hj
      simp [Role.waitsFor] at hj
    · rw [hr] at hj
      exact (hinv.waited j me' did' q hj).imp_right fun hn =>
        Nat.lt_of_lt_of_le hn (h.nextPromise me')
  · intro j
    rcases h.roles j with ⟨_, _, hr⟩ | ⟨_, hr⟩ | hr
    · rw [hr]
      trivial
    · rw [hr]
      trivial
    · rw [hr]
      exact hinv.suspends j

theorem Inv.heard (h : Inv c) (hi : c.role i = .waits me did p true since)
    (hstate : c₁.state = c.state) (hrole : c₁.role = Function.update c.role i (.released me did p))
    (hp : (side c me).promises p ≠ none) : Inv c₁ := by
  have hside : ∀ me', side c₁ me' = side c me' := fun me' => by rw [side, side, hstate]
  have hruns : ∀ {j x}, (c₁.role j).runs = some x → (c.role j).runs = some x := fun {j x} hj => by
    rcases role_cases hrole j with ⟨_, hr⟩ | ⟨_, hr⟩
    · exact absurd (hr ▸ hj) (by simp [Role.runs])
    · exact hr ▸ hj
  have howns : ∀ {j me' did' q heard}, (c₁.role j).owns = some (me', did', q, heard) →
      ∃ heard0, (c.role j).owns = some (me', did', q, heard0) ∧
        (heard = true → heard0 = true ∨ (side c me').promises q ≠ none) := by
    intro j me' did' q heard hj
    rcases role_cases hrole j with ⟨hji, hr⟩ | ⟨_, hr⟩
    · rw [hr] at hj
      cases hj
      exact ⟨false, by rw [hji, hi]; rfl, fun _ => .inr hp⟩
    · exact ⟨heard, hr ▸ hj, .inl⟩
  constructor
  · intro j me' did' q hj
    rw [hside]
    exact h.runs j me' did' q (hruns hj)
  · intro j me' did' q heard hj
    rw [hside]
    obtain ⟨heard0, hj, hheard⟩ := howns hj
    obtain ⟨hf, hq⟩ := h.owns j me' did' q heard0 hj
    exact ⟨hf, fun hh => (hheard hh).elim hq id⟩
  · exact fun j k me' did' q q' hj hk => h.oneRuns j k me' did' q q' (hruns hj) (hruns hk)
  · intro j k me' did' q q' heard heard' hj hk
    obtain ⟨_, hj, _⟩ := howns hj
    obtain ⟨_, hk, _⟩ := howns hk
    exact h.oneOwns j k me' did' q q' _ _ hj hk
  · intro me' q
    rw [hside]
    exact h.settled me' q
  · intro me' did' q
    rw [hside]
    exact h.inFlight me' did' q
  · intro j me' did' q hj
    rw [hside]
    rcases role_cases hrole j with ⟨_, hr⟩ | ⟨_, hr⟩
    · exact absurd (hr ▸ hj) (by simp [Role.waitsFor])
    · exact h.waited j me' did' q (hr ▸ hj)
  intro j
  rcases role_cases hrole j with ⟨_, hr⟩ | ⟨_, hr⟩
  · rw [hr]
    trivial
  · rw [hr]
    exact h.suspends j

/-- Wait for the handshake one has started. -/
theorem wp_ownPromise (hc : At i (.waits me did p true since) c) :
    script.Wp i (awaitPromise me p) (fun _ c' => At i (.released me did p) c') c := by
  intro k hk
  refine safe_await hc.inv ?_
  rw [hc.role]
  intro c₁ hi1 hr1 _ reply s out hperf
  obtain ⟨hs, hout⟩ := Call.perform_promise (i := i) (r := reply) hperf
  refine ⟨.released me did p, .heard me did p true since out hr1, ?_, fun c2 hi2 hr2 hlt2 => ?_⟩
  · exact hi1.heard hr1 hs rfl (by rw [side, hout]; simp)
  · exact hk out c2 ⟨hi2, hr2, hlt2⟩

theorem started (me did : Did) (since : Option Nat) (hlt : i < c.next) : Started i me did since c
    ((c.op i (.client me (.send .newPromise))
      (.starts me did ⟨did, (side c me).nextPromise⟩ since)).fork
        (.handshake me did ⟨did, (side c me).nextPromise⟩ .asked)) := by
  generalize hp : (⟨did, (side c me).nextPromise⟩ : PromiseId) = p
  have hself : side ((c.op i (.client me (.send .newPromise)) (.starts me did p since)).fork
      (.handshake me did p .asked)) me =
        { side c me with nextPromise := (side c me).nextPromise + 1 } :=
    side_op_self c i me .newPromise (.starts me did p since)
  have hother : ∀ me', me' ≠ me → side ((c.op i (.client me (.send .newPromise))
      (.starts me did p since)).fork (.handshake me did p .asked)) me' = side c me' :=
    fun me' hme => side_op_ne c i hme .newPromise (.starts me did p since)
  constructor
  · change update (update c.role i _) c.next _ i = _
    rw [update_of_ne (Nat.ne_of_lt hlt), update_self, hp]
  · rw [hp]
    exact update_self ..
  · intro j hj hnext
    change update (update c.role i _) c.next _ j = _
    rw [update_of_ne hnext, update_of_ne hj]
  · rfl
  iterate 2
    · intro me'
      by_cases hme : me' = me
      · rw [hme, hself]
      · rw [hother me' hme]
  · rw [hself]
  · intro me' hme
    rw [hother me' hme]
  · rw [hself]
  · rw [hself]

/-- To begin to restore the session changes none of this. -/
theorem Started.beginRestore (h : Started i me did since c c') (hlt : i < c.next) :
    Started i me did since c (c'.op c.next (.client me (.send (.beginRestore did)))
      (.handshake me did ⟨did, (side c me).nextPromise⟩ .asked)) := by
  have hflights : SameFlights c'.state
      (Op.apply c.next (.client me (.send (.beginRestore did))) c'.state) := sameFlights_op trivial
  have hself : side (c'.op c.next (.client me (.send (.beginRestore did)))
      (.handshake me did ⟨did, (side c me).nextPromise⟩ .asked)) me =
        SendOp.apply c.next (.beginRestore did) (side c' me) := side_op_self ..
  constructor
  · exact (update_of_ne (Nat.ne_of_lt hlt) _ _).trans h.own
  · exact update_self ..
  · exact fun j hj hnext => (update_of_ne hnext _ _).trans (h.others j hj hnext)
  · exact h.next
  · exact fun me' => (hflights me').1.trans (h.inFlight me')
  · exact fun me' => (hflights me').2.1.trans (h.promises me')
  · exact (hflights me).2.2.trans h.nextPromise
  · exact fun me' hme => (hflights me').2.2.trans (h.otherPromise me' hme)
  · rw [hself, ← h.cache]
    simp only [SendOp.apply, SendSide.beginRestore]
    split <;> rfl
  · rw [hself, ← h.blobs]
    simp only [SendOp.apply, SendSide.beginRestore]
    split <;> rfl

theorem Inv.unheard (hinv : Inv (c.assign i .plain)) (did : Did) :
    Unheard (c.assign i .plain) me ⟨did, (side c me).nextPromise⟩ := fun j did' hj =>
  absurd (hinv.waited j me did' _ hj).2 (Nat.lt_irrefl (side c me).nextPromise)

/-- The handshake that was started is the only one with the peer. -/
theorem Started.setInFlight (h : Started i me did since c c') (hinv : Inv (c.assign i .plain))
    (hflight : (side c me).sendSessionInitInFlight did = none)
    (hsince : since.isSome → (side c me).blobs did = none)
    (hcache : (side c me).sendSessionByDid did = none) :
    OpPre i c' (.client me (.send (.setInFlight did ⟨did, (side c me).nextPromise⟩)))
      (.waits me did ⟨did, (side c me).nextPromise⟩ true since) := by
  refine .setInFlight me did _ since h.own ?_ ?_ ?_ ?_
  · rw [h.promises]
    by_contra hsome
    exact absurd (hinv.settled me _ hsome) (Nat.lt_irrefl (side c me).nextPromise)
  · intro j did' hj
    by_cases hji : j = i
    · rw [hji, h.own] at hj
      simp [Role.waitsFor] at hj
    by_cases hnext : j = c.next
    · rw [hnext, h.child] at hj
      simp [Role.waitsFor] at hj
    · have hold : (c.assign i .plain).role j = c.role j := update_of_ne hji _ _
      rw [h.others j hji hnext, ← hold] at hj
      exact absurd hj (hinv.unheard did j did')
  · intro j q hj
    by_cases hji : j = i
    · rw [hji, h.own] at hj
      simp [Role.runs] at hj
    by_cases hnext : j = c.next
    · rw [hnext, h.child]
    have hold : (c.assign i .plain).role j = c.role j := update_of_ne hji _ _
    rw [h.others j hji hnext, ← hold] at hj
    cases hflight.symm.trans (hinv.runs j me did q hj).1
  · intro hs
    rw [h.cache, h.blobs]
    exact ⟨hcache, hsince hs⟩

theorem wp_startInit (recipient : String) (hinv : Inv (c.assign i .plain)) (hlt : i < c.next)
    (hcache : (side c me).sendSessionByDid did = none)
    (hflight : (side c me).sendSessionInitInFlight did = none)
    (hrole : (since = none ∧ c.role i = .plain) ∨
      ∃ g, since = some g ∧ c.role i = .recovers me did g ∧ (side c me).blobs did = none) :
    script.Wp i (startInit me did recipient ⟨did, (side c me).nextPromise⟩)
      (fun _ c' => At i .plain c') c := by
  have hstarts : OpPre i c (.client me (.send .newPromise))
      (.starts me did ⟨did, (side c me).nextPromise⟩ since) := by
    rcases hrole with ⟨rfl, hrole⟩ | ⟨g, rfl, hrole, _⟩
    · exact .newPromise me did hrole
    · exact .newPromiseSince me did g hrole
  have hsince : since.isSome → (side c me).blobs did = none := by
    rcases hrole with ⟨rfl, _⟩ | ⟨g, rfl, _, hblobs⟩
    · exact fun hs => by cases hs
    · exact fun _ => hblobs
  have hstarted := started me did since hlt
  generalize hp : (⟨did, (side c me).nextPromise⟩ : PromiseId) = p at hstarts hstarted ⊢
  refine .bind (Q := fun res c₁ => res = .ok () ∧
    c₁ = c.op i (.client me (.send .newPromise)) (.starts me did p since))
    (.op _ hstarts ⟨rfl, rfl⟩) ?_ fun e c' h => by cases h.1
  rintro _ c₁ ⟨_, rfl⟩
  have hfork : ForkPre i (c.op i (.client me (.send .newPromise)) (.starts me did p since))
      (.handshake me did p .asked) := by
    refine .handshake me did p since (update_self ..) ?_ ?_ ?_
    · exact (congrArg (fun x => SendSide.sendSessionByDid x did)
        (side_op_self c i me .newPromise (.starts me did p since))).trans hcache
    · intro j did' hj
      rcases role_cases
        (show (c.op i (.client me (.send .newPromise)) (.starts me did p since)).role = _ from rfl)
        j with ⟨_, hr⟩ | ⟨hne, hr⟩
      · rw [hr] at hj
        simp [Role.waitsFor] at hj
      · have hold : (c.assign i .plain).role j = c.role j := update_of_ne hne _ _
        rw [hr, ← hold, ← hp] at hj
        exact absurd hj (hinv.unheard did j did')
    · intro j q hj
      rcases role_cases
        (show (c.op i (.client me (.send .newPromise)) (.starts me did p since)).role = _ from rfl)
        j with ⟨_, hr⟩ | ⟨hne, hr⟩
      · rw [hr] at hj
        simp [Role.runs] at hj
      · have hold : (c.assign i .plain).role j = c.role j := update_of_ne hne _ _
        rw [hr, ← hold] at hj
        cases hflight.symm.trans (hinv.runs j me did q hj).1
  refine .bind (Q := fun res c2 => res = .ok () ∧ Started i me did since c c2)
    (.spawn _ hfork (safe_handshakeTask recipient (update_self ..) hstarted
      (hp ▸ hstarted.beginRestore hlt)) fun c2 h => ⟨rfl, h⟩) ?_ fun e c' h => by cases h.1
  rintro _ c2 ⟨_, h2⟩
  refine .bind (Q := fun res c3 => res = .ok () ∧ At i (.waits me did p true since) c3)
    (.op _ (hp ▸ h2.setInFlight hinv hflight hsince hcache) ⟨rfl, ?_⟩) ?_
    fun e c' h => by cases h.1
  · have hmap := h2.inMap hflight
    rw [hp] at hmap
    exact ⟨hmap.inv hinv hflight hp.symm, update_self .., h2.next ▸ Nat.lt_succ_of_lt hlt⟩
  rintro _ c3 ⟨_, h3⟩
  refine .settle (wp_ownPromise h3) fun r c4 h4 => ?_
  obtain ⟨hinv4, hnoRuns⟩ := h4.inv.deleteInFlight h4.role
  refine .bind (Q := fun res c5 => res = .ok () ∧ At i .plain c5)
    (.op _ (.deleteInFlight me did p h4.role hnoRuns)
      ⟨rfl, hinv4, update_self .., h4.lt⟩) ?_ fun e c' h => by cases h.1
  rintro _ c5 ⟨_, h5⟩
  cases r with
  | ok sid => exact .pure h5
  | error e => exact .throw h5

end Handshake

/-! ## The functions that look after the outbound session -/

theorem fine_getOrInit (me did : Did) (recipient : String) :
    Fine .plain Nat any (getOrInitSendSession me did recipient) := by
  intro i c hc
  refine wp_self ?_
  split
  · exact .pure ⟨hc, fun _ _ => trivial⟩
  rename_i hcache
  split
  · rename_i q _
    exact fine_call (k := .promise me q) rfl trivial (fun _ _ _ _ _ _ => trivial) i c hc
  rename_i hflight
  have hinv : Inv (c.assign i .plain) := by
    rw [← hc.role, Config.assign_self]
    exact hc.inv
  exact (wp_startInit recipient hinv hc.lt hcache hflight (.inl ⟨rfl, hc.role⟩)).mono
    fun _ _ h => ⟨h, fun _ _ => trivial⟩

section Recovery
variable {i : Nat} {me did : Did} {c : Conf}

theorem wp_getOrInit_reset (recipient : String) {g : Nat} {s : State} {h : List (Event machine)}
    (hinv : Inv (c.assign i .plain)) (hlt : i < c.next) (hrole : c.role i = .recovers me did g)
    (hevents : c.events = h ++ [.op i s (resetOp me did)])
    (hstate : c.state = Op.apply i (resetOp me did) s) :
    script.Wp i (getOrInitSendSession me did recipient) (fun _ c' => At i .plain c') c := by
  have hside : side c me = (State.client s me).send.resetSendSession did := by
    rw [side, hstate]
    exact congrArg Client.send (State.modify_client_self s me _)
  have hcache : (side c me).sendSessionByDid did = none := by
    rw [hside]
    exact update_self ..
  have hblobs : (side c me).blobs did = none := by
    rw [hside]
    exact update_self ..
  refine wp_self ?_
  split
  · rename_i sid hsid
    cases hcache.symm.trans hsid
  split
  · rename_i q hflight
    -- somebody else's handshake is in flight: join it
    have hruns : ∀ j q', (c.role j).runs = some (me, did, q') → q' = q := by
      intro j q' hj
      have hji : j ≠ i := fun hji => by
        rw [hji, hrole] at hj
        simp [Role.runs] at hj
      have hold : (c.assign i .plain).role j = c.role j := update_of_ne hji _ _
      have hq' := (hinv.runs j me did q' (hold ▸ hj)).1
      exact (some.inj (hflight.symm.trans hq')).symm
    have hwaits : Inv (c.assign i (.waits me did q false (some g))) := by
      refine hinv.update (i := i) (r := .waits me did q false (some g)) (.refl _) ?_
        (fun x hx => absurd hx (by simp [Role.runs]))
        (fun x hx => absurd hx (by simp [Role.owns])) (fun me' did' p hp => ?_) trivial
      · exact (Function.update_idem ..).symm
      · cases hp
        exact hinv.inFlight me did q hflight
    refine fun k hk => ⟨.waits me did q false (some g),
      .join me did q g h s hrole hflight hevents hstate hruns, hwaits, ?_⟩
    intro c2 hi2 hr2 hlt2 reply s' out hperf
    obtain ⟨rfl, _⟩ := Call.perform_promise (i := i) (r := reply) hperf
    refine ⟨.plain, .heard me did q false (some g) out hr2, ?_, fun c3 hi3 hr3 hlt3 => ?_⟩
    · exact hi2.update (.refl _) rfl (fun x hx => absurd hx (by simp [Role.runs]))
        (fun x hx => absurd hx (by simp [Role.owns]))
        (fun _ _ _ hx => absurd hx (by simp [Role.waitsFor])) trivial
    · exact hk out c3 ⟨hi3, hr3, hlt3⟩
  · rename_i hflight
    exact wp_startInit recipient hinv hlt hcache hflight (.inr ⟨g, rfl, hrole, hblobs⟩)

theorem wp_rehandshake (hc : At i .plain c) (hatt : Attempted c me did) :
    script.Wp i (rehandshake me did) (fun _ c' => At i .plain c') c := by
  have hseq : (Fine .plain).Sequential Call.Routine := fine_sequential rfl
  have hassign : (c.op i (resetOp me did) (.recovers me did c.events.length)).assign i .plain =
      c.op i (resetOp me did) .plain := by
    simp only [Config.assign, Config.op, Function.update_idem]
  have hinv : Inv ((c.op i (resetOp me did)
      (.recovers me did c.events.length)).assign i .plain) := by
    rw [hassign]
    refine hc.inv.keep (i := i) (sameFlights_op trivial) ?_
    rw [hc.role]
    rfl
  refine .bind (Q := fun res c' => res = .ok () ∧
    c' = c.op i (resetOp me did) (.recovers me did c.events.length))
    (.op _ (.reset me did hc.role hatt hc.inv) ⟨rfl, rfl⟩) ?_
    fun e c' h => by cases h.1
  rintro _ c₁ ⟨_, rfl⟩
  have hget : script.Wp i (getOrInitSendSession me did did) (fun _ c' => At i .plain c')
      (c.op i (resetOp me did) (.recovers me did c.events.length)) :=
    wp_getOrInit_reset did hinv hc.lt (update_self ..) rfl rfl
  refine .bind (Q := fun _ c' => At i .plain c') ?_ (fun _ c' h => .pure h) fun _ _ h => h
  refine .settle hget fun r c' h => ?_
  have hrest : Fine .plain Nat any (do
      tick
      ofExcept r) := by
    refine hseq.bind (hseq.await .tick trivial) fun _ _ => ?_
    cases r with
    | ok a => exact hseq.pure a trivial
    | error e => exact hseq.throw e
  exact (hrest i c' h).mono fun _ _ hq => hq.1

theorem fine_recover (me did : Did) (again : Bool) :
    Fine .plain Unit any (recoverMissingSession me did again) := by
  intro i c hc
  refine wp_dateNow (wp_self ?_)
  refine .bind (Q := fun res c' => res = .ok () ∧ At i .plain c' ∧
    ((State.client c.state me).health.coolingDown did (State.now c.state) = false →
      Attempted c' me did)) ?_ ?_ fun e c' h => nomatch h.1
  · have hpre := OpPre.attempt (i := i) (c := c) me did again
    rw [hc.role] at hpre
    refine .op .plain hpre ⟨rfl, ⟨?_, update_self .., hc.lt⟩, fun hcool => ?_⟩
    · refine hc.inv.keep (i := i) (sameFlights_op trivial) ?_
      rw [hc.role]
      rfl
    · exact ⟨_, _, rfl, .inl (by simp [passes, hcool])⟩
  · rintro _ c3 ⟨_, h3, hatt⟩
    split
    · exact .pure ⟨h3, fun _ _ => trivial⟩
    rename_i hcool
    refine .tryCatch
      (wp_rehandshake h3 (hatt (by simpa using hcool))) (fun _ _ h => ⟨h, fun _ _ => trivial⟩) ?_
    exact fun e c' h => .pure ⟨h, fun _ _ => trivial⟩

theorem fine_reconnect (me did : Did) : Fine .plain Unit any (reconnectSession me did) := by
  intro i c hc
  refine wp_dateNow ?_
  refine .bind (Q := fun res c' => res = .ok () ∧ At i .plain c' ∧ Attempted c' me did) ?_ ?_
    fun e c' h => nomatch h.1
  · have hpre := OpPre.reconnect (i := i) (c := c) me did
    rw [hc.role] at hpre
    refine .op .plain hpre ⟨rfl, ⟨?_, update_self .., hc.lt⟩, ?_⟩
    · refine hc.inv.keep (i := i) (sameFlights_op trivial) ?_
      rw [hc.role]
      rfl
    · exact ⟨_, _, rfl, .inr (by simp [reconnects])⟩
  · rintro _ c2 ⟨_, h2, hatt⟩
    exact (wp_rehandshake h2 hatt).mono fun _ _ h => ⟨h, fun _ _ => trivial⟩

end Recovery

/-! ## The programs -/

theorem fine_composed (me did : Did) : (Fine .plain).Composed me did where
  toClosed := fine_closed
  self := fine_self me
  exec _ ho := fine_routine ho
  restoreSend := fine_restoreSend me did
  getOrInit := fine_getOrInit me did
  recover := fine_recover me did
  reconnect := fine_reconnect me did

theorem fine_program (cmd : Cmd) : Fine .plain Unit any (program cmd) := by
  cases cmd with
  | upsertContact me did contact => exact fine_neutral trivial
  | sendTextMessage me did text random =>
    exact (fine_composed me did).follows.sendTextMessageNative text random
  | resendMessage me did id => exact (fine_composed me did).follows.resendMessage id
  | reconnectSession me did => exact fine_reconnect me did
  | deleteConversation me did =>
    exact fine_op trivial fun i c hc => hc.role ▸ .delete me did
  | ingestEnvelopes me batch =>
    exact fine_closed.plain.ingestEnvelopesNative batch fun e _ =>
      (fine_composed me e.senderDid).follows
  | advance ms =>
    intro i c hc
    refine .op .plain (hc.role ▸ .advance ms) ⟨⟨?_, update_self .., hc.lt⟩, fun _ _ => trivial⟩
    refine hc.inv.keep (i := i) (.refl _) ?_
    rw [hc.role]
    rfl

theorem resumes_prog (cmd : Cmd) (i : Nat) : script.Resumes i script.idle (prog cmd) :=
  fun c hinv hrole hlt => fine_program cmd i c ⟨hinv, hrole, hlt⟩ _ fun _ _ h => h.1.inv

theorem inv_initial {s : State} (h : Launched s) : Inv (script.initial s) where
  runs j me did p hj := absurd hj (by simp [Script.initial, script, Role.runs])
  owns j me did p heard hj := absurd hj (by simp [Script.initial, script, Role.owns])
  oneRuns j k me did p q hj := absurd hj (by simp [Script.initial, script, Role.runs])
  oneOwns j k me did p q heard heard' hj := absurd hj (by simp [Script.initial, script, Role.owns])
  settled me p hp := absurd ((h me).promises p) hp
  inFlight me did p hp := nomatch ((h me).inFlight did).symm.trans hp
  waited j me did p hj := absurd hj (by simp [Script.initial, script, Role.waitsFor])
  suspends _ := trivial

theorem keeps_reach {J : Conf → Prop} (hJ : script.Keeps J)
    (hinit : ∀ s, Launched s → J (script.initial s)) {w : Sys machine} {h : List (Event machine)}
    (hw : Traced prog Launched w h) : ∃ c : Conf, c.events = h ∧ c.state = w.state ∧ Inv c ∧ J c := by
  obtain ⟨c, hev, hok, hj⟩ := Script.reach hJ (fun s hs => ⟨inv_initial hs, hinit s hs⟩)
    (fun c hc => .fork hc) resumes_prog hw
  exact ⟨c, hev, hok.state, hok.inv, hj⟩

end Handshakes
