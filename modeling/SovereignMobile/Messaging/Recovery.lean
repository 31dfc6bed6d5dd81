import SovereignMobile.Messaging.Termination

/-! # What a reset leaves behind

`recoverMissingSession` and `reconnectSession` forget the outbound session and ask for one. They get
the one they want if nobody who has the old session is still about to put it back: the handshake they
join has not got a session yet, what is persisted is the session in the cache, and what is restored is
the session that is still persisted. -/

namespace Handshakes

open Messaging EventLoop Option
open Config (op_events op_role)
open Function (update update_of_ne update_self)

section Device
variable (me did : Did)

/-! ## Steps in time -/

/-- A handshake goes into the map. -/
def enters : Event machine → Bool
  | .op _ _ (.client me' (.send (.setInFlight did' _))) => me' == me && did' == did
  | _ => false

/-- A session has been initiated, or restored. -/
def obtains : Event machine → Bool
  | .call _ _ (.initiateSession me' did' _) (.ok _) => me' == me && did' == did
  | .op _ _ (.client me' (.send (.restored did' _))) => me' == me && did' == did
  | _ => false

/-- The session of the generation has been initiated. -/
def makes (gen : Gen) : Event machine → Bool
  | .call _ _ (.initiateSession me' did' _) (.ok r) => me' == me && did' == did && r.gen == gen
  | _ => false

/-- Whether nothing has been obtained since the last handshake went into the map. -/
def watch (b : Bool) (e : Event machine) : Bool :=
  enters me did e || (b && !obtains me did e)

/-- The handshake in the map has not got a session yet. -/
def undecided (h : List (Event machine)) : Bool := h.foldl (watch me did) false

end Device

/-- The generation of a native session. -/
def genOf (c : SendSide) (sid : Nat) : Option Gen := (c.native sid).map Session.gen

/-- The generation of the session in the cache. -/
def cachedGen (c : SendSide) (did : Did) : Option Gen := (c.sendSessionByDid did).bind (genOf c)

/-- The generation of the persisted session. -/
def storedGen (c : SendSide) (did : Did) : Option Gen := (c.blobs did).map Session.gen

section Device
variable (me did : Did)

/-- What a step of a function for `did` on the device `me` has to find: the handshake that a reset
    meets has not got a session yet, what is persisted is of the generation in the cache, and what is
    restored is of the generation that is persisted. -/
def inTime (b : Bool) : Event machine → Bool
  | .op _ s (.client me' (.send (.resetSendSession did'))) => !(me' == me && did' == did) ||
    ((State.client s me).send.sendSessionInitInFlight did == none || b)
  | .op _ s (.client me' (.send (.setSerializedSession did' _ blob))) =>
    !(me' == me && did' == did) || cachedGen (State.client s me).send did == some blob.gen
  | .op _ s (.client me' (.send (.restored did' sid))) => !(me' == me && did' == did) ||
    ((genOf (State.client s me).send sid).isSome &&
      genOf (State.client s me).send sid == storedGen (State.client s me).send did)
  | _ => true

/-- All steps do. -/
def timely : Bool → List (Event machine) → Bool
  | _, [] => true
  | b, e :: es => inTime me did b e && timely (watch me did b e) es

variable {me did}

theorem timely_snoc (b : Bool) (h : List (Event machine)) (e : Event machine) :
    timely me did b (h ++ [e]) = (timely me did b h && inTime me did (h.foldl (watch me did) b) e) := by
  induction h generalizing b with
  | nil => simp [timely]
  | cons x h ih => simp only [List.cons_append, timely, ih, List.foldl_cons, Bool.and_assoc]

theorem undecided_snoc (h : List (Event machine)) (e : Event machine) :
    undecided me did (h ++ [e]) = watch me did (undecided me did h) e := by
  rw [undecided, List.foldl_append]
  rfl

/-! ## Handshakes that have got a session -/

variable (me did) in
/-- A handshake for `did` that has got a session has got it since the last one went into the map. -/
structure Decided (c : Conf) : Prop where
  running : ∀ j p phase, c.role j = .handshake me did p phase → undecided me did c.events = true →
    phase = .asked
  settled : ∀ p sid, (side c me).sendSessionInitInFlight did = some p →
    (side c me).promises p = some (.ok sid) → undecided me did c.events = false

variable {e : Event machine} {c c' : Conf} {i : Nat} {r : Role} {o : Op}

theorem watch_of_not_enters {b : Bool} (he : enters me did e = false)
    (h : watch me did b e = true) :
    b = true := by
  rw [watch, he, Bool.false_or, Bool.and_eq_true] at h
  exact h.1

/-- An event that puts no handshake into the map and settles none with success. -/
theorem Decided.snoc (hc : Decided me did c) (hev : c'.events = c.events ++ [e])
    (he : enters me did e = false) (hrole : c'.role = update c.role i r)
    (hr : ∀ p phase, r = .handshake me did p phase → phase = .asked ∨ obtains me did e = true ∨
      ∃ phase', c.role i = .handshake me did p phase' ∧ phase' ≠ .asked)
    (hpromises : undecided me did c.events = true → ∀ p sid,
      (side c' me).sendSessionInitInFlight did = some p →
      (side c' me).promises p = some (.ok sid) → (side c me).sendSessionInitInFlight did = some p ∧
          (side c me).promises p = some (.ok sid)) : Decided me did c' := by
  have hback : undecided me did c'.events = true → undecided me did c.events = true := fun h =>
    watch_of_not_enters he (by rwa [hev, undecided_snoc] at h)
  constructor
  · intro j p phase hj hopen
    rcases role_cases hrole j with ⟨_, hj'⟩ | ⟨_, hj'⟩
    · rcases hr p phase (hj' ▸ hj) with hasked | hobtains | ⟨phase', hi, hne⟩
      · exact hasked
      · rw [hev, undecided_snoc, watch, he, hobtains] at hopen
        simp at hopen
      · exact absurd (hc.running i p phase' hi (hback hopen)) hne
    · exact hc.running j p phase (hj' ▸ hj) (hback hopen)
  · intro p sid hflight hp
    by_contra hopen
    rw [Bool.not_eq_false] at hopen
    obtain ⟨hflight, hp⟩ := hpromises (hback hopen) p sid hflight hp
    exact absurd (hc.settled p sid hflight hp) (by simp [hback hopen])

theorem decided_same (hs : SameFlights c.state c'.state) :
    ∀ p sid, (side c' me).sendSessionInitInFlight did = some p →
      (side c' me).promises p = some (.ok sid) → (side c me).sendSessionInitInFlight did = some p ∧
          (side c me).promises p = some (.ok sid) := by
  intro p sid hflight hp
  rw [side, (hs me).1] at hflight
  rw [side, (hs me).2.1] at hp
  exact ⟨hflight, hp⟩

/-- A handshake that goes on after an operation has got its session before it, or with it. -/
theorem decided_role (h : OpPre i c o r) (p : PromiseId) (phase : Phase)
    (hr : r = .handshake me did p phase) :
    phase = .asked ∨ obtains me did (.op i c.state o) = true ∨
      ∃ phase', c.role i = .handshake me did p phase' ∧ phase' ≠ .asked := by
  rcases handshake_of_op h hr with hi | ⟨x, hi, rfl, _⟩ | ⟨sid, _, _, rfl⟩
  · by_cases hphase : phase = .asked
    · exact .inl hphase
    · exact .inr (.inr ⟨phase, hi.trans hr, hphase⟩)
  · exact .inr (.inr ⟨_, hi, by simp⟩)
  · exact .inr (.inl (by simp [obtains]))

/-- No operation but one that puts a handshake into the map settles one that has no session. -/
theorem promises_op (hc : Decided me did c) (h : OpPre i c o r)
    (he : enters me did (.op i c.state o) = false) (hopen : undecided me did c.events = true)
    (p : PromiseId) (sid : Nat)
    (hflight : (side (c.op i o r) me).sendSessionInitInFlight did = some p)
    (hp : (side (c.op i o r) me).promises p = some (.ok sid)) :
    (side c me).sendSessionInitInFlight did = some p ∧ (side c me).promises p = some (.ok sid) := by
  rcases side_after me o i c r with heq | ⟨o', heq, ho⟩
  · rw [heq] at hflight hp
    exact ⟨hflight, hp⟩
  rw [heq] at hflight hp
  cases o' with
  | beginRestore did' =>
    simp only [SendOp.apply, SendSide.beginRestore] at hflight hp
    cases hblob : (side c me).blobs did' with
    | none | some blob =>
      rw [hblob] at hflight hp
      exact ⟨hflight, hp⟩
  | setInFlight did' p' =>
    obtain rfl := ho.resolve_right (by simp)
    have hd : did ≠ did' := fun hd => by simp [enters, hd] at he
    exact ⟨(update_of_ne hd _ _).symm.trans hflight, hp⟩
  | settle p' res =>
    obtain rfl := ho.resolve_right (by simp)
    refine ⟨hflight, ?_⟩
    by_cases hpp : p = p'
    · -- it would be a handshake that has got its session
      subst hpp
      have hok : res = .ok sid := by
        have := (update_self ..).symm.trans hp
        exact some.inj this
      subst hok
      cases h with
      | neutral _ _ ho => exact absurd ho id
      | settle _ did' _ phase _ hi hres honly _ _ =>
        obtain rfl : did = did' := (honly did).1 hflight
        have hasked := hc.running i p phase hi hopen
        rcases hres sid rfl with hr | ⟨x, hx, _⟩
        · cases hr.symm.trans hasked
        · cases hx.symm.trans hasked
    · exact (update_of_ne hpp _ _).symm.trans hp
  | deleteInFlight did' =>
    by_cases hd : did = did'
    · subst hd
      cases (update_self ..).symm.trans hflight
    · exact ⟨(update_of_ne hd _ _).symm.trans hflight, hp⟩
  | _ => exact ⟨hflight, hp⟩

/-- A handshake goes into the map: it has no session yet, and there is no other. -/
theorem Decided.setInFlight {p : PromiseId} {since : Option Nat}
    (hrole : c'.role = update c.role i (.waits me did p true since))
    (hasked : ∀ j q, (c.role j).runs = some (me, did, q) → c.role j = .handshake me did p .asked)
    (hflight : (side c' me).sendSessionInitInFlight did = some p)
    (hp : (side c' me).promises p = none) : Decided me did c' := by
  constructor
  · intro j q phase hj _
    rcases role_cases hrole j with ⟨_, hj'⟩ | ⟨_, hj'⟩
    · exact nomatch hj'.symm.trans hj
    rw [hj'] at hj
    have := hasked j q (by rw [hj]; rfl)
    rw [hj] at this
    exact (Role.handshake.inj this).2.2.2
  · intro q sid hq hsid
    rw [hflight, some.injEq] at hq
    subst hq
    exact nomatch hp.symm.trans hsid

theorem Decided.update (hc : Decided me did c) (hev : c'.events = c.events)
    (hstate : c'.state = c.state) (hrole : c'.role = update c.role i r)
    (hr : ∀ p phase, r = .handshake me did p phase → phase = .asked ∨ r = c.role i) :
    Decided me did c' := by
  constructor
  · intro j p phase hj hopen
    rw [hev] at hopen
    rcases role_cases hrole j with ⟨_, hj'⟩ | ⟨_, hj'⟩
    · rcases hr p phase (hj' ▸ hj) with hasked | hi
      · exact hasked
      · exact hc.running i p phase (hi.symm.trans (hj' ▸ hj)) hopen
    · exact hc.running j p phase (hj' ▸ hj) hopen
  · intro p sid
    rw [side, hstate, hev]
    exact hc.settled p sid

theorem keeps_decided : script.Keeps (Decided me did) where
  start c hc := hc.update (r := .plain) rfl rfl rfl fun _ _ hr => nomatch hr
  fork i c r _ hc hpre := by
    refine hc.update rfl rfl rfl fun p phase hr => .inl ?_
    cases hpre with
    | program => simp at hr
    | handshake me' did' p' since _ _ _ _ => exact ((Role.handshake.inj hr).2.2.2).symm
  await i c k r _ hc hpre := by
    refine hc.update rfl rfl rfl fun p phase hr => .inr ?_
    cases hpre with
    | keep k => rfl
    | join me' did' p' g h s _ _ _ _ _ => simp at hr
  op i c o r _ hc hpre := by
    by_cases he : enters me did (.op i c.state o) = true
    · cases hpre with
      | setInFlight me' did' p since _ hp _ hasked _ =>
        have heq : me' = me ∧ did' = did := by simpa [enters] using he
        obtain ⟨rfl, rfl⟩ := heq
        refine Decided.setInFlight (op_role ..) hasked ?_ ?_
        · rw [side_op_self]
          exact update_self ..
        · rw [side_op_self]
          exact hp
      | neutral me' o' ho =>
        cases o' with
        | send o' => cases o' <;> first | exact absurd ho id | simp [enters] at he
        | _ => simp [enters] at he
      | _ => simp [enters, resetOp] at he
    · rw [Bool.not_eq_true] at he
      exact hc.snoc (op_events ..) he (op_role ..) (decided_role hpre)
        (fun hopen => promises_op hc hpre he hopen)
  call i c k out reply s r _ hc _ hpre hperf := by
    refine hc.snoc rfl rfl rfl (fun p phase hr => ?_) fun _ => decided_same (sameFlights_call hperf)
    cases hpre with
    | quiet k out _ _ =>
      by_cases hphase : phase = .asked
      · exact .inl hphase
      · exact .inr (.inr ⟨phase, hr, hphase⟩)
    | heard me' did' p' owner since out _ => cases owner <;> simp at hr
    | made me' did' remote p' res _ =>
      cases hr
      exact .inr (.inl (by simp [obtains]))
    | notMade me' did' remote p' e _ => exact .inl ((Role.handshake.inj hr).2.2.2).symm
    | shipped me' did' p' x e st hi _ _ _ _ | lost me' did' p' x e err hi _ _ _ _ =>
      cases hr
      exact .inr (.inr ⟨_, hi, by simp⟩)

end Device

/-! ## Native sessions -/

/-- The identifiers from `nextNative` on are free. -/
def NativesBelow (c : SendSide) : Prop := ∀ sid, c.nextNative ≤ sid → c.native sid = none

/-- A native session stays what it is. -/
def KeepsNatives (c c' : SendSide) : Prop :=
  NativesBelow c → NativesBelow c' ∧ ∀ sid g, genOf c sid = some g → genOf c' sid = some g

variable {c : SendSide}

theorem KeepsNatives.of_eq {c' : SendSide} (hnative : c'.native = c.native)
    (hnext : c'.nextNative = c.nextNative) : KeepsNatives c c' := by
  intro h
  refine ⟨fun sid hle => ?_, fun sid g hg => ?_⟩
  · rw [hnative]
    exact h sid (hnext ▸ hle)
  · rw [genOf, hnative]
    exact hg

theorem keepsNatives_add (c : SendSide) (ses : Session) : KeepsNatives c (c.addNative ses) := by
  intro h
  refine ⟨fun sid hle => ?_, fun sid g hg => ?_⟩
  · change c.nextNative + 1 ≤ sid at hle
    exact (update_of_ne (by omega) _ _).trans (h sid (by omega))
  have hne : sid ≠ c.nextNative := by
    rintro rfl
    rw [genOf, h _ (Nat.le_refl _)] at hg
    simp at hg
  exact (congrArg (Option.map Session.gen) (update_of_ne hne _ _)).trans hg

theorem keepsNatives_seal {sid : Nat} {ses : Session} (e : Envelope)
    (hses : c.native sid = some ses) : KeepsNatives c (c.seal sid ses e) := by
  intro h
  refine ⟨fun sid' hle => ?_, fun sid' g hg => ?_⟩
  · have hne : sid' ≠ sid := by
      rintro rfl
      exact nomatch hses.symm.trans (h sid' hle)
    exact (update_of_ne hne _ _).trans (h sid' hle)
  by_cases hs : sid' = sid
  · subst hs
    have hnew : (c.seal sid' ses e).native sid' = some { ses with counter := ses.counter + 1 } :=
      update_self ..
    rw [genOf, hses] at hg
    rw [genOf, hnew]
    exact hg
  · exact (congrArg (Option.map Session.gen) (update_of_ne hs _ _)).trans hg

theorem keepsNatives_effect {s s' : State} {i : Nat} {k : Call} (h : Call.Effect i s k s')
    (me : Did) : KeepsNatives (s.client me).send (s'.client me).send := by
  have hrefl : ∀ c : SendSide, KeepsNatives c c := fun c => .of_eq rfl rfl
  have hsend : ∀ me' f, KeepsNatives (s.client me').send (f (s.client me').send) →
        KeepsNatives (s.client me).send ((s.modifySend me' f).client me).send := fun me' f hf =>
    State.rel_modify (R := fun c c' => KeepsNatives c.send c'.send) (fun c => hrefl c.send) hf me
  have hrecv : ∀ me' f,
      KeepsNatives (s.client me).send ((s.modifyRecv me' f).client me).send := fun me' f =>
    State.rel_modify (R := fun c c' => KeepsNatives c.send c'.send) (fun c => hrefl c.send)
      (hrefl _) me
  cases h with
  | none | relayed => exact hrefl _
  | initiated me' did remote => exact hsend me' _ (keepsNatives_add _ _)
  | keyExchange me' remote gen => exact hrefl _
  | text me' sid body ses t hses => exact hsend me' _ (keepsNatives_seal _ hses)
  | restored me' blob => exact hsend me' _ (keepsNatives_add _ blob)
  | position me' sid e ses _ => exact hsend me' _ (.of_eq rfl rfl)
  | accepted _ me' | rekeyed _ me' | opened me' => exact hrecv me' _

theorem natives_op (o : SendOp) (i : Nat) (c : SendSide) :
    (o.apply i c).native = c.native ∧ (o.apply i c).nextNative = c.nextNative := by
  cases o with
  | beginRestore did =>
    simp only [SendOp.apply, SendSide.beginRestore]
    split <;> exact ⟨rfl, rfl⟩
  | _ => exact ⟨rfl, rfl⟩

theorem natives_clientOp (o : Op) (i : Nat) (c : Conf) (r : Role) (me : Did) :
    (side (c.op i o r) me).native = (side c me).native ∧
      (side (c.op i o r) me).nextNative = (side c me).nextNative := by
  rcases side_after me o i c r with heq | ⟨o', heq, _⟩
  · rw [heq]
    exact ⟨rfl, rfl⟩
  · rw [heq]
    exact natives_op o' i _

/-- A session that was made is a native session. -/
structure Natives (me : Did) (c : Conf) : Prop where
  below : NativesBelow (side c me)
  made : ∀ j did p x, c.role j = .handshake me did p (.made x) →
    genOf (side c me) x.sid = some x.gen

section Device
variable {me did : Did}

variable {c c' : Conf} {i g j : Nat} {r : Role} {s s' : State} {reply : Reply} {α : Type}
    {l : List α} {e : α} {o : Op} {k : Call} {out : Except Err (Ret k)} {gen : Gen}
    {h : List (Event machine)} {x : Event machine} {p : PromiseId} {b : Bool}

theorem Natives.update (hc : Natives me c) (hs : KeepsNatives (side c me) (side c' me))
    (hrole : c'.role = update c.role i r)
    (hr : ∀ did p x, r = .handshake me did p (.made x) → r = c.role i ∨
      genOf (side c' me) x.sid = some x.gen) : Natives me c' := by
  obtain ⟨hbelow, hkept⟩ := hs hc.below
  refine ⟨hbelow, fun j did p x hj => ?_⟩
  rcases role_cases hrole j with ⟨_, hj'⟩ | ⟨_, hj'⟩
  · rcases hr did p x (hj' ▸ hj) with hi | hgen
    · exact hkept _ _ (hc.made i did p x (hi.symm.trans (hj' ▸ hj)))
    · exact hgen
  · exact hkept _ _ (hc.made j did p x (hj' ▸ hj))

theorem genOf_initiated {remote : Did} {r : InitResult}
    (hperf : Call.perform i (.initiateSession me did remote) reply s = some (s', .ok r)) :
    genOf (State.client s' me).send r.sessionId = some r.gen := by
  have hs := Call.succeed_of_ok rfl hperf
  cases hs
  have hclient : State.client (s.initiateSession me did remote) me = { s.client me with
      send := (s.client me).send.addNative ⟨remote, ⟨me, did, s.nextGen⟩, 0, 0, []⟩ } :=
    update_self ..
  have hnew : (State.client (s.initiateSession me did remote) me).send.native
      (s.client me).send.nextNative = some ⟨remote, ⟨me, did, s.nextGen⟩, 0, 0, []⟩ := by
    rw [hclient]
    exact update_self ..
  rw [genOf, hnew]
  rfl

theorem keeps_natives : script.Keeps (Natives me) where
  start c hc := hc.update (r := .plain) (.of_eq rfl rfl) rfl fun _ _ _ hr => nomatch hr
  fork i c r _ hc hpre := by
    refine hc.update (.of_eq rfl rfl) rfl fun did p x hr => ?_
    cases hpre <;> simp at hr
  await i c k r _ hc hpre := by
    refine hc.update (.of_eq rfl rfl) rfl fun did p x hr => ?_
    cases hpre with
    | keep k => exact .inl rfl
    | join me' did' p g h s _ _ _ _ _ => simp at hr
  op i c o r _ hc hpre := by
    obtain ⟨hnative, hnext⟩ := natives_clientOp o i c r me
    refine hc.update (.of_eq hnative hnext) (op_role ..) fun did p x hr => ?_
    rcases handshake_of_op hpre hr with hi | ⟨y, _, hphase, _⟩ | ⟨_, _, hphase, _⟩
    · exact .inl hi.symm
    · simp at hphase
    · simp at hphase
  call i c k out reply s r _ hc _ hpre hperf := by
    refine hc.update (keepsNatives_effect (Call.effect hperf) me) rfl fun did p x hr => ?_
    cases hpre with
    | quiet k out _ _ => exact .inl rfl
    | heard me' did' p' owner since out _ => cases owner <;> simp at hr
    | notMade | shipped | lost => simp at hr
    | made me' did' remote p' res _ =>
      cases hr
      exact .inr (genOf_initiated hperf)

/-! ## Resets that are still to be answered -/

variable (me did) in
/-- A task that has reset the session, and has had no answer to a call since, knows when. -/
structure Owed (c : Conf) : Prop where
  ids : ∀ e ∈ c.events, e.task < c.next
  reset : ∀ j g, (c.role j).since = some (me, did, g) →
    ∃ e, c.events[g]? = some e ∧ resets me did e = true
  owed : ∀ g e, c.events[g]? = some e → resets me did e = true →
    (∀ e' ∈ c.events.drop (g + 1), e'.isCallOf e.task = false) →
      (c.role e.task).since = some (me, did, g)

theorem getElem?_snoc {x : α} (h : (l ++ [x])[g]? = some e) :
    (g < l.length ∧ l[g]? = some e) ∨ (g = l.length ∧ e = x) := by
  rw [List.getElem?_append] at h
  split at h
  · rename_i hlt
    exact .inl ⟨hlt, h⟩
  rename_i hge
  have hlt : g - l.length < 1 := (List.getElem?_eq_some_iff.1 h).1
  have hg : g - l.length = 0 := by omega
  rw [hg, List.getElem?_cons_zero, some.injEq] at h
  exact .inr ⟨by omega, h.symm⟩

theorem mem_drop_snoc {x : α} (hg : g ≤ l.length) :
    e ∈ (l ++ [x]).drop g ↔ e ∈ l.drop g ∨ e = x := by
  rw [List.drop_append_of_le_length hg, List.mem_append, List.mem_singleton]

/-- What an operation does to the reset that its task has still to be answered. -/
theorem since_op (h : OpPre i c o r) :
    (r.since = (c.role i).since ∧ ∀ me did, resets me did (.op i c.state o) = false) ∨
      ∃ me did, o = resetOp me did ∧ c.role i = .plain ∧ Inv c ∧
        r = .recovers me did c.events.length := by
  cases h with
  | reset me' did' hi _ hinv => exact .inr ⟨me', did', rfl, hi, hinv, rfl⟩
  | neutral me' o' ho =>
    refine .inl ⟨rfl, fun me did => ?_⟩
    cases o' with
    | send o' => cases o' <;> first | rfl | exact absurd ho id
    | _ => rfl
  | cached me' did' p x hi _ => exact .inl ⟨by rw [hi]; rfl, fun _ _ => rfl⟩
  | restored me' did' sid hi => exact .inl ⟨by rw [hi], fun _ _ => rfl⟩
  | restoredOwn _ _ _ _ hi | newPromise _ _ hi | newPromiseSince _ _ _ hi =>
    exact .inl ⟨by rw [hi]; rfl, fun _ _ => rfl⟩
  | setInFlight me' did' p since hi _ _ _ _ =>
    exact .inl ⟨by rw [hi]; cases since <;> rfl, fun _ _ => rfl⟩
  | settle _ _ _ _ _ hi | deleteInFlight _ _ _ hi => exact .inl ⟨by rw [hi]; rfl, fun _ _ => rfl⟩
  | _ => exact .inl ⟨rfl, fun _ _ => rfl⟩

theorem Owed.op (hlt : i < c.next) (hc : Owed me did c) (hpre : OpPre i c o r) :
    Owed me did (c.op i o r) := by
  have hev : (c.op i o r).events = c.events ++ [.op i c.state o] := rfl
  have hnext : (c.op i o r).next = c.next := rfl
  have hrole := op_role c i o r
  generalize c.op i o r = c' at hev hnext hrole ⊢
  have hsince := since_op hpre
  constructor
  · intro e he
    rw [hev] at he
    rw [hnext]
    rcases List.mem_append.1 he with he | he
    · exact hc.ids e he
    · rw [List.mem_singleton.1 he]
      exact hlt
  · intro j g hj
    have hold : (c.role j).since = some (me, did, g) →
        ∃ e, c'.events[g]? = some e ∧ resets me did e = true := by
      intro hj
      obtain ⟨e, he, hreset⟩ := hc.reset j g hj
      refine ⟨e, ?_, hreset⟩
      rw [hev, List.getElem?_append_left (List.getElem?_eq_some_iff.1 he).1]
      exact he
    rcases role_cases hrole j with ⟨hji, hr⟩ | ⟨_, hr⟩
    · rw [hr] at hj
      rcases hsince with ⟨hsame, _⟩ | ⟨me', did', rfl, _, _, rfl⟩
      · rw [hsame, ← hji] at hj
        exact hold hj
      simp only [Role.since, some.injEq, Prod.mk.injEq] at hj
      obtain ⟨rfl, rfl, rfl⟩ := hj
      refine ⟨.op i c.state (resetOp me' did'), ?_, by simp [resets, resetOp]⟩
      rw [hev, List.getElem?_concat_length]
    · exact hold (hr ▸ hj)
  · intro g e he hreset hquiet
    rw [hev] at he hquiet
    rcases getElem?_snoc he with ⟨hg, he⟩ | ⟨rfl, rfl⟩
    · have howed := hc.owed g e he hreset fun e' he' =>
        hquiet e' ((mem_drop_snoc (by omega)).2 (.inl he'))
      rcases role_cases hrole e.task with ⟨hei, hr⟩ | ⟨_, hr⟩
      · rw [hr]
        rcases hsince with ⟨hsame, _⟩ | ⟨me', did', _, hi, _, _⟩
        · rw [hsame, ← hei]
          exact howed
        · rw [hei, hi] at howed
          simp [Role.since] at howed
      · rw [hr]
        exact howed
    · rcases hsince with ⟨_, hno⟩ | ⟨me', did', rfl, _, _, rfl⟩
      · cases hreset.symm.trans (hno me did)
      have heq : me' = me ∧ did' = did := by simpa [resets, resetOp] using hreset
      obtain ⟨rfl, rfl⟩ := heq
      change (c'.role i).since = _
      rw [hrole, update_self]
      rfl

theorem Owed.update (hc : Owed me did c) (hev : c'.events = c.events) (hnext : c.next ≤ c'.next)
    (hrole : c'.role = update c.role i r)
    (hr : r.since = (c.role i).since ∨ (r.since = none ∧ c.next ≤ i)) : Owed me did c' := by
  constructor
  · intro e he
    exact Nat.lt_of_lt_of_le (hc.ids e (hev ▸ he)) hnext
  · intro j g hj
    rw [hev]
    rcases role_cases hrole j with ⟨hji, hj'⟩ | ⟨_, hj'⟩
    · rw [hj'] at hj
      rcases hr with hsame | ⟨hnone, _⟩
      · rw [hsame, ← hji] at hj
        exact hc.reset j g hj
      · exact nomatch hnone.symm.trans hj
    · exact hc.reset j g (hj' ▸ hj)
  · intro g e he hreset hquiet
    rw [hev] at he hquiet
    have howed := hc.owed g e he hreset hquiet
    rcases role_cases hrole e.task with ⟨hei, hj'⟩ | ⟨_, hj'⟩
    · rw [hj']
      rcases hr with hsame | ⟨_, hle⟩
      · rw [hsame, ← hei]
        exact howed
      · have hlt := hc.ids e (List.mem_of_getElem? he)
        omega
    · rw [hj']
      exact howed

theorem Owed.call (hlt : i < c.next) (hc : Owed me did c)
    (hr : r.since = none ∨ r.since = (c.role i).since) :
    Owed me did (c.call i k out s r) := by
  have hev : (c.call i k out s r).events = c.events ++ [.call i c.state k out] := rfl
  have hnext : (c.call i k out s r).next = c.next := rfl
  have hrole : (c.call i k out s r).role = Function.update c.role i r := rfl
  generalize c.call i k out s r = c' at hev hnext hrole ⊢
  constructor
  · intro e he
    rw [hev] at he
    rw [hnext]
    rcases List.mem_append.1 he with he | he
    · exact hc.ids e he
    · rw [List.mem_singleton.1 he]
      exact hlt
  · intro j g hj
    have hold : (c.role j).since = some (me, did, g) := by
      rcases role_cases hrole j with ⟨hji, hj'⟩ | ⟨_, hj'⟩
      · rw [hj'] at hj
        rcases hr with hnone | hsame
        · exact nomatch hnone.symm.trans hj
        · rw [hji, ← hsame]
          exact hj
      · exact hj' ▸ hj
    obtain ⟨e, he, hreset⟩ := hc.reset j g hold
    refine ⟨e, ?_, hreset⟩
    rw [hev, List.getElem?_append_left (List.getElem?_eq_some_iff.1 he).1]
    exact he
  · intro g e he hreset hquiet
    rw [hev] at he hquiet
    rcases getElem?_snoc he with ⟨hg, he⟩ | ⟨_, rfl⟩
    · have hcall : (Event.call i c.state k out).isCallOf e.task = false :=
        hquiet _ ((mem_drop_snoc (by omega)).2 (.inr rfl))
      have hne : e.task ≠ i := fun heq => by simp [Event.isCallOf, heq] at hcall
      rcases role_cases hrole e.task with ⟨hei, _⟩ | ⟨_, hj'⟩
      · exact absurd hei hne
      · rw [hj']
        exact hc.owed g e he hreset fun e' he' => hquiet e' ((mem_drop_snoc (by omega)).2 (.inl he'))
    · simp [resets] at hreset

theorem keeps_owed : script.Keeps (Owed me did) where
  start c hc := hc.update rfl (Nat.le_succ _) rfl (.inr ⟨rfl, Nat.le_refl _⟩)
  fork i c r _ hc hpre := by
    refine hc.update rfl (Nat.le_succ _) rfl (.inr ⟨?_, Nat.le_refl _⟩)
    cases hpre <;> rfl
  await i c k r _ hc hpre := by
    refine hc.update rfl (Nat.le_refl _) rfl (.inl ?_)
    cases hpre with
    | keep k => rfl
    | join me' did' p g h s hi _ _ _ _ => rw [hi]; rfl
  op i c o r hlt hc hpre := hc.op hlt hpre
  call i c k out reply s r hlt hc _ hpre _ := by
    refine hc.call hlt ?_
    cases hpre with
    | quiet k out _ _ => exact .inr rfl
    | heard me' did' p owner since out _ => cases owner <;> exact .inl rfl
    | _ => exact .inl rfl

/-! ## Shipped sessions -/

/-- The relay has accepted the `KeyExchange` of the generation. -/
def Relayed (me : Did) (s : State) (gen : Gen) : Prop :=
  ∃ e ∈ s.accepted, e.contentType = .keyExchange ∧ e.senderDid = me ∧ e.gen = gen

theorem Relayed.mono (h : Relayed me s gen) (hle : ∀ e ∈ s.accepted, e ∈ s'.accepted) :
    Relayed me s' gen := by
  obtain ⟨e, he, hrest⟩ := h
  exact ⟨e, hle e he, hrest⟩

theorem accepted_op (o : Op) (i : Nat) (s : State) : (Op.apply i o s).accepted = s.accepted := by
  cases o <;> rfl

theorem accepted_effect (h : Call.Effect i s k s') : ∀ e ∈ s.accepted, e ∈ s'.accepted := by
  cases h with
  | relayed e' => exact fun e he => List.mem_append_left _ he
  | _ => exact fun e he => he

variable (me did) in
/-- A handshake that has shipped its `KeyExchange` has done so. -/
def ShippedRelayed (c : Conf) : Prop :=
  ∀ j p x, c.role j = .handshake me did p (.shipped x) → Relayed me c.state x.gen

theorem ShippedRelayed.update (hc : ShippedRelayed me did c)
    (hle : ∀ e ∈ State.accepted c.state, e ∈ State.accepted c'.state)
    (hrole : c'.role = update c.role i r)
    (hr : ∀ p x, r = .handshake me did p (.shipped x) → r = c.role i ∨ Relayed me c'.state x.gen) :
    ShippedRelayed me did c' := by
  intro j p x hj
  rcases role_cases hrole j with ⟨_, hj'⟩ | ⟨_, hj'⟩
  · rcases hr p x (hj' ▸ hj) with hi | hrel
    · exact (hc i p x (hi.symm.trans (hj' ▸ hj))).mono hle
    · exact hrel
  · exact (hc j p x (hj' ▸ hj)).mono hle

theorem relayed_sent {x : NewSession} {e : Envelope} {st : SendStatus} (he : Announces e me x)
    (hperf : Call.perform i (.sendEnvelope e) reply s = some (s', .ok st)) :
    Relayed me s' x.gen := by
  have hs := Call.succeed_of_ok rfl hperf
  simp only [Call.succeed] at hs
  split at hs
  · cases hs
    exact ⟨e, List.mem_append_right _ (List.mem_singleton.2 rfl), he.type, he.sender, he.gen⟩
  · simp at hs

theorem keeps_shippedRelayed : script.Keeps (ShippedRelayed me did) where
  start c hc := hc.update (r := .plain) (fun _ he => he) rfl fun _ _ hr => nomatch hr
  fork i c r _ hc hpre := by
    refine hc.update (fun _ he => he) rfl fun p x hr => ?_
    cases hpre <;> simp at hr
  await i c k r _ hc hpre := by
    refine hc.update (fun _ he => he) rfl fun p x hr => ?_
    cases hpre with
    | keep k => exact .inl rfl
    | join me' did' p g h s _ _ _ _ _ => simp at hr
  op i c o r _ hc hpre := by
    refine hc.update (fun e he => ?_) (op_role ..) fun p x hr => ?_
    · exact (accepted_op o i c.state).symm ▸ he
    rcases handshake_of_op hpre hr with hi | ⟨y, _, hphase, _⟩ | ⟨_, _, hphase, _⟩
    · exact .inl hi.symm
    · simp at hphase
    · simp at hphase
  call i c k out reply s r _ hc _ hpre hperf := by
    refine hc.update (accepted_effect (Call.effect hperf)) rfl fun p x hr => ?_
    cases hpre with
    | quiet k out _ _ => exact .inl rfl
    | heard me' did' p' owner since out _ => cases owner <;> simp at hr
    | notMade | made | lost => simp at hr
    | shipped me' did' p' x' e st _ htype hsender hremote hgen =>
      cases hr
      exact .inr (relayed_sent ⟨htype, hsender, hremote, hgen⟩ hperf)

/-! ## Newer than the resets -/

variable (me did) in
/-- The generation has been made after the event number `g`. -/
def MadeSince (h : List (Event machine)) (g : Nat) (gen : Gen) : Prop :=
  ∃ e ∈ h.drop g, makes me did gen e = true

variable (me did) in
/-- The generation has been made after every reset. -/
def Newer (h : List (Event machine)) (gen : Gen) : Prop :=
  ∀ g e, h[g]? = some e → resets me did e = true → MadeSince me did h g gen

theorem MadeSince.snoc (hm : MadeSince me did h g gen) : MadeSince me did (h ++ [x]) g gen := by
  obtain ⟨e, he, hmakes⟩ := hm
  have hlt : g ≤ h.length := by
    by_contra hgt
    rw [List.drop_eq_nil_of_le (by omega)] at he
    simp at he
  exact ⟨e, (mem_drop_snoc hlt).2 (.inl he), hmakes⟩

theorem Newer.snoc (hn : Newer me did h gen) (hx : resets me did x = false) :
    Newer me did (h ++ [x]) gen := by
  intro g e he hreset
  rcases getElem?_snoc he with ⟨_, he⟩ | ⟨_, rfl⟩
  · exact (hn g e he hreset).snoc
  · exact nomatch hreset.symm.trans hx

/-- What is made now is newer than every reset. -/
theorem newer_made (hx : resets me did x = false) (hmakes : makes me did gen x = true) :
    Newer me did (h ++ [x]) gen := by
  intro g e he hreset
  rcases getElem?_snoc he with ⟨hlt, _⟩ | ⟨_, rfl⟩
  · exact ⟨x, (mem_drop_snoc (by omega)).2 (.inr rfl), hmakes⟩
  · exact nomatch hreset.symm.trans hx

/-! ## What holds a session -/

variable (me did) in
/-- What an operation leaves in the store for `did`. -/
theorem blobs_after (o : Op) (i : Nat) (c : Conf) (r : Role) :
    (side (c.op i o r) me).blobs did = (side c me).blobs did ∨
      (side (c.op i o r) me).blobs did = none ∨
      ∃ sid blob, (side (c.op i o r) me).blobs did = some blob ∧
        o = .client me (.send (.setSerializedSession did sid blob)) := by
  rcases side_after me o i c r with heq | ⟨o', heq, ho⟩
  · rw [heq]
    exact .inl rfl
  rw [heq]
  cases o' with
  | setSerializedSession did' sid blob =>
    rcases update_cases (side c me).blobs did did' (some blob) with h | ⟨rfl, h⟩
    · exact .inl h
    · exact .inr (.inr ⟨sid, blob, h, ho.resolve_right (by simp)⟩)
  | beginRestore did' =>
    refine .inl ?_
    simp only [SendOp.apply, SendSide.beginRestore]
    split <;> rfl
  | resetSendSession did' =>
    rcases update_cases (side c me).blobs did did' none with h | ⟨rfl, h⟩
    · exact .inl h
    · exact .inr (.inl h)
  | _ => exact .inl rfl

variable (me did) in
/-- Whatever holds a session for `did` holds one that is newer than every reset. -/
structure Renewed (c : Conf) : Prop where
  cache : ∀ sid, (side c me).sendSessionByDid did = some sid →
    ∃ gen, genOf (side c me) sid = some gen ∧ Newer me did c.events gen
  blobs : ∀ blob, (side c me).blobs did = some blob → Newer me did c.events blob.gen
  session : ∀ j x, (c.role j).session = some (me, did, x) → Newer me did c.events x.gen

theorem Renewed.cachedGen (h : Renewed me did c) (hgen : cachedGen (side c me) did = some gen) :
    Newer me did c.events gen := by
  obtain ⟨sid, hsid, hgen⟩ := bind_eq_some_iff.1 hgen
  obtain ⟨gen', hgen', hnewer⟩ := h.cache sid hsid
  rw [hgen', some.injEq] at hgen
  exact hgen ▸ hnewer

theorem Renewed.storedGen (h : Renewed me did c) (hgen : storedGen (side c me) did = some gen) :
    Newer me did c.events gen := by
  obtain ⟨blob, hblob, rfl⟩ := map_eq_some_iff.1 hgen
  exact h.blobs blob hblob

theorem Role.phase_of_session {x : NewSession} (h : r.session = some (me, did, x)) :
    ∃ p phase, r = .handshake me did p phase ∧ phase ≠ .asked := by
  cases r with
  | handshake me' did' p phase =>
    cases phase with
    | asked | restored => simp [Role.session] at h
    | _ =>
      cases h
      exact ⟨p, _, rfl, by simp⟩
  | _ => simp [Role.session] at h

/-- A reset in time: nothing holds a session afterwards. -/
theorem Renewed.reset (hdecided : Decided me did c) (hinv : Inv c)
    (htime : inTime me did (undecided me did c.events) (.op i c.state (resetOp me did)) = true) :
    Renewed me did (c.op i (resetOp me did) (.recovers me did c.events.length)) := by
  have hside : side (c.op i (resetOp me did) (.recovers me did c.events.length)) me =
      (side c me).resetSendSession did := side_op_self c i me (.resetSendSession did) _
  constructor
  · intro sid hsid
    rw [hside] at hsid
    cases (Function.update_self ..).symm.trans hsid
  · intro blob hblob
    rw [hside] at hblob
    cases (Function.update_self ..).symm.trans hblob
  intro j x hj
  rcases role_cases (Config.op_role c i (resetOp me did) (.recovers me did c.events.length)) j with
    ⟨_, hr⟩ | ⟨_, hr⟩
  · rw [hr] at hj
    simp [Role.session] at hj
  -- its handshake would be the one that the reset meets
  rw [hr] at hj
  obtain ⟨p, phase, hphase, hne⟩ := Role.phase_of_session hj
  have hflight := (hinv.runs j me did p (by rw [hphase]; rfl)).1
  have hopen : undecided me did c.events = true := by
    simp only [inTime, resetOp, beq_self_eq_true, Bool.and_self, Bool.not_true, Bool.false_or,
      Bool.or_eq_true, beq_iff_eq] at htime
    rcases htime with hnone | hopen
    · cases hnone.symm.trans hflight
    · exact hopen
  exact absurd (hdecided.running j p phase hphase hopen) hne

/-- An operation other than a reset, in time. -/
theorem Renewed.op (h : Renewed me did c) (hnatives : Natives me c) (hpre : OpPre i c o r)
    (hreset : resets me did (.op i c.state o) = false)
    (htime : inTime me did (undecided me did c.events) (.op i c.state o) = true) :
    Renewed me did (c.op i o r) := by
  have hev : (c.op i o r).events = c.events ++ [.op i c.state o] := rfl
  have hgen : ∀ sid, genOf (side (c.op i o r) me) sid = genOf (side c me) sid := fun sid => by
    rw [genOf, genOf, (natives_clientOp o i c r me).1]
  constructor
  · intro sid hsid
    rw [hgen]
    rcases cache_after me did o i c r with heq | ⟨hnone, _⟩ | ⟨sid', hsid', ho⟩
    · obtain ⟨gen, hg, hnewer⟩ := h.cache sid (heq.symm.trans hsid)
      exact ⟨gen, hg, hnewer.snoc hreset⟩
    · cases hnone.symm.trans hsid
    rw [hsid, some.injEq] at hsid'
    subst hsid'
    rcases ho with rfl | rfl
    · have hcaches : caches me did (.op i c.state (.client me (.send (.setSession did sid)))) =
          true := by simp [caches]
      obtain ⟨p, x, hi, _, ho, _⟩ := cached_of_caches hpre hcaches
      have hx : sid = x.sid := by
        simpa using ho
      subst hx
      exact ⟨x.gen, hnatives.made i did p x hi, (h.session i x (by rw [hi]; rfl)).snoc hreset⟩
    · simp only [inTime, beq_self_eq_true, Bool.and_self, Bool.not_true, Bool.false_or,
        Bool.and_eq_true, beq_iff_eq] at htime
      obtain ⟨hsome, hstored⟩ := htime
      obtain ⟨gen, hg⟩ := isSome_iff_exists.1 hsome
      exact ⟨gen, hg, (h.storedGen (hstored.symm.trans hg)).snoc hreset⟩
  · intro blob hblob
    rw [hev]
    rcases blobs_after me did o i c r with heq | hnone | ⟨sid, blob', hblob', rfl⟩
    · exact (h.blobs blob (heq.symm.trans hblob)).snoc hreset
    · cases hnone.symm.trans hblob
    rw [hblob, some.injEq] at hblob'
    subst hblob'
    simp only [inTime, beq_self_eq_true, Bool.and_self, Bool.not_true, Bool.false_or,
      beq_iff_eq] at htime
    exact (h.cachedGen htime).snoc hreset
  · intro j x hj
    rw [hev]
    obtain ⟨k, hk⟩ := session_update (Config.op_role c i o r) (session_op hpre) j _ hj
    exact (h.session k x hk).snoc hreset

theorem Renewed.update (h : Renewed me did c) (hstate : c'.state = c.state)
    (hev : c'.events = c.events) (hrole : c'.role = update c.role i r)
    (hr : ∀ x, r.session = some x → (c.role i).session = some x) : Renewed me did c' := by
  constructor
  · intro sid hsid
    rw [side, hstate] at hsid ⊢
    rw [hev]
    exact h.cache sid hsid
  · intro blob hblob
    rw [side, hstate] at hblob
    rw [hev]
    exact h.blobs blob hblob
  · intro j x hj
    rw [hev]
    obtain ⟨k, hk⟩ := session_update hrole hr j _ hj
    exact h.session k x hk

/-- A session that a call brings, if it does, is newer than every reset. -/
theorem Renewed.call (h : Renewed me did c) (hnatives : Natives me c)
    (heffect : Call.Effect i c.state k s)
    (hr : ∀ x, r.session = some (me, did, x) → (c.role i).session = some (me, did, x) ∨
      makes me did x.gen (.call (M := machine) i c.state k out) = true) :
    Renewed me did (c.call i k out s r) := by
  have hev : (c.call i k out s r).events = c.events ++ [.call i c.state k out] := rfl
  obtain ⟨_, hleaves⟩ := call_leaves heffect
  obtain ⟨_, hcache, hblobs⟩ := hleaves me
  obtain ⟨_, hkept⟩ := keepsNatives_effect heffect me hnatives.below
  constructor
  · intro sid hsid
    obtain ⟨gen, hgen, hnewer⟩ := h.cache sid ((congrFun hcache did).symm.trans hsid)
    exact ⟨gen, hkept sid gen hgen, hnewer.snoc rfl⟩
  · intro blob hblob
    exact (h.blobs blob ((congrFun hblobs did).symm.trans hblob)).snoc rfl
  intro j x hj
  rw [hev]
  have hrole : (c.call i k out s r).role = Function.update c.role i r := rfl
  rcases role_cases hrole j with ⟨_, hj'⟩ | ⟨_, hj'⟩
  · rcases hr x (hj' ▸ hj) with hi | hmakes
    · exact (h.session i x hi).snoc rfl
    · exact newer_made rfl hmakes
  · exact (h.session j x (hj' ▸ hj)).snoc rfl

theorem session_call (hpre : CallPre i c k out r) {x : NewSession}
    (hr : r.session = some (me, did, x)) :
    (c.role i).session = some (me, did, x) ∨
      makes me did x.gen (.call (M := machine) i c.state k out) = true := by
  cases hpre with
  | quiet k out _ _ => exact .inl hr
  | heard me' did' p owner since out _ => cases owner <;> simp [Role.session] at hr
  | notMade me' did' remote p e _ => simp [Role.session] at hr
  | made me' did' remote p res _ =>
    cases hr
    exact .inr (by simp [makes])
  | shipped _ _ _ _ _ _ hi | lost _ _ _ _ _ _ hi => exact .inl (by rw [hi]; exact hr)

theorem timely_of_snoc {e : Event machine} (hev : c'.events = c.events ++ [e])
    (h : timely me did false c'.events = true) : timely me did false c.events = true ∧
      inTime me did (undecided me did c.events) e = true := by
  rw [hev, timely_snoc, Bool.and_eq_true] at h
  exact h

theorem keeps_renewed : script.Keeps fun c => (Decided me did c ∧ Natives me c) ∧
    (timely me did false c.events = true → Renewed me did c) := by
  refine (keeps_decided.both keeps_natives).and ?_ ?_ ?_ ?_ ?_
  · exact fun c _ hc htime => (hc htime).update (r := .plain) rfl rfl rfl
      fun x hx => absurd hx (by simp [Role.session])
  · intro i c o r _ hJ hc hpre htime
    obtain ⟨htime, hin⟩ := timely_of_snoc (op_events c i o r) htime
    by_cases hreset : resets me did (.op i c.state o) = true
    · rcases since_op hpre with ⟨_, hno⟩ | ⟨me', did', rfl, _, hinv, rfl⟩
      · cases hreset.symm.trans (hno me did)
      have heq : me' = me ∧ did' = did := by simpa [resets, resetOp] using hreset
      obtain ⟨rfl, rfl⟩ := heq
      exact .reset hJ.1 hinv hin
    · rw [Bool.not_eq_true] at hreset
      exact (hc htime).op hJ.2 hpre hreset hin
  · intro i c r _ _ hc hpre htime
    refine (hc htime).update rfl rfl rfl fun x hx => ?_
    cases hpre <;> simp [Role.session] at hx
  · intro i c k r _ _ hc hpre htime
    refine (hc htime).update rfl rfl rfl fun x hx => ?_
    cases hpre with
    | keep k => exact hx
    | join me' did' p g h s _ _ _ _ _ => simp [Role.session] at hx
  · intro i c k out reply s r _ hJ hc _ hpre hperf htime
    have hev : (c.call i k out s r).events = c.events ++ [.call i c.state k out] := rfl
    obtain ⟨htime, _⟩ := timely_of_snoc hev htime
    exact (hc htime).call hJ.2 (Call.effect hperf) fun x hx => session_call hpre hx

/-! ## Who waits after a reset -/

variable (me did) in
/-- The relay has accepted a `KeyExchange` that was made after the event number `g`. -/
def RelayedSince (s : State) (h : List (Event machine)) (g : Nat) : Prop :=
  ∃ gen, Relayed me s gen ∧ MadeSince me did h g gen

theorem RelayedSince.mono (hr : RelayedSince me did s h g)
    (hle : ∀ e ∈ s.accepted, e ∈ s'.accepted) :

    RelayedSince me did s' (h ++ [x]) g := by
  obtain ⟨gen, hrel, hmade⟩ := hr
  exact ⟨gen, hrel.mono hle, hmade.snoc⟩

variable (me did) in
/-- A handshake that is waited for after a reset restores no session, has nothing to restore while it
    asks for one, and ends well only with a `KeyExchange` that was made after the reset. -/
structure Answered (c : Conf) : Prop where
  apart : ∀ j k p sid o g, c.role j = .handshake me did p (.restored sid) →
    c.role k ≠ .waits me did p o (some g)
  empty : ∀ j k p o g, c.role j = .handshake me did p .asked → c.role k = .waits me did p o (some g) →
    (side c me).sendSessionByDid did = none ∧ (side c me).blobs did = none
  answered : ∀ j p o g sid, c.role j = .waits me did p o (some g) →
    (side c me).promises p = some (.ok sid) → RelayedSince me did c.state c.events g

theorem Answered.step (h : Answered me did c) (hrole : c'.role = update c.role i r)
    (hempty : ∀ j k p o g, c.role j = .handshake me did p .asked →
      c'.role j = .handshake me did p .asked → c.role k = .waits me did p o (some g) →
      (side c' me).sendSessionByDid did = none ∧ (side c' me).blobs did = none)
    (hanswered : ∀ j p o g sid, c.role j = .waits me did p o (some g) →
      (side c' me).promises p = some (.ok sid) → RelayedSince me did c'.state c'.events g)
    (hhandshake : ∀ p phase, r = .handshake me did p phase → phase = .asked ∨
      (∃ sid, phase = .restored sid) → r = c.role i ∨ ∀ k o g, c.role k ≠ .waits me did p o (some g))
    (hwaits : ∀ p o g, r = .waits me did p o (some g) → r = c.role i ∨
      ((∀ j q phase, c.role j = .handshake me did q phase → phase = .asked) ∧
        (side c' me).sendSessionByDid did = none ∧ (side c' me).blobs did = none ∧
        ∀ sid, (side c' me).promises p ≠ some (.ok sid))) : Answered me did c' := by
  constructor
  · intro j k p sid o g hj hk
    rcases role_cases hrole k with ⟨_, hk'⟩ | ⟨_, hk'⟩
    · rw [hk'] at hk
      rcases role_cases hrole j with ⟨_, hj'⟩ | ⟨_, hj'⟩
      · exact nomatch hk.symm.trans (hj'.symm.trans hj)
      rw [hj'] at hj
      rcases hwaits p o g hk with hi | ⟨hasked, _⟩
      · exact h.apart j i p sid o g hj (hi.symm.trans hk)
      · exact nomatch hasked j p _ hj
    · rw [hk'] at hk
      rcases role_cases hrole j with ⟨_, hj'⟩ | ⟨_, hj'⟩
      · rw [hj'] at hj
        rcases hhandshake p _ hj (.inr ⟨sid, rfl⟩) with hi | hno
        · exact h.apart i k p sid o g (hi.symm.trans hj) hk
        · exact hno k o g hk
      · exact h.apart j k p sid o g (hj' ▸ hj) hk
  · intro j k p o g hj hk
    rcases role_cases hrole k with ⟨_, hk'⟩ | ⟨_, hk'⟩
    · rw [hk'] at hk
      rcases hwaits p o g hk with hi | ⟨_, hcache, hblobs, _⟩
      · rcases role_cases hrole j with ⟨_, hj'⟩ | ⟨_, hj'⟩
        · exact nomatch hk.symm.trans (hj'.symm.trans hj)
        · exact hempty j i p o g (hj' ▸ hj) hj (hi.symm.trans hk)
      · exact ⟨hcache, hblobs⟩
    · rw [hk'] at hk
      rcases role_cases hrole j with ⟨hji, hj'⟩ | ⟨_, hj'⟩
      · rcases hhandshake p _ (hj'.symm.trans hj) (.inl rfl) with hi | hno
        · exact hempty i k p o g (hi.symm.trans (hj'.symm.trans hj)) (hji ▸ hj) hk
        · exact absurd hk (hno k o g)
      · exact hempty j k p o g (hj' ▸ hj) hj hk
  · intro j p o g sid hj hp
    rcases role_cases hrole j with ⟨_, hj'⟩ | ⟨_, hj'⟩
    · rw [hj'] at hj
      rcases hwaits p o g hj with hi | ⟨_, _, _, hno⟩
      · exact hanswered i p o g sid (hi.symm.trans hj) hp
      · exact absurd hp (hno sid)
    · exact hanswered j p o g sid (hj' ▸ hj) hp

variable (me) in
/-- What an operation does to a promise. -/
theorem promises_after (o : Op) (i : Nat) (c : Conf) (r : Role) (p : PromiseId) :
    (side (c.op i o r) me).promises p = (side c me).promises p ∨
      ∃ res, o = .client me (.send (.settle p res)) ∧
        (side (c.op i o r) me).promises p = some res := by
  rcases side_after me o i c r with heq | ⟨o', heq, ho⟩
  · rw [heq]
    exact .inl rfl
  rw [heq]
  cases o' with
  | settle p' res =>
    by_cases hp : p = p'
    · subst hp
      exact .inr ⟨res, ho.resolve_right (by simp), update_self ..⟩
    · exact .inl (update_of_ne hp _ _)
  | beginRestore did' =>
    refine .inl ?_
    simp only [SendOp.apply, SendSide.beginRestore]
    split <;> rfl
  | _ => exact .inl rfl

/-- A promise is settled by the task that runs its handshake, with the session that it has got. -/
theorem settled_of_op {res : Except Err Nat}
    (h : OpPre i c (.client me (.send (.settle p res))) r) :

    ∃ did phase, c.role i = .handshake me did p phase ∧
      (∀ sid, res = .ok sid → phase = .restored sid ∨ ∃ x, phase = .shipped x ∧ x.sid = sid) ∧
      ∀ j d, (c.role j).waitsFor = some (me, d, p) → d = did := by
  cases h with
  | neutral _ _ ho => exact absurd ho id
  | settle _ did p phase res hi hres _ _ hwaits => exact ⟨did, phase, hi, hres, hwaits⟩

/-- Nothing puts a session where a handshake after a reset looks for one. -/
theorem Answered.empty_op {k : Nat} (h : Answered me did c) (hpre : OpPre i c o r)
    (hin : inTime me did (undecided me did c.events) (.op i c.state o) = true)
    (hj : c.role j = .handshake me did p .asked)
    (hj' : (c.op i o r).role j = .handshake me did p .asked)
    (hk : c.role k = .waits me did p b (some g)) :
    (side (c.op i o r) me).sendSessionByDid did = none ∧ (side (c.op i o r) me).blobs did = none := by
  obtain ⟨hcache, hblobs⟩ := h.empty j k p b g hj hk
  constructor
  · rcases cache_after me did o i c r with heq | ⟨hnone, _⟩ | ⟨sid, _, rfl | rfl⟩
    · exact heq.trans hcache
    · exact hnone
    · have hcaches : caches me did (.op i c.state (.client me (.send (.setSession did sid)))) =
          true := by simp [caches]
      obtain ⟨q, x, hi, rfl, _, hno⟩ := cached_of_caches hpre hcaches
      by_cases hji : j = i
      · rw [hji, hi] at hj
        simp at hj
      · exact absurd (by rw [hj]; rfl) (hno j hji p)
    · have hstored : storedGen (State.client c.state me).send did = none :=
        congrArg (Option.map Session.gen) hblobs
      simp only [inTime, beq_self_eq_true, Bool.and_self, Bool.not_true, Bool.false_or,
        Bool.and_eq_true, beq_iff_eq] at hin
      rw [hin.2, hstored] at hin
      cases hin.1
  · rcases blobs_after me did o i c r with heq | hnone | ⟨sid, blob, _, rfl⟩
    · exact heq.trans hblobs
    · exact hnone
    have hcached : cachedGen (State.client c.state me).send did = none :=
      congrArg (fun x => Option.bind x (genOf (side c me))) hcache
    simp only [inTime, beq_self_eq_true, Bool.and_self, Bool.not_true, Bool.false_or,
      beq_iff_eq] at hin
    cases hcached.symm.trans hin

variable (me did) in
/-- What is known besides. -/
structure Background (c : Conf) : Prop where
  decided : Decided me did c
  natives : Natives me c
  relayed : ShippedRelayed me did c
  owed : Owed me did c
  renewed : timely me did false c.events = true → Renewed me did c

/-- A promise that is settled with success stands for a `KeyExchange` that was made after the reset. -/
theorem Answered.answered_op {sid : Nat} (h : Answered me did c) (hback : Background me did c)
    (hrenewed : Renewed me did c) (hpre : OpPre i c o r)
    (hj : c.role j = .waits me did p b (some g))
    (hp : (side (c.op i o r) me).promises p = some (.ok sid)) :
    RelayedSince me did (c.op i o r).state (c.op i o r).events g := by
  have hle : ∀ e ∈ State.accepted c.state, e ∈ State.accepted (c.op i o r).state := fun e he =>
    (accepted_op o i c.state).symm ▸ he
  rcases promises_after me o i c r p with heq | ⟨res, rfl, hres⟩
  · exact (h.answered j p b g sid hj (heq.symm.trans hp)).mono hle
  rw [hres, some.injEq] at hp
  obtain ⟨did', phase, hi, hphase, hwaits⟩ := settled_of_op hpre
  have hdid : did = did' := hwaits j did (by rw [hj]; rfl)
  subst hdid
  rcases hphase sid hp with rfl | ⟨x, rfl, _⟩
  · exact absurd hj (h.apart i j p sid b g hi)
  obtain ⟨e, he, hreset⟩ := hback.owed.reset j g (by rw [hj]; rfl)
  exact ⟨x.gen, (hback.relayed i p x hi).mono hle,
    (hrenewed.session i x (by rw [hi]; rfl) g e he hreset).snoc⟩

theorem Answered.op (h : Answered me did c) (hback : Background me did c)
    (hrenewed : Renewed me did c) (hpre : OpPre i c o r)
    (hin : inTime me did (undecided me did c.events) (.op i c.state o) = true) :
    Answered me did (c.op i o r) := by
  refine h.step (Config.op_role ..) (fun j k p b g => h.empty_op hpre hin)
    (fun j p b g sid => h.answered_op hback hrenewed hpre) (fun p phase hr hphase => ?_)
    fun p b g hr => ?_
  · rcases handshake_of_op hpre hr with hi | ⟨x, _, rfl, _⟩ | ⟨sid, hi, rfl, rfl⟩
    · exact .inl hi.symm
    · rcases hphase with hphase | ⟨_, hphase⟩
      · simp at hphase
      · simp at hphase
    refine .inr fun k b g hk => ?_
    -- there would be nothing to restore
    obtain ⟨_, hblobs⟩ := h.empty i k p b g hi hk
    have hstored : storedGen (State.client c.state me).send did = none :=
      congrArg (Option.map Session.gen) hblobs
    simp only [inTime, beq_self_eq_true, Bool.and_self, Bool.not_true, Bool.false_or,
      Bool.and_eq_true, beq_iff_eq] at hin
    rw [hin.2, hstored] at hin
    exact nomatch hin.1
  · cases hpre with
    | setInFlight me' did' p' since _ hp _ hasked hsince =>
      obtain ⟨rfl, rfl, rfl, rfl, rfl⟩ := Role.waits.inj hr
      have hself : side (c.op i (.client me' (.send (.setInFlight did' p')))
          (Role.waits me' did' p' true (some g))) me' =
            SendOp.apply i (.setInFlight did' p') (side c me') := side_op_self ..
      obtain ⟨hcache, hblobs⟩ := hsince rfl
      refine .inr ⟨fun j q phase hj => ?_, ?_, ?_, fun sid hsid => ?_⟩
      · have := hasked j q (by rw [hj]; rfl)
        rw [hj] at this
        exact (Role.handshake.inj this).2.2.2
      · rw [hself]
        exact hcache
      · rw [hself]
        exact hblobs
      · rw [hself] at hsid
        exact nomatch hp.symm.trans hsid
    | advance | neutral | persist | attempt | reconnect | delete => exact .inl rfl
    | _ => simp at hr

/-- A reset that joins a handshake in time: what it joins has no session yet, and will find none. -/
theorem Answered.join {q : PromiseId} (hans : Answered me did c) (hback : Background me did c)
    (hflight : (side c me).sendSessionInitInFlight did = some q)
    (hevents : c.events = h ++ [.op i s (resetOp me did)])
    (hstate : c.state = Op.apply i (resetOp me did) s)
    (htime : timely me did false c.events = true) :

    Answered me did (c.assign i (.waits me did q false (some g))) := by
  have hside : side c me = (State.client s me).send.resetSendSession did := by
    rw [side, hstate]
    exact congrArg Client.send (State.modify_client_self s me _)
  have hopen : undecided me did c.events = true := by
    rw [hevents, timely_snoc, Bool.and_eq_true] at htime
    have hin := htime.2
    simp only [inTime, resetOp, beq_self_eq_true, Bool.and_self, Bool.not_true, Bool.false_or,
      Bool.or_eq_true, beq_iff_eq] at hin
    rw [hevents, undecided_snoc]
    rw [hside] at hflight
    rcases hin with hnone | hopen
    · cases hnone.symm.trans hflight
    · simp only [watch, obtains, resetOp, Bool.not_false, Bool.and_true]
      exact hopen
  refine hans.step rfl (fun j k p b g hj _ hk => ?_)
    (fun j p b g sid => hans.answered j p b g sid) (fun p phase hr => by cases hr)
    fun p b g' hr => ?_
  · exact hans.empty j k p b g hj hk
  obtain ⟨_, _, rfl, _, _⟩ := Role.waits.inj hr
  refine .inr ⟨fun j p phase hj => hback.decided.running j p phase hj hopen, ?_, ?_, ?_⟩
  · change (side c me).sendSessionByDid did = none
    rw [hside]
    exact Function.update_self ..
  · change (side c me).blobs did = none
    rw [hside]
    exact Function.update_self ..
  · intro sid hsid
    exact absurd (hback.decided.settled q sid hflight hsid) (by simp [hopen])

theorem Answered.call (h : Answered me did c) (hpre : CallPre i c k out r)
    (heffect : Call.Effect i c.state k s) :
    Answered me did (c.call i k out s r) := by
  obtain ⟨_, hleaves⟩ := call_leaves heffect
  obtain ⟨_, hcache, hblobs⟩ := hleaves me
  have hpromises := (sameFlights_effect heffect me).2.1
  have hrole : (c.call i k out s r).role = update c.role i r := rfl
  refine h.step hrole (fun j k p b g hj _ hk => ?_)
    (fun j p b g sid hj hp => ?_) (fun p phase hr hphase => ?_) fun p b g hr => ?_
  · obtain ⟨hc, hb⟩ := h.empty j k p b g hj hk
    exact ⟨(congrFun hcache did).trans hc, (congrFun hblobs did).trans hb⟩
  · exact (h.answered j p b g sid hj ((congrFun hpromises p).symm.trans hp)).mono
      (accepted_effect heffect)
  · cases hpre with
    | quiet k out _ _ => exact .inl rfl
    | heard me' did' p' owner since out _ => cases owner <;> simp at hr
    | notMade me' did' remote p' e hi => exact .inl hi.symm
    | made me' did' remote p' res _ | shipped me' did' p' x e st _ _ _ _ _
    | lost me' did' p' x e err _ _ _ _ _ =>
      obtain ⟨_, _, _, rfl⟩ := Role.handshake.inj hr
      simp at hphase
  · cases hpre with
    | quiet k out _ _ => exact .inl rfl
    | heard me' did' p' owner since out _ => cases owner <;> simp at hr
    | _ => simp at hr

/-- A task takes a role in which it waits for nobody, or begins a handshake nobody waits for yet. -/
theorem Answered.update (h : Answered me did c) (hstate : c'.state = c.state)
    (hev : c'.events = c.events) (hrole : c'.role = update c.role i r)
    (hhandshake : ∀ p phase, r = .handshake me did p phase →
      r = c.role i ∨ ∀ k o g, c.role k ≠ .waits me did p o (some g))
    (hwaits : ∀ p o g, r = .waits me did p o (some g) → r = c.role i) : Answered me did c' := by
  have hside : side c' me = side c me := by rw [side, hstate, side]
  refine h.step hrole (fun j k p o g hj _ hk => ?_) (fun j p o g sid hj hp => ?_)
    (fun p phase hr _ => hhandshake p phase hr) fun p o g hr => .inl (hwaits p o g hr)
  · rw [hside]
    exact h.empty j k p o g hj hk
  · rw [hside] at hp
    rw [hstate, hev]
    exact h.answered j p o g sid hj hp

theorem keeps_background : script.Keeps (Background me did) := by
  have hkeeps : script.Keeps fun c => (((Decided me did c ∧ Natives me c) ∧
      (timely me did false c.events = true → Renewed me did c)) ∧ ShippedRelayed me did c) ∧
        Owed me did c := (keeps_renewed.both keeps_shippedRelayed).both keeps_owed
  refine hkeeps.congr fun c => ?_
  constructor
  · rintro ⟨⟨⟨⟨hdecided, hnatives⟩, hrenewed⟩, hrelayed⟩, howed⟩
    exact ⟨hdecided, hnatives, hrelayed, howed, hrenewed⟩
  · rintro ⟨hdecided, hnatives, hrelayed, howed, hrenewed⟩
    exact ⟨⟨⟨⟨hdecided, hnatives⟩, hrenewed⟩, hrelayed⟩, howed⟩

theorem keeps_answered : script.Keeps fun c => Background me did c ∧
    (timely me did false c.events = true → Answered me did c) := by
  refine keeps_background.and ?_ ?_ ?_ ?_ ?_
  · intro c _ hc htime
    exact (hc htime).update (r := .plain) rfl rfl rfl
      (fun _ _ hr => nomatch hr) fun _ _ _ hr => nomatch hr
  · intro i c o r _ hback hc hpre htime
    obtain ⟨htime, hin⟩ := timely_of_snoc (op_events c i o r) htime
    exact (hc htime).op hback (hback.renewed htime) hpre hin
  · intro i c r _ _ hc hpre htime
    refine (hc htime).update rfl rfl rfl (fun p phase hr => .inr ?_) fun p o g hr => ?_
    · intro k o g hk
      cases hpre with
      | program => simp at hr
      | handshake me' did' p' since _ _ hunheard _ =>
        obtain ⟨rfl, rfl, rfl, _⟩ := Role.handshake.inj hr
        exact hunheard k did' (by rw [hk]; rfl)
    · cases hpre <;> simp at hr
  · intro i c k r _ hback hc hpre htime
    cases hpre with
    | keep k =>
      rw [Config.assign_self]
      exact hc htime
    | join me' did' q g h s _ hflight hevents hstate _ =>
      by_cases heq : me' = me ∧ did' = did
      · obtain ⟨rfl, rfl⟩ := heq
        exact (hc htime).join hback hflight hevents hstate htime
      · refine (hc htime).update rfl rfl rfl (fun _ _ hr => nomatch hr) fun p o g' hr => ?_
        obtain ⟨rfl, rfl, _⟩ := Role.waits.inj hr
        exact absurd ⟨rfl, rfl⟩ heq
  · intro i c k out reply s r _ _ hc _ hpre hperf htime
    have hev : (c.call i k out s r).events = c.events ++ [.call i c.state k out] := rfl
    obtain ⟨htime, _⟩ := timely_of_snoc hev htime
    exact (hc htime).call hpre (Call.effect hperf)

/-! ## Recoveries -/

/-- The handshake that task `i` has waited for has given a session. -/
def answers (i : Nat) : Event machine → Bool
  | .call j _ (.promise _ _) (.ok _) => j == i
  | _ => false

theorem task_of_answers {e : Event machine} (h : answers i e = true) : e.task = i := by
  unfold answers at h
  split at h
  · exact beq_iff_eq.1 h
  · simp at h

variable (me did) in
/-- Whenever a task that has reset the session for `did` on the device `me` goes on with one, the relay
    has accepted a `KeyExchange` for a session that was initiated after the reset. -/
def Recovered (h : List (Event machine)) : Prop :=
  ∀ h1 e1 h2 e2 h3, h = h1 ++ e1 :: (h2 ++ e2 :: h3) → resets me did e1 = true →
    answers e1.task e2 = true → (∀ e ∈ h2, e.isCallOf e1.task = false) →
      ∃ gen, Relayed me e2.state gen ∧ ∃ e ∈ h2, makes me did gen e = true

variable (me did) in
/-- And from then on neither the cache nor the persisted blob holds a session that is older. -/
def Rehandshakes (s : State) (h : List (Event machine)) : Prop :=
  Recovered me did h ∧
    ∀ h1 e1 h2, h = h1 ++ e1 :: h2 → resets me did e1 = true →
      (∀ sid, (s.client me).send.sendSessionByDid did = some sid →
        ∃ gen, genOf (s.client me).send sid = some gen ∧ ∃ e ∈ h2, makes me did gen e = true) ∧
      ∀ blob, (s.client me).send.blobs did = some blob → ∃ e ∈ h2, makes me did blob.gen e = true

theorem Recovered.snoc (hr : Recovered me did h)
    (hx : ∀ h1 e1 h2, h = h1 ++ e1 :: h2 → resets me did e1 = true → answers e1.task x = true →
      (∀ e ∈ h2, e.isCallOf e1.task = false) →
        ∃ gen, Relayed me x.state gen ∧ ∃ e ∈ h2, makes me did gen e = true) :
    Recovered me did (h ++ [x]) := by
  intro h1 e1 h2 e2 h3 heq hreset hanswers hquiet
  rcases List.eq_nil_or_concat h3 with rfl | ⟨h3, y, rfl⟩
  · have hsplit : h ++ [x] = (h1 ++ e1 :: h2) ++ [e2] := by simpa using heq
    obtain ⟨rfl, hlast⟩ := List.append_inj' hsplit rfl
    obtain rfl : x = e2 := by simpa using hlast
    exact hx h1 e1 h2 rfl hreset hanswers hquiet
  · have hsplit : h ++ [x] = (h1 ++ e1 :: (h2 ++ e2 :: h3)) ++ [y] := by simpa using heq
    obtain ⟨rfl, _⟩ := List.append_inj' hsplit rfl
    exact hr h1 e1 h2 e2 h3 rfl hreset hanswers hquiet

/-- What comes after an event, by its number. -/
theorem drop_split (h1 h2 : List α) (e : α) :
    (h1 ++ e :: h2)[h1.length]? = some e ∧ (h1 ++ e :: h2).drop h1.length = e :: h2 := by
  simp

theorem MadeSince.after {h1 h2 : List (Event machine)} {e1 : Event machine}
    (hreset : resets me did e1 = true) (hm : MadeSince me did (h1 ++ e1 :: h2) h1.length gen) :
    ∃ e ∈ h2, makes me did gen e = true := by
  obtain ⟨e, he, hmakes⟩ := hm
  rw [(drop_split h1 h2 e1).2, List.mem_cons] at he
  rcases he with rfl | he
  · cases e with
    | op i s o => simp [makes] at hmakes
    | call i s k out => simp [resets] at hreset
  · exact ⟨e, he, hmakes⟩

theorem keeps_recovered : script.Keeps fun c => (Background me did c ∧
    (timely me did false c.events = true → Answered me did c)) ∧
      (timely me did false c.events = true → Recovered me did c.events) := by
  refine keeps_answered.and (fun c _ hc => hc) ?_ (fun i c r _ _ hc _ => hc)
    (fun i c k r _ _ hc _ => hc) ?_
  · intro i c o r _ _ hc _ htime
    obtain ⟨htime, _⟩ := timely_of_snoc (op_events c i o r) htime
    exact (hc htime).snoc fun h1 e1 h2 _ _ hanswers => absurd hanswers (by simp [answers])
  intro i c k out reply s r _ hJ hc _ hpre hperf htime
  have hev : (c.call i k out s r).events = c.events ++ [.call i c.state k out] := rfl
  obtain ⟨hbefore, _⟩ := timely_of_snoc hev htime
  refine (hc hbefore).snoc fun h1 e1 h2 hsplit hreset hanswers hquiet => ?_
  obtain ⟨hat, hdrop⟩ := drop_split h1 h2 e1
  -- the task has reset the session and heard of nothing since
  have hsince : (c.role e1.task).since = some (me, did, h1.length) := by
    refine hJ.1.owed.owed h1.length e1 (hsplit ▸ hat) hreset fun e he => hquiet e ?_
    rw [hsplit, ← List.drop_drop, hdrop] at he
    exact he
  rw [← task_of_answers hanswers] at hsince
  change (c.role i).since = _ at hsince
  cases hpre with
  | quiet k out _ hnone => exact nomatch hnone.symm.trans hsince
  | heard me' did' p owner since out hwaits =>
    rw [hwaits] at hsince
    obtain ⟨g, rfl⟩ : ∃ g, since = some g := by
      cases since with
      | none => simp [Role.since] at hsince
      | some g => exact ⟨g, rfl⟩
    cases hsince
    cases out with
    | error e => simp [answers] at hanswers
    | ok sid =>
      obtain ⟨_, hp⟩ := Call.perform_promise (i := i) (r := reply) hperf
      obtain ⟨gen, hrelayed, hmade⟩ :=
        (hJ.2 hbefore).answered i p owner h1.length sid hwaits hp
      rw [hsplit] at hmade
      exact ⟨gen, hrelayed, hmade.after hreset⟩
  | _ => simp [answers] at hanswers

end Device

/-! ## Every run -/

section Initial
variable (me did : Did) {s : State}

theorem background_initial (h : Launched s) : Background me did (script.initial s) where
  decided := ⟨fun _ _ _ hj => absurd hj (by simp [Script.initial, script]),
    fun p _ hp => nomatch (h me).inFlight did ▸ hp⟩
  natives := ⟨fun sid _ => (h me).sendNative sid,
    fun _ _ _ _ hj => absurd hj (by simp [Script.initial, script])⟩
  relayed := fun _ _ _ hj => absurd hj (by simp [Script.initial, script])
  owed := ⟨fun _ he => absurd he (by simp [Script.initial]),
    fun _ _ hj => absurd hj (by simp [Script.initial, script, Role.since]),
    fun _ _ he => absurd he (by simp [Script.initial])⟩
  renewed _ :=
    { cache := fun sid hsid => nomatch (h me).sendSessionByDid did ▸ hsid
      blobs := fun _ _ _ _ he => absurd he (by simp [Script.initial])
      session := fun _ _ hj => absurd hj (by simp [Script.initial, script, Role.session]) }

theorem answered_initial : Answered me did (script.initial s) where
  apart _ _ _ _ _ _ hj := absurd hj (by simp [Script.initial, script])
  empty _ _ _ _ _ hj := absurd hj (by simp [Script.initial, script])
  answered _ _ _ _ _ hj := absurd hj (by simp [Script.initial, script])

theorem recovered_nil : Recovered me did [] := fun _ _ _ _ _ h => absurd h (by simp)

end Initial

/-- **Recovery.** In a run whose steps are in time, whoever resets the session for a peer and goes on
    with one has had a new one announced, and the old ones are gone for good. -/
theorem rehandshakes_of_timely {w : Sys machine} {h : List (Event machine)}
    (hw : Traced prog Launched w h) (me did : Did) (htime : timely me did false h = true) :
    Rehandshakes me did w.state h := by
  obtain ⟨c, rfl, hstate, _, ⟨hback, _⟩, hrecovered⟩ := keeps_reach keeps_recovered
    (fun s hs => ⟨⟨background_initial me did hs, fun _ => answered_initial me did⟩,
      fun _ => recovered_nil me did⟩) hw
  refine ⟨hrecovered htime, fun h1 e1 h2 hsplit hreset => ?_⟩
  have hrenewed := hback.renewed htime
  have hnewer : ∀ gen, Newer me did c.events gen → ∃ e ∈ h2, makes me did gen e = true := by
    intro gen hnewer
    rw [hsplit] at hnewer
    exact (hnewer h1.length e1 (drop_split h1 h2 e1).1 hreset).after hreset
  rw [← hstate]
  constructor
  · intro sid hsid
    obtain ⟨gen, hgen, hn⟩ := hrenewed.cache sid hsid
    exact ⟨gen, hgen, hnewer gen hn⟩
  · intro blob hblob
    exact hnewer _ (hrenewed.blobs blob hblob)

/-- Alice sends Bob a message, and when that is over she reconnects. -/
theorem rehandshakes_of_timely_reconnect : ∃ (w : Sys machine) (h : List (Event machine)),
    Traced prog Launched w h ∧ h.countP (resets alice bob) = 1 ∧
      timely alice bob false h = true ∧ Rehandshakes alice bob w.state h := by
  have hw : ((Sys.idle (State.fresh 0)).trace prog []
      (List.flatten [[.start (.sendTextMessage alice bob "hi" 1)], handshakeTurns 1 2, okTurns 0 1,
        [.start (.reconnectSession alice bob)], handshakeTurns 3 2, okTurns 2 1])).map (fun p =>
          (p.2.countP (resets alice bob), timely alice bob false p.2)) = some (1, true) := by
    decide
  rw [map_eq_some_iff] at hw
  obtain ⟨p, hrun, hobs⟩ := hw
  simp only [Prod.mk.injEq] at hobs
  have htraced := Traced.of_trace (launched_fresh 0) hrun
  exact ⟨p.1, p.2, htraced, hobs.1, hobs.2, rehandshakes_of_timely htraced alice bob hobs.2⟩

theorem obtains_of_makes {me did : Did} {gen : Gen} {e : Event machine}
    (h : makes me did gen e = true) : obtains me did e = true := by
  unfold makes at h
  split at h
  · rename_i me' did' _ _
    simp only [Bool.and_eq_true] at h
    simp only [obtains, Bool.and_eq_true]
    exact h.1
  · simp at h

/-- A list around two of its elements. -/
theorem split_two {α : Type} {l : List α} {m n : Nat} {a b : α} (ha : l[m]? = some a)
    (hb : l[n]? = some b) (hlt : m < n) :
    l = l.take m ++ a :: ((l.take n).drop (m + 1) ++ b :: l.drop (n + 1)) := by
  obtain ⟨hn, rfl⟩ := List.getElem?_eq_some_iff.1 hb
  have htake : (l.take n)[m]? = some a := by rw [List.getElem?_take_of_lt hlt, ha]
  obtain ⟨hm, rfl⟩ := List.getElem?_eq_some_iff.1 htake
  calc l = l.take n ++ l.drop n := (List.take_append_drop n l).symm
    _ = l.take n ++ l[n] :: l.drop (n + 1) := by rw [List.drop_eq_getElem_cons hn]
    _ = ((l.take n).take m ++ (l.take n)[m] :: (l.take n).drop (m + 1)) ++ l[n] :: l.drop (n + 1) := by
      rw [← List.drop_eq_getElem_cons hm, List.take_append_drop]
    _ = _ := by simp [List.take_take, Nat.min_eq_left (Nat.le_of_lt hlt)]

/-- Alice reconnects while her first handshake with Bob ships its `KeyExchange`: she goes on with the
    session of that handshake, and nothing has been initiated since. -/
theorem not_rehandshakes : ¬ ∀ (w : Sys machine) (h : List (Event machine)),
    Traced prog Launched w h → ∀ me did, Rehandshakes me did w.state h := by
  intro hall
  have hw : ((Sys.idle (State.fresh 0)).trace prog []
      (List.flatten [[.start (.sendTextMessage alice bob "hi" 1)], okTurns 1 1,
        [.perform 1 (.response ⟨bob, "bob", "pk"⟩), .resume 1], okTurns 1 2,
        [.perform 1 (.stamped 1), .resume 1, .start (.reconnectSession alice bob),
          .perform 1 (.relayed .delivered), .resume 1], okTurns 1 2, okTurns 2 1])).map (fun p =>
            p.2[10]?.bind fun e1 => p.2[16]?.map fun e2 =>
              resets alice bob e1 && answers e1.task e2 &&
                ((p.2.take 16).drop 11).all fun e => !e.isCallOf e1.task && !obtains alice bob e) =
                  some (some true) := by
    decide
  rw [map_eq_some_iff] at hw
  obtain ⟨p, hrun, hobs⟩ := hw
  obtain ⟨e1, he1, hobs⟩ := bind_eq_some_iff.1 hobs
  obtain ⟨e2, he2, hobs⟩ := map_eq_some_iff.1 hobs
  simp only [Bool.and_eq_true, List.all_eq_true, Bool.not_eq_true'] at hobs
  obtain ⟨⟨hreset, hanswers⟩, hnone⟩ := hobs
  obtain ⟨gen, _, e, he, hmakes⟩ := (hall p.1 p.2 (.of_trace (launched_fresh 0) hrun) alice
    bob).1 _ e1 _ e2 _ (split_two he1 he2 (by decide)) hreset hanswers fun e he => (hnone e he).1
  exact absurd (obtains_of_makes hmakes) (by simp [(hnone e he).2])

end Handshakes
