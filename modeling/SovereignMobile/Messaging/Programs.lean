import SovereignMobile.Messaging.Outline

/-! # The programs meet the outline

Function by function: what it needs, what it returns, and that on the way it meets the obligations
of `spec`. A caller uses the lemma about its callee and never looks inside. -/

namespace Messaging

open EventLoop List Option
open NativeMessaging (deserializeSession getSessionInfo sealTextSigned)

variable {α β : Type} {i : Nat} {s : State} {me did : Did}

/-- Task `i` runs `m` from `s`; at the end it is in the middle of what it was in the middle of
    before, and `Q` holds. -/
def Does (i : Nat) (s : State) (m : Prog α) (Q : Except Err α → State → Prop) : Prop :=
  spec.Wp Cond.any i m (fun r s' => State.Rely i s s' ∧ Q r s') s

/-- Nothing is promised about an exception. -/
def onOk (P : α → State → Prop) : Except Err α → State → Prop
  | .ok a, s => P a s
  | .error _, _ => True

/-- There is no exception. -/
def total (P : α → State → Prop) : Except Err α → State → Prop
  | .ok a, s => P a s
  | .error _, _ => False

/-! ## Rules -/

theorem State.Rely.refl (i : Nat) (s : State) : State.Rely i s s := spec_sound.refl i s

variable {s1 : State} {o : ClientOp} {c : Call} {m : Prog α} {Q : Except Err α → State → Prop}
    {sid seq epoch acked : Nat} {body : Body} {id : MessageId} {e : Envelope} {L : Local}
    {pk : String} {ref : ArrayRef}

theorem State.Rely.trans {s2 s3 : State} (h : State.Rely i s1 s2) (h' : State.Rely i s2 s3) :
    State.Rely i s1 s3 :=
  spec_sound.trans i s1 s2 s3 h h'

theorem wp_self {f : Client → Prog β} {Q : Except Err β → State → Prop}
    (h : spec.Wp .any i (f (s.client me)) Q s) : spec.Wp .any i (self me >>= f) Q s := h

namespace Does

variable {m : Prog α} {Q Q1 : Except Err α → State → Prop} {f : α → Prog β} {P1 : α → State → Prop}

theorem mono {Q' : Except Err α → State → Prop} (h : Does i s m Q)
    (hQ : ∀ r s', s'.Inv → State.Rely i s s' → Q r s' → Q' r s') : Does i s m Q' :=
  Spec.Wp.mono h fun r s' hi hq => ⟨hq.1, hQ r s' hi hq.1 hq.2⟩

theorem pure {a : α} (hi : s.Inv) (h : Q (.ok a) s) : Does i s (Pure.pure a) Q :=
  Spec.Wp.pure hi ⟨.refl i s, h⟩

theorem throw {e : Err} (hi : s.Inv) (h : Q (.error e) s) :
    Does i s (Async.throw (M := machine) e) Q :=
  Spec.Wp.throw hi ⟨.refl i s, h⟩

/-- What is done from a later state. -/
theorem weaken {s' : State} (h : Does i s' m Q) (hr : State.Rely i s s') :
    spec.Wp .any i m (fun r s'' => State.Rely i s s'' ∧ Q r s'') s' :=
  .mono h fun _ _ _ hq => ⟨hr.trans hq.1, hq.2⟩

theorem bind {Q : Except Err β → State → Prop} (hm : Does i s m Q1)
    (hf : ∀ a s', s'.Inv → State.Rely i s s' → Q1 (.ok a) s' → Does i s' (f a) Q)
    (he : ∀ e s', Q1 (.error e) s' → Q (.error e) s') : Does i s (m >>= f) Q :=
  Spec.Wp.bind hm (fun a s' hi hq => (hf a s' hi hq.1 hq.2).weaken hq.1)
    fun e s' _ hq => ⟨hq.1, he e s' hq.2⟩

theorem andThen {P : β → State → Prop} (hm : Does i s m (onOk P1))
    (hf : ∀ a s', s'.Inv → State.Rely i s s' → P1 a s' → Does i s' (f a) (onOk P)) :
    Does i s (m >>= f) (onOk P) :=
  hm.bind hf fun _ _ _ => trivial

theorem totalThen {Q : Except Err β → State → Prop} (hm : Does i s m (total P1))
    (hf : ∀ a s', s'.Inv → State.Rely i s s' → P1 a s' → Does i s' (f a) Q) :
    Does i s (m >>= f) Q :=
  hm.bind hf fun _ _ h => h.elim

theorem ignore (hm : Does i s m Q) : Does i s m (onOk fun _ _ => True) :=
  hm.mono fun r _ _ _ _ => by cases r <;> exact trivial

theorem settle {f : Except Err α → Prog β} {Q : Except Err β → State → Prop} (hm : Does i s m Q1)
    (hf : ∀ r s', s'.Inv → State.Rely i s s' → Q1 r s' → Does i s' (f r) Q) :
    Does i s (Async.settle m f) Q :=
  Spec.Wp.settle hm fun r s' hi hq => (hf r s' hi hq.1 hq.2).weaken hq.1

/-- An outcome that is taken either way, and of which nothing has to be known afterwards. -/
theorem settleThen {γ : Type} {f : Except Err α → Prog β} {g : β → Prog γ} {P : γ → State → Prop}
    (hm : Does i s m Q1) (hf : ∀ r s', s'.Inv → State.Rely i s s' → Q1 r s' →
      Does i s' (f r) (onOk fun _ _ => True))
    (hg : ∀ b s', s'.Inv → State.Rely i s s' → Does i s' (g b) (onOk P)) :
    Does i s (Async.settle m f >>= g) (onOk P) :=
  (hm.settle hf).andThen fun b s' hi hr _ => hg b s' hi hr

theorem tryCatch {f : Err → Prog α} (hm : Does i s m Q1)
    (hok : ∀ a s', Q1 (.ok a) s' → Q (.ok a) s')
    (hf : ∀ e s', s'.Inv → State.Rely i s s' → Q1 (.error e) s' → Does i s' (f e) Q) :
    Does i s (Async.tryCatch m f) Q :=
  Spec.Wp.tryCatch hm (fun a s' _ hq => ⟨hq.1, hok a s' hq.2⟩)
    fun e s' hi hq => (hf e s' hi hq.1 hq.2).weaken hq.1

theorem self {f : Client → Prog β} {Q : Except Err β → State → Prop}
    (h : Does i s (f (s.client me)) Q) : Does i s (self me >>= f) Q :=
  wp_self h

theorem dateNow {f : Nat → Prog β} {Q : Except Err β → State → Prop}
    (h : Does i s (f s.now) Q) : Does i s (dateNow >>= f) Q := h

end Does

/-! ### Operations and calls that leave the own entries alone -/

def ClientOp.isQuiet : ClientOp → Bool
  | .send o => !o.isRestore
  | .recv (.dismiss _) => false
  | .pending (.bufferUndecryptable _) => true
  | .pending _ => false
  | .deliver _ _ => false
  | .recover _ _ _ => false
  | _ => true

theorem ClientOp.localOf_quiet (h : o.isQuiet = true) (c : Client) :
    (o.apply i c).localOf i = c.localOf i := by
  cases o with
  | send o =>
    have ho : o.isRestore = false := by simpa [ClientOp.isQuiet] using h
    simp only [Client.localOf, ClientOp.apply, SendOp.restoring_quiet ho]
  | recv o =>
    cases o with
    | dismiss e => simp [ClientOp.isQuiet] at h
    | _ => rfl
  | pending o =>
    cases o with
    | bufferUndecryptable e =>
      simp only [Client.localOf, ClientOp.apply, PendingOp.apply,
        PendingSide.bufferUndecryptable_drains]
    | _ => simp [ClientOp.isQuiet] at h
  | deliver | recover => simp [ClientOp.isQuiet] at h
  | _ => rfl

def Call.isQuiet : Call → Bool
  | .deserializeSession _ .send _ => false
  | .envelopeOpenVerifiedWithSession _ _ _ _ => false
  | _ => true

theorem Call.Effect.localOf_quiet {s' : State} (h : c.isQuiet = true) (he : Call.Effect i s c s') :
    ∀ me, (s'.client me).localOf i = (s.client me).localOf i := by
  cases he with
  | none | relayed => exact fun _ => rfl
  | initiated me did remote | text me sid body ses t hses
  | position me sid e ses _ => exact State.localOf_modifySend rfl
  | keyExchange me remote gen => exact fun _ => rfl
  | restored me blob | opened me sid e pk ses _ _ => simp [Call.isQuiet] at h
  | accepted | rekeyed => exact State.localOf_modifyRecv rfl

/-- The state after an operation of task `i`. -/
abbrev State.after (i : Nat) (me : Did) (o : ClientOp) (s : State) : State :=
  Op.apply i (.client me o) s

theorem wp_exec {Q : Except Err Unit → State → Prop} (hp : o.Pre i s me)
    (hQ : Q (.ok ()) (s.after i me o)) : spec.Wp .any i (exec me o) Q s :=
  .op fun _ => ⟨hp, fun _ => hQ⟩

theorem wp_call {Q : Except Err (Ret c) → State → Prop}
    (h : ∀ s1 : State, State.Rely i s s1 → s1.Inv → c.Pre i s1 ∧
      ∀ r (s2 : State) o, Call.perform i c r s1 = some (s2, o) →
        ∀ s3 : State, State.Rely i s2 s3 → Q o s3) :
    spec.Wp .any i (Async.await (M := machine) c) Q s := by
  refine .await fun s1 hr1 hi1 => ⟨(h s1 hr1 hi1).1, fun r s2 o hp _ _ s3 hr3 _ => ?_⟩
  exact (h s1 hr1 hi1).2 r s2 o hp s3 hr3

theorem wp_execThen {f : Unit → Prog β} {Q : Except Err β → State → Prop} (hp : o.Pre i s me)
    (hf : (s.after i me o).Inv → spec.Wp Cond.any i (f ()) Q (s.after i me o)) :
    spec.Wp .any i (exec me o >>= f) Q s := by
  have ho : spec.Wp .any i (exec me o) (total fun _ s' => s' = s.after i me o) s :=
    wp_exec hp rfl
  refine ho.bind ?_ fun _ _ _ h => h.elim
  intro _ s' hi he
  subst he
  exact hf hi

theorem rely_after (hq : o.isQuiet = true) : State.Rely i s (s.after i me o) where
  localOf := State.rel_modify (R := fun c c' => c'.localOf i = c.localOf i) (fun _ => rfl)
    (ClientOp.localOf_quiet hq _)
  grow := Op.grow i _ s

namespace Does

variable {o : ClientOp} {c : Call}

theorem exec {Q : Except Err Unit → State → Prop} (hq : o.isQuiet = true) (hp : o.Pre i s me)
    (hQ : Q (.ok ()) (s.after i me o)) : Does i s (exec me o) Q :=
  .op fun _ => ⟨hp, fun _ => ⟨rely_after hq, hQ⟩⟩

theorem execThen {f : Unit → Prog β} {Q : Except Err β → State → Prop} (hq : o.isQuiet = true)
    (hp : o.Pre i s me) (hf : (s.after i me o).Inv → State.Rely i s (s.after i me o) →
      Does i (s.after i me o) (f ()) Q) : Does i s (Messaging.exec me o >>= f) Q :=
  wp_execThen hp fun hi => (hf hi (rely_after hq)).weaken (rely_after hq)

theorem call {Q : Except Err (Ret c) → State → Prop} (hq : c.isQuiet = true)
    (hp : ∀ s1, State.Rely i s s1 → s1.Inv → c.Pre i s1)
    (hQ : ∀ s1 r s2 o s3, State.Rely i s s1 → s1.Inv → Call.perform i c r s1 = some (s2, o) →
      State.Rely i s2 s3 → Q o s3) : Does i s (Async.await (M := machine) c) Q := by
  refine wp_call fun s1 hr1 hi1 => ⟨hp s1 hr1 hi1, fun r s2 o hperf s3 hr3 => ?_⟩
  have he := Call.effect hperf
  have hr2 : State.Rely i s1 s2 := ⟨he.localOf_quiet hq, he.grow hi1⟩
  exact ⟨(State.Rely.trans hr1 hr2).trans hr3, hQ s1 r s2 o s3 hr1 hi1 hperf hr3⟩

theorem call_any (hq : c.isQuiet = true) (hp : ∀ s, c.Pre i s) :
    Does i s (Async.await (M := machine) c) (onOk fun _ _ => True) := by
  refine call hq (fun s1 _ _ => hp s1) fun s1 r s2 o s3 _ _ _ _ => ?_
  cases o <;> exact trivial

theorem spawn {m : Prog α} (hm : ∀ j, (∀ me, (s.client me).localOf j = Local.idle) →
      spec.Safe Cond.any j m.toTask s) :
    Does i s (Async.spawn m) (total fun _ _ => True) :=
  Spec.Wp.spawn hm fun _ hr _ => ⟨hr, trivial⟩

end Does

/-- A program that leaves its entries alone can be run as a task. -/
theorem Does.safe (h : Does i s m Q) (hidle : ∀ me, (s.client me).localOf i = Local.idle) :
    spec.Safe .any i m.toTask s :=
  Spec.Wp.toTask h fun _ _ _ hq me => (hq.1.localOf me).trans (hidle me)

theorem does_spawn (h : ∀ j, (∀ me, (s.client me).localOf j = Local.idle) → Does j s m Q) :
    Does i s (Async.spawn m) (total fun _ _ => True) :=
  .spawn fun j hj => (h j hj).safe hj

/-! ### In the middle of something -/

/-- From `s`, task `i` has come to be in the middle of `L` on the device `me`. -/
structure Within (i : Nat) (me : Did) (L : Local) (s s' : State) : Prop where
  own : (s'.client me).localOf i = L
  others : ∀ me', me' ≠ me → (s'.client me').localOf i = (s.client me').localOf i
  grow : s.Grow s'

namespace Within

variable {L L' : Local} {s1 s2 : State}

theorem refl (i : Nat) (me : Did) (s : State) : Within i me ((s.client me).localOf i) s s :=
  ⟨rfl, fun _ _ => rfl, .refl s⟩

theorem rely (h : Within i me L s s1) (hr : State.Rely i s1 s2) : Within i me L s s2 :=
  ⟨(hr.localOf me).trans h.own, fun me' hm => (hr.localOf me').trans (h.others me' hm),
    h.grow.trans hr.grow⟩

theorem toRely (h : Within i me ((s.client me).localOf i) s s1) : State.Rely i s s1 := by
  refine ⟨fun me' => ?_, h.grow⟩
  by_cases hm : me' = me
  · exact hm ▸ h.own
  · exact h.others me' hm

theorem modify {f : Client → Client} (h : Within i me L s s1)
    (hf : (f (s1.client me)).localOf i = L') (hg : s1.Grow (s1.modify me f)) :
    Within i me L' s (s1.modify me f) := by
  refine ⟨by rw [State.modify_client_self, hf], fun me' hm => ?_, h.grow.trans hg⟩
  rw [State.modify_client_ne s1 hm]
  exact h.others me' hm

variable {o : ClientOp}

theorem afterQuiet (h : Within i me L s s1) (hq : o.isQuiet = true) :
    Within i me L s (s1.after i me o) :=
  h.rely (rely_after hq)

theorem after (h : Within i me L s s1) (ho : (o.apply i (s1.client me)).localOf i = L') :
    Within i me L' s (s1.after i me o) :=
  h.modify ho (Op.grow i (.client me o) s1)

end Within

/-! ### Facts that are never taken back -/

namespace State.Rely

variable {s' : State} {sid : Nat} {e : Envelope}

theorem hasSession (hr : State.Rely i s s') (h : (s.client me).send.HasSession sid did) :
    (s'.client me).send.HasSession sid did :=
  h.mono (hr.grow.client me).sessions

theorem isSealed (hr : State.Rely i s s') (h : s.Sealed me did e) : s'.Sealed me did e :=
  ⟨hr.grow.sealed h.mem, h.sender, h.peer, h.text, h.unmarked⟩

theorem positionRead {info : SessionInfo} (hr : State.Rely i s s') (h : s.PositionRead me e info) :
    s'.PositionRead me e info :=
  (hr.grow.client me).positions h

theorem isOpened {seq epoch acked : Nat} (hr : State.Rely i s s')
    (h : s.Opened me did seq epoch acked) : s'.Opened me did seq epoch acked := by
  obtain ⟨a, ha, h'⟩ := h
  exact ⟨a, (hr.grow.client me).opened ha, h'⟩

end State.Rely

/-! ## Awaiting -/

theorem does_ofExcept {r : Except Err α} (hi : s.Inv) (h : Q r s) : Does i s (ofExcept r) Q := by
  cases r with
  | ok a => exact .pure hi h
  | error e => exact .throw hi h

theorem does_awaitFn (hm : Does i s m Q) (hQ : ∀ r s1 s2, State.Rely i s1 s2 → Q r s1 → Q r s2) :
    Does i s (awaitFn m) Q := by
  refine hm.settle fun r s' _ _ hq => ?_
  have ht : Does i s' tick (total fun _ s'' => Q r s'') := by
    refine .call rfl (fun _ _ _ => trivial) fun s1 r' s2 o s3 hr1 _ hp hr3 => ?_
    cases hp
    exact hQ r s' s3 (hr1.trans hr3) hq
  exact ht.totalThen fun _ s'' hi'' _ hq'' => does_ofExcept hi'' hq''

theorem does_awaitFn_any (hm : Does i s m (onOk fun _ _ => True)) :
    Does i s (awaitFn m) (onOk fun _ _ => True) :=
  does_awaitFn hm fun r _ _ _ h => by cases r <;> exact h

theorem does_awaitFn_total (hm : Does i s m (total fun _ _ => True)) :
    Does i s (awaitFn m) (total fun _ _ => True) :=
  does_awaitFn hm fun r _ _ _ h => by cases r <;> exact h

theorem does_caught {a : α} (hm : Does i s m (onOk fun _ _ => True)) :
    Does i s (Async.tryCatch m fun _ => Pure.pure a) (total fun _ _ => True) :=
  hm.tryCatch (fun _ _ h => h) fun _ _ hi _ _ => .pure hi trivial

/-- The result of `getOrInitSendSession(did, …)`. -/
abbrev SessionFor (me did : Did) : Nat → State → Prop :=
  fun sid s => (s.client me).send.HasSession sid did

theorem onOk_sessionFor (r : Except Err Nat) (s1 s2 : State) (hr : State.Rely i s1 s2)
    (h : onOk (SessionFor me did) r s1) : onOk (SessionFor me did) r s2 := by
  cases r with
  | ok sid => exact hr.hasSession h
  | error e => exact trivial

/-! ## Calls -/

theorem does_awaitPromise (p : PromiseId) :
    Does i s (awaitPromise me p) (onOk (SessionFor me p.did)) := by
  refine .call rfl (fun _ _ _ => trivial) fun s1 r s2 o s3 _ hi1 hp hr3 => ?_
  obtain ⟨rfl, ho⟩ := Call.perform_promise hp
  cases o with
  | ok sid => exact hr3.hasSession ((hi1 me).send.promised p sid ho)
  | error e => exact trivial

theorem does_initiateSession (remote : Did) :
    Does i s (NativeMessaging.initiateSession me did remote)
      (onOk fun r s' => SessionFor me did r.sessionId s') := by
  refine .call rfl (fun _ _ _ => trivial) fun s1 r s2 o s3 _ _ hp hr3 => ?_
  cases o with
  | ok v =>
    have h := Call.succeed_of_ok rfl hp
    cases h
    refine hr3.hasSession ?_
    simp only [State.initiateSession, State.modifySend, State.modify_client_self]
    exact SendSide.hasSession_addNative (s1.client me).send ⟨remote, ⟨me, did, s1.nextGen⟩, 0, 0, []⟩
  | error e => exact trivial

/-- Sealing: the session is one for `did`, and a marked body is a receipt for something opened. -/
theorem does_sealTextSigned (hs : SessionFor me did sid s)
    (hb : body.marked = true → ∃ seq epoch acked, body.payload = .receipt seq epoch acked ∧
      s.Opened me did seq epoch acked) :
    Does i s (sealTextSigned me sid body)
      (onOk fun e s' => body.marked = false → s'.Sealed me did e) := by
  refine .call rfl ?_ fun s1 r s2 o s3 hr1 _ hp hr3 => ?_
  · intro s1 hr1 _
    refine ⟨did, hr1.hasSession hs, fun hm => ?_⟩
    obtain ⟨seq, epoch, acked, hpay, ho⟩ := hb hm
    exact ⟨seq, epoch, acked, hpay, hr1.isOpened ho⟩
  cases o with
  | ok e =>
    have h := Call.succeed_of_ok rfl hp
    simp only [Call.succeed] at h
    split at h
    · rename_i t ses hses
      cases h
      obtain ⟨ses', hses', hpeer⟩ := hr1.hasSession hs
      rw [hses, some.injEq] at hses'
      exact fun hm => hr3.isSealed ⟨mem_append_right _ (mem_singleton.2 rfl), rfl,
        by rw [← hpeer, ← hses']; rfl, rfl, hm⟩
    · simp at h
  | error e => exact trivial

theorem does_getSessionInfo (e : Envelope) : Does i s (getSessionInfo me .send sid (some e))
      (onOk fun info s' => s'.PositionRead me e info) := by
  refine .call rfl (fun _ _ _ => trivial) fun s1 r s2 o s3 _ _ hp hr3 => ?_
  cases o with
  | ok info =>
    have h := Call.succeed_of_ok rfl hp
    simp only [Call.succeed, map_eq_some_iff] at h
    obtain ⟨ses, _, rfl, rfl⟩ := h
    refine hr3.positionRead ?_
    simp only [State.PositionRead, State.recordPosition, State.modifySend, State.modify_client_self]
    exact mem_append_right _ (mem_singleton.2 rfl)
  | error e => exact trivial

/-- A blob of an outbound session is of that session's generation. -/
theorem does_serializeSession (dir : SessionDir) (sid : Nat) :
    Does i s (NativeMessaging.serializeSession me dir sid)
      (onOk fun blob s' => dir = .send → ∃ ses, (s'.client me).send.native sid = some ses ∧
        blob.gen = ses.gen ∧ blob.remoteDid = ses.remoteDid) := by
  refine .call rfl (fun _ _ _ => trivial) fun s1 r s2 o s3 _ _ hp hr3 => ?_
  cases o with
  | ok blob =>
    have h := Call.succeed_of_ok rfl hp
    simp only [Call.succeed, map_eq_some_iff, Prod.mk.injEq] at h
    obtain ⟨ses, hses, rfl, rfl⟩ := h
    intro hd
    subst hd
    obtain ⟨ses', hses', hgen, hrem⟩ := (hr3.grow.client me).sessions sid ses hses
    exact ⟨ses', hses', hgen.symm, hrem.symm⟩
  | error e => exact trivial

/-! ## Outbound sessions -/

theorem does_sessionInit (recipient : String) :
    Does i s (sessionInit recipient) (onOk fun _ _ => True) :=
  .call_any rfl fun _ => trivial

theorem does_sendEnvelope (e : Envelope) : Does i s (sendEnvelope e) (onOk fun _ _ => True) :=
  .call_any rfl fun _ => trivial

theorem does_sessionInitByDid (did : Did) :
    Does i s (sessionInitByDid did) (onOk fun _ _ => True) := by
  refine (does_sessionInit did).tryCatch (fun _ _ h => h) fun e s1 hi1 _ _ => ?_
  split
  · have hf : Does i s1 (fetchIdentityRecord did) (onOk fun _ _ => True) :=
      .call_any rfl fun _ => trivial
    refine hf.andThen fun username s2 hi2 _ _ => ?_
    unfold sessionInitByHandle
    split
    · exact .throw hi2 trivial
    · exact does_sessionInit _
  · exact .throw hi1 trivial

theorem does_persistSession (dir : SessionDir) (hs : dir = .send → SessionFor me did sid s) :
    Does i s (persistSession me did dir sid) (total fun _ _ => True) := by
  refine does_caught ?_
  refine (does_serializeSession dir sid).andThen fun blob s1 _ hr1 hb => ?_
  cases dir with
  | send =>
    obtain ⟨ses, hses, hgen, hrem⟩ := hb rfl
    obtain ⟨ses', hses', hpeer⟩ := hr1.hasSession (hs rfl)
    rw [hses, some.injEq] at hses'
    exact .exec rfl ⟨ses, hses, hgen, hrem, by rw [hses', hpeer]⟩ trivial
  | recv => exact .exec rfl trivial trivial

theorem does_persistSend (hs : SessionFor me did sid s) :
    Does i s (awaitFn (persistSession me did .send sid)) (total fun _ _ => True) :=
  does_awaitFn_total (does_persistSession .send fun _ => hs)

theorem does_persistRecv (sid : Nat) :
    Does i s (awaitFn (persistSession me did .recv sid)) (total fun _ _ => True) :=
  does_awaitFn_total (does_persistSession .recv fun h => nomatch h)

/-- The result of `tryRestoreSession(did, 'send')`. -/
abbrev RestoredFor (me did : Did) : Option Nat → State → Prop :=
  fun r s => ∀ sid, r = some sid → SessionFor me did sid s

theorem total_restoredFor (r : Except Err (Option Nat)) (s1 s2 : State)
    (hr : State.Rely i s1 s2) (h : total (RestoredFor me did) r s1) :
    total (RestoredFor me did) r s2 := by
  cases r with
  | ok r => exact fun sid hs => hr.hasSession (h sid hs)
  | error e => exact h

theorem does_restoreSend {blob : Session} (hc : (s.client me).send.sendSessionByDid did = none)
    (hb : (s.client me).send.blobs did = some blob)
    (hl : ((s.client me).localOf i).restoring = []) :
    Does i s (restoreSend me did blob) (total (RestoredFor me did)) := by
  -- the entry of the restore, next to whatever else the task is in the middle of
  let L sid : Local := ((s.client me).localOf i).setRestoring [⟨i, did, blob, sid⟩]
  have hend : ∀ sid, (L sid).setRestoring [] = (s.client me).localOf i := by
    intro sid
    rw [← hl]
    rfl
  have hown : ∀ sid s', Within i me (L sid) s s' →
      ownBy Restore.task i (s'.client me).send.restoring = [⟨i, did, blob, sid⟩] :=
    fun sid s' h => congrArg Local.restoring h.own
  have hback : ∀ sid s' o, Within i me (L sid) s s' → (SendOp.apply i o (s'.client me).send).restoring =
      ((s'.client me).send.endRestore i).restoring → State.Rely i s (s'.after i me (.send o)) := by
    intro sid s' o h ho
    refine Within.toRely (h.after ?_)
    rw [ClientOp.apply, Client.localOf_send, ho, SendSide.endRestore, ownBy_drop_self, h.own, hend]
  have hpre : SendOp.Pre i (s.client me).send (.beginRestore did) := ⟨hc, ⟨blob, hb⟩, hl⟩
  have hbegin : Within i me (L none) s (s.after i me (.send (.beginRestore did))) := by
    refine (Within.refl i me s).after ?_
    rw [ClientOp.apply, Client.localOf_send]
    simp only [SendOp.apply, SendSide.beginRestore, hb]
    rw [ownBy_append, ownBy_singleton_self Restore.task (i := i) rfl]
    simp only [Client.localOf] at hl
    rw [hl]
    rfl
  have hopen : spec.Wp Cond.any i (deserializeSession me .send blob)
      (fun r s' => Within i me (L r.toOption) s s')
      (s.after i me (.send (.beginRestore did))) := by
    refine wp_call fun s2 hr2 hi2 => ?_
    have h2 := hbegin.rely hr2
    refine ⟨⟨did, hown none s2 h2⟩, fun r s3 o hperf s4 hr4 => ?_⟩
    rcases Call.perform_cases hperf with ⟨ht, _⟩ | ⟨e, rfl, rfl⟩ | ⟨v, rfl, hv⟩
    · simp [Call.isTurn] at ht
    · exact h2.rely hr4
    cases hv
    refine .rely (h2.modify ?_ (Call.Effect.grow hi2 (.restored me blob))) hr4
    rw [Client.localOf_send, SendSide.deserialize, ownBy_map_self Restore.task
      (fun r => { r with sid := some (s2.client me).send.nextNative }) (fun _ => rfl),
      hown none s2 h2, h2.own]
    rfl
  refine wp_execThen hpre fun _ => hopen.settle ?_
  intro r s2 hi2 h2
  cases r with
  | ok sid =>
    have hses : SessionFor me did sid s2 :=
      ((hi2 me).send.restoring _ (mem_of_ownBy (hown _ _ h2))).2 sid rfl
    refine wp_execThen ⟨blob, hown _ _ h2⟩ fun hi3 => ?_
    refine .pure hi3 ⟨hback _ _ _ h2 rfl, fun sid' hs => ?_⟩
    rw [some.injEq] at hs
    exact hs ▸ SendSide.HasSession.mono hses ((Op.grow i _ s2).client me).sessions
  | error e =>
    refine wp_execThen ⟨did, blob, hown _ _ h2⟩ fun hi3 => ?_
    exact .pure hi3 ⟨hback _ _ _ h2 rfl, fun sid hs => by cases hs⟩

theorem does_restoreRecv (blob : Session) :
    Does i s (restoreRecv me did blob) (total fun _ _ => True) := by
  have hd : Does i s (deserializeSession me .recv blob) (onOk fun _ _ => True) :=
    .call_any rfl fun _ => trivial
  refine hd.settle fun r s1 hi1 _ _ => ?_
  cases r with
  | ok sid => exact .execThen rfl trivial fun hi2 _ => .pure hi2 trivial
  | error e => exact .pure hi1 trivial

theorem does_tryRestoreSend (hi : s.Inv) (hc : (s.client me).send.sendSessionByDid did = none)
    (hl : ((s.client me).localOf i).restoring = []) :
    Does i s (tryRestoreSession me did .send) (total (RestoredFor me did)) := by
  refine .self ?_
  simp only
  split
  · exact .pure hi fun sid hs => nomatch hs
  · rename_i blob hb
    exact does_restoreSend hc hb hl

theorem does_tryRestoreRecv (hi : s.Inv) :
    Does i s (tryRestoreSession me did .recv) (total fun _ _ => True) := by
  refine .self ?_
  simp only
  split
  · exact .pure hi trivial
  · exact does_restoreRecv _

theorem does_firstContact (recipient : String) :
    Does i s (firstContact me did recipient) (onOk (SessionFor me did)) := by
  have hinit : Does i s (sessionInitFor recipient) (onOk fun _ _ => True) := by
    unfold sessionInitFor
    split
    · exact does_awaitFn_any (does_sessionInitByDid recipient)
    · exact does_sessionInit recipient
  refine hinit.andThen fun init s1 hi1 _ _ => ?_
  refine .execThen rfl trivial fun _ _ => ?_
  refine (does_initiateSession init.recipientDid).andThen fun r s2 hi2 _ hs2 => ?_
  refine .execThen rfl hs2 fun _ hr3 => ?_
  refine .andThen (.call_any rfl fun _ => trivial) fun kx s4 hi4 hr4 _ => ?_
  refine (does_sendEnvelope kx).andThen fun _ s5 hi5 hr5 _ => ?_
  have hs5 : SessionFor me did r.sessionId s5 := ((hr3.trans hr4).trans hr5).hasSession hs2
  refine (does_persistSend hs5).totalThen fun _ s6 hi6 hr6 _ => ?_
  exact .pure hi6 (hr6.hasSession hs5)

theorem does_initSendSession (hi : s.Inv) (hc : (s.client me).send.sendSessionByDid did = none)
    (hl : ((s.client me).localOf i).restoring = []) (recipient : String) :
    Does i s (initSendSession me did recipient) (onOk (SessionFor me did)) := by
  refine (does_awaitFn (does_tryRestoreSend hi hc hl) total_restoredFor).totalThen ?_
  intro restored s1 hi1 _ hr
  cases restored with
  | some sid => exact .pure hi1 (hr sid rfl)
  | none => exact does_firstContact recipient

theorem does_startInit (hc : (s.client me).send.sendSessionByDid did = none) (recipient : String)
    (n : Nat) : Does i s (startInit me did recipient ⟨did, n⟩) (onOk (SessionFor me did)) := by
  refine .execThen rfl trivial fun hi1 _ => ?_
  have hchild : ∀ j, (∀ me', ((s.after i me (.send .newPromise)).client me').localOf j =
      .idle) → Does j (s.after i me (.send .newPromise))
        (Async.settle (initSendSession me did recipient) fun r =>
          exec me (.send (.settle ⟨did, n⟩ r))) (total fun _ _ => True) := by
    intro j hj
    have hl : (((s.after i me (.send .newPromise)).client me).localOf j).restoring = [] := by
      rw [hj me]
      rfl
    have hc' : ((s.after i me (.send .newPromise)).client me).send.sendSessionByDid did = none := by
      simpa [Op.apply, ClientOp.apply, SendOp.apply] using hc
    refine (does_initSendSession hi1 hc' hl recipient).settle fun r s2 _ _ hr => ?_
    refine .exec rfl (fun sid hs => ?_) trivial
    subst hs
    exact hr
  refine (does_spawn hchild).totalThen fun _ s2 _ _ _ => ?_
  refine .execThen rfl rfl fun _ _ => ?_
  refine (does_awaitPromise ⟨did, n⟩).settle fun r s3 _ _ hr => ?_
  refine .execThen rfl trivial fun hi4 hr4 => ?_
  exact does_ofExcept hi4 (onOk_sessionFor r s3 _ hr4 hr)

theorem does_getOrInitSendSession (hi : s.Inv) (recipient : String) :
    Does i s (getOrInitSendSession me did recipient) (onOk (SessionFor me did)) := by
  refine .self ?_
  split
  · rename_i cached hc
    exact .pure hi ((hi me).send.cached did cached hc)
  rename_i hc
  split
  · rename_i p hp
    have hd : p.did = did := (hi me).send.inFlight did p hp
    exact hd ▸ does_awaitPromise p
  · exact does_startInit hc recipient _

theorem does_awaitGetOrInit (hi : s.Inv) (recipient : String) :
    Does i s (awaitFn (getOrInitSendSession me did recipient)) (onOk (SessionFor me did)) :=
  does_awaitFn (does_getOrInitSendSession hi recipient) onOk_sessionFor

theorem does_rehandshake : Does i s (rehandshake me did) (onOk fun _ _ => True) := by
  refine .execThen rfl trivial fun hi1 _ => ?_
  exact (does_awaitGetOrInit hi1 did).andThen fun _ s2 hi2 _ _ => .pure hi2 trivial

theorem does_recoverMissingSession (again : Bool) :
    Does i s (recoverMissingSession me did again) (total fun _ _ => True) := by
  refine .dateNow (.self (.execThen rfl rfl fun hi1 _ => ?_))
  split
  · exact .pure hi1 trivial
  · exact does_caught does_rehandshake

theorem does_reciprocate (hi : s.Inv) (hl : ((s.client me).localOf i).restoring = []) :
    Does i s (reciprocate me did) (total fun _ _ => True) := by
  refine .self ?_
  split
  · exact .pure hi trivial
  rename_i hc
  refine (does_awaitFn (does_tryRestoreSend hi hc hl) total_restoredFor).totalThen ?_
  intro restored s1 hi1 _ _
  cases restored with
  | some sid => exact .pure hi1 trivial
  | none =>
    refine does_caught ?_
    exact (does_awaitGetOrInit hi1 did).andThen fun _ s2 hi2 _ _ => .pure hi2 trivial

theorem does_completeHandshake (hi : s.Inv) (hl : ((s.client me).localOf i).restoring = [])
    (hadPriorInbound again : Bool) :
    Does i s (completeHandshake me did hadPriorInbound again) (total fun _ _ => True) := by
  unfold completeHandshake
  split
  · exact does_spawn fun j _ => does_recoverMissingSession again
  · exact does_reciprocate hi hl

theorem does_reconnectSession : Does i s (reconnectSession me did) (onOk fun _ _ => True) :=
  .dateNow (.execThen rfl trivial fun _ _ => does_rehandshake)

/-! ## Sending -/

theorem does_sealUnmarked (hs : SessionFor me did sid s) (hb : body.marked = false) :
    Does i s (sealTextSigned me sid body) (onOk fun e s' => s'.Sealed me did e) := by
  have hseal := does_sealTextSigned (i := i) hs fun h => nomatch h.symm.trans hb
  refine hseal.mono fun r _ _ _ hq => ?_
  cases r with
  | ok e => exact hq hb
  | error err => exact trivial

theorem does_sendTextMessageNative (hi : s.Inv) (text : String) (random : Nat) :
    Does i s (sendTextMessageNative me did text random) (onOk fun _ _ => True) := by
  refine .self ?_
  refine (does_awaitGetOrInit hi _).andThen fun sid s1 _ _ hs1 => ?_
  refine (does_sealUnmarked hs1 rfl).andThen fun e s2 _ hr2 he2 => ?_
  refine (does_sendEnvelope e).settleThen (fun r s3 hi3 _ _ => ?_) fun status s3 _ hr3 => ?_
  · cases r <;> exact .pure hi3 trivial
  refine (does_getSessionInfo e).andThen fun info s4 _ hr4 hp4 => ?_
  have hs4 : SessionFor me did sid s4 := ((hr2.trans hr3).trans hr4).hasSession hs1
  refine (does_persistSend hs4).totalThen fun _ s5 _ hr5 _ => ?_
  refine .dateNow (.exec rfl ?_ trivial)
  exact ⟨_, _, _, info, status, e, rfl, rfl, hr5.positionRead hp4,
    ((hr3.trans hr4).trans hr5).isSealed he2⟩

theorem does_shipReadReceipt (hi : s.Inv) (ho : s.Opened me did seq epoch acked) :
    Does i s (shipReadReceipt me did seq epoch acked) (total fun _ _ => True) := by
  refine does_caught ?_
  refine (does_awaitGetOrInit hi did).andThen fun sid s1 _ hr1 hs1 => ?_
  refine .andThen (does_sealTextSigned hs1 fun _ =>
    ⟨seq, epoch, acked, rfl, hr1.isOpened ho⟩) fun e s2 _ hr2 _ => ?_
  refine (does_sendEnvelope e).andThen fun _ s3 _ hr3 _ => ?_
  exact (does_persistSend ((hr2.trans hr3).hasSession hs1)).ignore

theorem does_updateStatus {status : MessageStatus}
    (hid : ∃ now random, id = .sentLocally now random) :
    Does i s (exec me (.store (.updateMessageStatus did id status none))) (total fun _ _ => True) :=
  .exec rfl ⟨hid, fun p hp => nomatch hp⟩ trivial

theorem does_resendBody (hi : s.Inv) (recipient : String)
    (hid : ∃ now random, id = .sentLocally now random) (hb : body.marked = false) :
    Does i s (resendBody me did id recipient body) (onOk fun _ _ => True) := by
  refine (does_awaitGetOrInit hi recipient).andThen fun sid s1 _ _ hs1 => ?_
  refine (does_sealUnmarked hs1 hb).andThen fun e s2 _ hr2 he2 => ?_
  refine (does_sendEnvelope e).settleThen (fun r s3 hi3 _ _ => ?_) fun status s3 _ hr3 => ?_
  · cases r with
    | ok status => exact .pure hi3 trivial
    | error err =>
      exact (does_updateStatus hid).totalThen fun _ s4 hi4 _ _ => .throw hi4 trivial
  refine (does_getSessionInfo e).andThen fun info s4 _ hr4 hp4 => ?_
  have hs4 : SessionFor me did sid s4 := ((hr2.trans hr3).trans hr4).hasSession hs1
  refine (does_persistSend hs4).totalThen fun _ s5 _ hr5 _ => ?_
  refine .exec rfl ⟨hid, fun p hp => ?_⟩ trivial
  rw [some.injEq] at hp
  subst hp
  exact ⟨info, hr5.positionRead hp4, rfl, rfl, ((hr3.trans hr4).trans hr5).isSealed he2⟩

theorem does_resendMessage (hi : s.Inv) (id : MessageId) :
    Does i s (resendMessage me did id) (onOk fun _ _ => True) := by
  refine .self ?_
  split
  · exact .throw hi trivial
  rename_i msg hfind
  split
  · exact .throw hi trivial
  rename_i hdir
  split
  · exact .throw hi trivial
  have hmem := mem_of_find?_eq_some hfind
  have hmid : msg.id = id := by simpa using find?_some hfind
  obtain ⟨hid, _, _, hbody⟩ := ((hi me).store did msg hmem).isSent_of_direction
    (by simpa using hdir)
  rw [hmid] at hid
  refine (does_updateStatus hid).totalThen fun _ s1 hi1 _ _ => ?_
  refine (does_resendBody hi1 _ hid hbody).tryCatch (fun _ _ h => h) fun err s2 _ _ _ => ?_
  exact (does_updateStatus hid).totalThen fun _ s3 hi3 _ _ => .throw hi3 trivial

/-! ## Ingest, as far as it does not open anything -/

theorem does_ensureContactCached (hi : s.Inv) :
    Does i s (ensureContactCached me did) (total fun _ _ => True) := by
  refine .self ?_
  split
  · exact .pure hi trivial
  refine does_caught ?_
  refine (does_awaitFn_any (does_sessionInitByDid did)).andThen fun r s1 _ _ _ => ?_
  exact .execThen rfl trivial fun hi2 _ => .pure hi2 trivial

theorem does_cachedPeerPk (hi : s.Inv) :
    Does i s (cachedPeerPk me did) (total fun _ _ => True) := by
  refine .self ?_
  split
  · exact .pure hi trivial
  · refine (does_awaitFn_total (does_ensureContactCached hi)).totalThen fun _ s1 hi1 _ _ => ?_
    exact .self (.pure hi1 trivial)

theorem does_recvSession (hi : s.Inv) : Does i s (recvSession me did) (total fun _ _ => True) := by
  refine .self ?_
  split
  · exact .pure hi trivial
  · exact does_awaitFn_total (does_tryRestoreRecv hi)

theorem Store.exists_placeholder (c : Store) (e : Envelope) :
    ∃ m ∈ (c.appendUndecryptablePlaceholder e).messagesByConversation e.senderDid,
      m.id = e.placeholderId := by
  unfold Store.appendUndecryptablePlaceholder
  split
  · rename_i h
    obtain ⟨m, hm, hid⟩ := any_eq_true.1 h
    exact ⟨m, hm, by simpa using hid⟩
  · refine ⟨e.placeholder, ?_, rfl⟩
    rw [Store.appendMessage_messages, Function.update_self]
    exact mem_append_right _ (mem_singleton.2 rfl)

theorem does_undecryptable (ht : e.contentType = .text) (again : Bool) :
    Does i s (undecryptable me e again) (total fun _ _ => True) := by
  refine .execThen rfl trivial fun _ _ => ?_
  refine .execThen rfl ht fun _ _ => ?_
  refine .execThen rfl ⟨ht, fun e' he => ?_⟩ fun _ _ => ?_
  · cases he
    simp only [Op.apply, State.modify_client_self]
    exact Store.exists_placeholder _ e
  · exact does_spawn fun j _ => does_recoverMissingSession again

theorem does_prepareEnvelope (e : Envelope) :
    Does i s (prepareEnvelope e) (total fun _ _ => True) := by
  refine does_caught ?_
  have hh : Does i s (NativeMessaging.envelopeFromHex e) (onOk fun _ _ => True) :=
    .call_any rfl fun _ => trivial
  refine hh.andThen fun _ s1 _ _ _ => ?_
  have hd : Does i s1 (NativeMessaging.envelopeDescribe e) (onOk fun _ _ => True) :=
    .call_any rfl fun _ => trivial
  exact hd.andThen fun _ s2 hi2 _ _ => .pure hi2 trivial

theorem does_prepareAll (es : List Envelope) : ∀ {s : State}, s.Inv →
    Does i s (prepareAll es) (total fun _ _ => True) := by
  induction es with
  | nil => exact fun hi => .pure hi trivial
  | cons e es ih =>
    intro s _
    refine (does_prepareEnvelope e).totalThen fun _ s1 hi1 _ _ => ?_
    exact (ih hi1).totalThen fun _ s2 hi2 _ _ => .pure hi2 trivial

/-! ## Opening -/

/-- After an attempt to open `e` by a task that was in the middle of `L`. -/
def OpenPost (i : Nat) (me : Did) (e : Envelope) (L : Local) (s : State) :
    Except Err Body → State → Prop
  | .ok body, s' => body = e.body ∧ e ∈ (s'.client me).recv.opened ∧
      Within i me (L.setUnsettled [(i, e)]) s s'
  | .error _, s' => Within i me L s s'

theorem wp_open (h : Within i me L s s1) (hl : L.unsettled = []) :
    spec.Wp Cond.any i (NativeMessaging.envelopeOpenVerifiedWithSession me sid e pk)
      (OpenPost i me e L s) s1 := by
  refine wp_call fun s2 hr2 hi2 => ?_
  have h2 := h.rely hr2
  have hown : ((s2.client me).localOf i).unsettled = [] := by rw [h2.own, hl]
  refine ⟨hown, fun r s3 o hperf s4 hr4 => ?_⟩
  rcases Call.perform_cases hperf with ⟨ht, _⟩ | ⟨err, rfl, rfl⟩ | ⟨v, rfl, hv⟩
  · simp [Call.isTurn] at ht
  · exact h2.rely hr4
  simp only [Call.succeed] at hv
  split at hv
  · simp at hv
  rename_i ses hses
  split at hv
  · rename_i hc
    cases hv
    refine ⟨rfl, (hr4.grow.client me).opened ?_, .rely (h2.modify ?_
      (Call.Effect.grow hi2 (.opened me sid e pk ses hses hc))) hr4⟩
    · simp only [State.modifyRecv, State.modify_client_self]
      exact mem_append_right _ (mem_singleton.2 rfl)
    rw [Client.localOf_recv, ← h2.own]
    simp only [Client.localOf] at hown
    simp only [RecvSide.openEnvelope]
    rw [ownBy_append, hown, ownBy_singleton_self Prod.fst (i := i) rfl]
    rfl
  · simp at hv

theorem does_confirmReceipt (hi : s.Inv) {payload : Payload}
    (hp : ∀ seq epoch acked, payload = .receipt seq epoch acked →
      s.ReceiptOpened me did seq epoch acked) :
    Does i s (confirmReceipt me did payload) (total fun _ _ => True) := by
  unfold confirmReceipt
  split
  · exact .exec rfl (hp _ _ _ rfl) trivial
  · exact .pure hi trivial

/-- What was opened stays opened, so its receipt may be shipped and its contents used. -/
theorem opened_of_mem (h : e ∈ (s.client me).recv.opened) (hm : e.body.marked = false) :
    s.Opened me e.senderDid e.sequence e.epoch e.uid :=
  ⟨e, h, rfl, rfl, rfl, rfl, hm⟩

theorem receiptOpened_of_mem (h : e ∈ (s.client me).recv.opened)
    (hp : e.body.payload = .receipt seq epoch acked)
    (hm : e.contentType = .text → e.body.marked = true) :
    s.ReceiptOpened me e.senderDid seq epoch acked :=
  ⟨e, h, rfl, hp, hm⟩

/-- The end of an opening: the entry of the opened envelope is gone again. -/
theorem Within.settled (h : Within i me (((s.client me).localOf i).setUnsettled [(i, e)]) s s1)
    (hl : ((s.client me).localOf i).unsettled = []) (ho : (o.apply i (s1.client me)).localOf i =
      ((s1.client me).localOf i).setUnsettled (ownBy Prod.fst i ((s1.client me).recv.settle i).unsettled))
    :
    State.Rely i s (s1.after i me o) := by
  refine Within.toRely (h.after ?_)
  rw [ho, h.own, RecvSide.settle, ownBy_drop_self, ← hl]
  rfl

theorem wp_textOpened (ht : e.contentType = .text) (hl : ((s.client me).localOf i).unsettled = [])
    (h : OpenPost i me e ((s.client me).localOf i) s (.ok body) s1) :
    spec.Wp Cond.any i (textOpened me e sid body)
      (fun r s' => State.Rely i s s' ∧ total (fun _ _ => True) r s') s1 := by
  obtain ⟨rfl, hmem, hw⟩ := h
  refine wp_execThen trivial fun _ => ?_
  have hr2 : State.Rely i s1 (s1.after i me (.health (.setDesynced e.senderDid false))) :=
    rely_after rfl
  have hw2 := hw.rely hr2
  have hmem2 := (hr2.grow.client me).opened hmem
  have hown := congrArg Local.unsettled hw2.own
  split
  · rename_i hm
    refine wp_execThen ⟨hown, fun _ => hm⟩ fun _ => ?_
    have hr3 := hw2.settled (o := .recv (.dismiss e)) hl rfl
    have hmem3 := ((Op.grow i (.client me (.recv (.dismiss e))) _).client me).opened hmem2
    refine Does.weaken ?_ hr3
    refine (does_persistRecv sid).totalThen fun _ s4 hi4 hr4 _ => ?_
    refine does_confirmReceipt hi4 fun seq epoch acked hp => ?_
    exact receiptOpened_of_mem ((hr4.grow.client me).opened hmem3) hp fun _ => hm
  · rename_i hm
    refine wp_execThen ⟨e, hown, ht, by simpa using hm, rfl, rfl⟩ fun _ => ?_
    have hr3 := hw2.settled (o := .deliver e.senderDid (e.receivedRow e.body)) hl rfl
    have hmem3 := ((Op.grow i (.client me (.deliver e.senderDid (e.receivedRow e.body)))
      _).client me).opened hmem2
    refine Does.weaken ?_ hr3
    refine (does_persistRecv sid).totalThen fun _ s4 hi4 hr4 _ => ?_
    exact does_spawn fun j _ =>
      does_shipReadReceipt hi4 (opened_of_mem ((hr4.grow.client me).opened hmem3) (by simpa using hm))

theorem does_openText {again : Bool} (ht : e.contentType = .text)
    (hl : ((s.client me).localOf i).unsettled = []) :
    Does i s (openText me e sid pk again) (total fun _ _ => True) := by
  have hinfo : Does i s (getSessionInfo me .recv sid none)
      (onOk fun _ _ => True) := .call_any rfl fun _ => trivial
  refine hinfo.settle fun r s1 hi1 hr1 _ => ?_
  have hl1 : ((s1.client me).localOf i).unsettled = [] := by rw [hr1.localOf me, hl]
  cases r with
  | error err => exact .pure hi1 trivial
  | ok info =>
    refine Spec.Wp.settle (wp_open (Within.refl i me s1) hl1) fun r s2 hi2 h2 => ?_
    cases r with
    | error err => exact (does_undecryptable ht again).weaken (Within.toRely h2)
    | ok body => exact wp_textOpened ht hl1 h2

theorem does_openReadReceipt (ht : e.contentType ≠ .text)
    (hl : ((s.client me).localOf i).unsettled = []) :
    Does i s (openReadReceipt me e sid pk) (onOk fun _ _ => True) := by
  refine Spec.Wp.bind (wp_open (Within.refl i me s) hl) ?_ fun _ _ _ h => ⟨Within.toRely h, trivial⟩
  intro body s1 _ h1
  obtain ⟨rfl, hmem, hw⟩ := h1
  refine wp_execThen ⟨congrArg Local.unsettled hw.own, fun h => absurd h ht⟩ fun _ => ?_
  have hr2 := hw.settled (o := .recv (.dismiss e)) hl rfl
  have hmem2 := ((Op.grow i (.client me (.recv (.dismiss e))) s1).client me).opened hmem
  refine Does.weaken ?_ hr2
  refine (does_persistRecv sid).totalThen fun _ s3 hi3 hr3 _ => ?_
  split
  · exact .pure hi3 trivial
  · refine .ignore (does_confirmReceipt hi3 fun seq epoch acked hp => ?_)
    exact receiptOpened_of_mem ((hr3.grow.client me).opened hmem2) hp fun h => absurd h ht

/-! ## Draining -/

/-- One buffered entry was opened by a drain that was in the middle of `d`. -/
theorem wp_drainOpened {item : PendingDecrypt} {d : Drain} (hd : L.drains = [d])
    (hdid : d.did = did) (hcur : d.current = some item) (hu : L.unsettled = []) (hok : item.Ok did)
    (hi1 : s1.Inv) (h : OpenPost i me item.envelope L s (.ok body) s1) :
    spec.Wp Cond.any i (drainOpened me did sid item body)
      (total fun _ s' => Within i me (L.setDrains [d.drop]) s s') s1 := by
  obtain ⟨rfl, hmem, hw⟩ := h
  have hsender : item.envelope.senderDid = did := hok.2.1
  -- the entry of the drain moves on, and that of the opened envelope is gone
  have hrec : ∀ s2 next, Within i me (L.setUnsettled [(i, item.envelope)]) s s2 →
      Within i me (L.setDrains [d.drop]) s (s2.after i me (.recover did item next)) := by
    intro s2 next h2
    refine h2.after ?_
    have hdr : ownBy Drain.task i (s2.client me).pending.drains = [d] := by
      rw [← hd]
      exact congrArg Local.drains h2.own
    simp only [ClientOp.apply, Client.recover, Client.localOf, PendingSide.modifyDrain,
      RecvSide.settle]
    rw [ownBy_drop_self, ownBy_map_self Drain.task Drain.drop (fun _ => rfl), hdr, ← hu]
    exact congrArg (fun r => Local.mk r [d.drop] L.unsettled) (congrArg Local.restoring h2.own)
  have hpre : ∀ s2 next, Within i me (L.setUnsettled [(i, item.envelope)]) s s2 →
      next = (if item.envelope.body.marked then none
        else some (item.envelope.receivedRow item.envelope.body)) →
      ClientOp.Pre i s2 me (.recover did item next) := by
    intro s2 next h2 hn
    exact ⟨d, (congrArg Local.drains h2.own).trans hd, hdid, hcur,
      congrArg Local.unsettled h2.own, hok, hn⟩
  unfold drainOpened
  split
  · rename_i hm
    have hconf : Does i s1 (confirmReceipt me did item.envelope.body.payload)
        (total fun _ _ => True) := does_confirmReceipt hi1 fun seq epoch acked hp =>
      hsender ▸ receiptOpened_of_mem hmem hp fun _ => hm
    refine .bind hconf ?_ fun _ _ _ hf => hf.2.elim
    intro _ s2 _ hr2
    have h2 := hw.rely hr2.1
    refine wp_execThen (hpre s2 none h2 (by rw [if_pos hm])) fun _ => ?_
    have h3 := hrec s2 none h2
    refine wp_execThen trivial fun _ => ?_
    have h4 := h3.afterQuiet (o := .health (.setDesynced did false)) rfl
    refine .mono (does_persistRecv sid) fun r s5 _ hq => ?_
    cases r with
    | ok _ => exact h4.rely hq.1
    | error _ => exact hq.2.elim
  · rename_i hm
    refine wp_execThen (hpre s1 _ hw (by rw [if_neg hm])) fun _ => ?_
    have h3 := hrec s1 (some (item.envelope.receivedRow item.envelope.body)) hw
    refine wp_execThen trivial fun _ => ?_
    have h4 := h3.afterQuiet (o := .health (.setDesynced did false)) rfl
    refine .bind (does_persistRecv sid) ?_ fun _ _ _ hf => hf.2.elim
    intro _ s5 hi5 hr5
    have h5 := h4.rely hr5.1
    have hmem5 : item.envelope ∈ (State.client s5 me).recv.opened :=
      (hr5.1.grow.client me).opened (((Op.grow i _ _).client me).opened
        (((Op.grow i _ _).client me).opened hmem))
    have hship : Does i s5 (Async.spawn (shipReadReceipt me did item.envelope.sequence
        item.envelope.epoch item.envelope.uid)) (total fun _ _ => True) :=
      does_spawn fun j _ =>
        does_shipReadReceipt hi5 (hsender ▸ opened_of_mem hmem5 (by simpa using hm))
    refine .mono hship fun r s6 _ hq => ?_
    cases r with
    | ok _ => exact h5.rely hq.1
    | error _ => exact hq.2.elim

/-- The entry of a drain of `did` that has finished `taken` entries of the array at `ref`. -/
abbrev drainAt (i : Nat) (did : Did) (ref : ArrayRef) (taken : Nat)
    (remaining : List PendingDecrypt) : Drain :=
  ⟨i, did, ref, taken, remaining, none⟩

/-- The last step of a drain. -/
theorem wp_setPending {taken : Nat} {remaining : List PendingDecrypt}
    (hl : ((s.client me).localOf i).drains = [])
    (h : Within i me (((s.client me).localOf i).setDrains [drainAt i did ref taken remaining]) s s1)
    (hend : ((s1.client me).pending.heap ref).length ≤ taken)
    (hlen : remaining.length ≤ PENDING_DECRYPT_LIMIT_PER_PEER) (hok : ∀ p ∈ remaining, p.Ok did) :
    spec.Wp Cond.any i (exec me (.pending (.setPending did remaining)))
      (fun r s' => State.Rely i s s' ∧ total (fun _ _ => True) r s') s1 := by
  refine wp_exec ⟨⟨ref, taken, congrArg Local.drains h.own, hend, hlen, hok⟩,
    fun e he => nomatch he⟩ ⟨Within.toRely (h.after ?_), trivial⟩
  rw [ClientOp.apply, Client.localOf_pending]
  simp only [PendingOp.apply]
  rw [PendingSide.setPending_drains, PendingSide.endDrain, ownBy_drop_self, h.own, ← hl]
  rfl

theorem wp_drainLoop (href : ref.did = did) (hl : ((s.client me).localOf i).drains = [])
    (hu : ((s.client me).localOf i).unsettled = []) (fuel : Nat) :
    ∀ (taken : Nat) (remaining : List PendingDecrypt) (s1 : State), s1.Inv →
      Within i me (((s.client me).localOf i).setDrains [drainAt i did ref taken remaining]) s s1 →
      taken + fuel = PENDING_DECRYPT_LIMIT_PER_PEER → remaining.length ≤ taken →
      (∀ p ∈ remaining, p.Ok did) →
      spec.Wp Cond.any i (drainLoop me did sid pk ref fuel taken remaining)
        (fun r s' => State.Rely i s s' ∧ total (fun _ _ => True) r s') s1 := by
  induction fuel with
  | zero =>
    intro taken remaining s1 hi1 h hfuel hlen hok
    have hend := (hi1 me).pending.short ref
    exact wp_setPending hl h (by omega) (by omega) hok
  | succ fuel ih =>
    intro taken remaining s1 hi1 h hfuel hlen hok
    refine wp_self ?_
    split
    · rename_i hnone
      exact wp_setPending hl h (getElem?_eq_none_iff.1 hnone) (by omega) hok
    rename_i item hitem
    have hitemOk : item.Ok did :=
      href ▸ (hi1 me).pending.items ref item (mem_of_getElem? hitem)
    -- the entry with the item it works on
    let d : Drain := { drainAt i did ref taken remaining with current := some item }
    have hdr : ownBy Drain.task i (s1.client me).pending.drains =
        [drainAt i did ref taken remaining] := congrArg Local.drains h.own
    refine wp_execThen ⟨⟨_, hdr, rfl⟩, fun e he => by cases he⟩ fun _ => ?_
    have h2 : Within i me (((s.client me).localOf i).setDrains [d]) s
        (s1.after i me (.pending .takeNext)) := by
      refine h.after ?_
      rw [ClientOp.apply, Client.localOf_pending]
      simp only [PendingOp.apply, PendingSide.modifyDrain]
      rw [ownBy_map_self Drain.task (Drain.takeNext (s1.client me).pending.heap) (fun _ => rfl),
        hdr, h.own]
      simp only [map_cons, Drain.takeNext, hitem]
      rfl
    refine .settle (wp_open h2 hu) fun r s3 hi3 h3 => ?_
    cases r with
    | error err =>
      have hdr3 : ownBy Drain.task i (State.client s3 me).pending.drains = [d] :=
        congrArg Local.drains h3.own
      refine wp_execThen ⟨⟨d, item, hdr3, rfl⟩, fun e he => by cases he⟩ fun hi4 => ?_
      refine ih (taken + 1) (remaining ++ [item]) _ hi4 (h3.after ?_) (by omega) ?_ ?_
      · rw [ClientOp.apply, Client.localOf_pending]
        simp only [PendingOp.apply, PendingSide.modifyDrain]
        rw [ownBy_map_self Drain.task Drain.keep (fun _ => rfl), hdr3, h3.own]
        rfl
      · rw [length_append, length_singleton]
        omega
      · intro p hp
        rcases mem_append.1 hp with hp | hp
        · exact hok p hp
        · exact mem_singleton.1 hp ▸ hitemOk
    | ok body =>
      have hu' : (((s.client me).localOf i).setDrains [d]).unsettled = [] := hu
      have hd : (((s.client me).localOf i).setDrains [d]).drains = [d] := rfl
      refine .bind (wp_drainOpened hd rfl rfl hu' hitemOk hi3 h3) ?_ fun _ _ _ hf => hf.elim
      intro _ s4 hi4 h4
      exact ih (taken + 1) remaining s4 hi4 h4 (by omega) (by omega) hok

theorem does_drainPendingDecrypt (hi : s.Inv) (hidle : ∀ me, (s.client me).localOf i = Local.idle) :
    Does i s (drainPendingDecrypt me did) (total fun _ _ => True) := by
  have hl : ((s.client me).localOf i).drains = [] := by rw [hidle me]; rfl
  have hu : ((s.client me).localOf i).unsettled = [] := by rw [hidle me]; rfl
  refine .self ?_
  split
  · exact .pure hi trivial
  rename_i ref href
  split
  · exact .pure hi trivial
  refine wp_execThen ⟨⟨href, hl⟩, fun e he => by cases he⟩ fun hi1 => ?_
  have h1 : Within i me (((s.client me).localOf i).setDrains [drainAt i did ref 0 []]) s
      (s.after i me (.pending (.startDrain did ref))) := by
    refine (Within.refl i me s).after ?_
    rw [ClientOp.apply, Client.localOf_pending]
    simp only [PendingOp.apply]
    rw [ownBy_append, ownBy_singleton_self Drain.task (i := i) rfl]
    simp only [Client.localOf] at hl
    rw [hl]
    rfl
  refine .bind (does_recvSession hi1) ?_ fun _ _ _ hf => hf.2.elim
  intro sid s2 hi2 hr2
  have h2 := h1.rely hr2.1
  refine wp_self ?_
  split
  · exact wp_drainLoop ((hi me).pending.refs did ref href) hl hu _ 0 [] s2 hi2 h2 rfl
      (by simp) (by simp)
  refine wp_exec ⟨⟨did, ref, congrArg Local.drains h2.own⟩, fun e he => by cases he⟩
    ⟨Within.toRely (h2.after ?_), trivial⟩
  rw [ClientOp.apply, Client.localOf_pending]
  simp only [PendingOp.apply, PendingSide.endDrain]
  rw [ownBy_drop_self, h2.own, ← hl]
  rfl

/-! ## Ingest -/

theorem does_acceptKeyExchange (hadPriorInbound again : Bool) :
    Does i s (acceptKeyExchange me e hadPriorInbound again) (onOk fun _ _ => True) := by
  have ha : Does i s (NativeMessaging.acceptEnvelopeWithIdentity me e) (onOk fun _ _ => True) :=
    .call_any rfl fun _ => trivial
  refine ha.andThen fun sid s1 _ _ _ => ?_
  refine .execThen rfl trivial fun _ _ => ?_
  refine (does_persistRecv sid).totalThen fun _ s3 hi3 _ _ => ?_
  refine (does_spawn fun j hj => does_drainPendingDecrypt hi3 hj).totalThen fun _ s4 hi4 _ _ => ?_
  have hl : ∀ j, (∀ me, (s4.client me).localOf j = .idle) →
      ((s4.client me).localOf j).restoring = [] := fun j hj => by rw [hj me]; rfl
  exact (does_spawn fun j hj =>
    does_completeHandshake hi4 (hl j hj) hadPriorInbound again).ignore

theorem does_ingestKeyExchange (hi : s.Inv) (again : Bool) :
    Does i s (ingestKeyExchange me e again) (total fun _ _ => True) := by
  refine (does_awaitFn_total (does_ensureContactCached hi)).totalThen fun _ s1 _ _ _ => ?_
  exact .self (does_caught (does_acceptKeyExchange _ again))

theorem does_ingestKeyRatchet (hi : s.Inv) :
    Does i s (ingestKeyRatchet me e) (total fun _ _ => True) := by
  refine (does_recvSession hi).totalThen fun sid s1 hi1 _ _ => ?_
  cases sid with
  | none => exact .pure hi1 trivial
  | some sid =>
    refine does_caught ?_
    have ha : Does i s1 (NativeMessaging.acceptRekeyEnvelopeWithIdentity me sid e)
        (onOk fun _ _ => True) := .call_any rfl fun _ => trivial
    refine ha.andThen fun _ s2 _ _ _ => ?_
    refine (does_persistRecv sid).totalThen fun _ s3 hi3 _ _ => ?_
    exact (does_spawn fun j hj => does_drainPendingDecrypt hi3 hj).ignore

theorem does_ingestReadReceipt (hi : s.Inv) (ht : e.contentType ≠ .text)
    (hl : ((s.client me).localOf i).unsettled = []) :
    Does i s (ingestReadReceipt me e) (total fun _ _ => True) := by
  refine (does_recvSession hi).totalThen fun sid s1 hi1 hr1 _ => ?_
  cases sid with
  | none => exact .pure hi1 trivial
  | some sid =>
    refine (does_cachedPeerPk hi1).totalThen fun pk s2 hi2 hr2 _ => ?_
    cases pk with
    | none => exact .pure hi2 trivial
    | some pk =>
      refine does_caught (does_openReadReceipt ht ?_)
      rw [(hr1.trans hr2).localOf me, hl]

theorem does_ingestText (hi : s.Inv) (ht : e.contentType = .text)
    (hl : ((s.client me).localOf i).unsettled = []) (again : Bool) :
    Does i s (ingestText me e again) (total fun _ _ => True) := by
  refine (does_recvSession hi).totalThen fun sid s1 hi1 hr1 _ => ?_
  cases sid with
  | none => exact does_undecryptable ht again
  | some sid =>
    refine (does_cachedPeerPk hi1).totalThen fun pk s2 hi2 hr2 _ => ?_
    cases pk with
    | none => exact .pure hi2 trivial
    | some pk =>
      refine does_openText ht ?_
      rw [(hr1.trans hr2).localOf me, hl]

theorem does_ingestEnvelope (hl : ((s.client me).localOf i).unsettled = []) :
    Does i s (ingestEnvelope me e) (total fun _ _ => True) := by
  refine .self (.execThen rfl trivial fun hi1 hr1 => ?_)
  have hl1 : (((s.after i me (.health (.see e))).client me).localOf i).unsettled = [] := by
    rw [hr1.localOf me, hl]
  split
  · exact does_ingestKeyExchange hi1 _
  · exact does_ingestKeyRatchet hi1
  · rename_i ht
    exact does_ingestReadReceipt hi1 (by rw [ht]; simp) hl1
  · rename_i ht
    exact does_ingestText hi1 ht hl1 _
  · exact .pure hi1 trivial

theorem does_ingestAll (es : List Envelope) : ∀ {s : State}, s.Inv →
    ((s.client me).localOf i).unsettled = [] →
    Does i s (ingestAll me es) (total fun _ _ => True) := by
  induction es with
  | nil => exact fun hi _ => .pure hi trivial
  | cons e es ih =>
    intro s _ hl
    refine (does_ingestEnvelope hl).totalThen fun _ s1 hi1 hr1 _ => ?_
    exact ih hi1 (by rw [hr1.localOf me, hl])

theorem does_ingestEnvelopesNative (hi : s.Inv) (hl : ((s.client me).localOf i).unsettled = [])
    (envelopes : List Envelope) :
    Does i s (ingestEnvelopesNative me envelopes) (total fun _ _ => True) := by
  refine (does_prepareAll envelopes hi).totalThen fun prepared s1 hi1 hr1 _ => ?_
  exact does_ingestAll _ hi1 (by rw [hr1.localOf me, hl])

/-- Every program meets the outline, whatever the others do in the meantime. -/
theorem safe_prog (c : Cmd) (i : Nat) (s : State) (hi : s.Inv)
    (hidle : ∀ me, (s.client me).localOf i = Local.idle) :
    spec.Safe .any i (prog c) s := by
  cases c with
  | upsertContact me did contact =>
    have h : Does i s (exec me (.store (.upsertContact did contact))) (total fun _ _ => True) :=
      .exec rfl trivial trivial
    exact h.safe hidle
  | sendTextMessage me did text random =>
    exact (does_sendTextMessageNative hi text random).safe hidle
  | resendMessage me did id => exact (does_resendMessage hi id).safe hidle
  | reconnectSession me did => exact does_reconnectSession.safe hidle
  | deleteConversation me did =>
    have h : Does i s (exec me (.deleteConversation did)) (total fun _ _ => True) :=
      .exec rfl trivial trivial
    exact h.safe hidle
  | ingestEnvelopes me batch =>
    exact (does_ingestEnvelopesNative hi (by rw [hidle me]; rfl) batch).safe hidle
  | advance ms => exact fun _ => ⟨trivial, fun _ => hidle⟩

end Messaging
