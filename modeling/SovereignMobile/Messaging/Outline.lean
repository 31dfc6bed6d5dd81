import SovereignMobile.EventLoop.Wp
import SovereignMobile.Messaging.Service
import SovereignMobile.Messaging.ClientInv

/-! # What every step of the messaging service may rely on

One `Spec` for all the programs of `Service.lean`, in all their runs: the invariant that every
function depends on (`State.Inv`), what a task knows when it runs an operation or issues a call
(`Op.Pre`, `Call.Pre`), what it is in the middle of (`Client.localOf`), and what nobody ever takes
back (`State.Grow`). Nothing here is a property of the service: those that hold under a condition on
the run are derived from this outline by `Spec.Sound.transfer`, without another look at the
programs. -/

namespace Messaging

open EventLoop List
open Prod (fst)

/-! ## One device -/

/-- What a task is in the middle of. -/
structure Local where
  restoring : List Restore
  drains : List Drain
  unsettled : List (Nat × Envelope)

def Local.idle : Local := ⟨[], [], []⟩

def Client.localOf (i : Nat) (c : Client) : Local where
  restoring := ownBy Restore.task i c.send.restoring
  drains := ownBy Drain.task i c.pending.drains
  unsettled := ownBy Prod.fst i c.recv.unsettled

def Local.setRestoring (x : List Restore) (L : Local) : Local := { L with restoring := x }

def Local.setDrains (x : List Drain) (L : Local) : Local := { L with drains := x }

def Local.setUnsettled (x : List (Nat × Envelope)) (L : Local) : Local := { L with unsettled := x }

theorem Client.localOf_send (i : Nat) (c : Client) (x : SendSide) :
    ({ c with send := x } : Client).localOf i =
      (c.localOf i).setRestoring (ownBy Restore.task i x.restoring) := rfl

theorem Client.localOf_pending (i : Nat) (c : Client) (x : PendingSide) :
    ({ c with pending := x } : Client).localOf i =
      (c.localOf i).setDrains (ownBy Drain.task i x.drains) := rfl

theorem Client.localOf_recv (i : Nat) (c : Client) (x : RecvSide) :
    ({ c with recv := x } : Client).localOf i =
      (c.localOf i).setUnsettled (ownBy fst i x.unsettled) := rfl

structure Client.Inv (c : Client) : Prop where
  send : c.send.Inv
  store : c.store.Inv
  pending : c.pending.Inv

/-- What no step takes back. -/
structure Client.Grow (c c' : Client) : Prop where
  sessions : c.send.KeepsSessions c'.send
  positions : c.send.positions ⊆ c'.send.positions
  opened : c.recv.opened ⊆ c'.recv.opened

theorem Client.Grow.refl (c : Client) : c.Grow c :=
  ⟨.of_native rfl, fun _ h => h, fun _ h => h⟩

theorem Client.Grow.trans {c1 c2 c3 : Client} (h : c1.Grow c2) (h' : c2.Grow c3) : c1.Grow c3 :=
  ⟨h.sessions.trans h'.sessions, fun _ hp => h'.positions (h.positions hp),
    fun _ ho => h'.opened (h.opened ho)⟩

/-! ## All devices -/

def State.Inv (s : State) : Prop := ∀ me, (s.client me).Inv

structure State.Grow (s s' : State) : Prop where
  client : ∀ me, (s.client me).Grow (s'.client me)
  sealed : s.sealed ⊆ s'.sealed

theorem State.Grow.refl (s : State) : s.Grow s := ⟨fun _ => .refl _, fun _ h => h⟩

theorem State.Grow.trans {s1 s2 s3 : State} (h : s1.Grow s2) (h' : s2.Grow s3) : s1.Grow s3 :=
  ⟨fun me => (h.client me).trans (h'.client me), fun _ he => h'.sealed (h.sealed he)⟩

/-- While task `i` is suspended, the others leave alone what it is in the middle of. -/
structure State.Rely (i : Nat) (s s' : State) : Prop where
  localOf : ∀ me, (s'.client me).localOf i = (s.client me).localOf i
  grow : s.Grow s'

/-- `e`, which is no receipt, was sealed on `me`, with a session for `did`. -/
structure State.Sealed (me did : Did) (e : Envelope) (s : State) : Prop where
  mem : e ∈ s.sealed
  sender : e.senderDid = me
  peer : e.gen.peer = did
  text : e.contentType = .text
  unmarked : e.body.marked = false

/-- `me` has opened the envelope that a receipt to `did` for `(seq, epoch)` acknowledges. -/
def State.Opened (me did : Did) (seq epoch acked : Nat) (s : State) : Prop :=
  ∃ a ∈ (s.client me).recv.opened, a.uid = acked ∧ a.senderDid = did ∧ a.sequence = seq ∧
    a.epoch = epoch ∧ a.body.marked = false

/-- `me` has opened a receipt from `did` for `(seq, epoch)`. -/
def State.ReceiptOpened (me did : Did) (seq epoch acked : Nat) (s : State) : Prop :=
  ∃ r ∈ (s.client me).recv.opened, r.senderDid = did ∧
    r.body.payload = .receipt seq epoch acked ∧ (r.contentType = .text → r.body.marked = true)

/-- The session was asked for its position after `e` had been sealed with it. -/
def State.PositionRead (me : Did) (e : Envelope) (info : SessionInfo) (s : State) : Prop :=
  ⟨e, info⟩ ∈ (s.client me).send.positions

/-! ## Obligations -/

def StoreOp.Pre (s : State) (me : Did) : StoreOp → Prop
  | .upsertContact _ _ => True
  | .appendMessage did msg => ∃ now random body info status e,
      msg = sentRow now random body info status e ∧ body.marked = false ∧
      s.PositionRead me e info ∧ s.Sealed me did e
  | .appendUndecryptablePlaceholder e => e.contentType = .text
  | .updateMessageStatus did id _ patch => (∃ now random, id = .sentLocally now random) ∧
      ∀ p, patch = some p → ∃ info, s.PositionRead me p.origin info ∧ p.epoch = info.epoch ∧
        p.sequence = info.counter - 1 ∧ s.Sealed me did p.origin
  | .confirmSentMessage did seq epoch acked => s.ReceiptOpened me did seq epoch acked

/-- What task `i` knows when it runs an operation. -/
def ClientOp.Pre (i : Nat) (s : State) (me : Did) : ClientOp → Prop
  | .send o => o.Pre i (s.client me).send
  | .recv (.dismiss e) => ((s.client me).localOf i).unsettled = [(i, e)] ∧
      (e.contentType = .text → e.body.marked = true)
  | .recv (.setSession _ _) => True
  | .recv (.setSerializedSession _ _) => True
  | .store o => o.Pre s me
  | .pending o => o.Pre i (s.client me).pending ∧ ∀ e, o = .bufferUndecryptable e →
      ∃ m ∈ (s.client me).store.messagesByConversation e.senderDid, m.id = e.placeholderId
  | .health (.attemptRecovery _ now _) => now = s.now
  | .health (.setRecoveryAttempt _ _) => True
  | .health (.setDesynced _ _) => True
  | .health (.see _) => True
  | .deliver did msg => ∃ e, ((s.client me).localOf i).unsettled = [(i, e)] ∧
      e.contentType = .text ∧ e.body.marked = false ∧ did = e.senderDid ∧
      msg = e.receivedRow e.body
  | .recover did item next => ∃ d, ((s.client me).localOf i).drains = [d] ∧ d.did = did ∧
      d.current = some item ∧ ((s.client me).localOf i).unsettled = [(i, item.envelope)] ∧
      item.Ok did ∧
      next = if item.envelope.body.marked then none
        else some (item.envelope.receivedRow item.envelope.body)
  | .deleteConversation _ => True

def Op.Pre (i : Nat) (s : State) : Op → Prop
  | .client me o => o.Pre i s me
  | .advance _ => True

/-- What holds whenever a pending call of task `i` is performed. -/
def Call.Pre (i : Nat) (s : State) : Call → Prop
  | .deserializeSession me .send blob => (s.client me).send.Restoring i blob
  | .sealTextSigned me sid body => ∃ did, (s.client me).send.HasSession sid did ∧
      (body.marked = true → ∃ seq epoch acked, body.payload = .receipt seq epoch acked ∧
        s.Opened me did seq epoch acked)
  | .envelopeOpenVerifiedWithSession me _ _ _ => ((s.client me).localOf i).unsettled = []
  | _ => True

def spec : Spec machine where
  Inv := State.Inv
  Rely := State.Rely
  OpPre := fun i s o => Op.Pre i s o
  CallPre := fun i s c => Call.Pre i s c
  Fin := fun i s => ∀ me, (State.client s me).localOf i = Local.idle

/-! ## Frame lemmas -/

@[simp] theorem State.modify_client_self (s : State) (me : Did) (f : Client → Client) :
    (s.modify me f).client me = f (s.client me) := by
  simp [State.modify]

variable {me : Did} {s s' : State} {i j : Nat} {f : SendSide → SendSide} {c : Call}

theorem State.modify_client_ne (s : State) {me' : Did} (h : me' ≠ me) (f : Client → Client) :
    (s.modify me f).client me' = s.client me' := by
  simp [State.modify, h]

theorem State.forall_modify {P : Did → Client → Prop} {f : Client → Client}
    (h : ∀ me', P me' (s.client me')) (hf : P me (f (s.client me))) :
    ∀ me', P me' ((s.modify me f).client me') := by
  intro me'
  by_cases hm : me' = me
  · subst hm
    rw [State.modify_client_self]
    exact hf
  · rw [State.modify_client_ne s hm]
    exact h me'

theorem State.rel_modify {R : Client → Client → Prop} {f : Client → Client} (hr : ∀ c, R c c)
    (hf : R (s.client me) (f (s.client me))) :
    ∀ me', R (s.client me') ((s.modify me f).client me') :=
  State.forall_modify (fun me' => hr (s.client me')) hf

theorem LocalMessage.sentRow_ok (did : Did) {now random : Nat} {body : Body} {info : SessionInfo}
    {status : MessageStatus} {e : Envelope} (hb : body.marked = false) :
    (sentRow now random body info status e).Ok did :=
  .inl ⟨⟨now, random, rfl⟩, rfl, rfl, hb⟩

theorem StoreOp.Pre.rowsOk {o : StoreOp} (h : o.Pre s me) : o.RowsOk := by
  cases o with
  | appendMessage did msg =>
    obtain ⟨now, random, body, info, status, e, rfl, hb, -⟩ := h
    exact LocalMessage.sentRow_ok did hb
  | updateMessageStatus did id status patch => exact h.1
  | _ => exact trivial

/-- Every row that a drain puts in place of a placeholder belongs there. -/
theorem PendingDecrypt.Ok.next_ok {item : PendingDecrypt} {did : Did} {next : Option LocalMessage}
    (h : item.Ok did) (hn : next = if item.envelope.body.marked then none
      else some (item.envelope.receivedRow item.envelope.body)) :
    ∀ m, next = some m → m.Ok did := by
  intro m hm
  rw [hn] at hm
  split at hm
  · simp at hm
  rw [Option.some.injEq] at hm
  rw [← hm, ← h.2.1]
  exact item.envelope.receivedRow_ok

theorem ClientOp.inv_apply {o : ClientOp} (h : (s.client me).Inv) (hp : o.Pre i s me) :
    (o.apply i (s.client me)).Inv := by
  cases o with
  | send o => exact ⟨SendOp.inv_apply h.send hp, h.store, h.pending⟩
  | recv o | health o => exact ⟨h.send, h.store, h.pending⟩
  | store o => exact ⟨h.send, StoreOp.inv_apply h.store hp.rowsOk, h.pending⟩
  | pending o => exact ⟨h.send, h.store, PendingOp.inv_apply h.pending hp.1⟩
  | deliver did msg =>
    obtain ⟨e, -, -, -, rfl, rfl⟩ := hp
    exact ⟨h.send, h.store.appendMessage e.receivedRow_ok, h.pending⟩
  | recover did item next =>
    obtain ⟨d, -, -, -, -, hok, hn⟩ := hp
    exact ⟨h.send, h.store.replaceMessage (hok.next_ok hn), h.pending.of_eq rfl rfl⟩
  | deleteConversation did =>
    refine ⟨SendOp.inv_apply (o := .resetSendSession did) (i := i) h.send trivial, ?_, ?_⟩
    · have hrows : (s.client me).store.Inv := h.store
      exact hrows.setMessages (by simp)
    refine ⟨fun did' ref hd => ?_, h.pending.items, h.pending.short⟩
    rcases update_some hd with hd | ⟨_, hr⟩
    · exact h.pending.refs did' ref hd
    · simp at hr

theorem RecvOp.opened_apply (i : Nat) (o : RecvOp) (c : RecvSide) :
    (o.apply i c).opened = c.opened := by
  cases o <;> rfl

theorem ClientOp.grow (i : Nat) (o : ClientOp) (c : Client) : c.Grow (o.apply i c) := by
  cases o with
  | send o =>
    obtain ⟨hn, -, hpos, -⟩ := SendOp.apply_frame i o c.send
    exact ⟨.of_native hn, fun p hp => by rw [ClientOp.apply, hpos]; exact hp, fun _ h => h⟩
  | recv o =>
    refine ⟨.of_native rfl, fun _ h => h, fun e he => ?_⟩
    rw [ClientOp.apply, RecvOp.opened_apply]
    exact he
  | _ => exact ⟨.of_native rfl, fun _ h => h, fun _ h => h⟩

theorem RecvOp.own_other (hj : j ≠ i) (o : RecvOp) (c : RecvSide) :
    ownBy fst j (o.apply i c).unsettled = ownBy fst j c.unsettled := by
  cases o with
  | dismiss e => exact ownBy_drop_other fst hj _
  | _ => rfl

theorem ClientOp.localOf_other (hj : j ≠ i) (o : ClientOp) (c : Client) :
    (o.apply i c).localOf j = c.localOf j := by
  cases o with
  | send o => simp only [Client.localOf, ClientOp.apply, SendOp.own_other hj]
  | recv o => simp only [Client.localOf, ClientOp.apply, RecvOp.own_other hj]
  | pending o => simp only [Client.localOf, ClientOp.apply, PendingOp.own_other hj]
  | deliver did msg =>
    simp only [Client.localOf, ClientOp.apply, RecvSide.settle]
    rw [ownBy_drop_other fst hj]
  | recover did item next =>
    simp only [Client.localOf, ClientOp.apply, Client.recover, RecvSide.settle,
      PendingSide.modifyDrain]
    rw [ownBy_drop_other fst hj, ownBy_map_other Drain.task Drain.drop (fun _ => rfl) hj]
  | _ => rfl

/-! ## Calls -/

theorem State.grow_modifySend (hk : (s.client me).send.KeepsSessions (f (s.client me).send))
    (hp : (s.client me).send.positions ⊆ (f (s.client me).send).positions) :
    ∀ me', (s.client me').Grow ((s.modifySend me f).client me') :=
  State.rel_modify Client.Grow.refl ⟨hk, hp, fun _ h => h⟩

theorem State.inv_modifySend (h : s.Inv) (hf : (f (s.client me).send).Inv) :
    (s.modifySend me f).Inv :=
  State.forall_modify h ⟨hf, (h me).store, (h me).pending⟩

theorem State.localOf_modifySend (hf : ownBy Restore.task j (f (s.client me).send).restoring =
      ownBy Restore.task j (s.client me).send.restoring) :
    ∀ me', ((s.modifySend me f).client me').localOf j = (s.client me').localOf j := by
  refine State.rel_modify (R := fun c c' => c'.localOf j = c.localOf j) (fun _ => rfl) ?_
  simp only [Client.localOf, hf]

theorem State.inv_modifyRecv {f : RecvSide → RecvSide} (h : s.Inv) : (s.modifyRecv me f).Inv :=
  State.forall_modify h ⟨(h me).send, (h me).store, (h me).pending⟩

theorem State.grow_modifyRecv {f : RecvSide → RecvSide}
    (ho : (s.client me).recv.opened ⊆ (f (s.client me).recv).opened) :
    ∀ me', (s.client me').Grow ((s.modifyRecv me f).client me') :=
  State.rel_modify Client.Grow.refl ⟨.of_native rfl, fun _ h => h, ho⟩

theorem State.localOf_modifyRecv {f : RecvSide → RecvSide}
    (hf : ownBy fst j (f (s.client me).recv).unsettled = ownBy fst j (s.client me).recv.unsettled) :
    ∀ me', ((s.modifyRecv me f).client me').localOf j = (s.client me').localOf j := by
  refine State.rel_modify (R := fun c c' => c'.localOf j = c.localOf j) (fun _ => rfl) ?_
  simp only [Client.localOf, hf]

theorem Call.Effect.inv (h : s.Inv) (hp : c.Pre i s) (he : Call.Effect i s c s') : s'.Inv := by
  cases he with
  | none | relayed => exact h
  | initiated me did remote => exact State.inv_modifySend h ((h me).send.addNative _)
  | keyExchange me remote gen => exact h
  | text me sid body ses t hses => exact State.inv_modifySend h ((h me).send.seal _ hses)
  | restored me blob => exact State.inv_modifySend h ((h me).send.deserialize hp)
  | position me sid e ses _ => exact State.inv_modifySend h ((h me).send.recordPosition _ _)
  | accepted | rekeyed | opened => exact State.inv_modifyRecv h

theorem Call.Effect.grow (h : s.Inv) (he : Call.Effect i s c s') : s.Grow s' := by
  cases he with
  | none => exact .refl s
  | relayed e | keyExchange me remote gen => exact ⟨fun me => .refl _, fun _ h => h⟩
  | initiated me did remote | restored me blob =>
    exact ⟨State.grow_modifySend ((h me).send.keeps_addNative _) fun _ h => h, fun _ h => h⟩
  | text me sid body ses t hses =>
    exact ⟨State.grow_modifySend (SendSide.keeps_seal _ hses) fun _ h => h,
      fun _ h => mem_append_left _ h⟩
  | position me sid e ses _ =>
    exact ⟨State.grow_modifySend (.of_native rfl) fun _ h => mem_append_left _ h, fun _ h => h⟩
  | accepted | rekeyed => exact ⟨State.grow_modifyRecv fun _ h => h, fun _ h => h⟩
  | opened me sid e pk ses _ _ =>
    exact ⟨State.grow_modifyRecv fun _ h => mem_append_left _ h, fun _ h => h⟩

theorem Call.Effect.localOf_other (hj : j ≠ i) (he : Call.Effect i s c s') :
    ∀ me, (s'.client me).localOf j = (s.client me).localOf j := by
  cases he with
  | none | relayed => exact fun _ => rfl
  | initiated me did remote | text me sid body ses t hses
  | position me sid e ses _ => exact State.localOf_modifySend rfl
  | keyExchange me remote gen => exact fun _ => rfl
  | restored me blob =>
    exact State.localOf_modifySend (ownBy_map_other Restore.task
      (fun r => { r with sid := some (s.client me).send.nextNative }) (fun _ => rfl) hj _)
  | accepted | rekeyed => exact State.localOf_modifyRecv rfl
  | opened me sid e pk ses _ _ =>
    refine State.localOf_modifyRecv ?_
    simp only [RecvSide.openEnvelope]
    rw [ownBy_append, ownBy_singleton_other fst rfl hj, append_nil]

theorem Op.grow (i : Nat) (o : Op) (s : State) : s.Grow (o.apply i s) := by
  cases o with
  | client me o =>
    exact ⟨State.rel_modify .refl (o.grow i _), fun _ h => h⟩
  | advance ms => exact ⟨fun _ => .refl _, fun _ h => h⟩

theorem spec_sound : spec.Sound .any where
  refl i s := ⟨fun _ => rfl, State.Grow.refl s⟩
  trans i s1 s2 s3 h1 h2 :=
    ⟨fun me => (h2.localOf me).trans (h1.localOf me), h1.grow.trans h2.grow⟩
  op i s o hi _ hp := by
    refine ⟨?_, fun j hj => ⟨?_, Op.grow i o s⟩⟩
    · cases o with
      | client me o =>
        exact State.forall_modify hi (ClientOp.inv_apply (hi me) hp)
      | advance ms => exact hi
    · cases o with
      | client me o =>
        exact State.rel_modify (R := fun c c' => c'.localOf j = c.localOf j) (fun _ => rfl)
          (o.localOf_other hj _)
      | advance ms => exact fun _ => rfl
  call i s c r s' o hi hp hperf _ := by
    have he := Call.effect hperf
    exact ⟨he.inv hi hp, fun j hj => ⟨he.localOf_other hj, he.grow hi⟩⟩
  fin i s s' hf hr _ := fun me => (hr.localOf me).trans (hf me)

end Messaging
