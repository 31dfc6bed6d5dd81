import SovereignMobile.EventLoop.Since
import SovereignMobile.Messaging.Functions
import SovereignMobile.Messaging.Runs

/-! # Deleted conversations

`deleteConversation` empties the maps in one go, and every operation that was suspended then goes on
afterwards: a `persistSession` writes its blob back, a handshake its session, an ingest its entry. The
thread stays deleted where no handshake with the peer is in flight at that moment and no suspended
operation has such a write ahead of it, as when none of them is about the peer. -/

namespace Messaging

open EventLoop List Option
open Function (update update_of_ne update_self)
open PendingSide (buffer)

/-- Whether the operation writes a session, a blob, a handshake in flight or the pending entries of
    `did`. -/
def ClientOp.writesEntry (did : Did) : ClientOp → Bool
  | .send (.setSession d _) => d == did
  | .send (.restored d _) => d == did
  | .send (.setSerializedSession d _ _) => d == did
  | .send (.setInFlight d _) => d == did
  | .recv (.setSession d _) => d == did
  | .recv (.setSerializedSession d _) => d == did
  | .pending (.bufferUndecryptable e) => e.senderDid == did
  | .pending (.setPending d _) => d == did
  | _ => false

/-- Whether the operation does so on the device `me`. -/
def Op.writesEntry (me did : Did) : Op → Bool
  | .client me' o => me' == me && o.writesEntry did
  | .advance _ => false

/-- Nothing about `did` is in the maps of `c'` that was not in those of `c`. -/
structure Client.NoNewEntries (did : Did) (c c' : Client) : Prop where
  sendSession : c'.send.sendSessionByDid did = c.send.sendSessionByDid did ∨
    c'.send.sendSessionByDid did = none
  recvSession : c'.recv.recvSessionByDid did = c.recv.recvSessionByDid did ∨
    c'.recv.recvSessionByDid did = none
  sendBlob : c'.send.blobs did = c.send.blobs did ∨ c'.send.blobs did = none
  recvBlob : c'.recv.blobs did = c.recv.blobs did ∨ c'.recv.blobs did = none
  pending : ∀ p ∈ c'.pending.buffer did, p ∈ c.pending.buffer did

/-- `startInit` for a peer of whom there is no blob: the handshake is a first contact. -/
def initAnew (me did : Did) (recipient : String) (p : PromiseId) : Prog Nat := do
  exec me (.send .newPromise)
  Async.spawn (Async.settle (do tick; firstContact me did recipient) fun r =>
    exec me (.send (.settle p r)))
  exec me (.send (.setInFlight did p))
  Async.settle (awaitPromise me p) fun r => do
    exec me (.send (.deleteInFlight did))
    ofExcept r

/-- Whoever asks for the outbound session starts a new handshake. -/
def StartsAnew (me did : Did) (s : State) : Prop :=
  ∀ (recipient : String) (i n : Nat) (k : Except Err Nat → Task machine),
    ((getOrInitSendSession me did recipient).run k).run Cond.any i s n =
      ((initAnew me did recipient ⟨did, (s.client me).send.nextPromise⟩).run k).run Cond.any i s n

/-- The operations on the peer `did` of the device `me` that the app starts. -/
def Cmd.isOn (me did : Did) : Cmd → Bool
  | .sendTextMessage me' did' _ _ => me' == me && did' == did
  | .resendMessage me' did' _ => me' == me && did' == did
  | .reconnectSession me' did' => me' == me && did' == did
  | .ingestEnvelopes me' batch => me' == me && batch.any fun e => e.senderDid == did
  | _ => false

/-- In every run from `w₁`, right after `did` was deleted on `me`: the operations that were suspended
    then never put anything about `did` back, and until an operation on `did` starts, the first send
    to it would start a new handshake. -/
def StaysDeleted (me did : Did) (w₁ : Sys machine) : Prop :=
  ∀ (old : Nat → Prop) (alone : Bool) (w : Sys machine),
    Since prog (Cmd.isOn me did) w₁ old alone w →
    (∀ (i : Nat) (m : Move machine Cmd) (w' : Sys machine), old i →
      (m = .resume i ∨ ∃ r, m = .perform i r) → w.step Cond.any prog m = some w' →
      (State.client w.state me).NoNewEntries did (State.client w'.state me)) ∧
    (alone = true → StartsAnew me did w.state)

/-- No handshake with `did` is in flight, and no suspended operation has a write of its entries
    ahead of it. -/
def QuietFor (me did : Did) (w : Sys machine) : Prop :=
  (State.client w.state me).send.sendSessionInitInFlight did = none ∧
    ∀ t ∈ w.tasks, t.Only fun o => Op.writesEntry me did o = false

/-! ## A first send -/

variable {α : Type} {me did : Did} {s s' : State} {i : Nat}

theorem run_selfThen (f : Client → Prog α) (k : Except Err α → Task machine) (i n : Nat) (s : State)
    :
    ((self me >>= f).run k).run .any i s n = ((f (s.client me)).run k).run .any i s n := rfl

/-- Without a blob the handshake is a first contact after one turn. -/
theorem initSendSession_run (hblob : (s.client me).send.blobs did = none) (recipient : String)
    (i n : Nat) (k : Except Err Nat → Task machine) :
    ((initSendSession me did recipient).run k).run Cond.any i s n =
      ((do tick; firstContact me did recipient : Prog Nat).run k).run .any i s n := by
  have hnone : ∀ k : Except Err (Option Nat) → Task machine,
      ((tryRestoreSession me did .send).run k).run .any i s n = (k (.ok none)).run .any i s n := by
    intro k
    rw [tryRestoreSession, run_selfThen]
    rw [hblob]
    rfl
  exact hnone _

theorem startsAnew_of_none (hcache : (s.client me).send.sendSessionByDid did = none)
    (hflight : (s.client me).send.sendSessionInitInFlight did = none)
    (hblob : (s.client me).send.blobs did = none) : StartsAnew me did s := by
  intro recipient i n k
  have hstart : ((getOrInitSendSession me did recipient).run k).run .any i s n =
      ((startInit me did recipient ⟨did, (s.client me).send.nextPromise⟩).run k).run
        .any i s n := by
    rw [getOrInitSendSession, run_selfThen, hcache]
    rw [hflight]
  have hblob' : (State.client (machine.apply i (.client me (.send .newPromise)) s) me).send.blobs
      did = none := by
    simpa [machine, Op.apply, ClientOp.apply, SendOp.apply] using hblob
  rw [hstart]
  refine Task.run_op_congr (Task.run_fork_congr ?_)
  exact initSendSession_run hblob' recipient n (n + 1) _

/-! ## Operations that write no entry -/

/-- Every array belongs to the peer it is stored for. -/
def PendingSide.OwnArrays (c : PendingSide) : Prop :=
  ∀ did ref, c.pendingDecryptByDid did = some ref → ref.did = did

/-- What happens on a device while nothing about `did` is written: no new entries, and no new
    handshake. -/
structure Client.Without (did : Did) (c c' : Client) : Prop extends c.NoNewEntries did c' where
  inFlight : c'.send.sendSessionInitInFlight did = c.send.sendSessionInitInFlight did ∨
    c'.send.sendSessionInitInFlight did = none
  arrays : c'.pending.OwnArrays

/-- The same of the device `me`, if each of its arrays is where it belongs. -/
def State.Without (me did : Did) (s s' : State) : Prop :=
  (s.client me).pending.OwnArrays → (s.client me).Without did (s'.client me)

theorem eq_or_none_trans {x y z : Option α} (h : y = x ∨ y = none) (h' : z = y ∨ z = none) :
    z = x ∨ z = none := by
  rcases h' with rfl | h'
  · exact h
  · exact .inr h'

section Without
variable {me did : Did} {i : Nat} {c c' c'' : Client}

theorem Client.Without.refl (h : c.pending.OwnArrays) : c.Without did c :=
  ⟨⟨.inl rfl, .inl rfl, .inl rfl, .inl rfl, fun _ hp => hp⟩, .inl rfl, h⟩

theorem Client.Without.trans (h : c.Without did c') (h' : c'.Without did c'') :
    c.Without did c'' where
  sendSession := eq_or_none_trans h.sendSession h'.sendSession
  recvSession := eq_or_none_trans h.recvSession h'.recvSession
  sendBlob := eq_or_none_trans h.sendBlob h'.sendBlob
  recvBlob := eq_or_none_trans h.recvBlob h'.recvBlob
  pending p hp := h.pending p (h'.pending p hp)
  inFlight := eq_or_none_trans h.inFlight h'.inFlight
  arrays := h'.arrays

theorem SendOp.without_apply {o : SendOp} (h : c.pending.OwnArrays)
    (ho : (ClientOp.send o).writesEntry did = false) :
    c.Without did { c with send := o.apply i c.send } := by
  have hne : ∀ d, (d == did) = false → did ≠ d := fun d hd he => by simp [he] at hd
  have hr : c.Without did c := Client.Without.refl h
  cases o with
  | setSession d sid | restored d sid =>
    have hd : did ≠ d := hne d ho
    exact { hr with sendSession := .inl (update_of_ne hd _ _) }
  | beginRestore d =>
    simp only [SendOp.apply, SendSide.beginRestore]
    split
    · exact hr
    · exact { hr with }
  | restoreFailed => exact { hr with }
  | setSerializedSession d sid blob =>
    have hd : did ≠ d := hne d ho
    exact { hr with sendBlob := .inl (update_of_ne hd _ _) }
  | resetSendSession d =>
    by_cases hd : did = d
    · subst hd
      exact { hr with sendSession := .inr (update_self ..), sendBlob := .inr (update_self ..) }
    · exact { hr with sendSession := .inl (update_of_ne hd _ _),
                      sendBlob := .inl (update_of_ne hd _ _) }
  | newPromise => exact { hr with }
  | setInFlight d p =>
    have hd : did ≠ d := hne d ho
    exact { hr with inFlight := .inl (update_of_ne hd _ _) }
  | settle p r => exact { hr with }
  | deleteInFlight d =>
    by_cases hd : did = d
    · subst hd
      exact { hr with inFlight := .inr (update_self ..) }
    · exact { hr with inFlight := .inl (update_of_ne hd _ _) }

theorem RecvOp.without_apply {o : RecvOp} (h : c.pending.OwnArrays)
    (ho : (ClientOp.recv o).writesEntry did = false) :
    c.Without did { c with recv := o.apply i c.recv } := by
  have hne : ∀ d, (d == did) = false → did ≠ d := fun d hd he => by simp [he] at hd
  have hr : c.Without did c := Client.Without.refl h
  cases o with
  | setSession d sid =>
    have hd : did ≠ d := hne d ho
    exact { hr with recvSession := .inl (update_of_ne hd _ _) }
  | setSerializedSession d blob =>
    have hd : did ≠ d := hne d ho
    exact { hr with recvBlob := .inl (update_of_ne hd _ _) }
  | dismiss e => exact { hr with }

variable {d : Did} {ref : ArrayRef}

theorem PendingSide.buffer_setArray (buf : List PendingDecrypt) {c : PendingSide} (h : c.OwnArrays)
    (href : ref.did = d) (hd : did ≠ d) :
    (c.setArray d ref buf).buffer did = c.buffer did := by
  simp only [buffer, PendingSide.setArray, update_of_ne hd]
  split
  · rfl
  rename_i ref' href'
  refine update_of_ne (fun he => hd ?_) _ _
  rw [← h did ref' href', he, href]

theorem PendingSide.OwnArrays.setArray {c : PendingSide} (h : c.OwnArrays) (href : ref.did = d)
    (buf : List PendingDecrypt) :
    (c.setArray d ref buf).OwnArrays := by
  intro did' ref' href'
  simp only [PendingSide.setArray, Function.update_apply] at href'
  split at href'
  · rename_i hd
    rw [← some.inj href', hd, href]
  · exact h did' ref' href'

theorem PendingSide.OwnArrays.remove {c : PendingSide} (h : c.OwnArrays) : PendingSide.OwnArrays
      { c with pendingDecryptByDid := update c.pendingDecryptByDid d none } := by
  intro did' ref' href'
  simp only [Function.update_apply] at href'
  split at href'
  · simp at href'
  · exact h did' ref' href'

/-- What is left of the entries of `did` once those of `d` are gone. -/
theorem PendingSide.mem_buffer_remove {c : PendingSide} {p : PendingDecrypt} (hp : p ∈ buffer
      { c with pendingDecryptByDid := update c.pendingDecryptByDid d none } did) :
    p ∈ c.buffer did := by
  by_cases hd : did = d
  · subst hd
    simp [buffer] at hp
  · simpa only [buffer, update_of_ne hd] using hp

theorem PendingOp.without_apply {o : PendingOp} (h : c.pending.OwnArrays)
    (ho : (ClientOp.pending o).writesEntry did = false) :
    c.Without did { c with pending := o.apply i c.pending } := by
  have hne : ∀ d, (d == did) = false → did ≠ d := fun d hd he => by simp [he] at hd
  have hr : c.Without did c := Client.Without.refl h
  cases o with
  | bufferUndecryptable e =>
    have hd : did ≠ e.senderDid := hne _ ho
    simp only [PendingOp.apply, PendingSide.bufferUndecryptable]
    split
    · exact hr
    have href : ((c.pending.pendingDecryptByDid e.senderDid).getD
        ⟨e.senderDid, c.pending.nextRef⟩).did = e.senderDid := by
      cases hc : c.pending.pendingDecryptByDid e.senderDid with
      | none => rfl
      | some ref => exact h _ ref hc
    refine { hr with pending := fun p hp => ?_, arrays := ?_ }
    · exact (PendingSide.buffer_setArray _ h href hd) ▸ hp
    · exact h.setArray href []
  | startDrain | takeNext | keep | endDrain => exact { hr with }
  | setPending d remaining =>
    have hd : did ≠ d := hne _ ho
    have h' : (c.pending.endDrain i).OwnArrays := h
    simp only [PendingOp.apply, PendingSide.setPending]
    split
    · exact { hr with pending := fun p hp => PendingSide.mem_buffer_remove hp, arrays := h'.remove }
    have href : (⟨d, (c.pending.endDrain i).nextRef⟩ : ArrayRef).did = d := rfl
    have hbuffer := PendingSide.buffer_setArray remaining h' href hd
    refine { hr with pending := fun p hp => hbuffer ▸ hp, arrays := ?_ }
    exact .setArray h' href remaining

theorem ClientOp.without_apply {o : ClientOp} (h : c.pending.OwnArrays)
    (ho : o.writesEntry did = false) : c.Without did (o.apply i c) := by
  have hr : c.Without did c := Client.Without.refl h
  cases o with
  | send o => exact SendOp.without_apply h ho
  | recv o => exact RecvOp.without_apply h ho
  | store o => exact { hr with }
  | pending o => exact PendingOp.without_apply h ho
  | health | deliver | recover => exact { hr with }
  | deleteConversation d =>
    by_cases hd : did = d
    · subst hd
      exact {
        sendSession := .inr (Function.update_self ..)
        recvSession := .inr (Function.update_self ..)
        sendBlob := .inr (Function.update_self ..)
        recvBlob := .inr (Function.update_self ..)
        pending := fun p hp => PendingSide.mem_buffer_remove hp
        inFlight := .inl rfl
        arrays := h.remove }
    · exact {
        sendSession := .inl (Function.update_of_ne hd _ _)
        recvSession := .inl (Function.update_of_ne hd _ _)
        sendBlob := .inl (Function.update_of_ne hd _ _)
        recvBlob := .inl (Function.update_of_ne hd _ _)
        pending := fun p hp => PendingSide.mem_buffer_remove hp
        inFlight := .inl rfl
        arrays := h.remove }

end Without

theorem State.Without.refl (s : State) : s.Without me did s :=
  fun h => Client.Without.refl h

theorem State.Without.trans {s'' : State} (h : s.Without me did s') (h' : s'.Without me did s'') :
    s.Without me did s'' :=
  fun hown => (h hown).trans (h' (h hown).arrays)

theorem State.without_modify {me' : Did} {f : Client → Client}
    (hf : me' = me → (s.client me).pending.OwnArrays → (s.client me).Without did (f (s.client me)))
    :
    s.Without me did (s.modify me' f) := by
  intro hown
  by_cases hme : me = me'
  · subst hme
    have hcl : (s.modify me f).client me = f (s.client me) := update_self ..
    exact hcl ▸ hf rfl hown
  · have hcl : (s.modify me' f).client me = s.client me := update_of_ne hme _ _
    simpa only [hcl] using Client.Without.refl hown

theorem Op.without_apply {o : Op} (ho : o.writesEntry me did = false) :
    s.Without me did (o.apply i s) := by
  cases o with
  | advance ms => exact fun hown => Client.Without.refl hown
  | client me' o =>
    refine State.without_modify fun hme hown => ClientOp.without_apply hown ?_
    subst hme
    simpa [Op.writesEntry] using ho

/-- No call touches the maps. -/
theorem Call.Effect.without {c : Call} (h : Call.Effect i s c s') : s.Without me did s' := by
  have hsend : ∀ me' f, (∀ c, (f c).sendSessionByDid = c.sendSessionByDid ∧ (f c).blobs = c.blobs ∧
        (f c).sendSessionInitInFlight = c.sendSessionInitInFlight) →
      s.Without me did (s.modifySend me' f) := by
    intro me' f hf
    refine State.without_modify fun _ hown => ?_
    obtain ⟨hcache, hblobs, hflight⟩ := hf (s.client me).send
    exact { Client.Without.refl hown with
      sendSession := .inl (congrFun hcache did)
      sendBlob := .inl (congrFun hblobs did)
      inFlight := .inl (congrFun hflight did) }
  have hrecv : ∀ me' f, (∀ c, (f c).recvSessionByDid = c.recvSessionByDid ∧ (f c).blobs = c.blobs) →
      s.Without me did (s.modifyRecv me' f) := by
    intro me' f hf
    refine State.without_modify fun _ hown => ?_
    obtain ⟨hcache, hblobs⟩ := hf (s.client me).recv
    exact { Client.Without.refl hown with
      recvSession := .inl (congrFun hcache did)
      recvBlob := .inl (congrFun hblobs did) }
  cases h with
  | none | relayed => exact .refl s
  | initiated me' did' remote | text me'
  | restored me' | position me' => exact hsend me' _ fun _ => ⟨rfl, rfl, rfl⟩
  | keyExchange me' remote gen => exact .refl s
  | accepted _ me' | rekeyed _ me' | opened me' => exact hrecv me' _ fun _ => ⟨rfl, rfl⟩

/-! ## Operations on other peers -/

/-- The program writes no entry of `did` on `me`. -/
abbrev Spares (me did : Did) : Judgement := fun _ φ m =>
  Async.Only (Kind.ofOp fun o => Op.writesEntry me did o = false) φ m

section Spares
variable {me did me' did' : Did}

theorem spares_call (c : Call) : Spares me did (Ret c) any (Async.await (M := machine) c) :=
  .await (fun _ => trivial) fun _ _ _ => trivial

theorem spares_closed : (Spares me did).Closed where
  pure _ h := .pure h
  throw e := .throw (M := machine) e
  mono h hφ := .mono h hφ
  bind hm hf := .bind hm hf
  settle hm hf := .settle hm hf
  tryCatch hm hf := .tryCatch hm hf
  spawn hm := .spawn hm
  dateNow := fun _ _ hk _ _ => hk _ _ trivial fun _ _ => trivial
  await c _ := spares_call c
  text := ⟨any, fun me sid body => spares_call (.sealTextSigned me sid body),
    fun e _ => spares_call (.sendEnvelope e)⟩

variable {o : ClientOp}

theorem spares_plain (ho : o.writesEntry did = false) : Spares me did Unit any (exec me' o) := by
  refine .op fun _ => ?_
  change Op.writesEntry me did (Op.client me' o) = false
  simp [Op.writesEntry, ho]

theorem spares_self : Spares me did Client any (self me') :=
  fun _ _ hk _ _ => hk _ _ trivial fun _ _ => trivial

variable (hne : ¬(me' = me ∧ did' = did))
include hne

theorem spares_exec (ho : o.writesEntry did = true → did' = did) :
    Spares me did Unit any (exec me' o) := by
  refine .op fun _ => ?_
  change Op.writesEntry me did (Op.client me' o) = false
  by_cases hme : me' = me
  · have hdid : ¬ o.writesEntry did = true := fun h => hne ⟨hme, ho h⟩
    simp [Op.writesEntry, hdid]
  · simp [Op.writesEntry, hme]

theorem spares_routine (ho : o.Routine did') : Spares me did Unit any (exec me' o) := by
  refine spares_exec hne fun hw => ?_
  cases o with
  | send o | recv o | pending o => cases o <;> simp_all [ClientOp.writesEntry, ClientOp.Routine]
  | store | health | deliver | recover | deleteConversation =>
    simp [ClientOp.writesEntry] at hw

theorem spares_restoreSend : Spares me did (Option Nat) any (tryRestoreSession me' did' .send) := by
  have h : (Spares me did).Closed := spares_closed
  refine h.bind spares_self fun c _ => ?_
  dsimp only
  split
  · exact h.pure _ trivial
  rename_i blob _
  refine h.bind (spares_plain rfl) fun _ _ => ?_
  refine h.settle (spares_call (.deserializeSession me' .send blob)) fun r _ => ?_
  cases r with
  | ok sid =>
    refine h.bind (spares_exec hne fun hw => ?_) fun _ _ => h.pure _ trivial
    simpa [ClientOp.writesEntry] using hw
  | error e => exact h.bind (spares_plain rfl) fun _ _ => h.pure _ trivial

theorem spares_initSendSession (recipient : String) :
    Spares me did Nat any (initSendSession me' did' recipient) := by
  have h : (Spares me did).Closed := spares_closed
  refine h.bind (h.plain.awaitFn (spares_restoreSend hne)) fun restored _ => ?_
  cases restored with
  | some sid => exact h.pure _ trivial
  | none =>
    refine h.bind (h.plain.sessionInitFor recipient) fun init _ => ?_
    refine h.bind (spares_plain rfl) fun _ _ => ?_
    refine h.bind (spares_call (.initiateSession me' did' init.recipientDid)) fun r _ => ?_
    refine h.bind (spares_exec hne fun hw => ?_) fun _ _ => ?_
    · simpa [ClientOp.writesEntry] using hw
    refine h.bind (spares_call (.sealKeyExchangeSigned me' init.recipientDid r.gen)) fun e _ => ?_
    refine h.bind (spares_call (.sendEnvelope e)) fun _ _ => ?_
    have hpersist := h.plain.persistSession (fun o ho => spares_routine hne ho.routine) .send
    exact h.bind (h.plain.awaitFn (hpersist _)) fun _ _ => h.pure _ trivial

theorem spares_getOrInit (recipient : String) :
    Spares me did Nat any (getOrInitSendSession me' did' recipient) := by
  have h : (Spares me did).Closed := spares_closed
  refine h.bind spares_self fun c _ => ?_
  split
  · exact h.pure _ trivial
  split
  · rename_i inFlight _
    exact spares_call (.promise me' inFlight)
  refine h.bind (spares_plain rfl) fun _ _ => ?_
  refine h.bind (h.spawn (h.settle (spares_initSendSession hne recipient) fun r _ => ?_))
    fun _ _ => ?_
  · exact spares_plain rfl
  refine h.bind (spares_exec hne fun hw => ?_) fun _ _ => ?_
  · simpa [ClientOp.writesEntry] using hw
  refine h.settle (spares_call (.promise me' _)) fun r _ => ?_
  refine h.bind (spares_plain rfl) fun _ _ => ?_
  cases r with
  | ok sid => exact h.pure _ trivial
  | error e => exact h.throw e

theorem spares_rehandshake : Spares me did Unit any (rehandshake me' did') := by
  have h : (Spares me did).Closed := spares_closed
  refine h.bind (spares_plain rfl) fun _ _ => ?_
  exact h.bind (h.plain.awaitFn (spares_getOrInit hne did')) fun _ _ => h.pure _ trivial

theorem spares_composed : (Spares me did).Composed me' did' where
  toClosed := spares_closed
  self := spares_self
  exec o ho := spares_routine hne ho
  restoreSend := spares_restoreSend hne
  getOrInit := spares_getOrInit hne
  recover again := by
    have h : (Spares me did).Closed := spares_closed
    refine h.bind h.dateNow fun now _ => h.bind spares_self fun c _ => ?_
    refine h.bind (spares_plain rfl) fun _ _ => ?_
    split
    · exact h.pure _ trivial
    · exact h.tryCatch (spares_rehandshake hne) fun _ => h.pure _ trivial
  reconnect := by
    have h : (Spares me did).Closed := spares_closed
    refine h.bind h.dateNow fun now _ => h.bind (spares_plain rfl) fun _ _ => ?_
    exact spares_rehandshake hne

end Spares

theorem staysWithin_without (me did : Did) :
    StaysWithin (M := machine) (fun o => Op.writesEntry me did o = false) (State.Without me did) where
  refl := State.Without.refl
  trans _ _ _ := State.Without.trans
  op _ _ _ := Op.without_apply
  call _ _ _ _ _ _ hp := (Call.effect hp).without

theorem prog_spares (c : Cmd) (hc : c.isOn me did = false) :
    (prog c).Only (Kind.ofOp fun o => Op.writesEntry me did o = false) .whatever := by
  have hne : ∀ me' did' : Did, (me' == me && did' == did) = false → ¬(me' = me ∧ did' = did) :=
    fun me' did' h he => by simp [he.1, he.2] at h
  cases c with
  | upsertContact me' did' contact
  | deleteConversation me' did' => exact (spares_plain rfl).toTask _
  | sendTextMessage me' did' text random =>
    exact ((spares_composed (hne me' did' hc)).follows.sendTextMessageNative text random).toTask _
  | resendMessage me' did' id =>
    exact ((spares_composed (hne me' did' hc)).follows.resendMessage id).toTask _
  | reconnectSession me' did' => exact (spares_composed (hne me' did' hc)).reconnect.toTask _
  | ingestEnvelopes me' batch =>
    have hother : ∀ e ∈ batch, ¬(me' = me ∧ e.senderDid = did) := by
      rintro e he ⟨hme, hdid⟩
      have hany : (batch.any fun e => e.senderDid == did) = true :=
        any_eq_true.2 ⟨e, he, by simp [hdid]⟩
      simp [Cmd.isOn, hme, hany] at hc
    exact (spares_closed.plain.ingestEnvelopesNative batch fun e he =>
      (spares_composed (hother e he)).follows).toTask _
  | advance ms => exact ⟨rfl, trivial⟩

/-! ## Quiet deletions -/

theorem State.Inv.ownArrays (h : s.Inv) (me : Did) : (s.client me).pending.OwnArrays :=
  (h me).pending.refs

/-- What the deletion leaves. -/
theorem deleteConversation_step {w0 w1 : Sys machine}
    (h : w0.step Cond.any prog (.start (.deleteConversation me did)) = some w1) :
    State.client w1.state me = (State.client w0.state me).deleteConversation did ∧
      (∀ t ∈ w1.tasks, t ∈ w0.tasks) ∧ w1.next = w0.next + 1 := by
  cases h
  refine ⟨update_self .., fun t ht => ?_, rfl⟩
  rcases mem_append.1 ht with ht | ht
  · exact (Sys.mem_others.1 ht).1
  · simp at ht

end Messaging
