import SovereignMobile.Messaging.Programs

/-! # Runs of the service

Every run starts on devices on which the app has just been launched: the module variables and the
native sessions are empty, the persisted parts (blobs, contacts, rows) are whatever earlier launches
left. `invariant_of_reach` is how the properties of the following modules are proved: say what the
operations and the successful calls do to an invariant, given the outline and a condition on the
run. -/

namespace Messaging

open EventLoop List Option

/-- The app has just been launched. -/
structure Client.Launched (c : Client) : Prop where
  sendSessionByDid : ∀ did, c.send.sendSessionByDid did = none
  inFlight : ∀ did, c.send.sendSessionInitInFlight did = none
  promises : ∀ p, c.send.promises p = none
  sendBlobs : ∀ did blob, c.send.blobs did = some blob → blob.gen.peer = did
  sendNative : ∀ sid, c.send.native sid = none
  restoring : c.send.restoring = []
  lastSeal : ∀ sid, c.send.lastSeal sid = none
  positions : c.send.positions = []
  unsettled : c.recv.unsettled = []
  store : c.store.Inv
  pending : ∀ did, c.pending.pendingDecryptByDid did = none
  heap : ∀ ref, c.pending.heap ref = []
  pushed : c.pending.pushed = []
  evicted : c.pending.evicted = []
  recovered : c.pending.recovered = []
  drains : c.pending.drains = []
  repeatedRecoveries : c.health.repeatedRecoveries = []

def Launched (s : State) : Prop := ∀ me, (s.client me).Launched

theorem Client.Launched.inv {c : Client} (h : c.Launched) : c.Inv where
  send :=
    { cached := fun did sid hd => absurd hd (by simp [h.sendSessionByDid])
      inFlight := fun did p hd => absurd hd (by simp [h.inFlight])
      promised := fun p sid hp => absurd hp (by simp [h.promises])
      blobs := h.sendBlobs
      restoring := fun r hr => absurd hr (by simp [h.restoring])
      fresh := fun sid _ => h.sendNative sid }
  store := h.store
  pending :=
    { refs := fun did ref hd => absurd hd (by simp [h.pending])
      items := fun ref p hp => absurd hp (by simp [h.heap])
      short := fun ref => by simp [h.heap] }

theorem Client.Launched.idle {c : Client} (h : c.Launched) (i : Nat) : c.localOf i = .idle := by
  simp [Client.localOf, Local.idle, ownBy, h.restoring, h.drains, h.unsettled]

theorem Client.launched_fresh : Client.fresh.Launched := by
  constructor <;> simp [Client.fresh, Store.Inv]

theorem launched_fresh (now : Nat) : Launched (State.fresh now) := fun _ => Client.launched_fresh

/-- **Invariants of runs.** What the operations and the successful calls keep, under the condition
    on the run, holds in every state reached; and when no task is suspended, no task is in the
    middle of anything. -/
theorem invariant_of_reach {C : Cond machine} {init J : State → Prop}
    (hinit : ∀ s, init s → Launched s ∧ J s)
    (hop : ∀ i s me o, s.Inv → J s → C.op i s (.client me o) = true → o.Pre i s me →
      J (s.after i me o))
    (hadvance : ∀ (s : State) ms, J s → J { s with now := s.now + ms })
    (hcall : ∀ i s (c : Call) s' v, s.Inv → J s → c.Pre i s → Call.Effect i s c s' →
      C.call i s c (.ok v) = true → J s')
    {w : Sys machine} (h : Reach C prog init w) :
    State.Inv w.state ∧ J w.state ∧
      (w.tasks = [] → ∀ i me, (State.client w.state me).localOf i = .idle) := by
  have hpool := spec_sound.transfer
    (fun s hs => ⟨fun me => ((hinit s hs).1 me).inv, (hinit s hs).2⟩)
    (fun s i hs me => ((hinit s hs).1 me).idle i) safe_prog
    (fun i s o hi hj hc hp => ?_) (fun i s c r s' o hi hj hp hperf hc => ?_) h
  · refine ⟨hpool.inv.1, hpool.inv.2, fun ht i => hpool.fin i ?_⟩
    rw [ht]
    exact fun t ht => nomatch ht
  · cases o with
    | client me o => exact hop i s me o hi hj hc hp
    | advance ms => exact hadvance s ms hj
  have he := Call.effect hperf
  rcases Call.perform_cases hperf with ⟨_, rfl⟩ | ⟨_, _, rfl⟩ | ⟨v, rfl, _⟩
  · exact hj
  · exact hj
  · exact hcall i s c s' v hi hj hp he hc

/-! ## Everything a session can be made of -/

/-- `P` holds of the generation and the peer of every outbound session, and of every blob. -/
structure SendSide.EverySession (P : Gen → Did → Prop) (c : SendSide) : Prop where
  blobs : ∀ did blob, c.blobs did = some blob → P blob.gen blob.remoteDid
  native : ∀ sid ses, c.native sid = some ses → P ses.gen ses.remoteDid
  restoring : ∀ r ∈ c.restoring, P r.blob.gen r.blob.remoteDid

variable {P : Gen → Did → Prop} {c : SendSide} {i : Nat} {me : Did} {blob ses : Session}

theorem SendSide.EverySession.mono {P' : Gen → Did → Prop} (h : c.EverySession P)
    (hP : ∀ g remote, P g remote → P' g remote) : c.EverySession P' where
  blobs did blob hb := hP _ _ (h.blobs did blob hb)
  native sid ses hs := hP _ _ (h.native sid ses hs)
  restoring r hr := hP _ _ (h.restoring r hr)

theorem SendOp.everySession_apply {o : SendOp} (h : c.EverySession P) (hp : o.Pre i c) :
    (o.apply i c).EverySession P := by
  cases o with
  | beginRestore did =>
    simp only [SendOp.apply, SendSide.beginRestore]
    split
    · exact h
    rename_i blob hb
    refine ⟨h.blobs, h.native, fun r hr => ?_⟩
    rcases mem_append.1 hr with hr | hr
    · exact h.restoring r hr
    · rw [mem_singleton] at hr
      exact hr ▸ h.blobs did blob hb
  | restored did sid | restoreFailed =>
    exact ⟨h.blobs, h.native, fun r hr => h.restoring r (mem_filter.1 hr).1⟩
  | setSerializedSession did sid blob =>
    obtain ⟨ses, hses, hgen, hremote, -⟩ := hp
    refine ⟨fun did' blob' hb => ?_, h.native, h.restoring⟩
    rcases update_some hb with hb | ⟨_, hblob⟩
    · exact h.blobs did' blob' hb
    rw [some.injEq] at hblob
    rw [← hblob, hgen, hremote]
    exact h.native sid ses hses
  | resetSendSession did =>
    refine ⟨fun did' blob' hb => ?_, h.native, h.restoring⟩
    rcases update_some hb with hb | ⟨_, hblob⟩
    · exact h.blobs did' blob' hb
    · simp at hblob
  | setSession | newPromise | setInFlight | settle | deleteInFlight =>
    exact ⟨h.blobs, h.native, h.restoring⟩

theorem ClientOp.everySession_apply {s : State} {o : ClientOp}
    (h : (s.client me).send.EverySession P) (hp : o.Pre i s me) :
    (o.apply i (s.client me)).send.EverySession P := by
  cases o with
  | send o => exact SendOp.everySession_apply h hp
  | deleteConversation did =>
    exact SendOp.everySession_apply (o := .resetSendSession did) (i := i) h trivial
  | _ => exact h

/-- A session object that is made of a blob. -/
theorem SendSide.EverySession.deserialize (h : c.EverySession P) (hr : c.Restoring i blob) :
    (c.deserialize i blob).EverySession P := by
  obtain ⟨did, hown⟩ := hr
  refine ⟨h.blobs, fun sid ses hs => ?_, fun r hr => ?_⟩
  · rcases update_some hs with hs | ⟨_, hblob⟩
    · exact h.native sid ses hs
    · rw [some.injEq] at hblob
      exact hblob ▸ h.restoring _ (mem_of_ownBy hown)
  · obtain ⟨r0, hr0, rfl⟩ := mem_map.1 hr
    have := h.restoring r0 hr0
    split
    · exact this
    · exact this

theorem SendSide.EverySession.seal {sid : Nat} {e : Envelope} (h : c.EverySession P)
    (hses : c.native sid = some ses) :
    (c.seal sid ses e).EverySession P := by
  refine ⟨h.blobs, fun sid' ses' hs => ?_, h.restoring⟩
  rcases update_some hs with hs | ⟨_, hs⟩
  · exact h.native sid' ses' hs
  · rw [some.injEq] at hs
    exact hs ▸ h.native sid ses hses

theorem SendSide.EverySession.addNative (h : c.EverySession P) (hses : P ses.gen ses.remoteDid) :
    (c.addNative ses).EverySession P := by
  refine ⟨h.blobs, fun sid ses' hs => ?_, h.restoring⟩
  rcases update_some hs with hs | ⟨_, hs⟩
  · exact h.native sid ses' hs
  · rw [some.injEq] at hs
    exact hs ▸ hses

theorem Client.Launched.everySession {c : Client} (h : c.Launched)
    (hblobs : ∀ did blob, c.send.blobs did = some blob → P blob.gen blob.remoteDid) :
    c.send.EverySession P where
  blobs := hblobs
  native sid ses hs := absurd hs (by simp [h.sendNative])
  restoring r hr := absurd hr (by simp [h.restoring])

/-! ## Everything about sent rows -/

/-- `Q` holds of every sent row. -/
def Store.EverySent (Q : Did → LocalMessage → Prop) (c : Store) : Prop :=
  ∀ did, ∀ m ∈ c.messagesByConversation did, m.direction = .sent → Q did m

section EverySent
variable {Q : Did → LocalMessage → Prop} {c : Store} {did : Did}

theorem Store.EverySent.setMessages {rows : List LocalMessage} (h : c.EverySent Q)
    (hrows : ∀ m ∈ rows, m ∈ c.messagesByConversation did ∨ (m.direction = .sent → Q did m)) :
    (c.setMessages did rows).EverySent Q := by
  intro did' m hm
  simp only [Store.setMessages] at hm
  by_cases hd : did' = did
  · subst hd
    rw [Function.update_self] at hm
    exact (hrows m hm).elim (h did' m) id
  · rw [Function.update_of_ne hd] at hm
    exact h did' m hm

theorem Store.EverySent.appendMessage {msg : LocalMessage} (h : c.EverySent Q)
    (hm : msg.direction = .sent → Q did msg) : (c.appendMessage did msg).EverySent Q := by
  have h' : (c.setMessages did (c.messagesByConversation did ++ [msg])).EverySent Q := by
    refine h.setMessages fun m hmem => ?_
    rcases mem_append.1 hmem with hmem | hmem
    · exact .inl hmem
    · exact .inr (mem_singleton.1 hmem ▸ hm)
  intro did' m hmem
  rw [Store.appendMessage_messages] at hmem
  exact h' did' m hmem

theorem Store.EverySent.updateFirst {p : LocalMessage → Bool} {f : LocalMessage → LocalMessage}
    (h : c.EverySent Q)
    (hf : ∀ m ∈ c.messagesByConversation did, (f m).direction = .sent → Q did (f m)) :
    (c.setMessages did (updateFirst p f (c.messagesByConversation did))).EverySent Q := by
  refine h.setMessages fun m hm => ?_
  rcases mem_updateFirst hm with hm | ⟨m0, hm0, _, rfl⟩
  · exact .inl hm
  · exact .inr (hf m0 hm0)

/-- A received row, or none, in place of another one. -/
theorem Store.EverySent.replaceMessage {oldId : MessageId} {next : Option LocalMessage}
    (h : c.EverySent Q) (hn : ∀ m, next = some m → m.direction = .received) :
    (c.replaceMessage did oldId next).EverySent Q := by
  cases next with
  | none => exact h.setMessages fun m hm => .inl (mem_filter.1 hm).1
  | some next =>
    exact h.updateFirst fun m _ hs => nomatch (hn next rfl).symm.trans hs

/-- A property that does not look at the status has to be checked for the rows that are appended,
    and for those that get a new position. -/
theorem StoreOp.everySent_apply {o : StoreOp}
    (hstatus : ∀ did m status, Q did m → Q did { m with status := status })
    (happend : ∀ did msg, o = .appendMessage did msg → Q did msg)
    (hpatch : ∀ did id status p, o = .updateMessageStatus did id status (some p) →
      ∀ m : LocalMessage, Q did (m.update status (some p)))
    (h : c.EverySent Q) : (o.apply c).EverySent Q := by
  cases o with
  | upsertContact did contact => exact h
  | appendMessage did msg => exact h.appendMessage fun _ => happend did msg rfl
  | appendUndecryptablePlaceholder e =>
    simp only [StoreOp.apply, Store.appendUndecryptablePlaceholder]
    split
    · exact h
    · exact h.appendMessage fun hs => absurd hs (by simp [Envelope.placeholder])
  | updateMessageStatus did id status patch =>
    refine h.updateFirst fun m hm hs => ?_
    cases patch with
    | none => exact hstatus did m status (h did m hm hs)
    | some p => exact hpatch did id status p rfl m
  | confirmSentMessage did seq epoch acked =>
    simp only [StoreOp.apply, Store.confirmSentMessage]
    split
    · exact h
    · exact h.updateFirst fun m hm hs => hstatus did m .read (h did m hm hs)

theorem ClientOp.everySent_apply {i : Nat} {s : State} {me : Did} {o : ClientOp}
    (hstatus : ∀ did m status, Q did m → Q did { m with status := status })
    (happend : ∀ did msg, o = .store (.appendMessage did msg) → Q did msg)
    (hpatch : ∀ did id status p, o = .store (.updateMessageStatus did id status (some p)) →
      ∀ m : LocalMessage, Q did (m.update status (some p)))
    (h : (s.client me).store.EverySent Q) (hp : o.Pre i s me) :
    (o.apply i (s.client me)).store.EverySent Q := by
  cases o with
  | store o =>
    exact StoreOp.everySent_apply hstatus (fun did msg ho => happend did msg (congrArg _ ho))
      (fun did id status p ho => hpatch did id status p (congrArg _ ho)) h
  | deliver did msg =>
    obtain ⟨e, -, -, -, rfl, rfl⟩ := hp
    have hrow : (e.receivedRow e.body).direction = .received := rfl
    have h' : ((s.client me).store.appendMessage e.senderDid (e.receivedRow e.body)).EverySent Q :=
      h.appendMessage fun hs => nomatch hrow.symm.trans hs
    exact h'
  | recover did item next =>
    obtain ⟨d, -, -, -, -, -, hn⟩ := hp
    refine h.replaceMessage fun m hm => ?_
    rw [hn] at hm
    split at hm
    · simp at hm
    rw [some.injEq] at hm
    rw [← hm]
    rfl
  | deleteConversation did => exact h.setMessages fun m hm => nomatch hm
  | _ => exact h

end EverySent

/-! ## Two paired devices -/

/-- Task `i` waits `n` times, and each time the call succeeds. -/
def okTurns (i n : Nat) : List (Move machine Cmd) :=
  (List.replicate n [.perform i .ok, .resume i]).flatten

/-- The call of task `i` fails. -/
def failedTurn (i : Nat) : List (Move machine Cmd) :=
  [.perform i (.fail (.http none)), .resume i]

def alice : Did := "did:zhtp:alice"

def bob : Did := "did:zhtp:bob"

/-- What `owner` persists of a session it initiated with `peer` and has not used yet. -/
def pairedSession (owner peer : Did) (n : Nat) : Session := ⟨peer, ⟨owner, peer, n⟩, 0, 0, []⟩

/-- A device that was launched again after a handshake in both directions. -/
def Client.paired (peer : Did) (outbound inbound : Session) : Client :=
  { Client.fresh with
    send := { Client.fresh.send with
      blobs := fun did => if did = peer then some outbound else none },
    recv := { Client.fresh.recv with
      blobs := fun did => if did = peer then some inbound else none },
    store := { Client.fresh.store with
      contactsByDid := fun did => if did = peer then some ⟨"", "pk"⟩ else none } }

/-- The `KeyExchange` that announced the session. -/
def pairedKeyExchange (owner peer : Did) (n : Nat) : Envelope :=
  ⟨n, owner, peer, .keyExchange, 0, 0, 0, ⟨owner, peer, n⟩, ⟨false, .text ""⟩⟩

/-- Alice and Bob have each initiated a session with the other. -/
def State.paired : State where
  client me :=
    if me = alice then
      Client.paired bob (pairedSession alice bob 0) { pairedSession bob alice 1 with remoteDid := bob }
    else if me = bob then
      Client.paired alice (pairedSession bob alice 1)
        { pairedSession alice bob 0 with remoteDid := alice }
    else Client.fresh
  now := 1000000
  nextGen := 2
  nextUid := 2
  sealed := []
  accepted := [pairedKeyExchange alice bob 0, pairedKeyExchange bob alice 1]

theorem Client.launched_paired {peer : Did} {outbound : Session} (inbound : Session)
    (h : outbound.gen.peer = peer) : (Client.paired peer outbound inbound).Launched where
  sendBlobs did blob hb := by
    simp only [Client.paired] at hb
    split at hb
    · rename_i hd
      rw [some.injEq] at hb
      rw [← hb, h, hd]
    · simp at hb
  sendSessionByDid _ := rfl
  inFlight _ := rfl
  promises _ := rfl
  sendNative _ := rfl
  restoring := rfl
  lastSeal _ := rfl
  positions := rfl
  unsettled := rfl
  store _ m hm := absurd hm (by simp [Client.paired, Client.fresh])
  pending _ := rfl
  heap _ := rfl
  pushed := rfl
  evicted := rfl
  recovered := rfl
  drains := rfl
  repeatedRecoveries := rfl

theorem launched_paired : Launched State.paired := by
  intro me
  simp only [State.paired]
  split
  · exact Client.launched_paired _ rfl
  split
  · exact Client.launched_paired _ rfl
  · exact Client.launched_fresh

theorem sendBlobs_paired {did : Did} (h : (State.paired.client me).send.blobs did = some blob) :
    (me = alice ∧ did = bob ∧ blob = pairedSession alice bob 0) ∨
      (me = bob ∧ did = alice ∧ blob = pairedSession bob alice 1) := by
  simp only [State.paired] at h
  split at h
  · rename_i hme
    simp only [Client.paired, ite_none_right_eq_some, some.injEq] at h
    exact .inl ⟨hme, h.1, h.2.symm⟩
  split at h
  · rename_i hme
    simp only [Client.paired, ite_none_right_eq_some, some.injEq] at h
    exact .inr ⟨hme, h.1, h.2.symm⟩
  · simp [Client.fresh] at h

theorem messages_paired (me did : Did) :
    (State.paired.client me).store.messagesByConversation did = [] := by
  simp only [State.paired]
  split
  · rfl
  · split <;> rfl

/-- The first text of Alice's session with Bob. -/
def firstText : Envelope :=
  ⟨2, alice, bob, .text, 1, 0, 0, ⟨alice, bob, 0⟩, ⟨false, .text "one"⟩⟩

/-- Alice restores the session and sends the text. -/
def firstTextSent : List (Move machine Cmd) :=
  List.flatten
    [[.start (.sendTextMessage alice bob "one" 1)], okTurns 1 2, okTurns 0 2,
     [.perform 0 (.stamped 1), .resume 0, .perform 0 (.relayed .delivered), .resume 0], okTurns 0 3]

/-- A text of Alice's second session with Bob, and the `KeyExchange` that announces it. -/
def secondSessionText : Envelope :=
  ⟨3, alice, bob, .text, 2, 0, 0, ⟨alice, bob, 2⟩, ⟨false, .text "one"⟩⟩

def secondSessionKeyExchange : Envelope :=
  ⟨2, alice, bob, .keyExchange, 1, 0, 0, ⟨alice, bob, 2⟩, ⟨false, .text ""⟩⟩

/-- Alice reconnects and sends the text, which reaches Bob before the `KeyExchange`. -/
def textBeforeKeyExchange : List (Move machine Cmd) :=
  List.flatten
    [[.start (.reconnectSession alice bob)], okTurns 1 1,
     [.perform 1 (.response ⟨bob, "", "pk"⟩), .resume 1], okTurns 1 2,
     [.perform 1 (.stamped 1), .resume 1, .perform 1 (.relayed .delivered), .resume 1], okTurns 1 2,
     okTurns 0 2, [.start (.sendTextMessage alice bob "one" 1)], okTurns 2 1,
     [.perform 2 (.stamped 2), .resume 2, .perform 2 (.relayed .delivered), .resume 2],
     [.start (.ingestEnvelopes bob [secondSessionText])], okTurns 3 5, failedTurn 3]

/-! ## What is kept for a peer -/

/-- The sessions that are kept for `did` were initiated for it, and the rows of its conversation and the
    texts in its buffer, which are at most 64, are sent or from it. -/
structure Client.KeptFor (did : Did) (c : Client) : Prop where
  cached : ∀ sid, c.send.sendSessionByDid did = some sid → c.send.HasSession sid did
  stored : ∀ blob, c.send.blobs did = some blob → blob.gen.peer = did
  rows : ∀ m ∈ c.store.messagesByConversation did, m.Ok did
  buffered : ∀ p ∈ c.pending.buffer did, p.Ok did
  short : (c.pending.buffer did).length ≤ PENDING_DECRYPT_LIMIT_PER_PEER

theorem Client.Inv.keptFor {c : Client} (h : c.Inv) (did : Did) : c.KeptFor did := by
  have hbuffer : (∀ p ∈ c.pending.buffer did, p.Ok did) ∧
      (c.pending.buffer did).length ≤ PENDING_DECRYPT_LIMIT_PER_PEER := by
    rw [PendingSide.buffer]
    split
    · exact ⟨fun _ hp => (nomatch hp), Nat.zero_le _⟩
    · rename_i ref href
      exact ⟨fun p hp => h.pending.refs did ref href ▸ h.pending.items ref p hp, h.pending.short ref⟩
  exact ⟨h.send.cached did, h.send.blobs did, h.store did, hbuffer.1, hbuffer.2⟩

/-- However the functions of all devices are interleaved, and whatever arrives and fails, every device keeps
    for a DID only what is for it or from it. -/
theorem kept_for_peer {w : Sys machine} (h : Reach .any prog Launched w) (me did : Did) :
    (State.client w.state me).KeptFor did := by
  have hinv := invariant_of_reach (J := fun _ => True) (fun _ hs => ⟨hs, trivial⟩)
    (fun _ _ _ _ _ _ _ _ => trivial) (fun _ _ _ => trivial) (fun _ _ _ _ _ _ _ _ _ _ => trivial) h
  exact (hinv.1 me).keptFor did

theorem kept_for_peer_textBeforeKeyExchange :
    ∃ w, (Sys.idle State.paired).run .any prog textBeforeKeyExchange = some w ∧
      ((State.client w.state bob).pending.buffer alice).length = 1 ∧
      (State.client w.state bob).KeptFor alice := by
  have hrun : ((Sys.idle (M := machine) State.paired).run .any prog textBeforeKeyExchange).map
      (fun w => ((State.client w.state bob).pending.buffer alice).length) = some 1 := by decide
  obtain ⟨w, hw, hlength⟩ := map_eq_some_iff.1 hrun
  exact ⟨w, hw, hlength, kept_for_peer (.of_run launched_paired hw) bob alice⟩

end Messaging
