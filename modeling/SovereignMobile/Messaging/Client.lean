import SovereignMobile.Messaging.Types

/-! # The state of one signed-in device

The module variables of `MessagingService.ts`, the store of `MessagingMockData.ts` and the native
sessions, cut into five parts that are updated independently of each other, and the synchronous
functions as operations on them. What is called history is read by no program: it records what has
happened, and for a running task what it is in the middle of. -/

namespace Messaging

/-! ## Outbound sessions -/

/-- The promise of one `initSendSession(did, …)`. -/
structure PromiseId where
  did : Did
  n : Nat
deriving DecidableEq

/-- History: a `tryRestoreSession(did, 'send')` in progress, with the blob it has read and the
    session that was made from it, once it was. -/
structure Restore where
  task : Nat
  did : Did
  blob : Session
  sid : Option Nat
deriving DecidableEq

/-- History: what `getSessionInfo` answered to a task that had sealed `origin`. -/
structure Position where
  origin : Envelope
  info : SessionInfo
deriving DecidableEq

/-- `sendSessionByDid`, `sendSessionInitInFlight` with the promises behind it, the blobs stored under
    `#send` and the native sessions made by `initiateSession` or restored from such a blob. History:
    the restores in progress, what was sealed last on each session, and the positions read. -/
structure SendSide where
  sendSessionByDid : Did → Option Nat
  sendSessionInitInFlight : Did → Option PromiseId
  promises : PromiseId → Option (Except Err Nat)
  nextPromise : Nat
  blobs : Did → Option Session
  native : Nat → Option Session
  nextNative : Nat
  restoring : List Restore
  lastSeal : Nat → Option Envelope
  positions : List Position

inductive SendOp where
  | setSession (did : Did) (sid : Nat)
  | beginRestore (did : Did)
  | restored (did : Did) (sid : Nat)
  | restoreFailed
  | setSerializedSession (did : Did) (sid : Nat) (blob : Session)
  | resetSendSession (did : Did)
  | newPromise
  | setInFlight (did : Did) (p : PromiseId)
  | settle (p : PromiseId) (r : Except Err Nat)
  | deleteInFlight (did : Did)

/-- `sendSessionByDid.set(did, sid)` -/
def SendSide.setSession (did : Did) (sid : Nat) (c : SendSide) : SendSide :=
  { c with sendSessionByDid := Function.update c.sendSessionByDid did (some sid) }

/-- Forget the outbound session: the cached identifier and the persisted blob. -/
def SendSide.resetSendSession (did : Did) (c : SendSide) : SendSide :=
  { c with
    sendSessionByDid := Function.update c.sendSessionByDid did none,
    blobs := Function.update c.blobs did none }

def SendSide.beginRestore (i : Nat) (did : Did) (c : SendSide) : SendSide :=
  match c.blobs did with
  | none => c
  | some blob => { c with restoring := c.restoring ++ [⟨i, did, blob, none⟩] }

def SendSide.endRestore (i : Nat) (c : SendSide) : SendSide :=
  { c with restoring := c.restoring.filter fun r => r.task ≠ i }

def SendOp.apply (i : Nat) (o : SendOp) (c : SendSide) : SendSide :=
  match o with
  | .setSession did sid => c.setSession did sid
  | .beginRestore did => c.beginRestore i did
  | .restored did sid => (c.endRestore i).setSession did sid
  | .restoreFailed => c.endRestore i
  | .setSerializedSession did _ blob =>
    { c with blobs := Function.update c.blobs did (some blob) }
  | .resetSendSession did => c.resetSendSession did
  | .newPromise => { c with nextPromise := c.nextPromise + 1 }
  | .setInFlight did p =>
    { c with sendSessionInitInFlight := Function.update c.sendSessionInitInFlight did (some p) }
  | .settle p r => { c with promises := Function.update c.promises p (some r) }
  | .deleteInFlight did =>
    { c with sendSessionInitInFlight := Function.update c.sendSessionInitInFlight did none }

/-! ## Inbound sessions -/

/-- `recvSessionByDid`, the blobs stored under `#recv` and the native sessions made by accepting a
    `KeyExchange` or restored from such a blob. History: the envelopes that were opened, and those of
    them that the task that opened them has not dealt with yet. -/
structure RecvSide where
  recvSessionByDid : Did → Option Nat
  blobs : Did → Option Session
  native : Nat → Option Session
  nextNative : Nat
  opened : List Envelope
  unsettled : List (Nat × Envelope)

inductive RecvOp where
  | setSession (did : Did) (sid : Nat)
  | setSerializedSession (did : Did) (blob : Session)
  | dismiss (e : Envelope)

/-- Task `i` has dealt with what it opened. -/
def RecvSide.settle (i : Nat) (c : RecvSide) : RecvSide :=
  { c with unsettled := c.unsettled.filter fun x => x.1 ≠ i }

def RecvOp.apply (i : Nat) (o : RecvOp) (c : RecvSide) : RecvSide :=
  match o with
  | .setSession did sid =>
    { c with recvSessionByDid := Function.update c.recvSessionByDid did (some sid) }
  | .setSerializedSession did blob =>
    { c with blobs := Function.update c.blobs did (some blob) }
  | .dismiss _ => c.settle i

/-! ## Contacts and rows -/

/-- The store. History: the rows that `confirmSentMessage` has marked, each with the `uid` that the
    receipt acknowledged. -/
structure Store where
  contactsByDid : Did → Option Contact
  messagesByConversation : Did → List LocalMessage
  unreadByDid : Did → Nat
  confirmed : List (LocalMessage × Nat)

/-- The fields `updateMessageStatus` patches, with the envelope they were read for. -/
structure RatchetPatch where
  epoch : Nat
  sequence : Nat
  origin : Envelope

inductive StoreOp where
  | upsertContact (did : Did) (contact : Contact)
  | appendMessage (did : Did) (msg : LocalMessage)
  | appendUndecryptablePlaceholder (e : Envelope)
  | updateMessageStatus (did : Did) (id : MessageId) (status : MessageStatus)
      (patch : Option RatchetPatch)
  | confirmSentMessage (did : Did) (seq epoch acked : Nat)

def Store.setMessages (did : Did) (rows : List LocalMessage) (c : Store) : Store :=
  { c with messagesByConversation := Function.update c.messagesByConversation did rows }

def Store.appendMessage (did : Did) (msg : LocalMessage) (c : Store) : Store :=
  let c' := c.setMessages did (c.messagesByConversation did ++ [msg])
  match msg.direction with
  | .received => { c' with unreadByDid := Function.update c.unreadByDid did (c.unreadByDid did + 1) }
  | .sent => c'

/-- Replace the first row that satisfies `p` by `f` of it. -/
def updateFirst (p : LocalMessage → Bool) (f : LocalMessage → LocalMessage) :
    List LocalMessage → List LocalMessage
  | [] => []
  | m :: ms => if p m then f m :: ms else m :: updateFirst p f ms

/-- `replaceMessage` with `some next`, `removeMessage` with `none`. -/
def Store.replaceMessage (did : Did) (oldId : MessageId) (next : Option LocalMessage)
    (c : Store) : Store :=
  match next with
  | some next =>
    c.setMessages did (updateFirst (fun m => m.id == oldId) (fun _ => next)
      (c.messagesByConversation did))
  | none => c.setMessages did ((c.messagesByConversation did).filter fun m => m.id != oldId)

/-- The row with the new status and, if there is a patch, the new position. -/
def LocalMessage.update (status : MessageStatus) (patch : Option RatchetPatch)
    (m : LocalMessage) : LocalMessage :=
  match patch with
  | none => { m with status := status }
  | some p =>
    { m with status := status, epoch := p.epoch, sequence := p.sequence, origin := p.origin }

/-- The rows that a receipt for `(seq, epoch)` is looked up among. -/
def LocalMessage.isSentAt (seq epoch : Nat) (m : LocalMessage) : Bool :=
  m.direction == .sent && m.sequence == seq && m.epoch == epoch

def Store.confirmSentMessage (did : Did) (seq epoch acked : Nat) (c : Store) : Store :=
  match (c.messagesByConversation did).find? (LocalMessage.isSentAt seq epoch) with
  | none => c
  | some m =>
    { c.setMessages did (updateFirst (LocalMessage.isSentAt seq epoch)
        (LocalMessage.update .read none) (c.messagesByConversation did)) with
      confirmed := c.confirmed ++ [(m, acked)] }

def Store.appendUndecryptablePlaceholder (e : Envelope) (c : Store) : Store :=
  if (c.messagesByConversation e.senderDid).any fun m => m.id == e.placeholderId then c
  else c.appendMessage e.senderDid e.placeholder

def StoreOp.apply (o : StoreOp) (c : Store) : Store :=
  match o with
  | .upsertContact did contact =>
    { c with contactsByDid := Function.update c.contactsByDid did (some contact) }
  | .appendMessage did msg => c.appendMessage did msg
  | .appendUndecryptablePlaceholder e => c.appendUndecryptablePlaceholder e
  | .updateMessageStatus did id status patch =>
    c.setMessages did (updateFirst (fun m => m.id == id) (LocalMessage.update status patch)
      (c.messagesByConversation did))
  | .confirmSentMessage did seq epoch acked => c.confirmSentMessage did seq epoch acked

/-! ## The pending-decrypt buffer -/

/-- An array of the buffer of `did`. -/
structure ArrayRef where
  did : Did
  n : Nat
deriving DecidableEq

/-- History: a `drainPendingDecrypt(did)` in progress, with the array it iterates over, the number
    of entries it has finished, those of them that it keeps, and the one it is working on. -/
structure Drain where
  task : Nat
  did : Did
  ref : ArrayRef
  taken : Nat
  remaining : List PendingDecrypt
  current : Option PendingDecrypt
deriving DecidableEq

/-- `pendingDecryptByDid`: a map to arrays, which the drains iterate over while others push to them,
    so the arrays live in a heap. History: every push, the tickets pushed out by the cap, the tickets
    whose placeholder row a drain has replaced or removed, and the drains in progress. -/
structure PendingSide where
  pendingDecryptByDid : Did → Option ArrayRef
  heap : ArrayRef → List PendingDecrypt
  nextRef : Nat
  pushed : List (Did × PendingDecrypt)
  evicted : List Nat
  recovered : List Nat
  drains : List Drain

def PENDING_DECRYPT_LIMIT_PER_PEER : Nat := 64

inductive PendingOp where
  | bufferUndecryptable (e : Envelope)
  | startDrain (did : Did) (ref : ArrayRef)
  | takeNext
  | keep
  | endDrain
  | setPending (did : Did) (remaining : List PendingDecrypt)

/-- The entries buffered for `did`. -/
def PendingSide.buffer (c : PendingSide) (did : Did) : List PendingDecrypt :=
  match c.pendingDecryptByDid did with
  | none => []
  | some ref => c.heap ref

/-- `pendingDecryptByDid.set(did, buf)` for the array at `ref`. -/
def PendingSide.setArray (did : Did) (ref : ArrayRef) (buf : List PendingDecrypt)
    (c : PendingSide) : PendingSide :=
  { c with
    pendingDecryptByDid := Function.update c.pendingDecryptByDid did (some ref),
    heap := Function.update c.heap ref buf,
    nextRef := max c.nextRef (ref.n + 1) }

/-- The entry that `bufferUndecryptable` would push. -/
def PendingSide.newItem (c : PendingSide) (e : Envelope) : PendingDecrypt :=
  ⟨e, e.placeholderId, c.pushed.length⟩

def PendingSide.bufferUndecryptable (e : Envelope) (c : PendingSide) : PendingSide :=
  let did := e.senderDid
  let buf := c.buffer did
  -- dedupe by placeholder id
  if buf.any fun p => p.placeholderId == e.placeholderId then c
  else
    let buf' := buf ++ [c.newItem e]
    let excess := buf'.length - PENDING_DECRYPT_LIMIT_PER_PEER
    { c.setArray did ((c.pendingDecryptByDid did).getD ⟨did, c.nextRef⟩) (buf'.drop excess) with
      pushed := c.pushed ++ [(did, c.newItem e)],
      evicted := c.evicted ++ (buf'.take excess).map PendingDecrypt.ticket }

def PendingSide.modifyDrain (i : Nat) (f : Drain → Drain) (c : PendingSide) : PendingSide :=
  { c with drains := c.drains.map fun d => if d.task = i then f d else d }

def PendingSide.endDrain (i : Nat) (c : PendingSide) : PendingSide :=
  { c with drains := c.drains.filter fun d => d.task ≠ i }

/-- Write the kept entries back; an empty list deletes the map entry. -/
def PendingSide.setPending (did : Did) (remaining : List PendingDecrypt) (c : PendingSide) :
    PendingSide :=
  if remaining.isEmpty then
    { c with pendingDecryptByDid := Function.update c.pendingDecryptByDid did none }
  else c.setArray did ⟨did, c.nextRef⟩ remaining

/-- The entry at the drain's place in its array. -/
def Drain.takeNext (heap : ArrayRef → List PendingDecrypt) (d : Drain) : Drain :=
  { d with current := (heap d.ref)[d.taken]? }

/-- `remaining.push(item)` -/
def Drain.keep (d : Drain) : Drain :=
  { d with taken := d.taken + 1, remaining := d.remaining ++ d.current.toList, current := none }

def Drain.drop (d : Drain) : Drain :=
  { d with taken := d.taken + 1, current := none }

def PendingOp.apply (i : Nat) (o : PendingOp) (c : PendingSide) : PendingSide :=
  match o with
  | .bufferUndecryptable e => c.bufferUndecryptable e
  | .startDrain did ref => { c with drains := c.drains ++ [⟨i, did, ref, 0, [], none⟩] }
  | .takeNext => c.modifyDrain i (Drain.takeNext c.heap)
  | .keep => c.modifyDrain i Drain.keep
  | .endDrain => c.endDrain i
  | .setPending did remaining => (c.endDrain i).setPending did remaining

/-! ## Recovery -/

/-- `recoveryAttemptAt` and `desyncedDids`. History: the envelopes whose processing has begun, and
    the recoveries that were started because of an envelope that had been processed before. -/
structure Health where
  recoveryAttemptAt : Did → Option Nat
  desyncedDids : Did → Bool
  seen : List Envelope
  repeatedRecoveries : List Did

def RECOVERY_COOLDOWN_MS : Nat := 60000

/-- `Date.now() - last < RECOVERY_COOLDOWN_MS` -/
def Health.coolingDown (c : Health) (did : Did) (now : Nat) : Bool :=
  now - (c.recoveryAttemptAt did).getD 0 < RECOVERY_COOLDOWN_MS

inductive HealthOp where
  | attemptRecovery (did : Did) (now : Nat) (repeated : Bool)
  | setRecoveryAttempt (did : Did) (now : Nat)
  | setDesynced (did : Did) (desynced : Bool)
  | see (e : Envelope)

def HealthOp.apply (o : HealthOp) (c : Health) : Health :=
  match o with
  | .attemptRecovery did now repeated =>
    if c.coolingDown did now then c
    else
      { c with
        recoveryAttemptAt := Function.update c.recoveryAttemptAt did (some now),
        repeatedRecoveries :=
          if repeated then c.repeatedRecoveries ++ [did] else c.repeatedRecoveries }
  | .setRecoveryAttempt did now =>
    { c with recoveryAttemptAt := Function.update c.recoveryAttemptAt did (some now) }
  | .setDesynced did desynced =>
    { c with desyncedDids := Function.update c.desyncedDids did desynced }
  | .see e => { c with seen := c.seen ++ [e] }

/-! ## One device -/

structure Client where
  send : SendSide
  recv : RecvSide
  store : Store
  pending : PendingSide
  health : Health

/-- Operations on one part, and those that touch several: `deliver` is the `appendMessage` of a
    received row, `recover` the `replaceMessage` or `removeMessage` of a drained entry. -/
inductive ClientOp where
  | send (o : SendOp)
  | recv (o : RecvOp)
  | store (o : StoreOp)
  | pending (o : PendingOp)
  | health (o : HealthOp)
  | deliver (did : Did) (msg : LocalMessage)
  | recover (did : Did) (item : PendingDecrypt) (next : Option LocalMessage)
  | deleteConversation (did : Did)

def Client.recover (i : Nat) (did : Did) (item : PendingDecrypt) (next : Option LocalMessage)
    (c : Client) : Client :=
  { c with
    recv := c.recv.settle i,
    store := c.store.replaceMessage did item.placeholderId next,
    pending :=
      { c.pending.modifyDrain i Drain.drop with
        recovered :=
          if (c.store.messagesByConversation did).any fun m => m.id == item.placeholderId then
            c.pending.recovered ++ [item.ticket]
          else c.pending.recovered } }

def Client.deleteConversation (did : Did) (c : Client) : Client where
  send := c.send.resetSendSession did
  recv :=
    { c.recv with
      recvSessionByDid := Function.update c.recv.recvSessionByDid did none,
      blobs := Function.update c.recv.blobs did none }
  store :=
    { c.store.setMessages did [] with
      contactsByDid := Function.update c.store.contactsByDid did none,
      unreadByDid := Function.update c.store.unreadByDid did 0 }
  pending :=
    { c.pending with
      pendingDecryptByDid := Function.update c.pending.pendingDecryptByDid did none }
  health :=
    { c.health with
      recoveryAttemptAt := Function.update c.health.recoveryAttemptAt did none,
      desyncedDids := Function.update c.health.desyncedDids did false }

def ClientOp.apply (i : Nat) (o : ClientOp) (c : Client) : Client :=
  match o with
  | .send o => { c with send := o.apply i c.send }
  | .recv o => { c with recv := o.apply i c.recv }
  | .store o => { c with store := o.apply c.store }
  | .pending o => { c with pending := o.apply i c.pending }
  | .health o => { c with health := o.apply c.health }
  | .deliver did msg =>
    { c with recv := c.recv.settle i, store := c.store.appendMessage did msg }
  | .recover did item next => c.recover i did item next
  | .deleteConversation did => c.deleteConversation did

end Messaging
