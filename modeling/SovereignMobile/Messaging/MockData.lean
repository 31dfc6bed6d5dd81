import Mathlib.Data.List.AList
import SovereignMobile.Messaging.Types

/-! # The messaging store and its persistence

`MessagingMockData.ts` keeps contacts, rows, unread counts and session blobs of the live DID in four
`Map`s, and `MessagingStorage.ts` one snapshot of them per DID in the keychain. A switch of the DID
clears the maps and starts a load, a write schedules a save. What happens in between is a sequence of
events: calls of the write API, the timer, the keychain, and the end of the process. -/

namespace MessagingMockData

open Messaging List

/-- A `Map` or an object, of which the order of the entries does not matter here. -/
abbrev Map (κ ν : Type) := AList fun _ : κ => ν

/-- A row; `ref` is history: the number of the write that brought it in. -/
structure Row where
  ref : Nat
  msg : LocalMessage
deriving DecidableEq

structure Store where
  contactsByDid : Map Did Contact
  messagesByConversation : Map Did (List Row)
  unreadByDid : Map Did Nat
  serializedSessionsByDid : Map String String
deriving DecidableEq

/-- `clearAll()` -/
def Store.empty : Store := ⟨∅, ∅, ∅, ∅⟩

structure MessagingStateBlob where
  version : Nat
  contacts : Map Did Contact
  messages : Map Did (List Row)
  unread : Map Did Nat
  sessions : Map String String
deriving DecidableEq

def Store.snapshot (c : Store) : MessagingStateBlob :=
  ⟨1, c.contactsByDid, c.messagesByConversation, c.unreadByDid, c.serializedSessionsByDid⟩

/-- A blob, read as a store. -/
def MessagingStateBlob.store (blob : MessagingStateBlob) : Store :=
  ⟨blob.contacts, blob.messages, blob.unread, blob.sessions⟩

def Store.getMessages (did : Did) (c : Store) : List Row :=
  (c.messagesByConversation.lookup did).getD []

/-- `unreadByDid.get(did) ?? 0` -/
def Store.unreadCount (did : Did) (c : Store) : Nat := (c.unreadByDid.lookup did).getD 0

/-- `map.set(k, v)` for the entries of `src` that are kept. -/
def setAll {κ ν : Type} [DecidableEq κ] (keep : ν → Bool) (src map : Map κ ν) : Map κ ν :=
  src.entries.foldl (fun m e => if keep e.2 then m.insert e.1 e.2 else m) map

def Store.hydrateFromBlob (blob : MessagingStateBlob) (c : Store) : Store where
  contactsByDid := setAll (fun _ => true) blob.contacts c.contactsByDid
  messagesByConversation := setAll (fun _ => true) blob.messages c.messagesByConversation
  unreadByDid := setAll (fun _ => true) blob.unread c.unreadByDid
  serializedSessionsByDid :=
    setAll (fun b64 => 0 < b64.length) blob.sessions c.serializedSessionsByDid

/-! ## The write API -/

def Store.setMessages (did : Did) (rows : List Row) (c : Store) : Store :=
  { c with messagesByConversation := c.messagesByConversation.insert did rows }

def Store.setUnread (did : Did) (n : Nat) (c : Store) : Store :=
  { c with unreadByDid := c.unreadByDid.insert did n }

def Store.upsertContact (did : Did) (contact : Contact) (c : Store) : Store :=
  { c with contactsByDid := c.contactsByDid.insert did contact }

def Store.appendMessage (did : Did) (row : Row) (c : Store) : Store :=
  let c' := c.setMessages did (c.getMessages did ++ [row])
  match row.msg.direction with
  | .received => c'.setUnread did (c.unreadCount did + 1)
  | .sent => c'

/-- The functions below return early, without `notify()`, where they find nothing to do. -/
def Store.markRead (did : Did) (c : Store) : Option Store :=
  if c.unreadCount did = 0 then none else some (c.setUnread did 0)

/-- The first row that satisfies `p` becomes `f` of it. -/
def Store.modifyFirst (did : Did) (p : Row → Bool) (f : Row → Row) (c : Store) : Option Store :=
  match c.messagesByConversation.lookup did with
  | none => none
  | some arr => (arr.findIdx? p).map fun idx => c.setMessages did (arr.modify idx f)

def Store.replaceMessage (did : Did) (oldId : MessageId) (next : Row) (c : Store) : Option Store :=
  c.modifyFirst did (fun m => m.msg.id = oldId) fun _ => next

def Store.removeMessage (did : Did) (id : MessageId) (c : Store) : Option Store :=
  match c.messagesByConversation.lookup did with
  | none => none
  | some arr =>
    -- the unread count is left alone
    let filtered := arr.filter fun m => m.msg.id ≠ id
    if filtered.length = arr.length then none else some (c.setMessages did filtered)

/-- The row with a new status and, if there is a patch, a new epoch and sequence. -/
def Row.patched (status : MessageStatus) (patch : Option (Nat × Nat)) (m : Row) : Row :=
  match patch with
  | none => { m with msg := { m.msg with status := status } }
  | some (epoch, sequence) =>
    { m with msg := { m.msg with status := status, epoch := epoch, sequence := sequence } }

def Store.updateMessageStatus (did : Did) (id : MessageId) (status : MessageStatus)
    (patch : Option (Nat × Nat)) (c : Store) : Option Store :=
  c.modifyFirst did (fun m => m.msg.id = id) (Row.patched status patch)

def Store.confirmSentMessage (did : Did) (seq epoch : Nat) (c : Store) : Option Store :=
  c.modifyFirst did
    (fun m => m.msg.direction = .sent && m.msg.sequence = seq && m.msg.epoch = epoch)
    (Row.patched .read none)

def Store.clearSerializedSession (key : String) (c : Store) : Option Store :=
  if key ∈ c.serializedSessionsByDid then
    some { c with serializedSessionsByDid := c.serializedSessionsByDid.erase key }
  else none

def Store.deleteConversation (did : Did) (c : Store) : Store where
  contactsByDid := c.contactsByDid.erase did
  messagesByConversation := c.messagesByConversation.erase did
  unreadByDid := c.unreadByDid.erase did
  serializedSessionsByDid := c.serializedSessionsByDid.erase did

inductive StoreOp where
  | upsertContact (did : Did) (contact : Contact)
  | appendMessage (did : Did) (msg : LocalMessage)
  | markRead (did : Did)
  | replaceMessage (did : Did) (oldId : MessageId) (next : LocalMessage)
  | removeMessage (did : Did) (id : MessageId)
  | updateMessageStatus (did : Did) (id : MessageId) (status : MessageStatus)
      (patch : Option (Nat × Nat))
  | confirmSentMessage (did : Did) (seq epoch : Nat)
  | setSerializedSession (key blobB64 : String)
  | clearSerializedSession (key : String)
  | deleteConversation (did : Did)

/-- `none` where the function returns without `notify()`; a new row gets the number `ref`. -/
def StoreOp.apply (o : StoreOp) (ref : Nat) (c : Store) : Option Store :=
  match o with
  | .upsertContact did contact => some (c.upsertContact did contact)
  | .appendMessage did msg => some (c.appendMessage did ⟨ref, msg⟩)
  | .markRead did => c.markRead did
  | .replaceMessage did oldId next => c.replaceMessage did oldId ⟨ref, next⟩
  | .removeMessage did id => c.removeMessage did id
  | .updateMessageStatus did id status patch => c.updateMessageStatus did id status patch
  | .confirmSentMessage did seq epoch => c.confirmSentMessage did seq epoch
  | .setSerializedSession key blobB64 =>
    some { c with serializedSessionsByDid := c.serializedSessionsByDid.insert key blobB64 }
  | .clearSerializedSession key => c.clearSerializedSession key
  | .deleteConversation did => some (c.deleteConversation did)

/-! ## The keychain -/

def SERVICE_PREFIX : String := "sovnet_messaging_v1_"

/-- The last 16 characters of the DID without `did:zhtp:` -/
def serviceFor (selfDid : Did) : String :=
  let did := selfDid.toList
  let hex := if "did:zhtp:".toList.isPrefixOf did then did.drop "did:zhtp:".toList.length else did
  SERVICE_PREFIX ++ String.ofList (hex.drop (hex.length - 16))

/-- What `loadMessagingState` makes of the stored entry; `readable` is false where
    `getGenericPassword` or `JSON.parse` throws. -/
def loadMessagingState (stored : Option MessagingStateBlob) (readable : Bool) :
    Option MessagingStateBlob :=
  match stored with
  | none => none
  | some parsed => if readable && parsed.version = 1 then some parsed else none

/-- The result of a load; `missed` is history: what was stored and could not be read. -/
structure LoadResult where
  blob : Option MessagingStateBlob
  missed : Option MessagingStateBlob
deriving DecidableEq

/-- A `loadMessagingState(next)` that has not resolved, with its result once it has read. -/
structure Load where
  next : Did
  result : Option LoadResult
deriving DecidableEq

/-- A `saveMessagingState(did, blob)` under way. `guarded` is history: the blob that the activation
    in which its timer fired could not read. -/
structure Save where
  did : Did
  blob : MessagingStateBlob
  guarded : Option MessagingStateBlob
deriving DecidableEq

/-- History: a row that was appended to the conversation `conv` while `self` was live. -/
structure Owed where
  self : Did
  conv : Did
  ref : Nat
deriving DecidableEq

/-- The module variables, the keychain, and its calls under way. History: the load that the current
    activation started, the stored blob that a load of it missed, the missed blobs that were replaced,
    each with the snapshot in its place, and the rows appended and not removed again. -/
structure State where
  liveSelfDid : Option Did
  store : Store
  saveEnabled : Bool
  saveTimer : Option Did
  keychain : Map String MessagingStateBlob
  loads : Map Nat Load
  saves : List Save
  nextLoad : Nat
  nextRef : Nat
  activation : Option Nat
  unreadable : Option MessagingStateBlob
  replaced : List (MessagingStateBlob × MessagingStateBlob)
  owed : List Owed
deriving DecidableEq

/-- The module as it is loaded, with what the keychain holds then; rows get numbers that none of its
    rows has. -/
def State.launch (keychain : Map String MessagingStateBlob) : State where
  liveSelfDid := none
  store := Store.empty
  saveEnabled := false
  saveTimer := none
  keychain := keychain
  loads := ∅
  saves := []
  nextLoad := 0
  nextRef := (keychain.entries.flatMap fun x => x.2.messages.entries.flatMap fun conversation =>
    conversation.2).foldl (fun n row => n + row.ref + 1) 0
  activation := none
  unreadable := none
  replaced := []
  owed := []

/-! ## Events -/

def State.scheduleSave (s : State) : State :=
  if s.saveEnabled then
    match s.liveSelfDid with
    | none => s
    | some did => { s with saveTimer := some did }
  else s

/-- `did && did.length > 0 ? did : null` -/
def nextDid (did : Option Did) : Option Did := did.filter fun d => d ≠ ""

def State.setSelfDid (did : Option Did) (s : State) : State :=
  if nextDid did = s.liveSelfDid then s
  else
    -- a timer that has not fired is cleared, and what it would have saved goes with the maps
    let s' := { s with
      saveEnabled := false, saveTimer := none, liveSelfDid := nextDid did, store := Store.empty,
      activation := none, unreadable := none }
    match nextDid did with
    | none => s'
    | some next =>
      { s' with
        loads := s'.loads.insert s'.nextLoad ⟨next, none⟩,
        nextLoad := s'.nextLoad + 1,
        activation := some s'.nextLoad }

/-- The store has the row. -/
def Store.has (c : Store) (conv : Did) (ref : Nat) : Bool :=
  (c.getMessages conv).any fun row => row.ref = ref

/-- What is owed once a write has made `c'` of the store: no more what it took out. -/
def State.stillOwed (c' : Store) (s : State) : List Owed :=
  s.owed.filter fun o =>
    s.liveSelfDid ≠ some o.self || !s.store.has o.conv o.ref || c'.has o.conv o.ref

/-- The row that the write appends. -/
def State.newlyOwed (o : StoreOp) (s : State) : List Owed :=
  match o, s.liveSelfDid with
  | .appendMessage did _, some self => [⟨self, did, s.nextRef⟩]
  | _, _ => []

def State.write (o : StoreOp) (s : State) : State :=
  match o.apply s.nextRef s.store with
  | none => s
  | some c' =>
    State.scheduleSave { s with
      store := c', nextRef := s.nextRef + 1, owed := s.stillOwed c' ++ s.newlyOwed o }

/-- The callback of `setTimeout` -/
def State.timerFires (s : State) : State :=
  match s.saveTimer with
  | none => s
  | some did =>
    { s with
      saveTimer := none, saves := s.saves ++ [⟨did, s.store.snapshot, s.unreadable⟩] }

/-- What a load gets that reads the keychain now. -/
def State.readResult (did : Did) (readable : Bool) (s : State) : LoadResult :=
  let stored := s.keychain.lookup (serviceFor did)
  let blob := loadMessagingState stored readable
  ⟨blob, if blob = none then stored else none⟩

/-- Load `n` reads the keychain. -/
def State.read (n : Nat) (readable : Bool) (s : State) : State :=
  match s.loads.lookup n with
  | some ⟨next, none⟩ =>
    { s with loads := s.loads.insert n ⟨next, some (s.readResult next readable)⟩ }
  | _ => s

/-- The callback of `loadMessagingState(next).then` for the live DID -/
def State.hydrate (result : LoadResult) (s : State) : State :=
  match result.blob with
  -- nothing was stored, or it could not be read
  | none =>
    { s with saveEnabled := true, unreadable := result.missed.or s.unreadable }
  | some blob =>
    { State.scheduleSave { s with store := s.store.hydrateFromBlob blob } with saveEnabled := true }

/-- Load `n` resolves. -/
def State.loaded (n : Nat) (s : State) : State :=
  match s.loads.lookup n with
  | some ⟨next, some result⟩ =>
    let s' := { s with loads := s.loads.erase n }
    -- the DID is compared, not the activation that the load belongs to
    if s.liveSelfDid = some next then s'.hydrate result else s'
  | _ => s

/-- The `k`-th of the saves under way comes to its end. -/
def State.saved (k : Nat) (ok : Bool) (s : State) : State :=
  match s.saves[k]? with
  | none => s
  | some save =>
    if ok then
      { s with
        saves := s.saves.eraseIdx k,
        keychain := s.keychain.insert (serviceFor save.did) save.blob,
        replaced := s.replaced ++ (save.guarded.map fun blob => (blob, save.blob)).toList }
    else { s with saves := s.saves.eraseIdx k }

/-- `relaunch` is the end of the process; what the keychain holds is there for the next one. -/
inductive Event where
  | relaunch
  | setSelfDid (did : Option Did)
  | write (o : StoreOp)
  | timerFires
  | read (n : Nat) (readable : Bool)
  | loaded (n : Nat)
  | saved (k : Nat) (ok : Bool)

def step (s : State) : Event → State
  | .relaunch => State.launch s.keychain
  | .setSelfDid did => s.setSelfDid did
  | .write o => s.write o
  | .timerFires => s.timerFires
  | .read n readable => s.read n readable
  | .loaded n => s.loaded n
  | .saved k ok => s.saved k ok

/-- Only the timer may change: it is then one for the live DID. -/
theorem scheduleSave_eq (s : State) : ∃ timer, s.scheduleSave = { s with saveTimer := timer } ∧
    (timer = s.saveTimer ∨ s.saveEnabled = true ∧ timer = s.liveSelfDid) := by
  unfold State.scheduleSave
  split
  · rename_i henabled
    split
    · exact ⟨s.saveTimer, rfl, .inl rfl⟩
    · rename_i did hlive
      exact ⟨some did, rfl, .inr ⟨henabled, hlive.symm⟩⟩
  · exact ⟨s.saveTimer, rfl, .inl rfl⟩

theorem hydrate_eq (result : LoadResult) (s : State) : ∃ timer, s.hydrate result = { s with
      store := (result.blob.map fun blob => s.store.hydrateFromBlob blob).getD s.store,
      saveEnabled := true, saveTimer := timer,
      unreadable := if result.blob = none then result.missed.or s.unreadable else s.unreadable } ∧
    (timer = s.saveTimer ∨ s.saveEnabled = true ∧ timer = s.liveSelfDid) := by
  unfold State.hydrate
  split
  · rename_i hnone
    refine ⟨s.saveTimer, ?_, .inl rfl⟩
    rw [hnone]
    rfl
  · rename_i blob hsome
    obtain ⟨timer, he, htimer⟩ := scheduleSave_eq { s with store := s.store.hydrateFromBlob blob }
    refine ⟨timer, ?_, htimer⟩
    rw [he, hsome]
    rfl

/-- A write changes nothing, or the store, the history of it and the timer. -/
theorem write_eq (o : StoreOp) (s : State) : o.apply s.nextRef s.store = none ∧ s.write o = s ∨
    ∃ c' timer, o.apply s.nextRef s.store = some c' ∧ s.write o = { s with
      store := c', saveTimer := timer, nextRef := s.nextRef + 1,
      owed := s.stillOwed c' ++ s.newlyOwed o } ∧
    (timer = s.saveTimer ∨ s.saveEnabled = true ∧ timer = s.liveSelfDid) := by
  unfold State.write
  split
  · rename_i hnone
    exact .inl ⟨hnone, rfl⟩
  rename_i c' hsome
  obtain ⟨timer, he, htimer⟩ := scheduleSave_eq { s with
    store := c', nextRef := s.nextRef + 1, owed := s.stillOwed c' ++ s.newlyOwed o }
  exact .inr ⟨c', timer, hsome, he, htimer⟩

/-! ## Reading the maps -/

theorem lookup_setAll {κ ν : Type} [DecidableEq κ] (src map : Map κ ν) (k : κ) :
    (setAll (fun _ => true) src map).lookup k = (src.lookup k).or (map.lookup k) := by
  obtain ⟨l, hl⟩ := src
  unfold setAll AList.lookup
  induction l generalizing map with
  | nil => simp
  | cons e l ih =>
    obtain ⟨k', v⟩ := e
    rw [nodupKeys_cons] at hl
    have htail := ih (map.insert k' v) hl.2
    rw [foldl_cons]
    refine htail.trans ?_
    by_cases hk : k = k'
    · subst hk
      have hnone : l.dlookup k = none := dlookup_eq_none.2 hl.1
      have hself : (map.insert k v).lookup k = some v := AList.lookup_insert map
      unfold AList.lookup at hself
      rw [hnone, hself, dlookup_cons_eq]
      rfl
    · have hother : (map.insert k' v).lookup k = map.lookup k := AList.lookup_insert_ne hk
      unfold AList.lookup at hother
      rw [hother, dlookup_cons_ne _ _ hk]

section Lookup
variable {κ ν : Type} [DecidableEq κ] {m : Map κ ν} {k k' : κ} {v w : ν}

theorem lookup_of_insert (h : (m.insert k v).lookup k' = some w) :
    k' = k ∧ v = w ∨ m.lookup k' = some w := by
  by_cases hk : k' = k
  · rw [hk, AList.lookup_insert] at h
    exact .inl ⟨hk, Option.some.inj h⟩
  · rw [AList.lookup_insert_ne hk] at h
    exact .inr h

theorem lookup_of_erase (h : (m.erase k).lookup k' = some w) : m.lookup k' = some w := by
  by_cases hk : k' = k
  · rw [hk] at h
    simp at h
  · rwa [AList.lookup_erase_ne hk] at h

end Lookup

section Reads
variable {c : Store} {did did' : Did}

theorem getMessages_setMessages (rows : List Row) :
    (c.setMessages did rows).getMessages did = rows := by
  simp [Store.getMessages, Store.setMessages]

theorem getMessages_setMessages_ne (rows : List Row) (h : did' ≠ did) :
    (c.setMessages did rows).getMessages did' = c.getMessages did' := by
  simp [Store.getMessages, Store.setMessages, AList.lookup_insert_ne h]

theorem unreadCount_setUnread (n : Nat) : (c.setUnread did n).unreadCount did = n := by
  simp [Store.unreadCount, Store.setUnread]

theorem unreadCount_setUnread_ne (n : Nat) (h : did' ≠ did) :
    (c.setUnread did n).unreadCount did' = c.unreadCount did' := by
  simp [Store.unreadCount, Store.setUnread, AList.lookup_insert_ne h]

end Reads

end MessagingMockData
