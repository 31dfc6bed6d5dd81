import SovereignMobile.EventLoop.Sequential
import SovereignMobile.Messaging.StoreOps
import Mathlib.Data.List.Nodup

/-! # Row ids and unread counts

Ids come from timestamps, epochs and sequences, which start again with each session, and the unread
count of a conversation is kept apart from its rows. Both are right after a sequence of events exactly
if no write and no hydration of it got in their way. -/

namespace MessagingMockData

open Messaging EventLoop
open Store (getMessages unreadCount)

def ids (rows : List Row) : List MessageId := rows.map fun r => r.msg.id

/-- The number of received rows. -/
def received (rows : List Row) : Nat := rows.countP fun r => r.msg.direction = .received

/-- The rows of a conversation have different ids, and no more are unread than were received. -/
structure ConversationRight (rows : List Row) (unread : Nat) : Prop where
  distinct : (ids rows).Nodup
  unread_le : unread ≤ received rows

def StoreRight (c : Store) : Prop :=
  ∀ did, ConversationRight (c.getMessages did) (c.unreadCount did)

/-! ## The writes of the messaging service -/

/-- A row that the service appends to `did`: a placeholder that is not there yet, a received or a sent
    message. -/
def appendedAsCalled (c : Store) (did : Did) (msg : LocalMessage) : Bool :=
  match msg.id with
  | .undecryptable sender epoch sequence => sender = did && epoch = msg.epoch &&
      sequence = msg.sequence && msg.direction = .received && !(ids (c.getMessages did)).contains msg.id
  | .recv timestamp sequence => timestamp = msg.timestamp && sequence = msg.sequence &&
      msg.direction = .received
  | .sentLocally _ _ => msg.direction = .sent

def isPlaceholderOf (did : Did) : MessageId → Bool
  | .undecryptable sender _ _ => sender = did
  | _ => false

def isReceivedRow (msg : LocalMessage) : Bool :=
  match msg.id with
  | .recv timestamp sequence => timestamp = msg.timestamp && sequence = msg.sequence &&
      msg.direction = .received
  | _ => false

/-- Only placeholders are replaced, by received messages, or removed. -/
def asCalled (s : State) : Event → Bool
  | .write (.appendMessage did msg) => appendedAsCalled s.store did msg
  | .write (.replaceMessage did oldId next) => isPlaceholderOf did oldId && isReceivedRow next
  | .write (.removeMessage did id) => isPlaceholderOf did id
  | _ => true

/-! ## The condition -/

/-- A new row, or one that takes the place of a placeholder, has a new id; a placeholder is removed
    only if it was read. -/
def writeKeepsRight (c : Store) : StoreOp → Bool
  | .appendMessage did msg => !(ids (c.getMessages did)).contains msg.id
  | .replaceMessage did oldId next => !(ids (c.getMessages did)).contains oldId ||
      !(ids (c.getMessages did)).contains next.id
  | .removeMessage did id =>
    c.unreadCount did ≤ received ((c.getMessages did).filter fun m => m.msg.id ≠ id)
  | _ => true

/-- Where the blob has rows of a conversation but no unread count, no more are unread in memory than
    it has received rows. -/
def hydrateKeepsRight (blob : MessagingStateBlob) (c : Store) : Bool :=
  blob.messages.entries.all fun e => e.1 ∈ blob.unread || c.unreadCount e.1 ≤ received e.2

def keepsRight (s : State) : Event → Bool
  | .write o => writeKeepsRight s.store o
  | .loaded n =>
    match s.loads.lookup n with
    | some ⟨next, some ⟨some blob, _⟩⟩ =>
      s.liveSelfDid ≠ some next || hydrateKeepsRight blob s.store
    | _ => true
  | _ => true

/-! ## Rows -/

section Rows
variable {rows : List Row}

theorem received_append (row : Row) : received (rows ++ [row]) =
    received rows + if row.msg.direction = .received then 1 else 0 := by
  simp [received, List.countP_append]

/-- A change of the row at `idx` that does not show in `g`. -/
theorem map_modify {β : Type} (g : Row → β) (f : Row → Row) (idx : Nat)
    (h : ∀ r, rows[idx]? = some r → g (f r) = g r) : (rows.modify idx f).map g = rows.map g := by
  induction rows generalizing idx with
  | nil => simp
  | cons r rows ih =>
    cases idx with
    | zero => simp [h r (by simp)]
    | succ idx => simp [ih idx fun r' hr' => h r' (by simpa using hr')]

theorem received_eq (rows : List Row) :
    received rows = (rows.map fun r => r.msg.direction).countP fun d => d = .received := by
  simp [received, Function.comp_def]

theorem received_modify (f : Row → Row) (idx : Nat)
    (h : ∀ r, rows[idx]? = some r → (f r).msg.direction = r.msg.direction) :
    received (rows.modify idx f) = received rows := by
  rw [received_eq, received_eq, map_modify (fun r => r.msg.direction) f idx h]

theorem nodup_set_iff {α : Type} {l : List α} (h : l.Nodup) {idx : Nat} {a x : α}
    (ha : l[idx]? = some a) (hne : x ≠ a) : (l.set idx x).Nodup ↔ x ∉ l := by
  induction l generalizing idx with
  | nil => simp at ha
  | cons b l ih =>
    rw [List.nodup_cons] at h
    cases idx with
    | zero =>
      obtain rfl : b = a := by simpa using ha
      simp [h.2, hne]
    | succ idx =>
      rw [List.set_cons_succ, List.nodup_cons, ih h.2 (by simpa using ha), List.mem_cons, not_or]
      constructor
      · rintro ⟨hb, hx⟩
        refine ⟨?_, hx⟩
        rintro rfl
        have hlt : idx < l.length := by
          have hsome : l[idx]? = some a := by simpa using ha
          exact (List.getElem?_eq_some_iff.1 hsome).1
        exact hb (List.mem_set hlt x)
      · rintro ⟨hxb, hx⟩
        refine ⟨fun hb => ?_, hx⟩
        rcases List.mem_or_eq_of_mem_set hb with hb | hb
        · exact h.1 hb
        · exact hxb hb.symm

theorem ids_modify (next : Row) (idx : Nat) :
    ids (rows.modify idx fun _ => next) = (ids rows).set idx next.msg.id := by
  induction rows generalizing idx with
  | nil => simp [ids]
  | cons r rows ih =>
    cases idx with
    | zero => simp [ids]
    | succ idx => simpa [ids] using ih idx

end Rows

/-! ## Single writes -/

section Writes
variable {c c' : Store} {did : Did}

/-- A change that concerns one conversation. -/
theorem storeRight_iff (did : Did) (h : StoreRight c)
    (hrows : ∀ d, d ≠ did → c'.getMessages d = c.getMessages d)
    (hunread : ∀ d, d ≠ did → c'.unreadCount d = c.unreadCount d) :
    StoreRight c' ↔ ConversationRight (c'.getMessages did) (c'.unreadCount did) := by
  refine ⟨fun h' => h' did, fun h' d => ?_⟩
  by_cases hd : d = did
  · exact hd ▸ h'
  · rw [hrows d hd, hunread d hd]
    exact h d

theorem storeRight_setMessages_iff (h : StoreRight c) (rows : List Row) :
    StoreRight (c.setMessages did rows) ↔ ConversationRight rows (c.unreadCount did) := by
  rw [storeRight_iff did h (fun d hd => getMessages_setMessages_ne rows hd) fun d hd => rfl,
    getMessages_setMessages]
  exact .rfl

theorem storeRight_append_iff (h : StoreRight c) (row : Row) :
    StoreRight (c.appendMessage did row) ↔ row.msg.id ∉ ids (c.getMessages did) := by
  have hids : (ids (c.getMessages did ++ [row])).Nodup ↔ row.msg.id ∉ ids (c.getMessages did) := by
    have hold := (h did).distinct
    simp only [ids, List.map_append, List.map_singleton] at hold ⊢
    rw [List.nodup_append_comm, List.singleton_append, List.nodup_cons]
    exact and_iff_left hold
  have hle := (h did).unread_le
  unfold Store.appendMessage
  split
  · rename_i hdir
    rw [storeRight_iff did h]
    · rw [unreadCount_setUnread]
      have hrows : ((c.setMessages did (c.getMessages did ++ [row])).setUnread did
          (c.unreadCount did + 1)).getMessages did = c.getMessages did ++ [row] :=
        getMessages_setMessages _
      rw [hrows, ← hids]
      refine ⟨ConversationRight.distinct, fun hd => ⟨hd, ?_⟩⟩
      rw [received_append, if_pos hdir]
      omega
    · exact fun d hd => getMessages_setMessages_ne _ hd
    · exact fun d hd => unreadCount_setUnread_ne _ hd
  · rename_i hdir
    rw [storeRight_setMessages_iff h, ← hids]
    refine ⟨ConversationRight.distinct, fun hd => ⟨hd, ?_⟩⟩
    rw [received_append]
    omega

theorem StoreRight.markRead (h : StoreRight c) (hc : c.markRead did = some c') : StoreRight c' := by
  unfold Store.markRead at hc
  split at hc
  · simp at hc
  cases hc
  have hrows : ∀ d, d ≠ did → (c.setUnread did 0).getMessages d = c.getMessages d :=
    fun _ _ => rfl
  rw [storeRight_iff did h hrows fun d hd => unreadCount_setUnread_ne 0 hd]
  rw [unreadCount_setUnread]
  exact ⟨(h did).distinct, Nat.zero_le _⟩

theorem StoreRight.deleteConversation (h : StoreRight c) :
    StoreRight (c.deleteConversation did) := by
  rw [storeRight_iff did h]
  · rw [getMessages_deleteConversation, if_pos rfl]
    refine ⟨List.nodup_nil, ?_⟩
    simp [unreadCount, Store.deleteConversation]
  · intro d hd
    rw [getMessages_deleteConversation, if_neg hd]
  · intro d hd
    simp [unreadCount, Store.deleteConversation, AList.lookup_erase_ne hd]

theorem StoreRight.modifyFirst (h : StoreRight c) {p : Row → Bool} {f : Row → Row}
    (hid : ∀ r, (f r).msg.id = r.msg.id) (hdir : ∀ r, (f r).msg.direction = r.msg.direction)
    (hc : c.modifyFirst did p f = some c') : StoreRight c' := by
  obtain ⟨idx, r, -, -, rfl⟩ := modifyFirst_eq_some hc
  rw [storeRight_setMessages_iff h]
  refine ⟨?_, ?_⟩
  · unfold ids
    rw [map_modify _ f idx fun r _ => hid r]
    exact (h did).distinct
  · rw [received_modify f idx fun r _ => hdir r]
    exact (h did).unread_le

/-- Placeholders are received rows. -/
def Formed (c : Store) : Prop :=
  ∀ did, ∀ r ∈ c.getMessages did, isPlaceholderOf did r.msg.id = true → r.msg.direction = .received

/-- A received message takes the place of a placeholder. -/
theorem storeRight_replace_iff (h : StoreRight c) (hf : Formed c) {oldId : MessageId} {next : Row}
    (hold : isPlaceholderOf did oldId = true) (hnext : isReceivedRow next.msg = true)
    (hc : c.replaceMessage did oldId next = some c') :
    StoreRight c' ↔ next.msg.id ∉ ids (c.getMessages did) := by
  obtain ⟨idx, r, hr, hp, rfl⟩ := modifyFirst_eq_some hc
  have hid : r.msg.id = oldId := of_decide_eq_true hp
  have hdir : r.msg.direction = .received :=
    hf did r (List.mem_of_getElem? hr) (by rw [hid]; exact hold)
  obtain ⟨hnextdir, hne⟩ : next.msg.direction = .received ∧ next.msg.id ≠ oldId := by
    unfold isReceivedRow at hnext
    split at hnext
    · rename_i t q hrecv
      simp only [Bool.and_eq_true, decide_eq_true_eq] at hnext
      refine ⟨hnext.2, fun he => ?_⟩
      rw [← he, hrecv] at hold
      simp [isPlaceholderOf] at hold
    · simp at hnext
  have hat : (ids (c.getMessages did))[idx]? = some oldId := by
    simp [ids, hr, hid]
  -- both rows are received ones, so the counts agree and only the ids are in question
  rw [storeRight_setMessages_iff h, ← nodup_set_iff (h did).distinct hat hne, ← ids_modify]
  refine ⟨ConversationRight.distinct, fun hd => ⟨hd, ?_⟩⟩
  rw [received_modify]
  · exact (h did).unread_le
  intro r' hr'
  obtain rfl : r = r' := Option.some.inj (hr.symm.trans hr')
  rw [hdir, hnextdir]

theorem storeRight_remove_iff (h : StoreRight c) {id : MessageId}
    (hc : c.removeMessage did id = some c') : StoreRight c' ↔
      c.unreadCount did ≤ received ((c.getMessages did).filter fun m => m.msg.id ≠ id) := by
  unfold Store.removeMessage at hc
  split at hc
  · simp at hc
  rename_i arr harr
  have hrows : c.getMessages did = arr := by simp [getMessages, harr]
  dsimp only at hc
  split at hc
  · simp at hc
  rw [← Option.some.inj hc, storeRight_setMessages_iff h, hrows]
  refine ⟨ConversationRight.unread_le, fun hle => ⟨?_, hle⟩⟩
  have hd := (h did).distinct
  rw [hrows] at hd
  exact hd.sublist (List.filter_sublist.map _)

variable {o : StoreOp} {ref : Nat} {s : State}

theorem writeKeepsRight_of_none (h : StoreRight c) (hc : o.apply ref c = none) :
    writeKeepsRight c o = true := by
  cases o with
  | appendMessage did msg => simp [StoreOp.apply] at hc
  | replaceMessage did oldId next =>
    have hnone := modifyFirst_eq_none hc
    have hnot : oldId ∉ ids (c.getMessages did) := by
      intro hmem
      obtain ⟨r, hr, hid⟩ := List.mem_map.1 hmem
      have hp := hnone r hr
      simp [hid] at hp
    simp [writeKeepsRight, hnot]
  | removeMessage did id =>
    have hle := (h did).unread_le
    have hsame : (c.getMessages did).filter (fun m => m.msg.id ≠ id) = c.getMessages did := by
      simp only [StoreOp.apply, Store.removeMessage] at hc
      split at hc
      · rename_i harr
        simp [getMessages, harr]
      rename_i arr harr
      have hrows : c.getMessages did = arr := by simp [getMessages, harr]
      split at hc
      · rename_i hlen
        rw [hrows]
        exact List.filter_sublist.eq_of_length hlen
      · simp at hc
    refine decide_eq_true ?_
    rw [hsame]
    exact hle
  | _ => rfl

/-- One write, as the service makes it. -/
theorem storeRight_write_iff (h : StoreRight c) (hf : Formed c)
    (hcall : asCalled s (.write o) = true) (hc : o.apply ref c = some c') :
    StoreRight c' ↔ writeKeepsRight c o = true := by
  cases o with
  | appendMessage did msg =>
    rw [← Option.some.inj hc, storeRight_append_iff h]
    simp [writeKeepsRight]
  | replaceMessage did oldId next =>
    simp only [asCalled, Bool.and_eq_true] at hcall
    rw [storeRight_replace_iff h hf hcall.1 hcall.2 hc]
    obtain ⟨idx, r, hr, hp, -⟩ := modifyFirst_eq_some hc
    have hmem : oldId ∈ ids (c.getMessages did) :=
      List.mem_map.2 ⟨r, List.mem_of_getElem? hr, of_decide_eq_true hp⟩
    simp [writeKeepsRight, hmem]
  | removeMessage did id =>
    rw [storeRight_remove_iff h hc]
    exact decide_eq_true_iff.symm
  | updateMessageStatus did id status patch =>
    refine iff_of_true ?_ rfl
    exact h.modifyFirst (patched_id status patch) (patched_direction status patch) hc
  | confirmSentMessage did seq epoch =>
    refine iff_of_true ?_ rfl
    exact h.modifyFirst (patched_id .read none) (patched_direction .read none) hc
  | markRead did => exact iff_of_true (h.markRead hc) rfl
  | deleteConversation did =>
    rw [← Option.some.inj hc]
    exact iff_of_true h.deleteConversation rfl
  | clearSerializedSession key =>
    simp only [StoreOp.apply, Store.clearSerializedSession] at hc
    split at hc
    · rw [← Option.some.inj hc]
      exact iff_of_true h rfl
    · simp at hc
  | upsertContact did contact | setSerializedSession key blobB64 =>
    rw [← Option.some.inj hc]
    exact iff_of_true h rfl

theorem Formed.apply (hf : Formed c) (hcall : asCalled s (.write o) = true) (hs : s.store = c)
    (hc : o.apply ref c = some c') :
    Formed c' := by
  intro d r hr hp
  rcases mem_apply hc hr with ⟨r0, hr0, hid, hdir⟩ | ⟨msg, rfl, rfl⟩ | ⟨oldId, next, rfl, rfl⟩
  · rw [hdir]
    exact hf d r0 hr0 (hid ▸ hp)
  · simp only [asCalled, appendedAsCalled] at hcall
    split at hcall
    · simp only [Bool.and_eq_true, decide_eq_true_eq] at hcall
      exact hcall.1.2
    iterate 2
      · rename_i hid
        rw [hid] at hp
        simp [isPlaceholderOf] at hp
  · simp only [asCalled, Bool.and_eq_true] at hcall
    have hnext := hcall.2
    unfold isReceivedRow at hnext
    split at hnext
    · simp only [Bool.and_eq_true, decide_eq_true_eq] at hnext
      exact hnext.2
    · simp at hnext

end Writes

/-! ## Hydration -/

section Hydration
variable {c : Store} {blob : MessagingStateBlob}

theorem Formed.hydrateFromBlob (hf : Formed c) (hb : Formed blob.store) :
    Formed (c.hydrateFromBlob blob) := by
  intro did r hr
  rw [getMessages_hydrateFromBlob] at hr
  cases hm : blob.messages.lookup did with
  | none =>
    rw [hm] at hr
    exact hf did r hr
  | some rows =>
    rw [hm] at hr
    exact hb did r (by simpa [getMessages, MessagingStateBlob.store, hm] using hr)

/-- The unread count that stays is the one in memory, for rows that are now those of the blob. -/
theorem storeRight_hydrate_iff (h : StoreRight c) (hb : StoreRight blob.store) :
    StoreRight (c.hydrateFromBlob blob) ↔ hydrateKeepsRight blob c = true := by
  have hstored : ∀ did rows, blob.messages.lookup did = some rows →
      ConversationRight rows ((blob.unread.lookup did).getD 0) := by
    intro did rows hrows
    have hright := hb did
    simpa [getMessages, unreadCount, MessagingStateBlob.store, hrows] using hright
  have hall : hydrateKeepsRight blob c = true ↔ ∀ did rows, blob.messages.lookup did = some rows →
      did ∈ blob.unread ∨ c.unreadCount did ≤ received rows := by
    unfold hydrateKeepsRight
    simp only [List.all_eq_true, Bool.or_eq_true, decide_eq_true_eq]
    refine ⟨fun hk did rows hrows => hk ⟨did, rows⟩ (AList.mem_lookup_iff.1 hrows), ?_⟩
    rintro hk ⟨did, rows⟩ he
    exact hk did rows (AList.mem_lookup_iff.2 he)
  rw [hall]
  constructor
  · intro hright did rows hrows
    have hle := (hright did).unread_le
    rw [getMessages_hydrateFromBlob, unreadCount_hydrateFromBlob, hrows] at hle
    cases hunread : blob.unread.lookup did with
    | none =>
      rw [hunread] at hle
      exact .inr hle
    | some n => exact .inl (AList.lookup_isSome.1 (by rw [hunread]; rfl))
  · intro hk did
    rw [getMessages_hydrateFromBlob, unreadCount_hydrateFromBlob]
    cases hrows : blob.messages.lookup did with
    | none =>
      -- the blob has no row of the conversation, so it counts none as unread
      have hle := (hb did).unread_le
      simp only [getMessages, unreadCount, MessagingStateBlob.store, hrows] at hle
      refine ⟨(h did).distinct, ?_⟩
      cases hunread : blob.unread.lookup did with
      | none => exact (h did).unread_le
      | some n =>
        rw [hunread] at hle
        exact Nat.le_trans hle (Nat.zero_le _)
    | some rows =>
      have hright := hstored did rows hrows
      refine ⟨hright.distinct, ?_⟩
      cases hunread : blob.unread.lookup did with
      | none =>
        rcases hk did rows hrows with hmem | hle
        · exact absurd hmem (AList.lookup_eq_none.1 hunread)
        · exact hle
      | some n =>
        have hle := hright.unread_le
        rw [hunread] at hle
        exact hle

end Hydration

/-! ## Events -/

/-- The blobs that a load may bring back are right. -/
structure RowsInv (s : State) : Prop where
  formed : Formed s.store
  around : ∀ blob, Around s blob → StoreRight blob.store ∧ Formed blob.store

theorem rowsInv_launch : RowsInv (State.launch ∅) where
  formed did r hr := absurd hr (by simp [State.launch, Store.empty, getMessages])
  around blob h := absurd h not_around_launch

theorem storeRight_empty : StoreRight .empty := by
  intro did
  refine ⟨?_, ?_⟩
  · simp [Store.empty, getMessages, ids]
  · simp [Store.empty, unreadCount]

theorem formed_empty : Formed .empty :=
  fun did r hr => absurd hr (by simp [Store.empty, getMessages])

variable {s : State} {e : Event}

theorem RowsInv.step (h : RowsInv s) (hp : StoreRight s.store) (hcall : asCalled s e = true) :
    RowsInv (MessagingMockData.step s e) where
  around blob hblob := by
    rcases around_step hblob with hold | rfl
    · exact h.around blob hold
    · exact ⟨hp, h.formed⟩
  formed := by
    unfold MessagingMockData.step
    cases e with
    | relaunch => exact formed_empty
    | setSelfDid did =>
      rcases setSelfDid_store did with he | he
      · rw [he]
        exact h.formed
      · rw [he]
        exact formed_empty
    | write o =>
      rcases write_store o with ⟨-, he⟩ | ⟨c', hc, he⟩
      · rw [he]
        exact h.formed
      · rw [he]
        exact h.formed.apply hcall rfl hc
    | timerFires =>
      rw [timerFires_store]
      exact h.formed
    | read n readable =>
      rw [read_store]
      exact h.formed
    | loaded n =>
      rcases loaded_store n with ⟨next, blob, missed, hn, -, he⟩ | ⟨he, -⟩
      · rw [he]
        exact h.formed.hydrateFromBlob (h.around blob (.inr (.inl ⟨n, next, missed, hn⟩))).2
      · rw [he]
        exact h.formed
    | saved k ok =>
      rw [saved_store]
      exact h.formed

/-- One event keeps the store right exactly if the condition is met. -/
theorem storeRight_step_iff (h : RowsInv s) (hp : StoreRight s.store) (hcall : asCalled s e = true)
    :
    StoreRight (MessagingMockData.step s e).store ↔ keepsRight s e = true := by
  unfold MessagingMockData.step
  cases e with
  | relaunch => exact iff_of_true storeRight_empty rfl
  | setSelfDid did =>
    refine iff_of_true ?_ rfl
    rcases setSelfDid_store did with he | he
    · rw [he]
      exact hp
    · rw [he]
      exact storeRight_empty
  | write o =>
    rcases write_store o with ⟨hnone, he⟩ | ⟨c', hc, he⟩
    · rw [he]
      exact iff_of_true hp (writeKeepsRight_of_none hp hnone)
    · rw [he]
      exact storeRight_write_iff hp h.formed hcall hc
  | timerFires =>
    rw [timerFires_store]
    exact iff_of_true hp rfl
  | read n readable =>
    rw [read_store]
    exact iff_of_true hp rfl
  | loaded n =>
    rcases loaded_store n with ⟨next, blob, missed, hn, hlive, he⟩ | ⟨he, hnot⟩
    · -- the blob was right when it was saved, and so is the store it meets
      have hright := (h.around blob (.inr (.inl ⟨n, next, missed, hn⟩))).1
      have hkeeps : keepsRight s (.loaded n) = hydrateKeepsRight blob s.store := by
        simp [keepsRight, hn, hlive]
      rw [hkeeps, he]
      exact storeRight_hydrate_iff hp hright
    · rw [he]
      refine iff_of_true hp ?_
      simp only [keepsRight]
      split
      · rename_i next blob missed hn
        simp [hnot next blob missed hn]
      · rfl
  | saved k ok =>
    rw [saved_store]
    exact iff_of_true hp rfl

/-- Over any sequence of events from the first launch on, the ids of each conversation are different
    and no more rows are unread than were received, exactly if each new id was new, each removed
    placeholder had been read, and each hydration found no unread rows that the blob does not have. -/
theorem storeRight_iff_keepsRight (es : List Event)
    (hcalled : StepsMeet step (fun s e => asCalled s e = true) (State.launch ∅) es) :
    HoldsThroughout step (fun s => StoreRight s.store) (State.launch ∅) es ↔
      StepsMeet step (fun s e => keepsRight s e = true) (State.launch ∅) es :=
  holdsThroughout_iff_of (I := RowsInv)
    (fun _ _ h hp hcall => h.step hp hcall)
    (fun _ _ h hp hcall => storeRight_step_iff h hp hcall) es (State.launch ∅) rowsInv_launch
    storeRight_empty hcalled

/-- A text of `peer` that cannot be opened yet. -/
def undecryptableText : Envelope where
  uid := 0
  senderDid := "did:zhtp:peer"
  recipientDid := "did:zhtp:self"
  contentType := .text
  timestamp := 1000
  epoch := 0
  sequence := 0
  gen := ⟨"did:zhtp:peer", "did:zhtp:self", 0⟩
  body := ⟨false, .text "hello"⟩

/-- A login without anything stored, and a text that leaves a placeholder. -/
def withPlaceholder : List Event :=
  [.setSelfDid (some "did:zhtp:self"), .read 0 true, .loaded 0,
    .write (.appendMessage "did:zhtp:peer" undecryptableText.placeholder)]

/-- The text is opened and takes the place of the placeholder; then the process ends and the rows are
    loaded again. -/
def rescuedPlaceholder : List Event :=
  withPlaceholder ++
  [.write (.replaceMessage "did:zhtp:peer" undecryptableText.placeholderId
      (undecryptableText.receivedRow undecryptableText.body)),
    .timerFires, .saved 0 true, .relaunch, .setSelfDid (some "did:zhtp:self"), .read 0 true, .loaded 0]

theorem storeRight_rescuedPlaceholder :
    HoldsThroughout step (fun s => StoreRight s.store) (State.launch ∅) rescuedPlaceholder :=
  (storeRight_iff_keepsRight rescuedPlaceholder (by decide)).2 (by decide)

/-- The text turns out to be a receipt, and the placeholder is removed. -/
def removedPlaceholder : List Event :=
  withPlaceholder ++
  [.write (.removeMessage "did:zhtp:peer" undecryptableText.placeholderId)]

/-- One row is unread and there is none. -/
theorem removedPlaceholder_not_storeRight :
    StepsMeet step (fun s e => asCalled s e = true) (State.launch ∅) removedPlaceholder ∧
    ¬ HoldsThroughout step (fun s => StoreRight s.store) (State.launch ∅) removedPlaceholder := by
  refine ⟨by decide, fun h => ?_⟩
  have hle := (h.last "did:zhtp:peer").unread_le
  have hlt : received ((removedPlaceholder.foldl step (State.launch ∅)).store.getMessages
      "did:zhtp:peer") < (removedPlaceholder.foldl step (State.launch ∅)).store.unreadCount
      "did:zhtp:peer" := by decide
  exact Nat.not_le_of_lt hlt hle

end MessagingMockData
