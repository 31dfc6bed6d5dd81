import SovereignMobile.Messaging.MockData

/-! # What writes and events do to the store

The rows and unread counts after each write and after a hydration, and the blobs that there are
around the store after an event. -/

namespace MessagingMockData

open Messaging List Option

/-! ## Writes -/

section Writes
variable {c c' : Store} {did : Did}

variable {p : Row → Bool} {f : Row → Row} {r : Row}

theorem modifyFirst_eq_some (h : c.modifyFirst did p f = some c') :
    ∃ idx r, (c.getMessages did)[idx]? = some r ∧ p r = true ∧
      c' = c.setMessages did ((c.getMessages did).modify idx f) := by
  unfold Store.modifyFirst at h
  split at h
  · simp at h
  rename_i arr harr
  obtain ⟨idx, hidx, rfl⟩ := map_eq_some_iff.1 h
  have hrows : c.getMessages did = arr := by simp [Store.getMessages, harr]
  obtain ⟨hlt, hp, -⟩ := findIdx?_eq_some_iff_getElem.1 hidx
  rw [hrows]
  exact ⟨idx, arr[idx], getElem?_eq_getElem hlt, hp, rfl⟩

theorem modifyFirst_eq_none (h : c.modifyFirst did p f = none) :
    ∀ r ∈ c.getMessages did, p r = false := by
  unfold Store.modifyFirst at h
  split at h
  · rename_i harr
    simp [Store.getMessages, harr]
  rename_i arr harr
  have hrows : c.getMessages did = arr := by simp [Store.getMessages, harr]
  rw [hrows]
  simpa using h

theorem mem_modify {rows : List Row} {idx : Nat} (h : r ∈ rows.modify idx f) :
    r ∈ rows ∨ ∃ r0 ∈ rows, r = f r0 := by
  obtain ⟨j, hj⟩ := mem_iff_getElem?.1 h
  rw [getElem?_modify] at hj
  obtain ⟨r0, hr0, he⟩ := map_eq_some_iff.1 hj
  have hmem : r0 ∈ rows := mem_of_getElem? hr0
  split at he
  · exact .inr ⟨r0, hmem, he.symm⟩
  · exact .inl (he ▸ hmem)

theorem getMessages_appendMessage (row : Row) (d : Did) : (c.appendMessage did row).getMessages d =
    if d = did then c.getMessages did ++ [row] else c.getMessages d := by
  have hset : (c.appendMessage did row).getMessages d =
      (c.setMessages did (c.getMessages did ++ [row])).getMessages d := by
    unfold Store.appendMessage
    split <;> rfl
  rw [hset]
  split
  · rename_i hd
    rw [hd, getMessages_setMessages]
  · rename_i hd
    exact getMessages_setMessages_ne _ hd

theorem getMessages_removeMessage {id : MessageId} (h : c.removeMessage did id = some c')
    (d : Did) :
    c'.getMessages d =
      if d = did then (c.getMessages did).filter fun m => m.msg.id ≠ id else c.getMessages d := by
  unfold Store.removeMessage at h
  split at h
  · simp at h
  rename_i arr harr
  have hrows : c.getMessages did = arr := by simp [Store.getMessages, harr]
  dsimp only at h
  split at h
  · simp at h
  rw [← some.inj h, hrows]
  split
  · rename_i hd
    rw [hd, getMessages_setMessages]
  · rename_i hd
    exact getMessages_setMessages_ne _ hd

theorem getMessages_deleteConversation (d : Did) : (c.deleteConversation did).getMessages d =
    if d = did then [] else c.getMessages d := by
  split
  · rename_i hd
    subst hd
    simp [Store.getMessages, Store.deleteConversation]
  · rename_i hd
    simp [Store.getMessages, Store.deleteConversation, AList.lookup_erase_ne hd]

theorem patched_id (status : MessageStatus) (patch : Option (Nat × Nat)) (r : Row) :
    (r.patched status patch).msg.id = r.msg.id := by
  unfold Row.patched
  split <;> rfl

theorem patched_direction (status : MessageStatus) (patch : Option (Nat × Nat)) (r : Row) :
    (r.patched status patch).msg.direction = r.msg.direction := by
  unfold Row.patched
  split <;> rfl

/-- Where the rows come from that the store has after a write. -/
theorem mem_apply {o : StoreOp} {ref : Nat} (hc : o.apply ref c = some c')
    (hr : r ∈ c'.getMessages did) :
    (∃ r0 ∈ c.getMessages did, r.msg.id = r0.msg.id ∧ r.msg.direction = r0.msg.direction) ∨
    (∃ msg, o = .appendMessage did msg ∧ r = ⟨ref, msg⟩) ∨
    ∃ oldId next, o = .replaceMessage did oldId next ∧ r = ⟨ref, next⟩ := by
  have hsame : c'.getMessages did = c.getMessages did →
      ∃ r0 ∈ c.getMessages did, r.msg.id = r0.msg.id ∧ r.msg.direction = r0.msg.direction :=
    fun he => ⟨r, he ▸ hr, rfl, rfl⟩
  have hpatched : ∀ d p status patch, c.modifyFirst d p (.patched status patch) = some c' →
      ∃ r0 ∈ c.getMessages did, r.msg.id = r0.msg.id ∧ r.msg.direction = r0.msg.direction := by
    intro d p status patch hm
    obtain ⟨idx, r0, hr0, -, rfl⟩ := modifyFirst_eq_some hm
    by_cases hd : did = d
    · subst hd
      rw [getMessages_setMessages] at hr
      rcases mem_modify hr with hmem | ⟨r1, hmem, rfl⟩
      · exact ⟨r, hmem, rfl, rfl⟩
      · exact ⟨r1, hmem, patched_id _ _ _, patched_direction _ _ _⟩
    · exact hsame (getMessages_setMessages_ne _ hd)
  cases o with
  | upsertContact | setSerializedSession => exact .inl (hsame (by rw [← some.inj hc]; rfl))
  | updateMessageStatus d id status patch => exact .inl (hpatched d _ status patch hc)
  | confirmSentMessage d seq epoch => exact .inl (hpatched d _ .read none hc)
  | clearSerializedSession key =>
    simp only [StoreOp.apply, Store.clearSerializedSession] at hc
    split at hc
    · exact .inl (hsame (by rw [← some.inj hc]; rfl))
    · simp at hc
  | markRead d =>
    simp only [StoreOp.apply, Store.markRead] at hc
    split at hc
    · simp at hc
    · exact .inl (hsame (by rw [← some.inj hc]; rfl))
  | appendMessage d msg =>
    cases hc
    rw [getMessages_appendMessage] at hr
    split at hr
    · rename_i hd
      subst hd
      rcases mem_append.1 hr with hmem | hmem
      · exact .inl ⟨r, hmem, rfl, rfl⟩
      · exact .inr (.inl ⟨msg, rfl, mem_singleton.1 hmem⟩)
    · exact .inl ⟨r, hr, rfl, rfl⟩
  | replaceMessage d oldId next =>
    obtain ⟨idx, r0, hr0, -, rfl⟩ := modifyFirst_eq_some hc
    by_cases hd : did = d
    · subst hd
      rw [getMessages_setMessages] at hr
      rcases mem_modify hr with hmem | ⟨r1, hmem, rfl⟩
      · exact .inl ⟨r, hmem, rfl, rfl⟩
      · exact .inr (.inr ⟨oldId, next, rfl, rfl⟩)
    · exact .inl (hsame (getMessages_setMessages_ne _ hd))
  | removeMessage d id =>
    rw [getMessages_removeMessage hc] at hr
    split at hr
    · rename_i hd
      subst hd
      exact .inl ⟨r, (mem_filter.1 hr).1, rfl, rfl⟩
    · exact .inl ⟨r, hr, rfl, rfl⟩
  | deleteConversation d =>
    cases hc
    rw [getMessages_deleteConversation] at hr
    split at hr
    · simp at hr
    · exact .inl ⟨r, hr, rfl, rfl⟩

end Writes

/-! ## Hydration -/

section Hydration
variable {c : Store} {blob : MessagingStateBlob}

theorem getMessages_hydrateFromBlob (did : Did) : (c.hydrateFromBlob blob).getMessages did =
    (blob.messages.lookup did).getD (c.getMessages did) := by
  unfold Store.getMessages Store.hydrateFromBlob
  rw [lookup_setAll]
  cases blob.messages.lookup did <;> rfl

theorem unreadCount_hydrateFromBlob (did : Did) : (c.hydrateFromBlob blob).unreadCount did =
    (blob.unread.lookup did).getD (c.unreadCount did) := by
  unfold Store.unreadCount Store.hydrateFromBlob
  rw [lookup_setAll]
  cases blob.unread.lookup did <;> rfl

end Hydration

/-! ## Events -/

section Steps
variable {s : State}

theorem write_store (o : StoreOp) : o.apply s.nextRef s.store = none ∧ (s.write o).store = s.store ∨
    ∃ c', o.apply s.nextRef s.store = some c' ∧ (s.write o).store = c' := by
  rcases write_eq o s with ⟨hnone, he⟩ | ⟨c', timer, hc, he, -⟩
  · exact .inl ⟨hnone, by rw [he]⟩
  · exact .inr ⟨c', hc, by rw [he]⟩

/-- A switch clears all that belongs to the activation, and the load that it starts has read nothing. -/
theorem setSelfDid_eq (did : Option Did) : nextDid did = s.liveSelfDid ∧ s.setSelfDid did = s ∨
    nextDid did ≠ s.liveSelfDid ∧ ∃ loads nextLoad activation, s.setSelfDid did = { s with
      liveSelfDid := nextDid did, store := Store.empty, saveEnabled := false, saveTimer := none,
      unreadable := none, loads := loads, nextLoad := nextLoad, activation := activation } ∧
    (∀ n next result, loads.lookup n = some ⟨next, some result⟩ →
      s.loads.lookup n = some ⟨next, some result⟩) ∧
    ∀ n next result, activation = some n → loads.lookup n = some ⟨next, result⟩ →
      nextDid did = some next ∧ result = none := by
  unfold State.setSelfDid
  split
  · rename_i hsame
    exact .inl ⟨hsame, rfl⟩
  rename_i hother
  refine .inr ⟨hother, ?_⟩
  cases hnext : nextDid did with
  | none => exact ⟨s.loads, s.nextLoad, none, rfl, fun _ _ _ h => h, fun _ _ _ h => by simp at h⟩
  | some next =>
    refine ⟨_, s.nextLoad + 1, some s.nextLoad, rfl, ?_, ?_⟩
    · intro n next' result hn
      rcases lookup_of_insert hn with ⟨-, hfresh⟩ | hold
      · simp at hfresh
      · exact hold
    · rintro n next' result hactivation hn
      cases hactivation
      rw [AList.lookup_insert] at hn
      simp only [some.injEq, Load.mk.injEq] at hn
      exact ⟨congrArg some hn.1, hn.2.symm⟩

theorem setSelfDid_store (did : Option Did) :
    (s.setSelfDid did).store = s.store ∨ (s.setSelfDid did).store = .empty := by
  rcases setSelfDid_eq did with ⟨-, he⟩ | ⟨-, loads, nextLoad, activation, he, -, -⟩
  · exact .inl (by rw [he])
  · exact .inr (by rw [he])

/-- The store after the end of a load: hydrated, if it is the live DID's and found a blob. -/
theorem loaded_store (n : Nat) : (∃ next blob missed,
      s.loads.lookup n = some ⟨next, some ⟨some blob, missed⟩⟩ ∧ s.liveSelfDid = some next ∧
      (s.loaded n).store = s.store.hydrateFromBlob blob) ∨
    (s.loaded n).store = s.store ∧ ∀ next blob missed,
      s.loads.lookup n = some ⟨next, some ⟨some blob, missed⟩⟩ → s.liveSelfDid ≠ some next := by
  unfold State.loaded
  split
  · rename_i next result hn
    split
    · rename_i hlive
      obtain ⟨timer, he, -⟩ := hydrate_eq result { s with loads := s.loads.erase n }
      rw [he]
      obtain ⟨blob, missed⟩ := result
      cases blob with
      | none =>
        refine .inr ⟨rfl, fun next' blob' missed' hn' => ?_⟩
        rw [hn] at hn'
        simp at hn'
      | some blob => exact .inl ⟨next, blob, missed, hn, hlive, rfl⟩
    · rename_i hlive
      refine .inr ⟨rfl, fun next' blob' missed' hn' => ?_⟩
      rw [hn] at hn'
      obtain ⟨rfl, -⟩ : next = next' ∧ result = ⟨some blob', missed'⟩ := by simpa using hn'
      exact hlive
  · rename_i hnot
    exact .inr ⟨rfl, fun next blob missed hn => absurd hn (hnot next ⟨some blob, missed⟩)⟩

theorem timerFires_store : s.timerFires.store = s.store := by
  unfold State.timerFires
  split <;> rfl

theorem read_store (n : Nat) (readable : Bool) : (s.read n readable).store = s.store := by
  unfold State.read
  split <;> rfl

theorem saved_store (k : Nat) (ok : Bool) : (s.saved k ok).store = s.store := by
  unfold State.saved
  split
  · rfl
  · split <;> rfl

end Steps

/-! ## Blobs -/

theorem eq_some_of_loaded {stored : Option MessagingStateBlob} {readable : Bool}
    {blob : MessagingStateBlob} (h : loadMessagingState stored readable = some blob) :
    stored = some blob := by
  unfold loadMessagingState at h
  split at h
  · simp at h
  split at h
  · exact h
  · simp at h

/-- A blob that is stored, that a load has read, or that is about to be stored. -/
def Around (s : State) (blob : MessagingStateBlob) : Prop :=
  (∃ service, s.keychain.lookup service = some blob) ∨
  (∃ n next missed, s.loads.lookup n = some ⟨next, some ⟨some blob, missed⟩⟩) ∨
  ∃ save ∈ s.saves, save.blob = blob

section Around
variable {s s' : State} {blob : MessagingStateBlob}

theorem Around.of_eq (h : Around s' blob) (hk : s'.keychain = s.keychain) (hl : s'.loads = s.loads)
    (hs : s'.saves = s.saves) : Around s blob := by
  unfold Around at h ⊢
  rwa [hk, hl, hs] at h

theorem Around.of_setSelfDid {did : Option Did} (h : Around (s.setSelfDid did) blob) :
    Around s blob := by
  rcases setSelfDid_eq did with ⟨-, he⟩ | ⟨-, loads, nextLoad, activation, he, hloads, -⟩
  · rwa [he] at h
  rw [he] at h
  rcases h with hstored | ⟨n, next, missed, hn⟩ | hsave
  · exact .inl hstored
  · exact .inr (.inl ⟨n, next, missed, hloads n next _ hn⟩)
  · exact .inr (.inr hsave)

theorem Around.of_write {o : StoreOp} (h : Around (s.write o) blob) : Around s blob := by
  rcases write_eq o s with ⟨-, he⟩ | ⟨c', timer, -, he, -⟩
  · rwa [he] at h
  · rw [he] at h
    exact h.of_eq rfl rfl rfl

theorem Around.of_timerFires (h : Around s.timerFires blob) :
    Around s blob ∨ blob = s.store.snapshot := by
  unfold State.timerFires at h
  split at h
  · exact .inl h
  rcases h with hstored | hread | ⟨save, hsave, rfl⟩
  · exact .inl (.inl hstored)
  · exact .inl (.inr (.inl hread))
  rcases mem_append.1 hsave with hold | hnew
  · exact .inl (.inr (.inr ⟨save, hold, rfl⟩))
  · rw [mem_singleton.1 hnew]
    exact .inr rfl

variable {n : Nat}

theorem Around.of_read {readable : Bool} (h : Around (s.read n readable) blob) : Around s blob := by
  unfold State.read at h
  split at h
  · rename_i next _
    rcases h with hstored | ⟨n', next', missed, hn⟩ | hsave
    · exact .inl hstored
    · rcases lookup_of_insert hn with ⟨-, hread⟩ | hold
      · have hblob : loadMessagingState (s.keychain.lookup (serviceFor next)) readable =
            some blob := by
          simp only [State.readResult, Load.mk.injEq, some.injEq, LoadResult.mk.injEq] at hread
          exact hread.2.1
        exact .inl ⟨serviceFor next, eq_some_of_loaded hblob⟩
      · exact .inr (.inl ⟨n', next', missed, hold⟩)
    · exact .inr (.inr hsave)
  · exact h

theorem Around.of_loaded (h : Around (s.loaded n) blob) : Around s blob := by
  unfold State.loaded at h
  split at h
  · rename_i next result _
    have herase : Around { s with loads := s.loads.erase n } blob → Around s blob := by
      rintro (hstored | ⟨n', next', missed, hn⟩ | hsave)
      · exact .inl hstored
      · exact .inr (.inl ⟨n', next', missed, lookup_of_erase hn⟩)
      · exact .inr (.inr hsave)
    split at h
    · obtain ⟨timer, he, -⟩ := hydrate_eq result { s with loads := s.loads.erase n }
      rw [he] at h
      exact herase (h.of_eq rfl rfl rfl)
    · exact herase h
  · exact h

theorem Around.of_saved {k : Nat} {ok : Bool} (h : Around (s.saved k ok) blob) : Around s blob := by
  unfold State.saved at h
  split at h
  · exact h
  rename_i save hsave
  have hmem : save ∈ s.saves := mem_of_getElem? hsave
  split at h
  · rcases h with ⟨service, hstored⟩ | hread | ⟨save', hsave', rfl⟩
    · rcases lookup_of_insert hstored with ⟨-, hnew⟩ | hold
      · exact .inr (.inr ⟨save, hmem, hnew⟩)
      · exact .inl ⟨service, hold⟩
    · exact .inr (.inl hread)
    · exact .inr (.inr ⟨save', mem_of_mem_eraseIdx hsave', rfl⟩)
  · rcases h with hstored | hread | ⟨save', hsave', rfl⟩
    · exact .inl hstored
    · exact .inr (.inl hread)
    · exact .inr (.inr ⟨save', mem_of_mem_eraseIdx hsave', rfl⟩)

/-- New blobs are snapshots of the store. -/
theorem around_step {e : Event} (h : Around (step s e) blob) :
    Around s blob ∨ blob = s.store.snapshot := by
  cases e with
  | relaunch =>
    rcases h with hstored | ⟨n, next, missed, hn⟩ | ⟨save, hsave, -⟩
    · exact .inl (.inl hstored)
    · simp [step, State.launch] at hn
    · simp [step, State.launch] at hsave
  | setSelfDid did => exact .inl h.of_setSelfDid
  | write o => exact .inl h.of_write
  | timerFires => exact h.of_timerFires
  | read n readable => exact .inl h.of_read
  | loaded n => exact .inl h.of_loaded
  | saved k ok => exact .inl h.of_saved

theorem not_around_launch : ¬ Around (State.launch ∅) blob := by
  rintro (⟨service, hstored⟩ | ⟨n, next, missed, hn⟩ | ⟨save, hsave, -⟩)
  · simp [State.launch] at hstored
  · simp [State.launch] at hn
  · simp [State.launch] at hsave

end Around

end MessagingMockData
