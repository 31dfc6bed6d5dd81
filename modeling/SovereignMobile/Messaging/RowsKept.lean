import SovereignMobile.EventLoop.Sequential
import SovereignMobile.Messaging.StoreOps

/-! # Rows across switches of the identity

A row goes from memory into a snapshot, from there into the keychain, and comes back with the next load.
Where each of these steps finds what the one before it left, no row is lost; `keepsRows` says what that
takes of a switch, a read, the end of a load and the end of a save. -/

namespace MessagingMockData

open Messaging EventLoop Option

/-- The snapshot that a service has once all saves have come to their end in order. -/
def State.newest (service : String) (s : State) : Option MessagingStateBlob :=
  ((s.saves.filter fun save => serviceFor save.did = service).getLast?.map Save.blob).or
    (s.keychain.lookup service)

/-- The newest snapshot of its DID has the row, and a load will not turn it down. -/
def State.hasSaved (o : Owed) (s : State) : Bool :=
  (s.newest (serviceFor o.self)).any fun blob => blob.version = 1 && blob.store.has o.conv o.ref

/-- Once the live DID is hydrated, the store has the rows that were appended for it. -/
def RowsKept (s : State) : Prop :=
  ∀ d, s.liveSelfDid = some d → s.saveEnabled = true →
    ∀ o ∈ s.owed, o.self = d → s.store.has o.conv o.ref = true

def callsSucceed : Event → Bool
  | .read _ readable => readable
  | .saved _ ok => ok
  | _ => true

/-- A switch leaves no row behind that is only in memory, and goes to no DID that shares the service of
    another one; the live DID's load reads when no save of its service is under way; no load of an
    earlier activation hydrates, and none brings back a conversation without rows that memory has of
    it; saves of a service end in order. -/
def keepsRows (s : State) : Event → Bool
  | .setSelfDid did => nextDid did = s.liveSelfDid || s.owed.all fun o =>
    (s.liveSelfDid ≠ some o.self || !s.store.has o.conv o.ref || s.hasSaved o) &&
    (nextDid did).all fun next => next = o.self || serviceFor next ≠ serviceFor o.self
  | .read n _ =>
    match s.loads.lookup n with
    | some ⟨next, none⟩ =>
      s.activation ≠ some n || s.saves.all fun save => serviceFor save.did ≠ serviceFor next
    | _ => true
  | .loaded n =>
    match s.loads.lookup n with
    | some ⟨next, some result⟩ => s.liveSelfDid ≠ some next || s.activation = some n &&
        result.blob.all fun blob => s.owed.all fun o => o.self ≠ next ||
          !s.store.has o.conv o.ref || o.conv ∉ blob.messages || blob.store.has o.conv o.ref
    | _ => true
  | .saved k _ =>
    match s.saves[k]? with
    | some save => (s.saves.take k).all fun older => serviceFor older.did ≠ serviceFor save.did
    | none => true
  | _ => true

/-! ## Rows of a store -/

section Has
variable {c c' : Store} {conv : Did} {ref : Nat}

theorem has_iff : c.has conv ref = true ↔ ∃ r ∈ c.getMessages conv, r.ref = ref := by
  simp [Store.has]

theorem has_hydrateFromBlob {blob : MessagingStateBlob} : (c.hydrateFromBlob blob).has conv ref =
      if conv ∈ blob.messages then blob.store.has conv ref else c.has conv ref := by
  unfold Store.has
  rw [getMessages_hydrateFromBlob]
  split
  · rename_i hmem
    obtain ⟨rows, hrows⟩ := isSome_iff_exists.1 (AList.lookup_isSome.2 hmem)
    simp [Store.getMessages, MessagingStateBlob.store, hrows]
  · rename_i hnot
    rw [AList.lookup_eq_none.2 hnot]
    rfl

theorem has_appendMessage (row : Row) : (c.appendMessage conv row).has conv row.ref = true := by
  rw [has_iff, getMessages_appendMessage]
  exact ⟨row, by simp, rfl⟩

end Has

/-! ## The newest snapshot -/

section Newest
variable {s s' : State} {service : String}

theorem newest_timerFires {did : Did} (h : s.saveTimer = some did) : s.timerFires.newest service =
      if serviceFor did = service then some s.store.snapshot else s.newest service := by
  unfold State.timerFires State.newest
  rw [h]
  dsimp only
  rw [List.filter_append]
  split
  · rename_i hservice
    rw [List.filter_cons_of_pos (by simpa using hservice)]
    simp
  · rename_i hservice
    rw [List.filter_cons_of_neg (by simpa using hservice)]
    simp

/-- Without a save under way, it is in the keychain. -/
theorem newest_of_no_saves (h : ∀ save ∈ s.saves, serviceFor save.did ≠ service) :
    s.newest service = s.keychain.lookup service := by
  have hnil : s.saves.filter (fun save => serviceFor save.did = service) = [] := by
    rw [List.filter_eq_nil_iff]
    intro save hsave
    simpa using h save hsave
  unfold State.newest
  rw [hnil]
  rfl

/-- The first save of a service that comes to its end leaves the newest snapshot what it was. -/
theorem newest_saved {k : Nat} (h : keepsRows s (.saved k true) = true) :
    (s.saved k true).newest service = s.newest service := by
  simp only [keepsRows] at h
  unfold State.saved
  split
  · rfl
  rename_i save hsave
  simp only [hsave, List.all_eq_true] at h
  have hlt : k < s.saves.length := (List.getElem?_eq_some_iff.1 hsave).1
  have hsplit : s.saves = s.saves.take k ++ save :: s.saves.drop (k + 1) := by
    have hget : s.saves[k] = save := (List.getElem?_eq_some_iff.1 hsave).2
    rw [← hget, List.getElem_cons_drop, List.take_append_drop]
  have hnil : serviceFor save.did = service →
      (s.saves.take k).filter (fun save => serviceFor save.did = service) = [] := by
    rintro rfl
    rw [List.filter_eq_nil_iff]
    intro older holder
    simpa using h older holder
  unfold State.newest
  rw [if_pos rfl]
  rw [List.eraseIdx_eq_take_drop_succ]
  conv_rhs => rw [hsplit]
  simp only [List.filter_append]
  by_cases hservice : serviceFor save.did = service
  · rw [hnil hservice, ← hservice]
    cases hlast : ((s.saves.drop (k + 1)).filter
      fun older => serviceFor older.did = serviceFor save.did).getLast? with
    | none | some => simp [List.getLast?_cons]
  · rw [List.filter_cons_of_neg (by simpa using hservice),
      AList.lookup_insert_ne fun he => hservice he.symm]

end Newest

/-! ## One event -/

/-- Rows of the live DID are in memory, or saved and still to be loaded; rows of others are saved. -/
structure Keeping (s : State) : Prop where
  held : ∀ o ∈ s.owed, s.liveSelfDid = some o.self →
    s.store.has o.conv o.ref = true ∨ s.saveEnabled = false ∧ s.hasSaved o = true
  saved : ∀ o ∈ s.owed, s.liveSelfDid ≠ some o.self → s.hasSaved o = true
  apart : ∀ o ∈ s.owed, ∀ d, s.liveSelfDid = some d → o.self ≠ d → serviceFor d ≠ serviceFor o.self
  timer : ∀ d, s.saveTimer = some d → s.liveSelfDid = some d ∧ s.saveEnabled = true
  current : ∀ n next result, s.activation = some n → s.loads.lookup n = some ⟨next, result⟩ →
    s.liveSelfDid = some next
  read : ∀ n next result, s.activation = some n → s.loads.lookup n = some ⟨next, some result⟩ →
    ∀ o ∈ s.owed, o.self = next → s.store.has o.conv o.ref = true ∨
      ∃ blob, result.blob = some blob ∧ blob.store.has o.conv o.ref = true

theorem Keeping.rowsKept {s : State} (h : Keeping s) : RowsKept s := by
  rintro d hlive henabled o ho rfl
  rcases h.held o ho hlive with hhas | ⟨hdisabled, -⟩
  · exact hhas
  · exact nomatch henabled.symm.trans hdisabled

theorem keeping_launch (keychain : Map String MessagingStateBlob) :
    Keeping (State.launch keychain) where
  held o ho := absurd ho (by simp [State.launch])
  saved o ho := absurd ho (by simp [State.launch])
  apart o ho := absurd ho (by simp [State.launch])
  timer d hd := absurd hd (by simp [State.launch])
  current n next result hn := absurd hn (by simp [State.launch])
  read n next result hn := absurd hn (by simp [State.launch])

section Steps
variable {s : State}

/-- Before a switch everything is saved. -/
theorem Keeping.setSelfDid (h : Keeping s) {did : Option Did}
    (hk : keepsRows s (.setSelfDid did) = true) : Keeping (s.setSelfDid did) := by
  rcases setSelfDid_eq did with
    ⟨-, he⟩ | ⟨hother, loads, nextLoad, activation, he, -, hfresh⟩
  · rwa [he]
  simp only [keepsRows, Bool.or_eq_true, decide_eq_true_eq, hother, false_or, List.all_eq_true,
    Bool.and_eq_true] at hk
  have hsaved : ∀ o ∈ s.owed, s.hasSaved o = true := by
    intro o ho
    by_cases hlive : s.liveSelfDid = some o.self
    · rcases h.held o ho hlive with hhas | ⟨-, hsaved⟩
      · simpa [hlive, hhas] using (hk o ho).1
      · exact hsaved
    · exact h.saved o ho hlive
  rw [he]
  exact {
    held := fun o ho _ => .inr ⟨rfl, hsaved o ho⟩
    saved := fun o ho _ => hsaved o ho
    apart := by
      intro o ho d hd hne
      have hnext := (hk o ho).2
      rw [show nextDid did = some d from hd] at hnext
      simpa [Ne.symm hne] using hnext
    timer := fun d hd => nomatch hd
    current := fun n next result hn hload => (hfresh n next result hn hload).1
    read := fun n next result hn hload =>
      absurd (hfresh n next (some result) hn hload).2 (by simp) }

variable {c' : Store} {row : Owed} {n : Nat}

theorem newlyOwed_spec {o : StoreOp} (h : row ∈ s.newlyOwed o)
    (hc : o.apply s.nextRef s.store = some c') :
    s.liveSelfDid = some row.self ∧ c'.has row.conv row.ref = true := by
  unfold State.newlyOwed at h
  split at h
  · rename_i did msg self hlive
    rw [List.mem_singleton.1 h, ← some.inj hc]
    exact ⟨hlive, has_appendMessage ⟨s.nextRef, msg⟩⟩
  · simp at h

theorem stillOwed_spec (h : row ∈ s.stillOwed c') : row ∈ s.owed ∧
    (s.liveSelfDid = some row.self → s.store.has row.conv row.ref = true →
      c'.has row.conv row.ref = true) := by
  obtain ⟨hmem, hrow⟩ := List.mem_filter.1 h
  refine ⟨hmem, fun hlive hhas => ?_⟩
  simpa [hlive, hhas] using hrow

theorem Keeping.write (h : Keeping s) (o : StoreOp) : Keeping (s.write o) := by
  rcases write_eq o s with ⟨-, he⟩ | ⟨c', timer, hc, he, htimer⟩
  · rwa [he]
  rw [he]
  refine ⟨?_, ?_, ?_, ?_, h.current, ?_⟩
  · intro row hrow hlive
    rcases List.mem_append.1 hrow with hold | hnew
    · obtain ⟨hmem, hstays⟩ := stillOwed_spec hold
      rcases h.held row hmem hlive with hhas | hsaved
      · exact .inl (hstays hlive hhas)
      · exact .inr hsaved
    · exact .inl (newlyOwed_spec hnew hc).2
  · intro row hrow hlive
    rcases List.mem_append.1 hrow with hold | hnew
    · exact h.saved row (stillOwed_spec hold).1 hlive
    · exact absurd (newlyOwed_spec hnew hc).1 hlive
  · intro row hrow d hlive hne
    rcases List.mem_append.1 hrow with hold | hnew
    · exact h.apart row (stillOwed_spec hold).1 d hlive hne
    · have hself := (newlyOwed_spec hnew hc).1
      exact absurd (some.inj (hself.symm.trans hlive)) hne
  · intro d hd
    rcases htimer with hsame | ⟨henabled, hlive⟩
    · exact h.timer d (hsame ▸ hd)
    · exact ⟨hlive ▸ hd, henabled⟩
  · intro n next result hn hload row hrow hself
    rcases List.mem_append.1 hrow with hold | hnew
    · obtain ⟨hmem, hstays⟩ := stillOwed_spec hold
      rcases h.read n next result hn hload row hmem hself with hhas | hblob
      · exact .inl (hstays (hself ▸ h.current n next _ hn hload) hhas)
      · exact .inr hblob
    · exact .inl (newlyOwed_spec hnew hc).2

/-- The snapshot is one of the live DID's store, which has its rows. -/
theorem Keeping.timerFires (h : Keeping s) : Keeping s.timerFires := by
  cases htimer : s.saveTimer with
  | none =>
    have he : s.timerFires = s := by
      unfold State.timerFires
      rw [htimer]
    rwa [he]
  | some did =>
    obtain ⟨hlive, henabled⟩ := h.timer did htimer
    have hsame : ∀ o ∈ s.owed, s.liveSelfDid ≠ some o.self → s.timerFires.hasSaved o = true := by
      intro o ho hother
      have hne : o.self ≠ did := by
        rintro rfl
        exact hother hlive
      unfold State.hasSaved
      rw [newest_timerFires htimer, if_neg (h.apart o ho did hlive hne)]
      exact h.saved o ho hother
    have he : s.timerFires = { s with
        saveTimer := none, saves := s.saves ++ [⟨did, s.store.snapshot, s.unreadable⟩] } := by
      unfold State.timerFires
      rw [htimer]
    rw [he] at hsame ⊢
    refine ⟨?_, hsame, h.apart, ?_, h.current, h.read⟩
    · intro o ho hself
      rcases h.held o ho hself with hhas | ⟨hdisabled, -⟩
      · exact .inl hhas
      · exact nomatch henabled.symm.trans hdisabled
    · intro d hd
      simp at hd

theorem blob_of_hasSaved {o : Owed} (h : s.hasSaved o = true)
    (hs : s.newest (serviceFor o.self) = s.keychain.lookup (serviceFor o.self)) :
    ∃ blob, (s.readResult o.self true).blob = some blob ∧ blob.store.has o.conv o.ref = true := by
  unfold State.hasSaved at h
  obtain ⟨blob, hblob, hrow⟩ := any_eq_true _ _ |>.1 h
  simp only [Bool.and_eq_true] at hrow
  refine ⟨blob, ?_, hrow.2⟩
  have hstored : s.keychain.lookup (serviceFor o.self) = some blob := hs ▸ hblob
  simp [State.readResult, loadMessagingState, hstored, hrow.1]

/-- The live DID's load reads the newest snapshot. -/
theorem Keeping.read_step (h : Keeping s) (hk : keepsRows s (.read n true) = true) :
    Keeping (s.read n true) := by
  unfold State.read
  split
  · rename_i next hn
    refine ⟨h.held, h.saved, h.apart, h.timer, ?_, ?_⟩
    · intro n' next' result hactivation hload
      rcases lookup_of_insert hload with ⟨rfl, hnew⟩ | hold
      · simp only [Load.mk.injEq] at hnew
        exact hnew.1 ▸ h.current n' next none hactivation hn
      · exact h.current n' next' result hactivation hold
    intro n' next' result hactivation hload o ho hself
    rcases lookup_of_insert hload with ⟨rfl, hnew⟩ | hold
    · cases hnew
      subst hself
      have hlive := h.current n' o.self none hactivation hn
      have hnone : ∀ save ∈ s.saves, serviceFor save.did ≠ serviceFor o.self := by
        simpa [keepsRows, hn, show s.activation = some n' from hactivation] using hk
      rcases h.held o ho hlive with hhas | ⟨-, hsaved⟩
      · exact .inl hhas
      · exact .inr (blob_of_hasSaved hsaved (newest_of_no_saves hnone))
    · exact h.read n' next' result hactivation hold o ho hself
  · exact h

theorem mem_messages_of_has {blob : MessagingStateBlob} {conv : Did} {ref : Nat}
    (h : blob.store.has conv ref = true) : conv ∈ blob.messages := by
  by_contra hnot
  have hnil : blob.store.getMessages conv = [] := by
    simp [Store.getMessages, MessagingStateBlob.store, AList.lookup_eq_none.2 hnot]
  obtain ⟨r, hr, -⟩ := has_iff.1 h
  rw [hnil] at hr
  simp at hr

/-- What the blob brings back are the rows that memory does not have. -/
theorem Keeping.loaded (h : Keeping s) (hk : keepsRows s (.loaded n) = true) :
    Keeping (s.loaded n) := by
  unfold State.loaded
  split
  · rename_i next result hn
    have herase : Keeping { s with loads := s.loads.erase n } :=
      ⟨h.held, h.saved, h.apart, h.timer,
        fun n' next' result' hn' hload => h.current n' next' result' hn' (lookup_of_erase hload),
        fun n' next' result' hn' hload => h.read n' next' result' hn' (lookup_of_erase hload)⟩
    split
    · rename_i hlive
      simp only [keepsRows, hn, hlive, ne_eq, not_true_eq_false, decide_false, Bool.false_or,
        Bool.and_eq_true, decide_eq_true_eq] at hk
      obtain ⟨hactivation, hrows⟩ := hk
      obtain ⟨timer, he, htimer⟩ := hydrate_eq result { s with loads := s.loads.erase n }
      have hgone : ∀ n' load, s.activation = some n' → (s.loads.erase n).lookup n' ≠ some load := by
        intro n' load hn' hload
        obtain rfl : n = n' := some.inj (hactivation.symm.trans hn')
        rw [AList.lookup_erase] at hload
        simp at hload
      rw [he]
      refine ⟨?_, h.saved, h.apart, ?_, ?_, ?_⟩
      · intro o ho hself
        left
        obtain rfl : next = o.self := some.inj (hlive.symm.trans hself)
        have hread := h.read n o.self result hactivation hn o ho rfl
        cases hblob : result.blob with
        | none =>
          rcases hread with hhas | ⟨blob, hsome, -⟩
          · exact hhas
          · exact nomatch hblob.symm.trans hsome
        | some blob =>
          have hfound : s.store.has o.conv o.ref = true ∨ blob.store.has o.conv o.ref = true := by
            rcases hread with hhas | ⟨blob', hsome, hhas⟩
            · exact .inl hhas
            · obtain rfl := some.inj (hblob.symm.trans hsome)
              exact .inr hhas
          have hrow : s.store.has o.conv o.ref = true → o.conv ∈ blob.messages →
              blob.store.has o.conv o.ref = true := by
            intro hhas hmem
            rw [hblob] at hrows
            have hone := List.all_eq_true.1 hrows o ho
            simpa [hhas, hmem] using hone
          show (s.store.hydrateFromBlob blob).has o.conv o.ref = true
          rw [has_hydrateFromBlob]
          split
          · rename_i hmem
            exact hfound.elim (fun hhas => hrow hhas hmem) id
          · rename_i hnot
            exact hfound.elim id fun hhas => absurd (mem_messages_of_has hhas) hnot
      · intro d hd
        rcases htimer with hsame | ⟨-, hfrom⟩
        · exact ⟨(h.timer d (hsame ▸ hd)).1, rfl⟩
        · exact ⟨hfrom ▸ hd, rfl⟩
      iterate 2
        · intro n' next' result' hn' hload
          exact absurd hload (hgone n' _ hn')
    · exact herase
  · exact h

theorem Keeping.saved_step (h : Keeping s) {k : Nat} (hk : keepsRows s (.saved k true) = true) :
    Keeping (s.saved k true) := by
  have hsaved : ∀ o, (s.saved k true).hasSaved o = s.hasSaved o := by
    intro o
    unfold State.hasSaved
    rw [newest_saved hk]
  have hsame : ∃ saves keychain replaced, s.saved k true =
      { s with saves := saves, keychain := keychain, replaced := replaced } := by
    unfold State.saved
    split
    · exact ⟨s.saves, s.keychain, s.replaced, rfl⟩
    · exact ⟨_, _, _, rfl⟩
  obtain ⟨saves, keychain, replaced, he⟩ := hsame
  rw [he] at hsaved ⊢
  refine ⟨?_, ?_, h.apart, h.timer, h.current, h.read⟩
  · intro o ho hlive
    rw [hsaved]
    exact h.held o ho hlive
  · intro o ho hlive
    rw [hsaved]
    exact h.saved o ho hlive

theorem Keeping.step {e : Event} (h : Keeping s) (hsucceeds : callsSucceed e = true)
    (hk : keepsRows s e = true) : Keeping (step s e) := by
  cases e with
  | relaunch => exact keeping_launch s.keychain
  | setSelfDid did => exact h.setSelfDid hk
  | write o => exact h.write o
  | timerFires => exact h.timerFires
  | read n readable =>
    obtain rfl : readable = true := hsucceeds
    exact h.read_step hk
  | loaded n => exact h.loaded hk
  | saved k ok =>
    obtain rfl : ok = true := hsucceeds
    exact h.saved_step hk

end Steps

/-! ## Runs -/

/-- In every run of events in which all keychain calls succeed, whatever the keychain holds at first,
    the live DID has its rows once it is hydrated, if each event meets the condition. -/
theorem rowsKept_of_keepsRows (keychain : Map String MessagingStateBlob) (es : List Event)
    (hsucceed : ∀ e ∈ es, callsSucceed e = true)
    (hkeeps : StepsMeet step (fun s e => keepsRows s e = true) (State.launch keychain) es) :
    HoldsThroughout step RowsKept (State.launch keychain) es :=
  StepsMeet.holdsThroughout
    (fun _ _ h hmeets => h.step hmeets.1 hmeets.2) (fun _ h => h.rowsKept) (keeping_launch keychain)
    ((stepsMeet_and es _).2 ⟨stepsMeet_of_forall hsucceed _, hkeeps⟩)

/-- A text that `alice` has sent. -/
def sentText : LocalMessage where
  id := .sentLocally 1000 0
  direction := .sent
  contentType := .text
  body := ⟨false, .text "hello"⟩
  timestamp := 1000
  epoch := 0
  sequence := 0
  status := .sent
  origin :=
    { uid := 0, senderDid := "did:zhtp:alice", recipientDid := "did:zhtp:peer", contentType := .text,
      timestamp := 1000, epoch := 0, sequence := 0,
      gen := ⟨"did:zhtp:alice", "did:zhtp:peer", 0⟩, body := ⟨false, .text "hello"⟩ }

def sentByAlice : List Event :=
  [.setSelfDid (some "did:zhtp:alice"), .read 0 true, .loaded 0,
    .write (.appendMessage "did:zhtp:peer" sentText)]

/-- The row is stored before the switch to `bob`, and comes back with the switch to `alice`. -/
def storedAndBack : List Event :=
  sentByAlice ++ [.timerFires, .saved 0 true, .setSelfDid (some "did:zhtp:bob"), .read 1 true, .loaded 1,
    .setSelfDid (some "did:zhtp:alice"), .read 2 true, .loaded 2]

theorem rowsKept_storedAndBack :
    HoldsThroughout step RowsKept (State.launch ∅) storedAndBack :=
  rowsKept_of_keepsRows ∅ storedAndBack (by decide) (by decide)

/-- The switch comes before the timer. -/
def switchedTooSoon : List Event :=
  sentByAlice ++ [.setSelfDid (some "did:zhtp:bob"), .read 1 true, .loaded 1,
    .setSelfDid (some "did:zhtp:alice"), .read 2 true, .loaded 2]

theorem switchedTooSoon_not_rowsKept : (∀ e ∈ switchedTooSoon, callsSucceed e = true) ∧
    ¬ HoldsThroughout step RowsKept (State.launch ∅) switchedTooSoon := by
  refine ⟨by decide, fun h => ?_⟩
  have hkept := h.last "did:zhtp:alice" (by decide) (by decide)
    ⟨"did:zhtp:alice", "did:zhtp:peer", 0⟩ (by decide) rfl
  have hlost : (switchedTooSoon.foldl step (State.launch ∅)).store.has "did:zhtp:peer" 0 = false := by
    decide
  exact nomatch hkept.symm.trans hlost

end MessagingMockData
