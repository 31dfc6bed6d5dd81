import SovereignMobile.EventLoop.Sequential
import SovereignMobile.Messaging.StoreOps

/-! # Loads that could not read

`loadMessagingState` returns `null` where nothing is stored and where it could not read what is, and both
open the gate for saves. What is stored survives as long as the timer does not fire then with less in
memory. -/

namespace MessagingMockData

open Messaging EventLoop List

/-- The store has all contacts, rows and sessions of the blob. -/
def MessagingStateBlob.within (blob : MessagingStateBlob) (c : Store) : Bool :=
  blob.contacts.entries.all (fun e => e.1 ∈ c.contactsByDid) &&
  blob.messages.entries.all (fun e => e.2.all fun row => c.has e.1 row.ref) &&
  blob.sessions.entries.all fun e => e.1 ∈ c.serializedSessionsByDid

/-- No blob that a load could not read has been replaced by a snapshot that lacks some of it. -/
def StoredKept (s : State) : Prop := ∀ p ∈ s.replaced, p.1.within p.2.store = true

/-- Where the load of the activation could not read a blob, the timer fires with all of it in memory. -/
def keepsStored (s : State) : Event → Bool
  | .timerFires => s.unreadable.all fun blob => blob.within s.store
  | _ => true

/-- The saves under way lack nothing either. -/
structure Guarded (s : State) : Prop where
  stored : StoredKept s
  saves : ∀ save ∈ s.saves, ∀ blob, save.guarded = some blob → blob.within save.blob.store = true

theorem guarded_launch (keychain : Map String MessagingStateBlob) :
    Guarded (State.launch keychain) where
  stored p hp := absurd hp (by simp [State.launch])
  saves save hsave := absurd hsave (by simp [State.launch])

section Steps
variable {s : State}

theorem Guarded.of_eq {s' : State} (h : Guarded s) (hr : s'.replaced = s.replaced)
    (hs : s'.saves = s.saves) : Guarded s' where
  stored p hp := h.stored p (hr ▸ hp)
  saves save hsave := h.saves save (hs ▸ hsave)

theorem Guarded.timerFires (h : Guarded s) (hk : keepsStored s .timerFires = true) :
    Guarded s.timerFires := by
  unfold State.timerFires
  split
  · exact h
  rename_i did _
  refine ⟨h.stored, fun save hsave blob hguarded => ?_⟩
  rcases mem_append.1 hsave with hold | hnew
  · exact h.saves save hold blob hguarded
  rw [mem_singleton.1 hnew] at hguarded ⊢
  have hmissed : s.unreadable = some blob := hguarded
  rw [keepsStored, hmissed] at hk
  exact hk

theorem Guarded.saved (h : Guarded s) (k : Nat) (ok : Bool) : Guarded (s.saved k ok) := by
  unfold State.saved
  split
  · exact h
  rename_i save hsave
  have hrest : ∀ save' ∈ s.saves.eraseIdx k, ∀ blob, save'.guarded = some blob →
      blob.within save'.blob.store = true :=
    fun save' hsave' => h.saves save' (mem_of_mem_eraseIdx hsave')
  split
  · refine ⟨fun p hp => ?_, hrest⟩
    rcases mem_append.1 hp with hold | hnew
    · exact h.stored p hold
    · obtain ⟨blob, hguarded, rfl⟩ := Option.map_eq_some_iff.1 (Option.mem_toList.1 hnew)
      exact h.saves save (mem_of_getElem? hsave) blob hguarded
  · exact ⟨h.stored, hrest⟩

theorem Guarded.step {e : Event} (h : Guarded s) (hk : keepsStored s e = true) :
    Guarded (step s e) := by
  cases e with
  | relaunch => exact guarded_launch s.keychain
  | setSelfDid did =>
    simp only [MessagingMockData.step]
    rcases setSelfDid_eq did with ⟨-, he⟩ | ⟨-, loads, nextLoad, activation, he, -, -⟩
    · rwa [he]
    · rw [he]
      exact h.of_eq rfl rfl
  | write o =>
    simp only [MessagingMockData.step]
    rcases write_eq o s with ⟨-, he⟩ | ⟨c', timer, -, he, -⟩
    · rwa [he]
    · rw [he]
      exact h.of_eq rfl rfl
  | timerFires => exact h.timerFires hk
  | read n readable =>
    simp only [MessagingMockData.step, State.read]
    split
    · exact h.of_eq rfl rfl
    · exact h
  | loaded n =>
    simp only [MessagingMockData.step, State.loaded]
    split
    · rename_i next result _
      split
      · obtain ⟨timer, he, -⟩ := hydrate_eq result { s with loads := s.loads.erase n }
        rw [he]
        exact h.of_eq rfl rfl
      · exact h.of_eq rfl rfl
    · exact h
  | saved k ok => exact h.saved k ok

end Steps

def firstRow : LocalMessage :=
  Envelope.receivedRow
    { uid := 0, senderDid := "did:zhtp:peer", recipientDid := "did:zhtp:self", contentType := .text,
      timestamp := 1000, epoch := 0, sequence := 0,
      gen := ⟨"did:zhtp:peer", "did:zhtp:self", 0⟩, body := ⟨false, .text "first"⟩ }
    ⟨false, .text "first"⟩

def secondRow : LocalMessage :=
  Envelope.receivedRow
    { uid := 1, senderDid := "did:zhtp:peer", recipientDid := "did:zhtp:self", contentType := .text,
      timestamp := 2000, epoch := 0, sequence := 1,
      gen := ⟨"did:zhtp:peer", "did:zhtp:self", 0⟩, body := ⟨false, .text "second"⟩ }
    ⟨false, .text "second"⟩

/-- A row is stored, and the next launch's load of it fails. -/
def failedLoad : List Event :=
  [.setSelfDid (some "did:zhtp:self"), .read 0 true, .loaded 0,
    .write (.appendMessage "did:zhtp:peer" firstRow), .timerFires, .saved 0 true, .relaunch,
    .setSelfDid (some "did:zhtp:self"), .read 0 false]

/-- The user goes to another DID and back, and the second load brings the row before anything is
    written. -/
def loadedAgain : List Event :=
  failedLoad ++ [.setSelfDid (some "did:zhtp:other"), .setSelfDid (some "did:zhtp:self"), .loaded 0,
    .read 2 true, .loaded 2, .write (.appendMessage "did:zhtp:peer" secondRow), .timerFires, .saved 0 true]

/-- The next text that arrives is all that is stored then. -/
def overwritten : List Event :=
  failedLoad ++
  [.loaded 0, .write (.appendMessage "did:zhtp:peer" secondRow), .timerFires, .saved 0 true]

end MessagingMockData
