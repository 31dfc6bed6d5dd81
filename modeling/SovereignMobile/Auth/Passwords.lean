import SovereignMobile.Auth.Context
import SovereignMobile.EventLoop.Safety

/-! # The password that waits

`createIdentity` leaves the password in a ref, and the next `setIdentity` that gets there saves it, for
whatever identity it is called with. Nothing but that empties the ref: no failure, no rollback, no
sign-out. -/

namespace Auth

open EventLoop List Option

/-! ## The property -/

/-- Every password that was saved was chosen for the identity it was saved for. -/
def OwnPasswords (s : State) : Prop := ∀ e ∈ s.saved, e ∈ s.created

/-- The app has just been started. -/
structure NothingPending (s : State) : Prop where
  pendingPassword : s.pendingPassword = none
  saved : s.saved = []

/-- Whoever saves the password that waits does it for the identity that was created last, or for one that
    was created with the same password. -/
def ownPasswordCond : Cond machine where
  op _ (s : State) := fun (o : Op) => match o with
    | .saveLoginCredentials did => s.created.getLast?.any fun e => decide ((did, e.2) ∈ s.created)
    | _ => true
  call _ _ _ _ := true

/-! ## What waits was chosen last -/

/-- The password that waits is that of the identity that was created last. -/
structure PasswordsKept (s : State) : Prop where
  pending : ∀ password, s.pendingPassword = some password →
    ∃ did, s.created.getLast? = some (did, password)
  own : OwnPasswords s

variable {s : State} {i : Nat}

theorem NothingPending.kept (h : NothingPending s) : PasswordsKept s := by
  refine ⟨fun password hp => ?_, fun e he => ?_⟩
  · rw [h.pendingPassword] at hp
    simp at hp
  · rw [h.saved] at he
    simp at he

theorem PasswordsKept.op (h : PasswordsKept s) (i : Nat) (o : Op)
    (hc : ownPasswordCond.op i s o = true) : PasswordsKept (apply i o s) := by
  cases o with
  | stashPassword did password =>
    refine ⟨fun p hp => ⟨did, ?_⟩, fun e he => mem_append_left _ (h.own e he)⟩
    cases hp
    exact getLast?_append_cons ..
  | saveLoginCredentials did =>
    refine ⟨h.pending, fun e he => ?_⟩
    rcases mem_append.1 he with he | he
    · exact h.own e he
    cases hp : s.pendingPassword with
    | none => simp [hp] at he
    | some password =>
      simp only [hp, map_some, toList_some, mem_singleton] at he
      subst he
      obtain ⟨last, hlast⟩ := h.pending password hp
      have hmem : (did, password) ∈ s.created := by simpa [ownPasswordCond, hlast] using hc
      exact hmem
  | clearPendingPassword => exact ⟨fun _ hp => absurd hp (by simp [apply]), h.own⟩
  | _ => exact ⟨h.pending, h.own⟩

theorem PasswordsKept.call {c : Call} {r : Reply} {s' : State} {o : Except String (Ret c)}
    (h : PasswordsKept s) (hp : perform i c r s = some (s', o)) : PasswordsKept s' := by
  obtain ⟨device, b, rfl⟩ := perform_state hp
  exact ⟨h.pending, h.own⟩

/-! ## Every run -/

def aliceDid : Did := "did:zhtp:00000000000000000000000000000000000000000000000000000000000a11ce"

def bobDid : Did := "did:zhtp:0000000000000000000000000000000000000000000000000000000000000b0b"

/-- The calls of task `i` are answered one after the other. -/
def answer (i : Nat) (rs : List Reply) : List (Move machine Command) :=
  rs.flatMap fun r => [.perform i r, .resume i]

/-- Alice's identity is created, with the password "hunter22". -/
def createAlice : List (Move machine Command) :=
  .start (.createIdentity ⟨"Alice", "hunter22", "human"⟩) ::
    answer 0 ({ generated := ⟨aliceDid, "phone", 0⟩ } :: List.replicate 5 ({} : Reply))

/-- She never confirms the seed phrase, and Bob signs in on the device, up to the write of the
    credentials. -/
def bobSignsIn : List (Move machine Command) :=
  .start (.passwordSignIn "bob" "correct horse") ::
    answer 1 ([{ session := ⟨"token", "key", bobDid, "bob", "", 0⟩ }, ({} : Reply),
      { localIdentity := some { identityId := "bob", did := bobDid } }] ++ List.replicate 3 ({} : Reply))

theorem nothingPending_start : NothingPending {} := ⟨rfl, rfl⟩

end Auth
