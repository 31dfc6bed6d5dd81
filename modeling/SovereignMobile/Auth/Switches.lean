import SovereignMobile.Auth.Programs
import SovereignMobile.EventLoop.Since

/-! # Sign-outs and switches of the identity

The operations of the context carry an identity across calls and write it back without looking whether
somebody signed out meanwhile, or in as someone else. A switch is final where no operation that is under
way then has such a write ahead of it, and a hydration changes only the names where the identity that it
started from is still the current one. -/

namespace Auth

open EventLoop List Option

/-! ## The property -/

/-- What was `x` is left alone, or is something with the DID `who` now. -/
def Becomes {α : Type} (who : Option Did) (did : α → Did) (x y : Option α) : Prop :=
  y = x ∨ ∃ a, y = some a ∧ who = some (did a)

/-- The current and the stored identity are left alone, or become an identity with the DID `who`. -/
structure OnlyTo (who : Option Did) (s s' : State) : Prop where
  currentIdentity : Becomes who Identity.did s.currentIdentity s'.currentIdentity
  keychain : Becomes who StoredIdentity.did s.device.keychain s'.device.keychain
  backup : Becomes who StoredIdentity.did s.device.backup s'.device.backup
  cachedDid : Becomes who id s.device.cachedDid s'.device.cachedDid

/-- Whose identity is there after an operation that ended so: nobody's after a sign-out. -/
def Outcome.switchesTo : Outcome → Option (Option Did)
  | .signedOut => some none
  | .signedIn did => some (some did)
  | _ => none

/-- With the step from `w₀` to `w₁`, a sign-out or a sign-in as `who` completes. -/
structure Switches (who : Option Did) (w₀ w₁ : Sys machine) : Prop where
  step : ∃ m, w₀.step Cond.any program m = some w₁
  outcome : ∃ i o, Outcome.switchesTo o = some who ∧
    State.outcomes w₁.state = State.outcomes w₀.state ++ [(i, o)]

/-- In every run from `w₁`, no step of an operation that was under way then changes the current or the
    stored identity, except to one with the DID `who`. -/
def Final (who : Option Did) (w₁ : Sys machine) : Prop :=
  ∀ (P : Command → Bool) (old : Nat → Prop) (alone : Bool) (w : Sys machine),
    Since program P w₁ old alone w → ∀ (i : Nat) (m : Move machine Command) (w' : Sys machine),
      old i → (m = .resume i ∨ ∃ r, m = .perform i r) → w.step Cond.any program m = some w' →
        OnlyTo who w.state w'.state

/-- The names of an identity left out. -/
def Identity.unnamed (i : Identity) : Identity := { i with displayName := "", username := none }

/-- The identity that was current before a hydration, and the one after it, differ in the names only. -/
def NamesOnly (e : Option Identity × Identity) : Prop :=
  ∃ i, e.1 = some i ∧
    e.2 = { i with displayName := e.2.displayName, username := e.2.username }

/-! ## The conditions -/

/-- The operations that change the current identity to one with the DID `who`, or not at all. -/
def Op.writesOnly (who : Option Did) : Op → Prop
  | .setCurrentIdentity identity => ∃ i, identity = some i ∧ who = some i.did
  | .setHydrated _ hydrated => who = some hydrated.did
  | _ => True

/-- The calls that store such an identity, or none. -/
def Call.writesOnly (who : Option Did) : Call → Prop
  | .write (.keychain data) => ∃ x, data = some x ∧ who = some x.did
  | .write (.backup data) => ∃ x, data = some x ∧ who = some x.did
  | .write (.cachedDid did) => ∃ x, did = some x ∧ who = some x
  | _ => True

/-- No operation that is under way has a write of another identity ahead of it, or a removal. -/
def Quiet (who : Option Did) (w : Sys machine) : Prop :=
  ∀ t ∈ w.tasks, t.Within (Op.writesOnly who) (Call.writesOnly who)

/-- A hydration is applied while the identity that it started from is current, up to the names. -/
def hydrationCond : Cond machine where
  op _ (s : State) := fun (o : Op) => match o with
    | .setHydrated snapshot _ => decide (s.currentIdentity.map Identity.unnamed = some snapshot.unnamed)
    | _ => true
  call _ _ _ _ := true

/-! ## Switches -/

variable {who : Option Did}

theorem Becomes.trans {α : Type} {did : α → Did} {x y z : Option α} (hxy : Becomes who did x y)
    (hyz : Becomes who did y z) : Becomes who did x z := by
  rcases hyz with rfl | hz
  · exact hxy
  · exact .inr hz

theorem OnlyTo.refl (who : Option Did) (s : State) : OnlyTo who s s :=
  ⟨.inl rfl, .inl rfl, .inl rfl, .inl rfl⟩

theorem OnlyTo.trans {s1 s2 s3 : State} (h : OnlyTo who s1 s2) (h' : OnlyTo who s2 s3) :
    OnlyTo who s1 s3 :=
  ⟨h.currentIdentity.trans h'.currentIdentity, h.keychain.trans h'.keychain,
    h.backup.trans h'.backup, h.cachedDid.trans h'.cachedDid⟩

theorem onlyTo_apply {o : Op} (h : o.writesOnly who) (i : Nat) (s : State) :
    OnlyTo who s (apply i o s) := by
  cases o with
  | setCurrentIdentity identity => exact ⟨.inr h, .inl rfl, .inl rfl, .inl rfl⟩
  | setHydrated snapshot hydrated => exact ⟨.inr ⟨hydrated, rfl, h⟩, .inl rfl, .inl rfl, .inl rfl⟩
  | _ => exact ⟨.inl rfl, .inl rfl, .inl rfl, .inl rfl⟩

theorem onlyTo_effect {c : Call} (h : c.writesOnly who) (s : State) :
    OnlyTo who s { s with device := c.effect s.device } := by
  cases c with
  | write w =>
    cases w with
    | keychain data => exact ⟨.inl rfl, .inr h, .inl rfl, .inl rfl⟩
    | backup data => exact ⟨.inl rfl, .inl rfl, .inr h, .inl rfl⟩
    | cachedDid did => exact ⟨.inl rfl, .inl rfl, .inl rfl, .inr h⟩
    | _ => exact ⟨.inl rfl, .inl rfl, .inl rfl, .inl rfl⟩
  | _ => exact ⟨.inl rfl, .inl rfl, .inl rfl, .inl rfl⟩

theorem confined_onlyTo (who : Option Did) :
    Confined (M := machine) (Op.writesOnly who) (Call.writesOnly who) (OnlyTo who) where
  refl := OnlyTo.refl who
  trans _ _ _ := .trans
  op i s _ h := onlyTo_apply h i s
  call i s c r s' o h hp := by
    rcases perform_cases (i := i) hp with ⟨message, _, _, rfl⟩ | ⟨_, _, rfl⟩
    · obtain ⟨b, hb⟩ := c.failed_eq s message
      rw [hb]
      exact ⟨.inl rfl, .inl rfl, .inl rfl, .inl rfl⟩
    · exact onlyTo_effect h s

/-- A switch is final if every operation that is under way then writes that identity only. -/
theorem final_of_quiet {w0 w1 : Sys machine} {init : State → Prop}
    (h : Reach Cond.any program init w0) (hs : Switches who w0 w1) (hq : Quiet who w1) :
    Final who w1 := by
  obtain ⟨m, hstep⟩ := hs.step
  have hlt := (h.step m hstep).lt
  intro P old alone w hw i m w' hi hm hstep'
  exact hw.step_within (confined_onlyTo who) (fun t ht => ⟨hlt t ht, hq t ht⟩) hi hm hstep'

/-! ## What the programs write -/

section Only
variable {P : Op → Prop} {Q : Call → Prop}

/-- The judgement that a fragment has no operations but those in `P`, and no calls but those in `Q`. -/
def only (P : Op → Prop) (Q : Call → Prop) : Judgement := fun _ m =>
  m.Only (Kind.within (M := machine) P Q) fun _ => True

theorem only_op {o : Op} (h : P o) : only P Q Unit (op o) := .op fun _ => h

theorem only_await {c : Call} (h : Q c) : only P Q (Ret c) (await c) :=
  .await (fun _ => h) fun _ _ _ => trivial

theorem only_sequential (hop : ∀ o : Op, o.Routine → P o) (hcall : ∀ c : Call, c.Routine → Q c) :
    (only P Q).Sequential Op.Routine where
  pure _ := .pure trivial
  throw e := .throw (M := machine) e
  bind hm hf := .bind hm fun a _ => hf a
  settle hm hf := .settle hm fun r _ => hf r
  tryCatch hm hf := .tryCatch hm hf
  read hf := .bind (.get fun _ _ _ => trivial) fun s _ => hf s
  op o ho := only_op (hop o ho)
  await c hc := only_await (hcall c hc)

/-- A hydration stores and shows the identity with the names of the chain's record. -/
theorem only_applyHydration (h : (only P Q).Sequential Op.Routine) {identity : Identity}
    (hstore : ∀ record, only P Q Unit (SecureIdentityStorage.setIdentity (identity.named record)))
    (happly : ∀ record, P (.setHydrated identity (identity.named record))) :
    only P Q Identity (applyHydration identity) := by
  have hhydrate : (hydrateIdentityFromChain identity).Only (.within P Q)
      fun hydrated => hydrated = identity ∨ ∃ record, hydrated = identity.named record := by
    unfold hydrateIdentityFromChain
    split
    · exact .pure (.inl rfl)
    refine .bind (h.steady.fetchIdentityRecord _) fun record _ => ?_
    cases record with
    | none => exact .pure (.inl rfl)
    | some record =>
      dsimp only
      split
      · exact .pure (.inl rfl)
      · exact .bind (h.steady.ignoring (hstore record)) fun _ _ =>
          .pure (.inr ⟨record, rfl⟩)
  refine .bind hhydrate fun hydrated hnamed => ?_
  split
  · exact h.pure _
  rename_i hne
  obtain ⟨record, rfl⟩ := hnamed.resolve_left hne
  exact h.bind (only_op (happly record)) fun _ => h.pure _

end Only

/-- A hydration is applied with the names of a record of the chain. -/
def Op.Hydrates : Op → Prop
  | .setHydrated snapshot hydrated => ∃ record, hydrated = snapshot.named record
  | _ => True

theorem only_hydrates : (only Op.Hydrates fun _ => True).Unrestricted := by
  have hplain : (only Op.Hydrates fun _ => True).Sequential Op.Routine :=
    only_sequential (fun o ho => by cases o <;> trivial) fun _ _ => trivial
  have hwrite : ∀ w : Write, only Op.Hydrates (fun _ => True) Unit (write w) :=
    fun w => only_await (c := .write w) trivial
  have hstore : ∀ identity, only Op.Hydrates (fun _ => True) Unit
      (SecureIdentityStorage.setIdentity identity) := fun _ => hplain.steady.storeOf fun w _ => hwrite w
  exact { hplain with
      present := fun _ _ => only_op trivial
      store := fun identity _ => hstore identity
      hydrate := fun identity _ => only_applyHydration hplain (fun _ => hstore _) fun record =>
        ⟨record, rfl⟩
      hide := only_op trivial
      clear := hplain.steady.clearOf fun w _ => hwrite w
      uncache := hwrite _
      spawn := fun hm => .spawn hm }

theorem program_hydrates (c : Command) :
    (program c).Only (.within (M := machine) Op.Hydrates fun _ => True) .whatever := by
  have hbody : only Op.Hydrates (fun _ => True) Unit c.body :=
    only_hydrates.command (fun _ => ⟨only_op trivial, only_op trivial, only_op trivial⟩)
      (fun _ => only_op trivial) c
  exact hbody.toTask _

/-! ## Hydrations -/

theorem namesOnly_named {current : Option Identity} {snapshot : Identity} (record : IdentityRecord)
    (h : current.map Identity.unnamed = some snapshot.unnamed) :
    NamesOnly (current, snapshot.named record) := by
  obtain ⟨i, rfl, hi⟩ := map_eq_some_iff.1 h
  refine ⟨i, rfl, ?_⟩
  cases i
  cases snapshot
  simp_all [Identity.unnamed, Identity.named]

/-- In every run whose hydrations find the identity they started from, up to the names, they change the
    names only. -/
theorem namesOnly_of_reach {w : Sys machine}
    (h : Reach hydrationCond program (fun s => s.hydrations = []) w) :
    ∀ e ∈ State.hydrations w.state, NamesOnly e := by
  refine h.invariant_within (I := fun s => ∀ e ∈ State.hydrations s, NamesOnly e) program_hydrates ?_ ?_ ?_
  · intro s hs e he
    rw [hs] at he
    simp at he
  · intro i s o ho hs hc
    cases o with
    | setHydrated snapshot hydrated =>
      intro e he
      rcases mem_append.1 he with he | he
      · exact hs e he
      obtain ⟨record, rfl⟩ := ho
      rw [mem_singleton.1 he]
      exact namesOnly_named record (of_decide_eq_true hc)
    | _ => exact hs
  · intro i s c r s' o _ hs hp _
    obtain ⟨device, b, rfl⟩ := perform_state (i := i) hp
    exact hs

/-! ## Every run -/

/-- Whoever is for one identity writes no other. -/
theorem only_writes (did : Did) :
    (only (Op.writesOnly (some did)) (Call.writesOnly (some did))).Composed fun d => d = did := by
  have hplain : (only (Op.writesOnly (some did)) (Call.writesOnly (some did))).Sequential Op.Routine :=
    only_sequential (fun o ho => by cases o <;> trivial) fun c hc => by
      cases c with
      | write w => cases w <;> trivial
      | _ => trivial
  have hstore : ∀ identity : Identity, identity.did = did → only (Op.writesOnly (some did))
      (Call.writesOnly (some did)) Unit (SecureIdentityStorage.setIdentity identity) := by
    rintro identity rfl
    refine hplain.steady.storeOf fun w hw => only_await (c := .write w) ?_
    simp only [mem_cons, not_mem_nil, or_false] at hw
    rcases hw with rfl | rfl | rfl
    iterate 3
      · exact ⟨_, rfl, rfl⟩
  exact { hplain with
      present := fun identity hd => only_op ⟨identity, rfl, congrArg some hd.symm⟩
      store := hstore
      hydrate := fun identity hd => only_applyHydration hplain (fun _ => hstore _ hd) fun record =>
        congrArg some hd.symm }

/-- The calls of task `i` all succeed. -/
def succeed (i n : Nat) : List (Move machine Command) :=
  (List.replicate n [.perform i ({} : Reply), .resume i]).flatten

/-- Alice signs in and claims a name, and signs out while the server is asked for it. -/
def aliceLeaves : List (Move machine Command) :=
  .start (.setIdentity { did := "did:zhtp:a", displayName := "Alice" }) :: succeed 0 4 ++
    .start (.claimUsername "alice") :: .start .signOut :: succeed 2 3 ++ [.perform 2 {}]

def robert : Identity := { did := "did:zhtp:b", displayName := "Bob" }

/-- Setting an identity writes no other. -/
theorem program_writes (identity : Identity) : (program (.setIdentity identity)).Only
    (Kind.within (M := machine) (Op.writesOnly (some identity.did)) (Call.writesOnly (some identity.did)))
    .whatever := by
  have hbody : only (Op.writesOnly (some identity.did)) (Call.writesOnly (some identity.did)) Unit
      (Command.setIdentity identity).body :=
    (only_writes identity.did).settle ((only_writes identity.did).setIdentity rfl)
      fun _ => only_op trivial
  exact hbody.toTask _

end Auth
