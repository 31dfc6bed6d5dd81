import SovereignMobile.Auth.Storage
import SovereignMobile.EventLoop.Alone

/-! # The stores of the identity

`SecureIdentityStorage` writes an identity to three places, one after the other and without a way back:
the Keychain entry, the backup and the cached DID. Calls that run one after the other keep the three in
step exactly if none of them stops half way with another identity than the one that is stored. -/

namespace Auth

open EventLoop List Option

/-! ## Single calls -/

/-- How call `c` fails, if it does, after `n c` times. -/
def failure (a : Answers machine) (n : Call → Nat) (c : Call) : Option String :=
  Reply.fails (a c (n c))

/-- One more call of `c`. -/
def bump (n : Call → Nat) (c : Call) : Call → Nat := Function.update n c (n c + 1)

variable {n : Call → Nat} {c c' : Call} {a : Answers machine} {ws : List Write}

theorem bump_self : bump n c c = n c + 1 :=
  Function.update_self _ _ _

theorem bump_of_ne (h : c' ≠ c) : bump n c c' = n c' :=
  Function.update_of_ne h _ _

@[simp] theorem failure_bump (h : c' ≠ c) : failure a (bump n c) c' = failure a n c' := by
  unfold failure
  rw [bump_of_ne h]

section Calls
variable {a : Answers machine} {i : Nat} {n : Call → Nat} {s : State}

variable {c : Call} {e : String} {w : Write}

theorem returns_ok (hmissing : c.missing s.device.platform = none) (h : failure a n c = none) :
    (await c).Returns a i n s (.ok (c.answer s.device (a c (n c)))) (bump n c)
      { s with device := c.effect s.device } := by
  refine .await ?_
  have hp : c.failure s.device.platform (a c (n c)) = none := by
    simp only [Call.failure, hmissing]
    exact h
  simp only [machine, perform, hp]

theorem returns_fails (hmissing : c.missing s.device.platform = none)
    (hsame : ∀ m, c.failed s m = s) (h : failure a n c = some e) :
    (await c).Returns a i n s (.error e) (bump n c) s := by
  refine .await ?_
  have hp : c.failure s.device.platform (a c (n c)) = some e := by
    simp only [Call.failure, hmissing]
    exact h
  simp only [machine, perform, hp, hsame]

theorem returns_write (h : failure a n (.write w) = none) :
    (write w).Returns a i n s (.ok ()) (bump n (.write w))
      { s with device := w.apply s.device } := returns_ok rfl h

theorem returns_write_fails (h : failure a n (.write w) = some e) :
    (write w).Returns a i n s (.error e) (bump n (.write w)) s :=
  returns_fails rfl (fun _ => rfl) h

theorem returns_ignoring {m : Prog Unit} {r : Except String Unit} {n' : Call → Nat} {s' : State}
    (h : m.Returns a i n s r n' s') : (ignoring m).Returns a i n s (.ok ()) n' s' := by
  cases r with
  | ok x => exact .tryCatch h
  | error e => exact .tryCatch_error h (.pure _)

end Calls

/-! ## Writes in a row -/

/-- The writes that take effect: those before the first that fails. -/
def effective (fails : Write → Bool) : List Write → List Write
  | [] => []
  | w :: ws => if fails w then [] else w :: effective fails ws

def applyAll (ws : List Write) (d : Device) : Device := ws.foldl Write.apply d

def writeAll : List Write → Prog Unit
  | [] => pure ()
  | w :: ws => do
    write w
    writeAll ws

def writeFails (a : Answers machine) (n : Call → Nat) (w : Write) : Bool :=
  (failure a n (.write w)).isSome

theorem effective_congr {f g : Write → Bool} (h : ∀ w ∈ ws, f w = g w) :
    effective f ws = effective g ws := by
  induction ws with
  | nil => rfl
  | cons w ws ih =>
    rw [effective, effective, h w mem_cons_self, ih fun w' hw' => h w' (mem_cons_of_mem _ hw')]

/-- Where no write fails, all take effect. -/
theorem effective_eq_self {fails : Write → Bool} (h : ∀ w ∈ ws, fails w = false) :
    effective fails ws = ws := by
  induction ws with
  | nil => rfl
  | cons w ws ih =>
    rw [effective, h w mem_cons_self, ih fun w' hw' => h w' (mem_cons_of_mem _ hw')]
    rfl

/-- Different writes, each of which waits for the one before: the run succeeds if none fails. -/
theorem returns_writeAll {i : Nat} (ws : List Write) :
    ∀ (n : Call → Nat) (s : State), ws.Nodup → ∃ r n', (writeAll ws).Returns a i n s r n'
        { s with device := applyAll (effective (writeFails a n) ws) s.device } ∧
      (r = .ok () ↔ ∀ w ∈ ws, writeFails a n w = false) ∧
      ∀ c, (∀ w ∈ ws, c ≠ .write w) → n' c = n c := by
  induction ws with
  | nil => exact fun n s _ => ⟨.ok (), n, .pure (), by simp, fun _ _ => rfl⟩
  | cons w ws ih =>
    intro n s hnodup
    obtain ⟨hw, hws⟩ := nodup_cons.1 hnodup
    cases hf : failure a n (.write w) with
    | some e =>
      have hfails : writeFails a n w = true := by simp [writeFails, hf]
      refine ⟨.error e, bump n (.write w), ?_, ?_, fun c hc => ?_⟩
      · simp only [effective, hfails]
        exact .bind_error (returns_write_fails hf)
      · constructor
        · exact fun h => nomatch h
        · exact fun h => absurd (h w mem_cons_self) (by simp [hfails])
      · exact bump_of_ne (hc w mem_cons_self)
    | none =>
      have hfails : writeFails a n w = false := by simp [writeFails, hf]
      -- the other writes fail as they would have before
      have hsame : ∀ w' ∈ ws, writeFails a (bump n (.write w)) w' = writeFails a n w' := by
        intro w' hw'
        have hne : w' ≠ w := fun h => hw (h ▸ hw')
        unfold writeFails
        rw [failure_bump fun h => hne (Call.write.inj h)]
      obtain ⟨r, n', hret, hok, hmade⟩ :=
        ih (bump n (.write w)) { s with device := w.apply s.device } hws
      rw [effective_congr hsame] at hret
      refine ⟨r, n', ?_, ?_, fun c hc => ?_⟩
      · simp only [effective, hfails]
        exact .bind (returns_write hf) hret
      · rw [hok]
        constructor
        · intro h w' hw'
          rcases mem_cons.1 hw' with rfl | hw'
          · exact hfails
          · exact hsame w' hw' ▸ h w' hw'
        · intro h w' hw'
          rw [hsame w' hw']
          exact h w' (mem_cons_of_mem _ hw')
      · rw [hmade c fun w' hw' => hc w' (mem_cons_of_mem _ hw')]
        exact bump_of_ne (hc w mem_cons_self)

namespace SecureIdentityStorage

/-- What `setIdentity` writes. -/
def identityWrites (identity : Identity) : List Write :=
  [.keychain (some identity.stringify), .backup (some identity.stringify),
    .cachedDid (some identity.did)]

/-- What `clearIdentity` writes. -/
def clearWrites : List Write := [.keychain none, .backup none, .cachedDid none]

section Writes
variable {a : Answers machine} {i : Nat} {n : Call → Nat} {s : State}

theorem writeAll_identityWrites (identity : Identity) : writeAll (identityWrites identity) = (do
    write (.keychain (some identity.stringify))
    write (.backup (some identity.stringify))
    write (.cachedDid (some identity.did))) := by
  simp only [identityWrites, writeAll]
  rw [show (do write (.cachedDid (some identity.did)); pure () : Prog Unit) = _ from
    Async.bind_pure_unit _]

theorem writeAll_clearWrites : writeAll clearWrites = clearIdentity := by
  simp only [clearWrites, writeAll, clearIdentity]
  rw [show (do write (.cachedDid none); pure () : Prog Unit) = _ from Async.bind_pure_unit _]

variable {identity : Identity}

theorem returns_setIdentity (hdid : identity.did ≠ "") : ∃ r n',
    (setIdentity identity).Returns a i n s r n' { s with
        device := applyAll (effective (writeFails a n) (identityWrites identity)) s.device } ∧
    (r = .ok () ↔ ∀ w ∈ identityWrites identity, writeFails a n w = false) ∧
    ∀ c, (∀ w ∈ identityWrites identity, c ≠ .write w) → n' c = n c := by
  obtain ⟨r, n', hret, hok, hmade⟩ := returns_writeAll
    (identityWrites identity) n s (by simp [identityWrites])
  rw [writeAll_identityWrites] at hret
  unfold setIdentity
  rw [if_neg hdid]
  cases r with
  | ok x => exact ⟨.ok (), n', .tryCatch hret, hok, hmade⟩
  | error e =>
    refine ⟨_, n', .tryCatch_error hret (.throw _), ?_, hmade⟩
    rw [← hok]
    simp

theorem returns_setIdentity_invalid (hdid : identity.did = "") :
    (setIdentity identity).Returns a i n s
      (.error "Invalid identity: missing required fields") n s := by
  unfold setIdentity
  rw [if_pos hdid]
  exact .throw _

theorem returns_clearIdentity : ∃ r n', clearIdentity.Returns a i n s r n'
      { s with device := applyAll (effective (writeFails a n) clearWrites) s.device } ∧
    (r = .ok () ↔ ∀ w ∈ clearWrites, writeFails a n w = false) ∧
    ∀ c, (∀ w ∈ clearWrites, c ≠ .write w) → n' c = n c := by
  rw [← writeAll_clearWrites]
  exact returns_writeAll clearWrites n s (by simp [clearWrites])

theorem returns_restoreFromBackup : ∃ r n', restoreFromBackup.Returns a i n s (.ok r) n' s ∧
    (failure a n .readBackup = none → r = s.device.backup.map StoredIdentity.parse) ∧
    (failure a n .readBackup ≠ none → r = none) ∧ ∀ c, c ≠ .readBackup → n' c = n c := by
  cases hf : failure a n .readBackup with
  | none =>
    refine ⟨s.device.backup.map StoredIdentity.parse, bump n .readBackup,
      .tryCatch (.bind (returns_ok rfl hf) (.pure _)),
      fun _ => rfl, fun h => absurd rfl h, fun c hc => bump_of_ne hc⟩
  | some e =>
    refine ⟨none, bump n .readBackup, ?_, fun h => absurd h (by simp), fun _ => rfl,
      fun c hc => bump_of_ne hc⟩
    exact .tryCatch_error (.bind_error (returns_fails rfl (fun _ => rfl) hf)) (.pure _)

end Writes

end SecureIdentityStorage

/-! ## The property -/

/-- The DIDs of the Keychain entry, the backup and the cached-DID key: all three, and equal, or none. -/
structure StoresAgree (d : Device) : Prop where
  keychain : d.keychain.map StoredIdentity.did = d.cachedDid
  backup : d.backup.map StoredIdentity.did = d.cachedDid

/-- The fields of `i` that are read back. -/
structure SameFields (i j : Identity) : Prop where
  did : j.did = i.did
  displayName : j.displayName = i.displayName
  username : j.username = i.username
  identityType : j.identityType = i.identityType
  avatar : j.avatar = i.avatar
  createdAt : j.createdAt = i.createdAt
  citizenship : j.citizenship = i.citizenship
  identityId : j.identityId = i.identityId

/-- Nothing was called yet. -/
def unmade : Call → Nat := fun _ => 0

/-- Whoever reads what is stored reads `i`: from the Keychain, from the backup where the Keychain cannot
    be decrypted any more, and from the backup alone. -/
structure ReadsBack (s : State) (i : Identity) : Prop where
  getIdentity : ∀ a, failure a unmade .readKeychain = none → ∃ j n s',
    SecureIdentityStorage.getIdentity.Returns a 0 unmade s (.ok (some j)) n s' ∧ SameFields i j
  afterReset : ∀ a message, failure a unmade .readKeychain = some message →
    includes message "cancelled" = false → SecureIdentityStorage.decryptionFailed message = true →
    failure a unmade .readBackup = none → ∃ j n s',
    SecureIdentityStorage.getIdentity.Returns a 0 unmade s (.ok (some j)) n s' ∧ SameFields i j
  restoreFromBackup : ∀ a, failure a unmade .readBackup = none → ∃ j n s',
    SecureIdentityStorage.restoreFromBackup.Returns a 0 unmade s (.ok (some j)) n s' ∧
      SameFields i j

/-! ## Calls one after the other -/

inductive StorageCall where
  | setIdentity (identity : Identity)
  | clearIdentity
  | syncBackup (identity : Identity)
  | getIdentity

def StorageCall.body : StorageCall → Prog Unit
  | .setIdentity identity => SecureIdentityStorage.setIdentity identity
  | .clearIdentity => SecureIdentityStorage.clearIdentity
  | .syncBackup identity => SecureIdentityStorage.syncBackup identity
  | .getIdentity => do
    let _ ← SecureIdentityStorage.getIdentity
    pure ()

/-- The call runs to its end, with the answers that it gets. -/
def storageStep (s : State) (c : StorageCall × Answers machine) : State :=
  (c.1.body.toTask.alone c.2 0 unmade s).getD s

/-- `setIdentity(i)` succeeds. -/
def Sets (s : State) (c : StorageCall × Answers machine) (i : Identity) : Prop :=
  c.1 = .setIdentity i ∧ ∃ n s',
    (SecureIdentityStorage.setIdentity i).Returns c.2 0 unmade s (.ok ()) n s'

/-- What the call succeeds in storing can be read back. -/
def StoresWell (s : State) (c : StorageCall × Answers machine) : Prop :=
  ∀ i, Sets s c i → ReadsBack (storageStep s c) i

/-- Three writes stop half way only if the DID in the stores is the one they write anyway; and what is
    stored has no username, and no `createdAt` without a JSON form. -/
def WritesThrough (s : State) (c : StorageCall × Answers machine) : Prop :=
  match c.1 with
  | .setIdentity i =>
    let fails := writeFails c.2 unmade
    i.did = "" ∨ fails (.keychain (some i.stringify)) = true ∨
      if fails (.backup (some i.stringify)) || fails (.cachedDid (some i.did)) then
        s.device.cachedDid = some i.did
      else i.username = none ∧ i.createdAt ≠ some .notFinite
  | .clearIdentity =>
    let fails := writeFails c.2 unmade
    fails (.keychain none) = true ∨ (fails (.backup none) = false ∧ fails (.cachedDid none) = false) ∨
      s.device.cachedDid = none
  | .syncBackup i =>
    writeFails c.2 unmade (.backup (some i.stringify)) = true ∨ s.device.cachedDid = some i.did
  | .getIdentity => True

/-! ## Reading -/

theorem sameFields_parse_iff (i : Identity) :
    SameFields i i.stringify.parse ↔ i.username = none ∧ i.createdAt ≠ some .notFinite := by
  have hcreated : i.stringify.parse.createdAt = i.createdAt ↔ i.createdAt ≠ some .notFinite := by
    simp only [Identity.stringify, StoredIdentity.parse]
    cases i.createdAt with
    | none => simp
    | some c => simp [viaJson_eq_self_iff]
  constructor
  · intro h
    exact ⟨h.username.symm, hcreated.1 h.createdAt⟩
  · rintro ⟨husername, hc⟩
    exact ⟨rfl, rfl, husername.symm, rfl, rfl, hcreated.2 hc, rfl, rfl⟩

section Reads
variable {a : Answers machine} {s : State}

theorem returns_getIdentity_keychain {data : StoredIdentity}
    (hf : failure a unmade .readKeychain = none) (hk : s.device.keychain = some data) :
    SecureIdentityStorage.getIdentity.Returns a 0 unmade s (.ok (some data.parse))
      (bump unmade .readKeychain) s := by
  have hread : (await .readKeychain).Returns a 0 unmade s (.ok s.device.keychain)
      (bump unmade .readKeychain) s := returns_ok rfl hf
  rw [hk] at hread
  exact .tryCatch (.bind hread (.pure _))

/-- The backup, and whatever comes of storing it again. -/
theorem returns_restoreAfterReset (n : Call → Nat) : ∃ r n' ws,
    SecureIdentityStorage.restoreAfterReset.Returns a 0 n s (.ok r) n'
      { s with device := applyAll ws s.device } ∧
    (failure a n .readBackup = none → r = s.device.backup.map StoredIdentity.parse) ∧
    (ws = [] ∨ ∃ backup fails, s.device.backup = some backup ∧
      ws = effective fails (SecureIdentityStorage.identityWrites backup.parse)) := by
  obtain ⟨r, n1, hret, hok, hfail, _⟩ :=
    SecureIdentityStorage.returns_restoreFromBackup
  cases r with
  | none => exact ⟨none, n1, [], .bind hret (.pure _), hok, .inl rfl⟩
  | some identity =>
    have hf : failure a n .readBackup = none := by
      by_contra h
      exact nomatch hfail h
    obtain ⟨backup, hb, rfl⟩ := map_eq_some_iff.1 (hok hf).symm
    by_cases hdid : backup.parse.did = ""
    · have hset := returns_ignoring (SecureIdentityStorage.returns_setIdentity_invalid (a := a)
        (i := 0) (n := n1) (s := s) hdid)
      exact ⟨some backup.parse, n1, [], .bind hret (.bind hset (.pure _)), hok, .inl rfl⟩
    · obtain ⟨r, n2, hset, _⟩ := SecureIdentityStorage.returns_setIdentity hdid
      exact ⟨some backup.parse, n2, _, .bind hret (.bind (returns_ignoring hset) (.pure _)), hok,
        .inr ⟨backup, _, hb, rfl⟩⟩

variable {message : String} {r : Option Identity} {n' : Call → Nat} {s' : State}

/-- The Keychain fails, and the catch block goes on. -/
theorem returns_getIdentity_caught (hf : failure a unmade .readKeychain = some message)
    (h : (if includes message "cancelled" then pure none
      else if SecureIdentityStorage.decryptionFailed message then
        SecureIdentityStorage.restoreAfterReset
      else pure none : Prog (Option Identity)).Returns a 0 (bump unmade .readKeychain) s (.ok r)
        n' s') :
    SecureIdentityStorage.getIdentity.Returns a 0 unmade s (.ok r) n' s' :=
  .tryCatch_error (.bind_error (returns_fails rfl (fun _ => rfl) hf)) h

theorem returns_getIdentity_reset (hf : failure a unmade .readKeychain = some message)
    (hc : includes message "cancelled" = false)
    (hd : SecureIdentityStorage.decryptionFailed message = true)
    (h : SecureIdentityStorage.restoreAfterReset.Returns a 0 (bump unmade .readKeychain) s (.ok r)
      n' s') :
    SecureIdentityStorage.getIdentity.Returns a 0 unmade s (.ok r) n' s' := by
  refine returns_getIdentity_caught hf ?_
  rw [if_neg (by simp [hc]), if_pos hd]
  exact h

/-- `getIdentity` does not fail, and writes at most what it found in the backup. -/
theorem returns_getIdentity : ∃ r n' ws,
    SecureIdentityStorage.getIdentity.Returns a 0 unmade s (.ok r) n'
      { s with device := applyAll ws s.device } ∧
    (ws = [] ∨ ∃ backup fails, s.device.backup = some backup ∧
      ws = effective fails (SecureIdentityStorage.identityWrites backup.parse)) := by
  cases hf : failure a unmade .readKeychain with
  | none =>
    have hread : (await .readKeychain).Returns a 0 unmade s (.ok s.device.keychain)
        (bump unmade .readKeychain) s := returns_ok rfl hf
    cases hk : s.device.keychain with
    | some data =>
      exact ⟨_, _, [], returns_getIdentity_keychain hf hk, .inl rfl⟩
    | none =>
      rw [hk] at hread
      obtain ⟨r, n1, hret, _⟩ := SecureIdentityStorage.returns_restoreFromBackup
      exact ⟨r, n1, [], .tryCatch (.bind hread hret), .inl rfl⟩
  | some message =>
    by_cases hreset : includes message "cancelled" = false ∧
        SecureIdentityStorage.decryptionFailed message = true
    · obtain ⟨r, n', ws, hret, _, hws⟩ :=
        returns_restoreAfterReset (bump unmade .readKeychain)
      exact ⟨r, n', ws, returns_getIdentity_reset hf hreset.1 hreset.2 hret, hws⟩
    have hnone : (if includes message "cancelled" then pure none
        else if SecureIdentityStorage.decryptionFailed message then
          SecureIdentityStorage.restoreAfterReset
        else pure none : Prog (Option Identity)) = pure none := by
      split
      · rfl
      · rename_i hc
        rw [if_neg fun hd => hreset ⟨by simpa using hc, hd⟩]
    have hret := returns_getIdentity_caught (s := s) hf (hnone ▸ Async.Returns.pure none)
    exact ⟨none, _, [], hret, .inl rfl⟩

/-- Both copies of `i` are read as they were written. -/
theorem readsBack_iff {i : Identity} (hk : s.device.keychain = some i.stringify)
    (hb : s.device.backup = some i.stringify) :
    ReadsBack s i ↔ i.username = none ∧ i.createdAt ≠ some .notFinite := by
  rw [← sameFields_parse_iff]
  constructor
  · intro h
    obtain ⟨j, n, s', hj, hsame⟩ := h.restoreFromBackup (fun _ _ => {}) rfl
    obtain ⟨r, n', hr, hok, _⟩ := SecureIdentityStorage.returns_restoreFromBackup
    have hj' : some j = r := Except.ok.inj (hj.unique hr).1
    rw [hok rfl, hb, map_some, some.injEq] at hj'
    exact hj' ▸ hsame
  · intro hsame
    refine ⟨fun a hf => ?_, fun a message hf hc hd hr => ?_, fun a hf => ?_⟩
    · exact ⟨_, _, _, returns_getIdentity_keychain hf hk, hsame⟩
    · obtain ⟨r, n', ws, hret, hok, _⟩ :=
        returns_restoreAfterReset (bump unmade .readKeychain)
      rw [hok ((failure_bump (by simp)).trans hr), hb] at hret
      exact ⟨_, _, _, returns_getIdentity_reset hf hc hd hret, hsame⟩
    · obtain ⟨r, n', hret, hok, _⟩ := SecureIdentityStorage.returns_restoreFromBackup
      rw [hok hf, hb] at hret
      exact ⟨_, _, _, hret, hsame⟩

end Reads

/-! ## Each call -/

section Steps
variable {a : Answers machine} {s : State}

theorem storageStep_eq {c : StorageCall} {r : Except String Unit} {n' : Call → Nat} {s' : State}
    (h : c.body.Returns a 0 unmade s r n' s') : storageStep s (c, a) = s' := by
  unfold storageStep
  rw [h.toTask]
  rfl

variable {d : Device}

theorem StoresAgree.rewrite (h : StoresAgree d) {backup : StoredIdentity}
    (hb : d.backup = some backup) (fails : Write → Bool) :
    StoresAgree (applyAll (effective fails (SecureIdentityStorage.identityWrites backup.parse)) d) := by
  have hcached : some backup.did = d.cachedDid := by rw [← h.backup, hb]; rfl
  simp only [SecureIdentityStorage.identityWrites, effective]
  split
  · exact h
  split
  · exact ⟨hcached, h.backup⟩
  split
  · exact ⟨hcached, hcached⟩
  · exact ⟨rfl, rfl⟩

/-- `setIdentity` and `clearIdentity` write the three stores alike. -/
theorem storesAgree_three (h : StoresAgree d) (fails : Write → Bool) (data : Option StoredIdentity)
    :
    StoresAgree (applyAll (effective fails
        [.keychain data, .backup data, .cachedDid (data.map StoredIdentity.did)]) d) ↔
      fails (.keychain data) = true ∨
      (fails (.backup data) = false ∧ fails (.cachedDid (data.map StoredIdentity.did)) = false) ∨
      d.cachedDid = data.map StoredIdentity.did := by
  simp only [effective]
  cases hk : fails (.keychain data) with
  | true => exact ⟨fun _ => .inl rfl, fun _ => h⟩
  | false =>
    cases hb : fails (.backup data) with
    | true =>
      simp only [false_or, reduceCtorEq, false_and]
      constructor
      · exact fun h' => h'.keychain.symm
      · exact fun hd => ⟨hd.symm, h.backup⟩
    | false =>
      cases hc : fails (.cachedDid (data.map StoredIdentity.did)) with
      | true =>
        simp only [false_or, reduceCtorEq, and_false]
        constructor
        · exact fun h' => h'.keychain.symm
        · exact fun hd => ⟨hd.symm, hd.symm⟩
      | false => exact ⟨fun _ => .inr (.inl ⟨rfl, rfl⟩), fun _ => ⟨rfl, rfl⟩⟩

theorem storesAgree_syncBackup (h : StoresAgree d) (i : Identity) :
    StoresAgree (Write.apply d (.backup (some i.stringify))) ↔ d.cachedDid = some i.did := by
  constructor
  · exact fun h' => h'.backup.symm
  · exact fun hd => ⟨h.keychain, hd.symm⟩

/-- A call that sets nothing. -/
theorem storesWell_of_ne {c : StorageCall × Answers machine} (h : ∀ i, c.1 ≠ .setIdentity i) :
    StoresWell s c := fun i hi => absurd hi.1 (h i)

theorem step_setIdentity_iff (h : StoresAgree s.device) (i : Identity) :
    StoresAgree (storageStep s (.setIdentity i, a)).device ∧ StoresWell s (.setIdentity i, a) ↔
      WritesThrough s (.setIdentity i, a) := by
  by_cases hdid : i.did = ""
  · have hret := SecureIdentityStorage.returns_setIdentity_invalid (a := a) (i := 0)
      (n := unmade) (s := s) hdid
    rw [storageStep_eq (c := .setIdentity i) hret]
    refine ⟨fun _ => .inl hdid, fun _ => ⟨h, ?_⟩⟩
    rintro j ⟨hj, n, s', hok⟩
    obtain rfl := StorageCall.setIdentity.inj hj
    exact absurd (hret.unique hok).1 (by simp)
  · obtain ⟨r, n', hret, hok, _⟩ := SecureIdentityStorage.returns_setIdentity hdid
    have hstep := storageStep_eq (c := .setIdentity i) hret
    have hagree := storesAgree_three h (writeFails a unmade) (some i.stringify)
    have hwell : StoresWell s (.setIdentity i, a) ↔
        ((∀ w ∈ SecureIdentityStorage.identityWrites i, writeFails a unmade w = false) →
          i.username = none ∧ i.createdAt ≠ some .notFinite) := by
      -- where no write fails, the state holds two copies of `i`
      have hread : (∀ w ∈ SecureIdentityStorage.identityWrites i, writeFails a unmade w = false) →
          (ReadsBack (storageStep s (.setIdentity i, a)) i ↔
            i.username = none ∧ i.createdAt ≠ some .notFinite) := by
        intro hall
        rw [hstep, effective_eq_self hall]
        exact readsBack_iff rfl rfl
      constructor
      · intro hw hall
        rw [hok.2 hall] at hret
        exact (hread hall).1 (hw i ⟨rfl, _, _, hret⟩)
      rintro hw j ⟨hj, n, s', hjok⟩
      obtain rfl := StorageCall.setIdentity.inj hj
      have hall := hok.1 (hret.unique hjok).1
      exact (hread hall).2 (hw hall)
    rw [hstep, hwell]
    refine (and_congr_left fun _ => hagree).trans ?_
    simp only [SecureIdentityStorage.identityWrites, forall_mem_cons, WritesThrough, hdid]
    rw [map_some, stringify_did]
    cases writeFails a unmade (.keychain (some i.stringify)) <;>
      cases writeFails a unmade (.backup (some i.stringify)) <;>
        cases writeFails a unmade (.cachedDid (some i.did)) <;> simp

theorem step_iff (h : StoresAgree s.device) (c : StorageCall × Answers machine) :
    StoresAgree (storageStep s c).device ∧ StoresWell s c ↔ WritesThrough s c := by
  obtain ⟨c, a⟩ := c
  cases c with
  | setIdentity i => exact step_setIdentity_iff h i
  | clearIdentity =>
    have hwell : StoresWell s (.clearIdentity, a) := storesWell_of_ne fun i => by simp
    obtain ⟨r, n', hret, _⟩ := SecureIdentityStorage.returns_clearIdentity
    rw [storageStep_eq (c := .clearIdentity) hret, and_iff_left hwell]
    exact storesAgree_three h (writeFails a unmade) none
  | syncBackup i =>
    have hwell : StoresWell s (.syncBackup i, a) := storesWell_of_ne fun i => by simp
    rw [and_iff_left hwell]
    cases hf : failure a unmade (.write (.backup (some i.stringify))) with
    | some e =>
      have hret := returns_ignoring (i := 0) (s := s) (returns_write_fails hf)
      rw [storageStep_eq (c := .syncBackup i) hret]
      exact ⟨fun _ => .inl (by simp [writeFails, hf]), fun _ => h⟩
    | none =>
      have hret := returns_ignoring (i := 0) (s := s) (returns_write hf)
      have hok : writeFails a unmade (.backup (some i.stringify)) = false := by
        simp [writeFails, hf]
      rw [storageStep_eq (c := .syncBackup i) hret]
      refine (storesAgree_syncBackup h i).trans ⟨.inr, fun hw => ?_⟩
      exact hw.resolve_left (by simp [hok])
  | getIdentity =>
    have hwell : StoresWell s (.getIdentity, a) := storesWell_of_ne fun i => by simp
    obtain ⟨r, n', ws, hret, hws⟩ := returns_getIdentity
    have hbody : StorageCall.getIdentity.body.Returns a 0 unmade s (.ok ()) n' _ :=
      .bind hret (.pure ())
    rw [storageStep_eq hbody]
    refine ⟨fun _ => trivial, fun _ => ⟨?_, hwell⟩⟩
    rcases hws with rfl | ⟨backup, fails, hb, rfl⟩
    · exact h
    · exact h.rewrite hb fails

end Steps

/-- The stores never disagree and what was set is read back, exactly in the runs in which no call stops
    half way with another identity than the stored one, and none stores a username. -/
theorem storesAgree_iff (s : State) (h : StoresAgree s.device)
    (cs : List (StorageCall × Answers machine)) :
    (HoldsThroughout storageStep (fun s => StoresAgree s.device) s cs ∧
      StepsMeet storageStep StoresWell s cs) ↔ StepsMeet storageStep WritesThrough s cs :=
  holdsThroughout_and_stepsMeet_iff (fun _ c h => step_iff h c) cs s h

/-! ## A write that fails -/

def alice : Identity := { did := "did:zhtp:alice", displayName := "Alice", identityId := some "alice" }

def bob : Identity := { did := "did:zhtp:bob", displayName := "Bob", identityId := some "bob" }

/-- Every call succeeds. -/
def allSucceed : Answers machine := fun _ _ => ({} : Reply)

/-- The backup cannot be written. -/
def storageFull : Answers machine := fun (c : Call) _ => match c with
  | .write (.backup _) => ({ fails := some "database or disk is full" } : Reply)
  | _ => ({} : Reply)

theorem storesAgree_empty : StoresAgree {} := ⟨rfl, rfl⟩

/-- Bob signs in on Alice's device when AsyncStorage is full: the Keychain holds Bob, the backup and the
    cached DID Alice. -/
theorem not_storesAgree : ¬∀ (s : State), StoresAgree s.device →
    ∀ cs : List (StorageCall × Answers machine),
      HoldsThroughout storageStep (fun s => StoresAgree s.device) s cs ∧
        StepsMeet storageStep StoresWell s cs := by
  intro h
  have hrun := (h {} storesAgree_empty
    [(.setIdentity alice, allSucceed), (.setIdentity bob, storageFull)]).1.last
  exact absurd hrun.keychain (by decide)

/-- Alice is stored, renamed while AsyncStorage is full, read and removed. -/
def aliceCalls : List (StorageCall × Answers machine) :=
  [(.setIdentity alice, allSucceed), (.setIdentity { alice with displayName := "A." }, storageFull),
    (.getIdentity, allSucceed), (.clearIdentity, allSucceed)]

theorem storesAgree_aliceCalls : HoldsThroughout storageStep (fun s => StoresAgree s.device) {}
    aliceCalls ∧ StepsMeet storageStep StoresWell {} aliceCalls := by
  refine (storesAgree_iff {} storesAgree_empty aliceCalls).2 ⟨?_, ?_, trivial, ?_, trivial⟩
  · exact .inr (.inr ⟨rfl, by decide⟩)
  · exact .inr (.inr rfl)
  · exact .inr (.inl ⟨rfl, rfl⟩)

end Auth
