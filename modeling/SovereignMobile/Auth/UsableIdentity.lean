import SovereignMobile.Auth.ProvisionedKeys

/-! # Reported identities that are usable

Whether the native store has the keys of an identity that the service reports is decided by the one step that
stores them, whose failure is not reported; and whether a migration that stops leaves keys, by where it stops
between its clean-up and that step. -/

namespace ProvisionedKeys

open NativeIdentityProvisioning (LibClient)
open Stateful.Interruptible Auth Option
open Except (isOk toOption)
open NativeIdentityProvisioning (plainClient)

variable {Key Json : Type} (C : LibClient Key Json)

namespace Store

variable (s : Store Key Json)

/-- The keys of the identity are stored under its id. -/
def Usable (i : Identity) : Prop :=
  ∃ identityId key, i.identityId = some identityId ∧ s.keys C identityId = some key ∧ C.did key = i.did

/-- There are keys on the device. -/
def HasKeys : Prop := ∃ identityId key, s.keys C identityId = some key

/-- A store under the id leaves keys with the property there: it goes through, or fails before it has touched
    what was there. On iOS the old item is deleted before the new one is added. -/
def Leaves (property : Key → Prop) (identityId : String) (did : Did) (writes : Bool) : Prop :=
  (∃ json key, (s.cached did).bind C.serialize = some json ∧ writes = true ∧
      C.deserialize json = some key ∧ property key) ∨
    (((s.cached did).bind C.serialize = none ∨ writes = false ∧ s.isAndroid = true) ∧
      ∃ key, s.keys C identityId = some key ∧ property key)

/-! ### What the native module does to the keys -/

variable {C} {s}

@[simp] theorem keys_cache (key : Key) (identityId : String) :
    (s.cache C key).keys C identityId = s.keys C identityId := by
  cases s <;> rfl

@[simp] theorem keys_restoreIdentityToHandleStore (identityId other : String) :
    (s.restoreIdentityToHandleStore C identityId).keys C other = s.keys C other := by
  cases s with
  | ios s =>
    dsimp only [restoreIdentityToHandleStore,
      NativeIdentityProvisioning.Ios.State.restoreIdentityToHandleStore]
    split
    · rfl
    · rfl
  | android s =>
    dsimp only [restoreIdentityToHandleStore,
      NativeIdentityProvisioning.Android.State.restoreIdentityToHandleStore]
    split <;> rfl

theorem keys_cleanKeystoreDirectory (r : Except String Unit) (identityId : String) :
    (s.cleanKeystoreDirectory r).2.keys C identityId = if r.isOk then none else s.keys C identityId := by
  cases s with
  | ios | android => cases r <;> rfl

/-- Only the keys under the id are touched. -/
theorem keys_storeProvisionedIdentity_of_ne {identityId other : String} (hne : other ≠ identityId) (did : Did)
    (writes : Bool) :
    (s.storeProvisionedIdentity C identityId did writes).keys C other = s.keys C other := by
  cases s with
  | ios s =>
    dsimp only [storeProvisionedIdentity, NativeIdentityProvisioning.Ios.State.storeProvisionedIdentity]
    split
    · rfl
    split
    · rfl
    split <;> simp [keys, NativeIdentityProvisioning.Ios.State.restore,
        NativeIdentityProvisioning.Ios.State.store, Function.update_of_ne hne]
  | android s =>
    dsimp only [storeProvisionedIdentity, NativeIdentityProvisioning.Android.State.storeProvisionedIdentity]
    split
    · split
      · rfl
      split
      · rfl
      · simp [keys, NativeIdentityProvisioning.Android.State.loadIdentity, Function.update_of_ne hne]
    · rfl

variable {did : Did}

/-- Nothing is cached under the DID, or lib-client does not serialize it. -/
theorem keys_storeProvisionedIdentity_none (h : (s.cached did).bind C.serialize = none)
    (identityId : String) (writes : Bool) :
    (s.storeProvisionedIdentity C identityId did writes).keys C identityId = s.keys C identityId := by
  cases s with
  | ios s =>
    dsimp only [storeProvisionedIdentity, NativeIdentityProvisioning.Ios.State.storeProvisionedIdentity]
    split
    · rfl
    rename_i key hcached
    have hserialize : C.serialize key = none := by
      simpa [cached, hcached] using h
    rw [hserialize]
    rfl
  | android s =>
    dsimp only [storeProvisionedIdentity, NativeIdentityProvisioning.Android.State.storeProvisionedIdentity]
    split
    · split
      · rfl
      rename_i key hcached
      have hserialize : C.serialize key = none := by
        simpa [cached, hcached] using h
      rw [hserialize]
    · rfl

theorem keys_storeProvisionedIdentity_some {json : Json}
    (h : (s.cached did).bind C.serialize = some json) (identityId : String) (writes : Bool) :
    (s.storeProvisionedIdentity C identityId did writes).keys C identityId =
      if writes then C.deserialize json else if s.isAndroid then s.keys C identityId else none := by
  obtain ⟨key, hcached, hserialize⟩ := bind_eq_some_iff.1 h
  cases s with
  | ios s =>
    dsimp only [cached] at hcached
    dsimp only [storeProvisionedIdentity, NativeIdentityProvisioning.Ios.State.storeProvisionedIdentity]
    rw [hcached]
    dsimp only
    rw [hserialize]
    cases writes <;> simp [keys, NativeIdentityProvisioning.Ios.State.restore, isAndroid]
  | android s =>
    dsimp only [cached] at hcached
    dsimp only [storeProvisionedIdentity, NativeIdentityProvisioning.Android.State.storeProvisionedIdentity]
    rw [hcached]
    dsimp only
    rw [hserialize]
    cases writes <;> simp [keys, NativeIdentityProvisioning.Android.State.loadIdentity, isAndroid]

theorem keys_storeProvisionedIdentity_iff (property : Key → Prop) (identityId : String) (did : Did)
    (writes : Bool) :
    (∃ key, (s.storeProvisionedIdentity C identityId did writes).keys C identityId = some key ∧
      property key) ↔ s.Leaves C property identityId did writes := by
  unfold Leaves
  cases h : (s.cached did).bind C.serialize with
  | none =>
    rw [keys_storeProvisionedIdentity_none h]
    simp
  | some json =>
    rw [keys_storeProvisionedIdentity_some h]
    cases writes with
    | true => simp
    | false => cases s.isAndroid <;> simp

end Store

/-! ## The calls of the service -/

section Calls

variable {C} {d : Device Key Json}

theorem newKey_ends (key : Key) :
    Ends (newKey C (some (.ok key))) d (some (.ok key)) { d with store := d.store.cache C key } :=
  Ends.answer.bind Ends.perform

theorem returns_newKey (made : Outcome String Key) :
    Returns (made.returned.isSome = true) (newKey C made) d
      (fun key d' => made.returned = some key ∧ d' = { d with store := d.store.cache C key })
      fun d' => d' = d := by
  refine (Returns.answer made).bind id (fun _ _ h => h) ?_
  rintro - key _ ⟨hkey, rfl⟩
  exact .of_ends (isSome_iff_exists.2 ⟨key, hkey⟩) .perform ⟨hkey, rfl⟩

variable {writes : Outcome String Unit} {reads : Option Bool}

/-- Resolved or rejected, the call does the same to the store. -/
theorem storeProvisionedIdentity_ends (h : writes.isSome = true) (identityId : String) (did : Did) :
    ∃ r d', Ends (storeProvisionedIdentity C identityId did writes) d (some r) d' ∧
      d'.store = d.store.storeProvisionedIdentity C identityId did (writes.any isOk) := by
  unfold storeProvisionedIdentity
  rw [h]
  exact ⟨_, _, .perform, rfl⟩

theorem storeProvisionedIdentity_cutOff (h : ¬ writes.isSome = true) (identityId : String)
    (did : Did) :
    Ends (storeProvisionedIdentity C identityId did writes) d none d := by
  rw [not_isSome_iff_eq_none.1 h]
  exact .perform_cutOff

theorem returns_storeProvisionedIdentity (writes : Outcome String Unit) (identityId : String) (did : Did) :
    Returns (writes.isSome = true) (ignoring (storeProvisionedIdentity C identityId did writes)) d
      (fun _ d' => d'.store = d.store.storeProvisionedIdentity C identityId did (writes.any isOk))
      fun d' => d' = d := by
  by_cases h : writes.isSome = true
  · obtain ⟨r, d', hends, hstore⟩ := storeProvisionedIdentity_ends h identityId did
    exact .of_ends h hends.ignoring hstore
  · exact .of_stops h ⟨none, (storeProvisionedIdentity_cutOff h identityId did).ignoring_cutOff, rfl⟩ rfl

theorem returns_restoreIdentityToHandleStore (reads : Option Bool) (identityId : String) :
    Returns (reads.isSome = true) (ignoring (restoreIdentityToHandleStore C identityId reads)) d
      (fun _ d' => ∀ other, d'.store.keys C other = d.store.keys C other) fun d' => d' = d := by
  unfold restoreIdentityToHandleStore
  cases reads with
  | none => exact .of_stops Bool.false_ne_true ⟨none, .ignoring_cutOff .perform_cutOff, rfl⟩ rfl
  | some read =>
    refine .of_ends rfl (.ignoring .perform) fun other => ?_
    split
    · exact Store.keys_restoreIdentityToHandleStore identityId other
    · rfl

end Calls

/-! ## `createIdentity` -/

/-- The keys, the id and the DID with which a registration goes through. -/
def CreateOutcome.registered (o : CreateOutcome Key) : Option (Key × String × Did) := do
  let generated ← o.provisionIdentity.returned
  o.createRegistrationProof.returned
  let response ← o.register.returned
  let (identityId, did) ← (registeredAs (C.did generated) response).toOption
  some (generated, identityId, did)

/-- The calls after the registration come back. -/
def CreateOutcome.ComesBack (o : CreateOutcome Key) (identityId : String) : Prop :=
  o.storeProvisionedIdentity.isSome ∧ o.getSeedPhraseForBackup.isSome ∧ o.restoreIdentityToHandleStore.isSome ∧
    ((truthy o.getSeedPhraseForBackup.returned).isSome → (truthy (some identityId)).isSome →
      o.storeMasterSeedPhrase.isSome)

variable {C} {d : Device Key Json}

variable {α : Type} {text identityId seedPhrase : String} {m : Service Key Json α}
    {d' : Device Key Json} {identity i : Identity} {storeMasterSeedPhrase : Outcome String Unit}
    {did : Did} {s s' : Store Key Json} {o : RecoverOutcome Key}

variable {P : Prop} {Q : α → Device Key Json → Prop} {Z : Device Key Json → Prop}

theorem returns_onFailure (h : Returns P m d Q Z) : Returns P (onFailure text m) d Q Z := by
  rcases h with ⟨hP, a, d', hends, hQ⟩ | ⟨hP, d', ⟨r, hends, hr⟩, hZ⟩
  · exact .of_ends hP hends.tryCatch hQ
  rcases r with _ | e | a
  · exact .of_stops hP ⟨none, hends.tryCatch_cutOff, rfl⟩ hZ
  · exact .of_stops hP ⟨some (.error (text ++ e)), hends.tryCatch_error .throw, rfl⟩ hZ
  · cases hr

theorem returns_registerNewKey (o : CreateOutcome Key) :
    Returns ((o.registered C).isSome = true) (registerNewKey C o) d
      (fun x d' => o.registered C = some x ∧ d' = { d with store := d.store.cache C x.1 })
      fun _ => True := by
  unfold registerNewKey CreateOutcome.registered
  refine (returns_onFailure (returns_newKey _)).bind isSome_of_isSome_bind (fun _ _ _ => trivial) ?_
  rintro - generated _ ⟨hkey, rfl⟩
  simp only [hkey, bind_eq_bind, bind_some]
  refine (returns_onFailure (.answer _)).bind isSome_of_isSome_bind (fun _ _ _ => trivial) ?_
  rintro - _ _ ⟨hproof, rfl⟩
  simp only [hproof, bind_some]
  have hserver : Returns ((o.register.returned.bind fun response =>
      (registeredAs (C.did generated) response).toOption).isSome = true) (do
        let registerResponse ← answer o.register
        answer (some (registeredAs (C.did generated) registerResponse)))
      { d with store := d.store.cache C generated } (fun x d' => (o.register.returned.bind fun response =>
        (registeredAs (C.did generated) response).toOption) = some x ∧
          d' = { d with store := d.store.cache C generated }) fun _ => True := by
    refine (Returns.answer _).bind isSome_of_isSome_bind (fun _ _ _ => trivial) ?_
    rintro - response _ ⟨hresponse, rfl⟩
    simp only [hresponse, bind_some]
    cases registeredAs (C.did generated) response with
    | error message => exact .of_stops Bool.false_ne_true (.answer rfl) trivial
    | ok x => exact .of_ends rfl .answer ⟨rfl, rfl⟩
  rw [← bind_assoc]
  refine (returns_onFailure hserver).bind isSome_of_isSome_bind (fun _ _ _ => trivial) ?_
  rintro - x _ ⟨hx, rfl⟩
  rw [hx]
  exact .of_ends rfl .pure ⟨rfl, rfl⟩

theorem returns_storeIdentity :
    Returns ((truthy identity.masterSeedPhrase).isSome → (truthy identity.identityId).isSome →
      storeMasterSeedPhrase.isSome) (storeIdentity identity storeMasterSeedPhrase) d
      (fun _ d' => d' = d) fun d' => d' = d := by
  have hnone : Ends (pure () : Service Key Json Unit) d (some (.ok ())) d := .pure
  unfold storeIdentity
  cases truthy identity.masterSeedPhrase with
  | none => exact .of_ends (fun h => nomatch h) hnone.ignoring rfl
  | some phrase =>
    cases truthy identity.identityId with
    | none => exact .of_ends (fun _ h => nomatch h) hnone.ignoring rfl
    | some identityId => simpa using Returns.ignoring_answer storeMasterSeedPhrase

theorem truthy_truthy (x : Option String) : truthy (truthy x) = truthy x := by
  simp [truthy]

theorem truthy_getD (x : Option String) : truthy (some (x.getD "")) = truthy x := by
  cases x <;> simp [truthy]

/-- `catch (e) { masterSeedPhrase = '' }` -/
theorem returns_getSeedPhraseForBackup (r : Outcome String String) :
    Returns (r.isSome = true) (tryCatch (answer r) fun _ => pure "" : Service Key Json String) d
      (fun phrase d' => phrase = r.returned.getD "" ∧ d' = d) fun d' => d' = d := by
  rcases r with _ | e | phrase
  · exact .of_stops Bool.false_ne_true ⟨none, Ends.answer.tryCatch_cutOff, rfl⟩ rfl
  · exact .of_ends rfl (Ends.answer.tryCatch_error .pure) ⟨rfl, rfl⟩
  · exact .of_ends rfl Ends.answer.tryCatch ⟨rfl, rfl⟩

/-- Once it is registered, an identity is reported exactly if the calls after that come back. -/
theorem returns_createIdentityDevice (data : CreateIdentityData) (o : CreateOutcome Key) :
    Returns (∃ x, o.registered C = some x ∧ o.ComesBack x.2.1) (createIdentityDevice C data o) d
      (fun i d' => ∃ generated identityId, o.registered C = some (generated, identityId, i.did) ∧
        i.identityId = some identityId ∧ ∀ other, d'.store.keys C other =
          ((d.store.cache C generated).storeProvisionedIdentity C identityId i.did
            (o.storeProvisionedIdentity.any isOk)).keys C other) fun _ => True := by
  refine (returns_registerNewKey o).bind (fun ⟨x, hx, _⟩ => isSome_iff_exists.2 ⟨x, hx⟩)
    (fun _ _ _ => trivial) ?_
  rintro - ⟨generated, identityId, did⟩ _ ⟨hx, rfl⟩
  have hcalls : (∃ x, o.registered C = some x ∧ o.ComesBack x.2.1) ↔ o.ComesBack identityId := by
    simp [hx]
  rw [hcalls]
  refine (returns_storeProvisionedIdentity ..).bind (fun h => h.1) (fun _ _ _ => trivial)
    fun hwrites _ d1 hstore => ?_
  refine (returns_getSeedPhraseForBackup _).bind (fun h => h.2.1) (fun _ _ _ => trivial) ?_
  rintro hphrase _ _ ⟨rfl, rfl⟩
  refine (returns_restoreIdentityToHandleStore ..).bind (fun h => h.2.2.1) (fun _ _ _ => trivial)
    fun hreads _ d2 hkeys => ?_
  refine returns_storeIdentity.bind (fun h => ?_) (fun _ _ _ => trivial) fun hseed _ _ hd => ?_
  · rw [truthy_truthy, truthy_getD]
    exact h.2.2.2
  rw [truthy_truthy, truthy_getD] at hseed
  subst hd
  exact .of_ends ⟨hwrites, hphrase, hreads, hseed⟩ .pure
    ⟨generated, identityId, hx, rfl, fun other => by rw [hkeys other, hstore]⟩

/-- What the service reports is usable. -/
def ReportsUsable {α : Type} (C : LibClient Key Json) (identity : α → Identity) (m : Service Key Json α)
    (d : Device Key Json) : Prop :=
  ∀ a d', Ends m d (some (.ok a)) d' → d'.store.Usable C (identity a)

section ReportsUsable

variable {α β : Type} {identity : α → Identity} {m : Service Key Json α} {d' : Device Key Json} {a : α}

theorem reportsUsable_of_stops (h : Stops m d d') : ReportsUsable C identity m d :=
  fun _ _ hends => absurd hends h.not_ends

theorem reportsUsable_iff_of_ends (h : Ends m d (some (.ok a)) d') :
    ReportsUsable C identity m d ↔ d'.store.Usable C (identity a) := by
  constructor
  · intro hreports
    exact hreports a d' h
  intro husable a' d'' h'
  obtain ⟨ha, rfl⟩ := h.unique h'
  cases ha
  exact husable

variable {P : Prop} {Q : α → Device Key Json → Prop} {Z : Device Key Json → Prop} {U : Prop}

theorem reportsUsable_iff (h : Returns P m d Q Z)
    (hQ : ∀ a d', P → Q a d' → (d'.store.Usable C (identity a) ↔ U)) :
    ReportsUsable C identity m d ↔ (P → U) := by
  rcases h with ⟨hP, a, d', hends, hq⟩ | ⟨hP, d', hstops, -⟩
  · rw [reportsUsable_iff_of_ends hends, hQ a d' hP hq, forall_prop_of_true hP]
  · exact iff_of_true (reportsUsable_of_stops hstops) fun h => absurd h hP

theorem reportsUsable_after {n : Service Key Json β} {f : β → Service Key Json α} {b : β}
    (h : Ends n d (some (.ok b)) d') :
    ReportsUsable C identity (n >>= f) d ↔ ReportsUsable C identity (f b) d' := by
  exact forall_congr' fun a => forall_congr' fun d'' => imp_congr_left h.bind_iff

theorem reportsUsable_bind {n : Service Key Json β} {f : β → Service Key Json α}
    {Q : β → Device Key Json → Prop} (h : Returns P n d Q Z)
    (hf : ∀ b d', Q b d' → (ReportsUsable C identity (f b) d' ↔ U)) :
    ReportsUsable C identity (n >>= f) d ↔ (P → U) := by
  rcases h with ⟨hP, b, d', hends, hq⟩ | ⟨hP, d', hstops, -⟩
  · rw [reportsUsable_after hends, hf b d' hq, forall_prop_of_true hP]
  · exact iff_of_true (reportsUsable_of_stops hstops.bind) fun h => absurd h hP

end ReportsUsable

theorem Store.usable_iff (hid : i.identityId = some identityId) :
    s.Usable C i ↔ ∃ key, s.keys C identityId = some key ∧ C.did key = i.did := by
  constructor
  · rintro ⟨identityId', key, hid', hkey, hdid⟩
    cases hid.symm.trans hid'
    exact ⟨key, hkey, hdid⟩
  · rintro ⟨key, hkey, hdid⟩
    exact ⟨identityId, key, hid, hkey, hdid⟩

/-- The identity is usable if the store step has left its keys. -/
theorem Store.usable_iff_leaves {writes : Bool} (hid : i.identityId = some identityId)
    (hkeys : ∀ other, s'.keys C other =
      (s.storeProvisionedIdentity C identityId did writes).keys C other) :
    s'.Usable C i ↔ s.Leaves C (fun key => C.did key = i.did) identityId did writes := by
  rw [Store.usable_iff hid, hkeys identityId, Store.keys_storeProvisionedIdentity_iff]

/-- The store step of a creation leaves the keys: those that are cached under the DID of the identity, be it
    the server's, or others that were there. -/
def CreateOutcome.StoresKeys (C : LibClient Key Json) (data : CreateIdentityData) (o : CreateOutcome Key)
    (s : Store Key Json) : Prop :=
  2 ≤ utf16Length data.display_name → 8 ≤ utf16Length data.password →
    ∀ generated identityId did, o.registered C = some (generated, identityId, did) →
      o.ComesBack identityId → (s.cache C generated).Leaves C (fun key => C.did key = did)
        identityId did (o.storeProvisionedIdentity.any Except.isOk)

theorem createIdentity_reportsUsable_iff (data : CreateIdentityData) (o : CreateOutcome Key) :
    ReportsUsable C id (createIdentity C data o) d ↔ o.StoresKeys C data d.store := by
  unfold createIdentity CreateOutcome.StoresKeys
  split
  · rename_i hname
    exact ⟨fun _ h => absurd hname (Nat.not_lt.2 h), fun _ => reportsUsable_of_stops .throw⟩
  split
  · rename_i hpassword
    exact ⟨fun _ _ h => absurd hpassword (Nat.not_lt.2 h), fun _ => reportsUsable_of_stops .throw⟩
  rename_i hname hpassword
  refine (reportsUsable_iff (U := o.StoresKeys C data d.store) (returns_createIdentityDevice data o)
    ?_).trans ⟨fun h hn hp _ _ _ hx hback => h ⟨_, hx, hback⟩ hn hp _ _ _ hx hback, fun h _ => h⟩
  rintro i d' ⟨x, hx, hback⟩ ⟨generated, identityId, hi, hid, hkeys⟩
  obtain rfl := some.inj (hx.symm.trans hi)
  rw [id_eq, Store.usable_iff_leaves hid hkeys]
  constructor
  · intro hleaves _ _ generated' identityId' did' hx' _
    cases hx.symm.trans hx'
    exact hleaves
  · exact fun h => h (Nat.not_lt.1 hname) (Nat.not_lt.1 hpassword) _ _ _ hx hback

/-! ## `recoverWithSeed` -/

namespace RecoverOutcome

variable (o : RecoverOutcome Key)

/-- What `callServerSeedRecover` makes of the answer. -/
def answered : Recovered := (o.recover.returned.map readRecoverResponse).getD {}

/-- The recovery goes on after the server's answer. -/
def goesOn : Bool :=
  if o.answered.responseOk && (truthy o.answered.payload.session_token).isSome then o.setSessionToken.isSome
  else o.answered.responseStatus = 0 || o.answered.responseOk

/-- The keys of the phrase, and what the server says of the identity. -/
def restored (seedPhrase : String) : Option (Key × Option ServerIdentity) :=
  if (normalized seedPhrase).length = 24 ∧ o.recover.isSome ∧ o.goesOn then
    o.restoreIdentityFromPhrase.returned.map fun key =>
      (key, if o.answered.responseOk then o.answered.payload.identity else none)
  else none

/-- The calls after the restore come back. -/
def ComesBack (seedPhrase identityId : String) : Prop :=
  o.storeProvisionedIdentity.isSome ∧ o.restoreIdentityToHandleStore.isSome ∧
    ((truthy (some (" ".intercalate (normalized seedPhrase)))).isSome → (truthy (some identityId)).isSome →
      o.storeMasterSeedPhrase.isSome)

end RecoverOutcome

theorem returns_callServerSeedRecover :
    Returns (o.recover.isSome = true) (callServerSeedRecover o) d
      (fun r d' => r = o.answered ∧ d' = d) fun d' => d' = d := by
  unfold callServerSeedRecover RecoverOutcome.answered
  rcases o.recover with _ | e | response
  · exact .of_stops Bool.false_ne_true ⟨none, Ends.answer.bind_cutOff.tryCatch_cutOff, rfl⟩ rfl
  · exact .of_ends rfl (Ends.answer.bind_error.tryCatch_error .pure) ⟨rfl, rfl⟩
  · exact .of_ends rfl (Ends.answer.bind .pure).tryCatch ⟨rfl, rfl⟩

theorem returns_reactToRecoverResponse :
    Returns (o.goesOn = true) (reactToRecoverResponse o.answered o) d (fun _ d' => d' = d)
      fun _ => True := by
  unfold RecoverOutcome.goesOn reactToRecoverResponse
  split
  · exact (Returns.ignoring_answer _).anyhow
  split
  · rename_i h
    exact .of_ends h .pure rfl
  rename_i h
  split
  · exact .of_stops h (.after .perform .throw) trivial
  · exact .of_stops h .throw trivial

theorem returns_restoreKey (seedPhrase : String) (o : RecoverOutcome Key) :
    Returns ((o.restored seedPhrase).isSome = true) (restoreKey C seedPhrase o) d
      (fun x d' => o.restored seedPhrase = some x ∧ d'.store = d.store.cache C x.1) fun _ => True := by
  have hstart : Ends (setLastSeedRecoveryNotFound false) d (some (.ok ()))
      { d with lastSeedRecoveryNotFound := false } := .perform
  unfold restoreKey RecoverOutcome.restored
  refine .after hstart ?_
  by_cases hwords : (normalized seedPhrase).length = 24
  · rw [if_neg (not_not.2 hwords)]
    refine returns_callServerSeedRecover.bind (fun h => ?_) (fun _ _ _ => trivial) ?_
    · by_contra hrecover
      simp [hrecover] at h
    rintro hrecover _ _ ⟨rfl, rfl⟩
    refine returns_reactToRecoverResponse.bind (fun h => ?_) (fun _ _ _ => trivial) ?_
    · by_contra hgoesOn
      simp [hgoesOn] at h
    rintro hgoesOn _ _ rfl
    rw [if_pos ⟨hwords, hrecover, hgoesOn⟩]
    refine (returns_newKey _).bind (fun h => by rwa [isSome_map] at h) (fun _ _ _ => trivial) ?_
    rintro - key _ ⟨hkey, rfl⟩
    rw [hkey]
    exact .of_ends rfl .pure ⟨rfl, rfl⟩
  · rw [if_pos hwords, if_neg fun h => hwords h.1]
    exact .of_stops Bool.false_ne_true .throw trivial

theorem returns_keepRecovered (identityDid : Option Did) (server : Option ServerIdentity) :
    Returns (o.ComesBack seedPhrase identityId)
      (keepRecovered C seedPhrase identityDid server o identityId) d
      (fun i d' => i.did = identityDid.getD "" ∧ i.identityId = some identityId ∧
        ∀ other, d'.store.keys C other = (d.store.storeProvisionedIdentity C identityId
          (identityDid.getD "") (o.storeProvisionedIdentity.any isOk)).keys C other) fun _ => True := by
  refine (returns_storeProvisionedIdentity ..).bind (fun h => h.1) (fun _ _ _ => trivial)
    fun hwrites _ d1 hstore => ?_
  refine (returns_restoreIdentityToHandleStore ..).bind (fun h => h.2.1) (fun _ _ _ => trivial)
    fun hreads _ d2 hkeys => ?_
  refine returns_storeIdentity.bind (fun h => h.2.2) (fun _ _ _ => trivial) ?_
  rintro hseed _ _ rfl
  exact .of_ends ⟨hwrites, hreads, hseed⟩ .pure ⟨rfl, rfl, fun other => by rw [hkeys other, hstore]⟩

/-- The store step of a recovery leaves the keys. -/
def RecoverOutcome.StoresKeys (C : LibClient Key Json) (seedPhrase : String) (o : RecoverOutcome Key)
    (s : Store Key Json) : Prop :=
  ∀ key server identityId, o.restored seedPhrase = some (key, server) →
    recoveredId (recoveredDid (C.did key) server) server = some identityId →
    o.ComesBack seedPhrase identityId →
    (s.cache C key).Leaves C (fun key' => C.did key' = (recoveredDid (C.did key) server).getD "") identityId
      ((recoveredDid (C.did key) server).getD "") (o.storeProvisionedIdentity.any Except.isOk)

theorem recoverWithSeed_reportsUsable_iff (seedPhrase : String) (o : RecoverOutcome Key) :
    ReportsUsable C id (recoverWithSeed C seedPhrase o) d ↔ o.StoresKeys C seedPhrase d.store := by
  unfold recoverWithSeed
  rcases returns_restoreKey (C := C) (d := d) seedPhrase o with
    ⟨-, ⟨key, server⟩, d0, hends, hx, hstore⟩ | ⟨hnone, d', hstops, -⟩
  · rw [reportsUsable_after hends]
    dsimp only
    cases hid : recoveredId (recoveredDid (C.did key) server) server with
    | none =>
      refine iff_of_true (reportsUsable_of_stops .throw) fun key' server' identityId hx' hid' => ?_
      cases hx.symm.trans hx'
      cases hid.symm.trans hid'
    | some identityId =>
      refine (reportsUsable_iff (returns_keepRecovered ..) fun i d' _ ⟨hdid, hi, hkeys⟩ => by
        rw [id_eq, Store.usable_iff_leaves hi hkeys, hstore, hdid]).trans ?_
      constructor
      · intro hleaves key' server' identityId' hx' hid' hback
        cases hx.symm.trans hx'
        cases hid.symm.trans hid'
        exact hleaves hback
      · exact fun h hback => h key server identityId hx hid hback
  · refine iff_of_true (reportsUsable_of_stops hstops.bind) fun key server identityId hx => ?_
    exact absurd (isSome_iff_exists.2 ⟨_, hx⟩) hnone

/-! ## `migrateIdentityFromSeed` -/

namespace MigrateOutcome

variable (C) (o : MigrateOutcome Key)

/-- The keys of the phrase, and what the server makes of the migration. -/
def accepted (displayName seedPhrase : String) : Option (Key × Migration) :=
  if trim displayName ≠ "" ∧ (normalized seedPhrase).length = 24 then do
    let key ← o.restoreIdentityFromPhrase.returned
    if C.did key ≠ "" ∧ o.publicDilithium ≠ "" then do
      o.signMessageFromSeed.returned
      let response ← o.migrate.returned
      let m ← (readMigrateResponse (C.did key) response).toOption
      some (key, m)
    else none
  else none

/-- The native clean-up deletes the keys. -/
def deletes : Bool := o.cleanKeystoreDirectory.any Except.isOk

/-- The native clean-up comes back and is not rejected, which on iOS it never is. -/
def Cleans (s : Store Key Json) : Prop :=
  o.cleanKeystoreDirectory.isSome ∧ (o.deletes = true ∨ s.isAndroid = false)

/-- What is cleared after the keys does not stop the migration. -/
def Clears : Prop :=
  o.removeItem.returned.isSome ∧ o.clearIdentity.isSome ∧ o.clearLoginCredentials.isSome ∧
    o.clearSeedPhrase.returned.isSome

/-- The migration gets to the store step. -/
def GetsToStore (m : Migration) (s : Store Key Json) : Prop :=
  m.alreadyMigrated = false → o.Cleans s ∧ o.Clears

def StoreComesBack (m : Migration) : Prop :=
  (m.alreadyMigrated = false → o.restoreAfterCleanup.isSome) ∧
    (m.alreadyMigrated = true ∨ o.restoreAfterCleanup.returned.isSome → o.storeProvisionedIdentity.isSome)

/-- The native store that the store step finds. -/
def beforeStore (key : Key) (m : Migration) (s : Store Key Json) : Store Key Json :=
  if m.alreadyMigrated then s.cache C key
  else ((s.cache C key).cleanKeystoreDirectory (o.cleanKeystoreDirectory.getD (.ok ()))).2

/-- The store step leaves keys with the property under the new id. -/
def StoreLeaves (property : Key → Prop) (m : Migration) (s : Store Key Json) : Prop :=
  if m.alreadyMigrated then
    s.Leaves C property m.newIdentityId m.serverDid (o.storeProvisionedIdentity.any Except.isOk)
  else
    (∃ key, o.restoreAfterCleanup.returned = some key ∧
      (s.cache C key).Leaves C property m.newIdentityId (orElse (C.did key) m.serverDid)
        (o.storeProvisionedIdentity.any Except.isOk)) ∨
    o.restoreAfterCleanup.returned = none ∧ ∃ key, s.keys C m.newIdentityId = some key ∧ property key

end MigrateOutcome

theorem returns_requestMigration (displayName seedPhrase : String) (o : MigrateOutcome Key) :
    Returns ((o.accepted C displayName seedPhrase).isSome = true)
      (requestMigration C displayName seedPhrase o) d
      (fun m d' => ∃ key, o.accepted C displayName seedPhrase = some (key, m) ∧
        d' = { d with store := d.store.cache C key })
      fun d' => ∀ identityId, d'.store.keys C identityId = d.store.keys C identityId := by
  unfold requestMigration MigrateOutcome.accepted
  by_cases hname : trim displayName = ""
  · rw [if_pos hname, if_neg fun h => h.1 hname]
    exact .of_stops Bool.false_ne_true .throw fun _ => rfl
  rw [if_neg hname]
  by_cases hwords : (normalized seedPhrase).length = 24
  · rw [if_neg (not_not.2 hwords), if_pos ⟨hname, hwords⟩]
    refine (returns_newKey _).bind isSome_of_isSome_bind (fun _ _ h _ => h ▸ rfl) ?_
    rintro - key _ ⟨hkey, rfl⟩
    have hkeys := Store.keys_cache (C := C) (s := d.store) key
    simp only [hkey, bind_eq_bind, bind_some]
    by_cases hdid : C.did key = ""
    · rw [if_pos hdid, if_neg fun h => h.1 hdid]
      exact .of_stops Bool.false_ne_true .throw hkeys
    by_cases hpublic : o.publicDilithium = ""
    · rw [if_neg hdid, if_pos hpublic, if_neg fun h => h.2 hpublic]
      exact .of_stops Bool.false_ne_true .throw hkeys
    rw [if_neg hdid, if_neg hpublic, if_pos ⟨hdid, hpublic⟩]
    refine (Returns.answer _).bind isSome_of_isSome_bind (fun _ _ h => h ▸ hkeys) ?_
    rintro - _ _ ⟨hsign, rfl⟩
    simp only [hsign, bind_some]
    refine (Returns.answer _).bind isSome_of_isSome_bind (fun _ _ h => h ▸ hkeys) ?_
    rintro - response _ ⟨hmigrate, rfl⟩
    simp only [hmigrate, bind_some]
    cases readMigrateResponse (C.did key) response with
    | error message => exact .of_stops Bool.false_ne_true (.answer rfl) hkeys
    | ok m => exact .of_ends rfl .answer ⟨key, rfl, rfl⟩
  · rw [if_pos hwords, if_neg fun h => hwords h.2]
    exact .of_stops Bool.false_ne_true .throw fun _ => rfl

/-- The native clean-up stops the migration and leaves the store alone, or goes through. -/
theorem returns_cleanKeystoreDirectory (o : MigrateOutcome Key) :
    Returns (o.Cleans d.store) (cleanKeystoreDirectory o.cleanKeystoreDirectory) d
      (fun _ d' => d'.store =
        (d.store.cleanKeystoreDirectory (o.cleanKeystoreDirectory.getD (.ok ()))).2) fun d' => d' = d := by
  unfold MigrateOutcome.Cleans MigrateOutcome.deletes
  obtain ⟨store, flag⟩ := d
  rcases o.cleanKeystoreDirectory with _ | e | u
  · exact .of_stops (fun h => absurd h.1 (by simp)) ⟨none, .perform_cutOff, rfl⟩ rfl
  · cases store with
    | ios s => exact .of_ends ⟨rfl, .inr rfl⟩ .perform rfl
    | android s =>
      exact .of_stops (fun h => by simp [Store.isAndroid, Except.toBool] at h) ⟨_, .perform, rfl⟩ rfl
  · cases store with
    | ios | android => exact .of_ends ⟨rfl, .inl rfl⟩ .perform rfl

/-- What comes after the native clean-up leaves the store alone. -/
theorem returns_wipe (o : MigrateOutcome Key) :
    Returns (o.Cleans d.store ∧ o.Clears) (wipeUnless false o) d (fun _ d' => d'.store =
        (d.store.cleanKeystoreDirectory (o.cleanKeystoreDirectory.getD (.ok ()))).2)
      fun d' => (o.Cleans d.store → d'.store =
          (d.store.cleanKeystoreDirectory (o.cleanKeystoreDirectory.getD (.ok ()))).2) ∧
        (¬ o.Cleans d.store → d'.store = d.store) := by
  have hall : Returns (o.Cleans d.store ∧ o.removeItem.returned.isSome ∧ o.clearIdentity.isSome ∧
      o.clearLoginCredentials.isSome) (cleanAllIdentities o) d (fun _ d' => o.Cleans d.store ∧
        d'.store = (d.store.cleanKeystoreDirectory (o.cleanKeystoreDirectory.getD (.ok ()))).2)
      fun d' => (o.Cleans d.store → d'.store =
          (d.store.cleanKeystoreDirectory (o.cleanKeystoreDirectory.getD (.ok ()))).2) ∧
        (¬ o.Cleans d.store → d'.store = d.store) := by
    refine (returns_cleanKeystoreDirectory o).bind (fun h => h.1)
      (fun hnot _ h => ⟨fun hclean => absurd hclean hnot, fun _ => h ▸ rfl⟩) fun hclean _ d' hstore => ?_
    refine (Returns.answer _).bind (fun h => h.2.1)
      (fun _ _ h => h ▸ ⟨fun _ => hstore, fun h => absurd hclean h⟩) ?_
    rintro hremove _ _ ⟨-, rfl⟩
    refine (Returns.ignoring_answer _).bind (fun h => h.2.2.1)
      (fun _ _ h => h ▸ ⟨fun _ => hstore, fun h => absurd hclean h⟩) ?_
    rintro hidentity _ _ rfl
    exact (Returns.ignoring_answer _).imp ⟨fun h => h.2.2.2, fun h => ⟨hclean, hremove, hidentity, h⟩⟩
      (fun _ _ h => ⟨hclean, h ▸ hstore⟩) fun _ h => h ▸ ⟨fun _ => hstore, fun h => absurd hclean h⟩
  refine hall.bind (fun h => ⟨h.1, h.2.1, h.2.2.1, h.2.2.2.1⟩) (fun _ _ h => h) ?_
  rintro ⟨-, hremove, hidentity, hlogin⟩ _ d' ⟨hclean, hstore⟩
  exact (Returns.answer _).imp
    ⟨fun h => h.2.2.2.2, fun h => ⟨hclean, hremove, hidentity, hlogin, h⟩⟩
    (fun _ _ h => h.2 ▸ hstore) fun _ h => h ▸ ⟨fun _ => hstore, fun h => absurd hclean h⟩

/-- The store step of a migration is cut off before it, or does to the keys what `StoreLeaves` says. -/
theorem returns_storeMigrated (m : Migration) (o : MigrateOutcome Key) :
    Returns (o.StoreComesBack m) (ignoring (storeMigrated C m o)) d
      (fun _ d' => (∀ property, (∃ key, d'.store.keys C m.newIdentityId = some key ∧ property key) ↔
          o.StoreLeaves C property m d.store) ∧
        ∀ other, other ≠ m.newIdentityId → d'.store.keys C other = d.store.keys C other)
      fun d' => ∀ identityId, d'.store.keys C identityId = d.store.keys C identityId := by
  unfold storeMigrated MigrateOutcome.StoreComesBack MigrateOutcome.StoreLeaves
  cases m.alreadyMigrated with
  | true =>
    rw [if_pos rfl]
    refine (returns_storeProvisionedIdentity ..).imp
      ⟨fun h => h.2 (.inl rfl), fun h => ⟨fun h' => (nomatch h'), fun _ => h⟩⟩
      (fun _ d' hstore => ?_) fun _ h _ => h ▸ rfl
    rw [hstore]
    exact ⟨fun property => Store.keys_storeProvisionedIdentity_iff property ..,
      fun other hne => Store.keys_storeProvisionedIdentity_of_ne hne ..⟩
  | false =>
    rw [if_neg Bool.false_ne_true]
    rcases hrestore : o.restoreAfterCleanup with _ | e | key
    · exact .of_stops (fun h => absurd (h.1 rfl) (by simp))
        ⟨none, (Ends.answer.bind_cutOff).bind_cutOff.ignoring_cutOff, rfl⟩ fun _ => rfl
    · refine .of_ends ⟨fun _ => rfl, fun h => ?_⟩ (Ends.answer.bind_error).bind_error.ignoring
        ⟨fun property => ?_, fun _ _ => rfl⟩
      · rcases h with h | h
        · cases h
        · cases h
      · simp [Stateful.Interruptible.Outcome.returned]
    · have hnew := newKey_ends (C := C) (d := d) key
      by_cases hwrites : o.storeProvisionedIdentity.isSome = true
      · obtain ⟨r, d', hends, hstore⟩ := storeProvisionedIdentity_ends (C := C)
          (d := { d with store := d.store.cache C key }) hwrites m.newIdentityId
          (orElse (C.did key) m.serverDid)
        refine .of_ends ⟨fun _ => rfl, fun _ => hwrites⟩ (hnew.bind hends).ignoring
          ⟨fun property => ?_, fun other hne => ?_⟩
        · rw [hstore, Store.keys_storeProvisionedIdentity_iff]
          simp [Stateful.Interruptible.Outcome.returned]
        · rw [hstore, Store.keys_storeProvisionedIdentity_of_ne hne, Store.keys_cache]
      · have hcut := storeProvisionedIdentity_cutOff (C := C) (d := { d with store := d.store.cache C key })
          hwrites m.newIdentityId (orElse (C.did key) m.serverDid)
        exact .of_stops (fun h => hwrites (h.2 (.inr rfl))) ⟨none, (hnew.bind hcut).ignoring_cutOff, rfl⟩
          (Store.keys_cache key)

/-- Up to the store step, which then finds `beforeStore`. -/
theorem returns_wipeUnless {e : Device Key Json} (key : Key) (m : Migration) (o : MigrateOutcome Key)
    (hd : e.store = d.store.cache C key) :
    Returns (o.GetsToStore m d.store) (wipeUnless m.alreadyMigrated o) e
      (fun _ d' => d'.store = o.beforeStore C key m d.store)
      fun d' => (o.Cleans d.store → d'.store = o.beforeStore C key m d.store) ∧
        (¬ o.Cleans d.store → d'.store = e.store) := by
  have hcleans : o.Cleans e.store ↔ o.Cleans d.store := by
    have handroid : (d.store.cache C key).isAndroid = d.store.isAndroid := by
      cases d.store <;> rfl
    unfold MigrateOutcome.Cleans
    rw [hd, handroid]
  unfold MigrateOutcome.GetsToStore MigrateOutcome.beforeStore
  cases m.alreadyMigrated with
  | true => exact .of_ends (fun h => (nomatch h)) .pure hd
  | false =>
    have hwipe := returns_wipe (d := e) o
    rw [hcleans] at hwipe
    exact hwipe.imp (forall_prop_of_true rfl) (fun _ _ h => hd ▸ h) fun _ h => hd ▸ h

/-- The store step of a migration leaves the keys, which then are the server's. -/
def MigrateOutcome.StoresKeys (C : LibClient Key Json) (displayName seedPhrase : String)
    (o : MigrateOutcome Key) (s : Store Key Json) : Prop :=
  ∀ key m, o.accepted C displayName seedPhrase = some (key, m) → o.GetsToStore m s →
    o.StoreComesBack m → o.restoreIdentityToHandleStore.isSome →
    o.StoreLeaves C (fun key' => C.did key' = m.serverDid) m (o.beforeStore C key m s)

theorem migrateIdentityFromSeed_reportsUsable_iff (displayName seedPhrase : String) (o : MigrateOutcome Key) :
    ReportsUsable C MigrationResult.identity (migrateIdentityFromSeed C displayName seedPhrase o) d ↔
      o.StoresKeys C displayName seedPhrase d.store := by
  unfold migrateIdentityFromSeed
  rcases returns_requestMigration (C := C) (d := d) displayName seedPhrase o with
    ⟨-, m, _, hends, key, hx, rfl⟩ | ⟨hnone, d', hstops, -⟩
  · have hstores : o.StoresKeys C displayName seedPhrase d.store ↔ (o.GetsToStore m d.store →
        o.StoreComesBack m → o.restoreIdentityToHandleStore.isSome →
          o.StoreLeaves C (fun key' => C.did key' = m.serverDid) m (o.beforeStore C key m d.store)) := by
      refine ⟨fun h => h key m hx, fun h key' m' hx' => ?_⟩
      cases hx.symm.trans hx'
      exact h
    rw [reportsUsable_after hends, hstores]
    refine reportsUsable_bind (returns_wipeUnless key m o rfl) fun _ d1 hbefore => ?_
    refine reportsUsable_bind (returns_storeMigrated m o) fun _ d2 hstored => ?_
    refine reportsUsable_bind (returns_restoreIdentityToHandleStore ..) fun _ d3 hkeys => ?_
    rw [reportsUsable_iff_of_ends .pure, Store.usable_iff rfl, hkeys m.newIdentityId,
      hstored.1 fun key' => C.did key' = m.serverDid, hbefore]
  · refine iff_of_true (reportsUsable_of_stops hstops.bind) fun key m hx => ?_
    exact absurd (isSome_iff_exists.2 ⟨_, hx⟩) hnone

/-! ### Keys that are there before -/

/-- Where it throws or is cut off, there are keys on the device. -/
def StopsWithKeys {α : Type} (C : LibClient Key Json) (m : Service Key Json α) (d : Device Key Json) : Prop :=
  ∀ d', Stops m d d' → d'.store.HasKeys C

/-- The device has keys after a call that throws or is cut off, if it had keys before. -/
def KeepsKeys {α : Type} (C : LibClient Key Json) (m : Service Key Json α) (d : Device Key Json) : Prop :=
  d.store.HasKeys C → StopsWithKeys C m d

section StopsWithKeys

variable {α β : Type} {m : Service Key Json α} {d' : Device Key Json}

theorem stopsWithKeys_of_ends {a : α} (h : Ends m d (some (.ok a)) d') : StopsWithKeys C m d :=
  fun _ hstops => absurd h hstops.not_ends

theorem stopsWithKeys_iff_of_stops (h : Stops m d d') : StopsWithKeys C m d ↔ d'.store.HasKeys C := by
  constructor
  · exact fun hkeys => hkeys d' h
  · intro hkeys d'' h'
    exact h.unique h' ▸ hkeys

theorem stopsWithKeys_after {n : Service Key Json β} {f : β → Service Key Json α} {b : β}
    (h : Ends n d (some (.ok b)) d') : StopsWithKeys C (n >>= f) d ↔ StopsWithKeys C (f b) d' :=
  forall_congr' fun _ => imp_congr_left (Stops.after_iff h)

theorem stopsWithKeys_bind {n : Service Key Json β} {f : β → Service Key Json α} {P U W : Prop}
    {Q : β → Device Key Json → Prop} {Z : Device Key Json → Prop} (h : Returns P n d Q Z)
    (hf : ∀ b d', P → Q b d' → (StopsWithKeys C (f b) d' ↔ U))
    (hZ : ∀ d', ¬ P → Z d' → (d'.store.HasKeys C ↔ W)) :
    StopsWithKeys C (n >>= f) d ↔ (P → U) ∧ (¬ P → W) := by
  rcases h with ⟨hP, b, d', hends, hq⟩ | ⟨hP, d', hstops, hz⟩
  · rw [stopsWithKeys_after hends, hf b d' hP hq]
    simp [hP]
  · rw [stopsWithKeys_iff_of_stops hstops.bind, hZ d' hP hz]
    simp [hP]

end StopsWithKeys

theorem Store.HasKeys.of_keys (h : s.HasKeys C)
    (hkeys : ∀ identityId, s'.keys C identityId = s.keys C identityId) : s'.HasKeys C := by
  obtain ⟨identityId, key, hkey⟩ := h
  exact ⟨identityId, key, (hkeys identityId).trans hkey⟩

/-- The clean-up leaves all keys or none. -/
theorem keys_beforeStore {o : MigrateOutcome Key} {m : Migration}
    (h : m.alreadyMigrated = false → o.cleanKeystoreDirectory.isSome) (key : Key) (s : Store Key Json)
    (identityId : String) :
    (o.beforeStore C key m s).keys C identityId =
      if m.alreadyMigrated = false ∧ o.deletes = true then none else s.keys C identityId := by
  unfold MigrateOutcome.beforeStore
  cases halready : m.alreadyMigrated with
  | true => simp
  | false =>
    obtain ⟨r, hr⟩ := isSome_iff_exists.1 (h halready)
    rw [if_neg Bool.false_ne_true, Store.keys_cleanKeystoreDirectory]
    simp [MigrateOutcome.deletes, hr]

theorem beforeStore_hasKeys_iff {o : MigrateOutcome Key} {m : Migration}
    (h : m.alreadyMigrated = false → o.Cleans s) (key : Key) (hkeys : s.HasKeys C) :
    (o.beforeStore C key m s).HasKeys C ↔ (m.alreadyMigrated = false → o.deletes = false) := by
  have hbefore := keys_beforeStore (C := C) (fun hnew => (h hnew).1) key s
  obtain ⟨identityId, key', hkey'⟩ := hkeys
  constructor
  · rintro ⟨other, key'', hkey''⟩ hnew
    cases hdeletes : o.deletes with
    | false => rfl
    | true =>
      rw [hbefore other, if_pos ⟨hnew, hdeletes⟩] at hkey''
      cases hkey''
  · intro hdeletes
    refine ⟨identityId, key', ?_⟩
    rw [hbefore identityId, if_neg, hkey']
    rintro ⟨hnew, htrue⟩
    rw [hdeletes hnew] at htrue
    cases htrue

/-- There are keys under the new id, or under another one. -/
theorem Store.hasKeys_iff (s : Store Key Json) (identityId : String) :
    s.HasKeys C ↔ (∃ key, s.keys C identityId = some key ∧ True) ∨
      ∃ other, other ≠ identityId ∧ ∃ key, s.keys C other = some key := by
  constructor
  · rintro ⟨other, key, hkey⟩
    by_cases heq : other = identityId
    · exact .inl ⟨key, heq ▸ hkey, trivial⟩
    · exact .inr ⟨other, heq, key, hkey⟩
  · rintro (⟨key, hkey, -⟩ | ⟨other, -, key, hkey⟩)
    · exact ⟨identityId, key, hkey⟩
    · exact ⟨other, key, hkey⟩

/-- A migration does not stop between the clean-up that deletes the keys and the store of the new ones; and if
    it stops after the store step, that has left keys, or there are others. -/
def MigrateOutcome.Spares (C : LibClient Key Json) (o : MigrateOutcome Key) (key : Key) (m : Migration)
    (s : Store Key Json) : Prop :=
  (m.alreadyMigrated = false → o.Cleans s → ¬ (o.Clears ∧ o.StoreComesBack m) → o.deletes = false) ∧
    (o.GetsToStore m s → o.StoreComesBack m → o.restoreIdentityToHandleStore = none →
      o.StoreLeaves C (fun _ => True) m (o.beforeStore C key m s) ∨
        ∃ other, other ≠ m.newIdentityId ∧ ∃ key', (o.beforeStore C key m s).keys C other = some key')

theorem migrateIdentityFromSeed_keepsKeys_iff (displayName seedPhrase : String) (o : MigrateOutcome Key) :
    KeepsKeys C (migrateIdentityFromSeed C displayName seedPhrase o) d ↔
      (d.store.HasKeys C → ∀ key m, o.accepted C displayName seedPhrase = some (key, m) →
        o.Spares C key m d.store) := by
  refine imp_congr_right fun hhas => ?_
  unfold migrateIdentityFromSeed
  rcases returns_requestMigration (C := C) (d := d) displayName seedPhrase o with
    ⟨-, m, _, hends, key, hx, rfl⟩ | ⟨hnone, d0, hstops, hkeys⟩
  · have honly : (∀ key' m', o.accepted C displayName seedPhrase = some (key', m') →
        o.Spares C key' m' d.store) ↔ o.Spares C key m d.store := by
      refine ⟨fun h => h key m hx, fun h key' m' hx' => ?_⟩
      cases hx.symm.trans hx'
      exact h
    rw [stopsWithKeys_after hends, honly]
    have hbefore := fun h => beforeStore_hasKeys_iff (C := C) (o := o) (m := m) h key hhas
    refine (stopsWithKeys_bind (U := (o.StoreComesBack m → o.restoreIdentityToHandleStore = none →
        o.StoreLeaves C (fun _ => True) m (o.beforeStore C key m d.store) ∨ ∃ other,
          other ≠ m.newIdentityId ∧ ∃ key', (o.beforeStore C key m d.store).keys C other = some key') ∧
        (¬ o.StoreComesBack m → m.alreadyMigrated = false → o.deletes = false))
      (W := m.alreadyMigrated = false → o.Cleans d.store → o.deletes = false)
      (returns_wipeUnless key m o rfl) (fun _ d1 hgets hd1 => ?_) fun d1 hnot hstopped => ?_).trans ?_
    · refine stopsWithKeys_bind (returns_storeMigrated m o) (fun _ d2 _ ⟨hleaves, hothers⟩ => ?_)
        fun d2 _ hkeys => ?_
      · refine (stopsWithKeys_bind (returns_restoreIdentityToHandleStore ..)
          (fun _ _ _ _ => iff_true_intro (stopsWithKeys_of_ends .pure)) fun d3 _ hd3 => ?_).trans
          ((and_iff_right fun _ => trivial).trans (imp_congr_left not_isSome_iff_eq_none))
        subst hd3
        rw [Store.hasKeys_iff _ m.newIdentityId, hleaves fun _ => True, hd1]
        refine or_congr_right (exists_congr fun other => and_congr_right fun hne => ?_)
        rw [hothers other hne, hd1]
      · rw [← hbefore fun hnew => (hgets hnew).1, ← hd1]
        exact ⟨fun h => h.of_keys fun identityId => (hkeys identityId).symm, fun h => h.of_keys hkeys⟩
    · -- it stops before the store step, in the clean-up or after it
      obtain ⟨hclean, hkept⟩ := hstopped
      by_cases hcleans : o.Cleans d.store
      · rw [hclean hcleans, hbefore fun _ => hcleans]
        exact ⟨fun h hnew _ => h hnew, fun h hnew => h hnew hcleans⟩
      · refine iff_of_true ?_ fun _ h => absurd h hcleans
        rw [hkept hcleans]
        exact hhas.of_keys (Store.keys_cache key)
    · constructor
      · rintro ⟨hgets, hnot⟩
        refine ⟨fun hnew hcleans hstopped => ?_, fun h => (hgets h).1⟩
        by_cases hclears : o.Clears
        · exact (hgets fun _ => ⟨hcleans, hclears⟩).2 (fun hback => hstopped ⟨hclears, hback⟩) hnew
        · exact hnot (fun h => hclears (h hnew).2) hnew hcleans
      · rintro ⟨hdeletes, hleaves⟩
        refine ⟨fun hgets => ⟨hleaves hgets, fun hback hnew => ?_⟩, fun hnot hnew hcleans => ?_⟩
        · exact hdeletes hnew (hgets hnew).1 fun h => hback h.2
        · exact hdeletes hnew hcleans fun h => hnot fun _ => ⟨hcleans, h.1⟩
  · rw [stopsWithKeys_iff_of_stops hstops.bind, iff_true_left (hhas.of_keys hkeys)]
    intro key m hx
    exact absurd (isSome_iff_exists.2 ⟨_, hx⟩) hnone

/-! ## The three functions -/

/-- A reported identity is usable exactly if the store step leaves its keys, and a migration that stops leaves
    keys on the device exactly if it does not stop with the old ones deleted and the new ones not stored. -/
theorem reported_identity_usable_iff (C : LibClient Key Json) (d : Device Key Json) :
    (∀ data o, ReportsUsable C id (createIdentity C data o) d ↔ o.StoresKeys C data d.store) ∧
    (∀ seedPhrase o,
      ReportsUsable C id (recoverWithSeed C seedPhrase o) d ↔ o.StoresKeys C seedPhrase d.store) ∧
    (∀ displayName seedPhrase o,
      ReportsUsable C MigrationResult.identity (migrateIdentityFromSeed C displayName seedPhrase o) d ↔
        o.StoresKeys C displayName seedPhrase d.store) ∧
    ∀ displayName seedPhrase o, KeepsKeys C (migrateIdentityFromSeed C displayName seedPhrase o) d ↔
      (d.store.HasKeys C → ∀ key m, o.accepted C displayName seedPhrase = some (key, m) →
        o.Spares C key m d.store) :=
  ⟨createIdentity_reportsUsable_iff, recoverWithSeed_reportsUsable_iff,
    migrateIdentityFromSeed_reportsUsable_iff, migrateIdentityFromSeed_keepsKeys_iff⟩

/-! ### A store that fails, and a clean-up that is not followed by one -/

/-- The keys of the phrase are stored on the device. -/
def storedDevice : Device String String where
  store := .android { NativeIdentityProvisioning.Android.twoStored with currentIdentityId := some "a" }
  lastSeedRecoveryNotFound := false

/-- The preferences cannot be written. -/
def unwritten : CreateOutcome String where
  provisionIdentity := some (.ok "did:zhtp:c")
  info := ⟨"device", 0⟩
  createRegistrationProof := some (.ok ())
  register := some (.ok ⟨true, 200, "", .ok ⟨some "c", none⟩⟩)
  storeProvisionedIdentity := some (.error "no master key")
  getSeedPhraseForBackup := some (.ok "")
  restoreIdentityToHandleStore := some true
  storeMasterSeedPhrase := some (.ok ())

/-- The seed vault cannot be cleared. -/
def uncleared : MigrateOutcome String where
  restoreIdentityFromPhrase := some (.ok "did:zhtp:a")
  publicDilithium := "AA=="
  info := ⟨"device", 0⟩
  signMessageFromSeed := some (.ok ())
  migrate := some (.ok ⟨true, 200, "", .ok { new_did := some "did:zhtp:a" }⟩)
  cleanKeystoreDirectory := some (.ok ())
  removeItem := some (.ok ())
  clearIdentity := some (.ok ())
  clearLoginCredentials := some (.ok ())
  clearSeedPhrase := some (.error "keychain error")
  restoreAfterCleanup := some (.ok "did:zhtp:a")
  storeProvisionedIdentity := some (.ok ())
  restoreIdentityToHandleStore := some true

def phrase24 : String := " ".intercalate (List.replicate 24 "word")

/-- An identity is reported without keys, and a migration rejects with the keys deleted. -/
theorem reported_without_keys :
    ¬ ReportsUsable NativeIdentityProvisioning.plainClient id
        (createIdentity NativeIdentityProvisioning.plainClient ⟨"name", "password"⟩ unwritten) storedDevice ∧
      ¬ KeepsKeys NativeIdentityProvisioning.plainClient
        (migrateIdentityFromSeed NativeIdentityProvisioning.plainClient "name" phrase24 uncleared)
        storedDevice := by
  constructor
  · intro h
    obtain ⟨identityId, key, hid, hkey, -⟩ := h _ _ rfl
    cases hid
    cases hkey
  · rw [migrateIdentityFromSeed_keepsKeys_iff]
    intro h
    have haccepted : uncleared.accepted plainClient "name" phrase24 =
        some ("did:zhtp:a", ⟨"did:zhtp:a", false⟩) := by decide +kernel
    have hspares := h ⟨"a", "did:zhtp:a", rfl⟩ _ _ haccepted
    have hdeletes := hspares.1 rfl ⟨rfl, .inl rfl⟩ fun hclears => nomatch hclears.1.2.2.2
    cases hdeletes

end ProvisionedKeys
