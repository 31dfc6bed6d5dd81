import SovereignMobile.Identity.HandleStore

/-! # The identity that is exported

`exportKeystoreBase64` of both platforms and `getLocalIdentity` of iOS look an identity up by its id or
DID. Where no table has it, the latest identity counts as the one asked for if its DID ends with the id, be
it a part of that DID or empty. -/

namespace NativeIdentityProvisioning

open List Option

variable {Identity Json : Type} (C : LibClient Identity Json)

/-- Its DID is that of the id, or it is held under the id itself. -/
def IsOf (held : Identity → Prop) (id : String) (i : Identity) : Prop :=
  C.did i = didPrefix ++ id ∨ held i

theorem prefixedDid_eq (trimmed : String) : prefixedDid trimmed = didPrefix ++ removeDidPrefix trimmed := by
  unfold prefixedDid removeDidPrefix
  split
  · rename_i h
    obtain ⟨rest, hrest⟩ := isPrefixOf_iff_prefix.1 h
    apply String.toList_injective
    rw [String.toList_append, String.toList_ofList, ← hrest]
    rfl
  · rfl

theorem endsWith_append (front s : String) : endsWith (front ++ s) s = true := by
  rw [endsWith, isSuffixOf_iff_suffix, String.toList_append]
  exact suffix_append _ _

/-- The texts that a DID may be equal to end with the id. -/
theorem endsWith_removeDidPrefix (trimmed : String) : endsWith trimmed (removeDidPrefix trimmed) = true := by
  rw [endsWith, isSuffixOf_iff_suffix, removeDidPrefix]
  split
  · rw [String.toList_ofList]
    exact drop_suffix _ _
  · exact suffix_rfl

/-- The last of the three comparisons is the only one that matters. -/
theorem matches_iff (did trimmed : String) :
    (did = trimmed || did = prefixedDid trimmed || endsWith did (removeDidPrefix trimmed)) =
      endsWith did (removeDidPrefix trimmed) := by
  rw [Bool.eq_iff_iff]
  simp only [Bool.or_eq_true, decide_eq_true_eq]
  constructor
  · rintro ((rfl | rfl) | h)
    · exact endsWith_removeDidPrefix _
    · rw [prefixedDid_eq]
      exact endsWith_append _ _
    · exact h
  · exact .inr

theorem matches_did_iff (did trimmed : String) :
    (did = trimmed || endsWith did (removeDidPrefix trimmed)) =
      endsWith did (removeDidPrefix trimmed) := by
  rw [Bool.eq_iff_iff]
  simp only [Bool.or_eq_true, decide_eq_true_eq]
  constructor
  · rintro (rfl | h)
    · exact endsWith_removeDidPrefix _
    · exact h
  · exact .inr

/-! ## Android -/

namespace Android

/-- lib-client's base64 of the keystore, if it is neither missing nor blank, with the identity it is of. -/
def State.exportedKeystore (keystore : Identity → Option String) (s : State Identity Json) (did : String) :
    Option (Identity × String) :=
  (s.exportKeystoreBase64 C did).1.bind fun identity =>
    ((keystore identity).filter fun base64 => trim base64 ≠ "").map fun base64 => (identity, base64)

def State.Holds (s : State Identity Json) (id : String) (i : Identity) : Prop :=
  s.cachedIdentities.get id = some i ∨ s.loadIdentity C id = some i

/-- What the cache has for the query, else the latest identity. -/
def State.offered (s : State Identity Json) (trimmed : String) : Option Identity :=
  s.cachedIdentities.get trimmed <|> s.cachedIdentities.get (prefixedDid trimmed)
    <|> s.cachedIdentities.get (normalizeIdentityId trimmed) <|> (s.getLatestIdentity C).1

def State.ExportsAsked (keystore : Identity → Option String) (s : State Identity Json) (did : String) :
    Prop :=
  ∀ i base64, s.exportedKeystore C keystore did = some (i, base64) →
    IsOf C (s.Holds C (normalizeIdentityId did)) (normalizeIdentityId did) i

/-- Where the identity on offer can be exported and has a DID that ends with the id, it is of the id. -/
def State.OffersAsked (keystore : Identity → Option String) (s : State Identity Json) (did : String) :
    Prop :=
  ∀ i, s.offered C (trim did) = some i → (∃ base64, keystore i = some base64 ∧ trim base64 ≠ "") →
    endsWith (C.did i) (normalizeIdentityId did) = true →
    IsOf C (s.Holds C (normalizeIdentityId did)) (normalizeIdentityId did) i

variable {C} {keystore : Identity → Option String} {s : State Identity Json}

theorem normalizeIdentityId_trim (did : String) : normalizeIdentityId (trim did) = normalizeIdentityId did := by
  unfold normalizeIdentityId trim
  rw [trimWith_trimWith]

theorem exportKeystoreBase64_eq (did : String) (h : trim did ≠ "") :
    (s.exportKeystoreBase64 C did).1 =
      (s.offered C (trim did)).filter fun i => endsWith (C.did i) (normalizeIdentityId did) := by
  have hmatch : ∀ i : Identity, (C.did i = trim did || C.did i = prefixedDid (trim did) ||
      endsWith (C.did i) (normalizeIdentityId (trim did))) =
        endsWith (C.did i) (normalizeIdentityId did) := fun i => by
    rw [normalizeIdentityId_trim]
    exact matches_iff _ _
  unfold State.exportKeystoreBase64 State.offered
  rw [if_neg h]
  simp only [hmatch]
  cases s.cachedIdentities.get (trim did) <;> cases s.cachedIdentities.get (prefixedDid (trim did)) <;>
    cases s.cachedIdentities.get (normalizeIdentityId (trim did)) <;> rfl

theorem exportedKeystore_eq_some_iff {did : String} {i : Identity} {base64 : String} :
    s.exportedKeystore C keystore did = some (i, base64) ↔
      trim did ≠ "" ∧ s.offered C (trim did) = some i ∧
        endsWith (C.did i) (normalizeIdentityId did) = true ∧
        keystore i = some base64 ∧ trim base64 ≠ "" := by
  unfold State.exportedKeystore
  by_cases h : trim did = ""
  · simp [h, State.exportKeystoreBase64]
  rw [exportKeystoreBase64_eq did h]
  constructor
  · intro hexport
    obtain ⟨j, hj, htext⟩ := bind_eq_some_iff.1 hexport
    obtain ⟨hoffered, hends⟩ := filter_eq_some_iff.1 hj
    obtain ⟨text, hfilter, heq⟩ := map_eq_some_iff.1 htext
    obtain ⟨hkeystore, hblank⟩ := filter_eq_some_iff.1 hfilter
    cases heq
    exact ⟨h, hoffered, hends, hkeystore, of_decide_eq_true hblank⟩
  · rintro ⟨-, hoffered, hends, hkeystore, hblank⟩
    rw [hoffered, filter_some, if_pos hends, bind_some, hkeystore, filter_some,
      if_pos (decide_eq_true hblank), map_some]

theorem exportsAsked_iff (did : String) :
    s.ExportsAsked C keystore did ↔ trim did = "" ∨ s.OffersAsked C keystore did := by
  constructor
  · intro h
    by_cases hne : trim did = ""
    · exact .inl hne
    right
    rintro i hoffered ⟨base64, hkeystore, hblank⟩ hends
    exact h i base64 (exportedKeystore_eq_some_iff.2 ⟨hne, hoffered, hends, hkeystore, hblank⟩)
  · intro h i base64 hexport
    obtain ⟨hne, hoffered, hends, hkeystore, hblank⟩ := exportedKeystore_eq_some_iff.1 hexport
    exact h.resolve_left hne i hoffered ⟨base64, hkeystore, hblank⟩ hends

end Android

/-! ## iOS -/

namespace Ios

/-- lib-client's base64 of the keystore, with the identity it is of. -/
def State.exportedKeystore (keystore : Identity → Option String) (s : State Identity Json)
    (identityIdOrDid : String) : Option (Identity × String) :=
  (s.exportKeystoreBase64 C identityIdOrDid).1.bind fun identity =>
    (keystore identity).map fun base64 => (identity, base64)

def State.Holds (s : State Identity Json) (id : String) (i : Identity) : Prop :=
  s.cachedIdentities id = some i ∨ s.identities id = some i ∨ s.restore C id = some i

/-- What the tables that `resolveIdentity` reads have for the query. -/
def State.resolved (s : State Identity Json) (trimmed : String) : Option Identity :=
  s.cachedIdentities trimmed <|> s.cachedIdentities (prefixedDid trimmed)
    <|> s.cachedIdentities (removeDidPrefix trimmed) <|> s.identities trimmed
    <|> s.identities (removeDidPrefix trimmed)

/-- What the handle store has for the query. -/
def State.retrieved (s : State Identity Json) (trimmed : String) : Option Identity :=
  s.identities trimmed <|> s.identities (removeDidPrefix trimmed)

/-- The identity of a lookup that tries `table` first is of the id. -/
def State.IsAsked (s : State Identity Json) (id : String) (i : Identity) : Prop :=
  IsOf C (s.Holds C id) id i

/-- What `table` has is of the id; where it has nothing, the latest identity is, if its DID ends with the
    id. Only what is `usable` counts. -/
structure State.FindsAsked (s : State Identity Json) (table : Option Identity) (id : String)
    (usable : Identity → Prop) : Prop where
  found : ∀ i, table = some i → usable i → s.IsAsked C id i
  latest : table = none → ∀ i, (s.getLatestIdentity C).1 = some i → usable i →
    endsWith (C.did i) id = true → s.IsAsked C id i

def State.ExportsAsked (keystore : Identity → Option String) (s : State Identity Json)
    (identityIdOrDid : String) : Prop :=
  ∀ i base64, s.exportedKeystore C keystore identityIdOrDid = some (i, base64) →
    s.IsAsked C (removeDidPrefix (trim identityIdOrDid)) i

def State.ReportsAsked (s : State Identity Json) (identityIdOrDid : String) : Prop :=
  ∀ i, (s.getLocalIdentity C identityIdOrDid).1 = some i →
    s.IsAsked C (removeDidPrefix (trim identityIdOrDid)) i

variable {C} {keystore : Identity → Option String} {s : State Identity Json}

/-- The latest identity if it matches, else that of the Keychain. -/
theorem latestOrKeychain_fst (isMatch : Identity → Bool) (id : String) :
    (s.latestOrKeychain C isMatch id).1 =
      ((s.getLatestIdentity C).1.filter isMatch <|> s.restore C id) := by
  have hrestore := (getLatestIdentity_snd (C := C) s).2.2
  unfold State.latestOrKeychain
  dsimp only
  cases (s.getLatestIdentity C).1.filter isMatch with
  | some i => rfl
  | none =>
    rw [hrestore]
    cases s.restore C id <;> rfl

theorem resolveIdentity_fst (identityIdOrDid : String) (h : trim identityIdOrDid ≠ "") :
    (s.resolveIdentity C identityIdOrDid).1 = (s.resolved (trim identityIdOrDid) <|>
        (s.getLatestIdentity C).1.filter (fun i =>
          endsWith (C.did i) (removeDidPrefix (trim identityIdOrDid))) <|>
        s.restore C (removeDidPrefix (trim identityIdOrDid))) := by
  unfold State.resolveIdentity State.resolved
  rw [if_neg h]
  dsimp only
  split
  · rename_i i hi
    rw [hi]
    rfl
  rename_i hnone
  rw [hnone, latestOrKeychain_fst]
  simp only [matches_iff]
  rfl

theorem exportKeystoreBase64_fst (identityIdOrDid : String) (h : trim identityIdOrDid ≠ "") :
    (s.exportKeystoreBase64 C identityIdOrDid).1 = (s.resolveIdentity C identityIdOrDid).1 := by
  have htrim : trim (trim identityIdOrDid) = trim identityIdOrDid := trimWith_trimWith _ _
  unfold State.exportKeystoreBase64 State.resolveIdentity
  rw [if_neg h, htrim]

theorem getLocalIdentity_fst (identityIdOrDid : String) (h : trim identityIdOrDid ≠ "") :
    (s.getLocalIdentity C identityIdOrDid).1 = (s.retrieved (trim identityIdOrDid) <|>
        (s.getLatestIdentity C).1.filter (fun i =>
          endsWith (C.did i) (removeDidPrefix (trim identityIdOrDid))) <|>
        s.restore C (removeDidPrefix (trim identityIdOrDid))) := by
  unfold State.getLocalIdentity State.retrieved
  rw [if_neg h]
  cases hdid : s.identities (trim identityIdOrDid) with
  | some i => rfl
  | none =>
    dsimp only
    split
    · rename_i i hi
      split at hi
      · simp at hi
      · rw [hi]
        rfl
    rename_i hnone
    -- the id is looked up a second time only where it is another text
    have hid : s.identities (removeDidPrefix (trim identityIdOrDid)) = none := by
      split at hnone
      · rename_i heq
        rw [← heq]
        exact hdid
      · exact hnone
    rw [hid, latestOrKeychain_fst]
    simp only [matches_did_iff]
    rfl

/-- The three stages of a lookup: what the Keychain has is held under the id. -/
theorem stages_iff {table : Option Identity} {id : String} {usable : Identity → Prop} :
    (∀ i, (table <|> (s.getLatestIdentity C).1.filter (fun i => endsWith (C.did i) id) <|>
        s.restore C id) = some i → usable i → s.IsAsked C id i) ↔
      s.FindsAsked C table id usable := by
  constructor
  · intro h
    constructor
    · rintro i rfl
      exact h i rfl
    · rintro rfl i hlatest husable hends
      refine h i ?_ husable
      simp [hlatest, hends]
  · intro h i hi husable
    cases htable : table with
    | some j =>
      rw [htable] at hi
      obtain rfl : j = i := some.inj hi
      exact h.found j htable husable
    | none =>
      rw [htable] at hi
      cases hlatest : (s.getLatestIdentity C).1.filter fun i => endsWith (C.did i) id with
      | some j =>
        rw [hlatest] at hi
        obtain rfl : j = i := some.inj hi
        obtain ⟨hj, hends⟩ := filter_eq_some_iff.1 hlatest
        exact h.latest htable j hj husable hends
      | none =>
        rw [hlatest] at hi
        exact .inr (.inr (.inr hi))

theorem exportsAsked_iff (identityIdOrDid : String) :
    s.ExportsAsked C keystore identityIdOrDid ↔ trim identityIdOrDid = "" ∨
      s.FindsAsked C (s.resolved (trim identityIdOrDid)) (removeDidPrefix (trim identityIdOrDid))
        fun i => (keystore i).isSome := by
  by_cases h : trim identityIdOrDid = ""
  · simp [State.ExportsAsked, State.exportedKeystore, State.exportKeystoreBase64, h]
  have hstages : _ ↔ s.FindsAsked C (s.resolved (trim identityIdOrDid))
    (removeDidPrefix (trim identityIdOrDid)) fun i => (keystore i).isSome := stages_iff
  rw [or_iff_right h, ← hstages, ← resolveIdentity_fst _ h, ← exportKeystoreBase64_fst _ h]
  unfold State.ExportsAsked State.exportedKeystore
  constructor
  · intro hall i hi hsome
    obtain ⟨base64, hkeystore⟩ := isSome_iff_exists.1 hsome
    exact hall i base64 (by simp [hi, hkeystore])
  intro hall i base64 hexport
  obtain ⟨j, hj, htext⟩ := bind_eq_some_iff.1 hexport
  obtain ⟨text, hkeystore, heq⟩ := map_eq_some_iff.1 htext
  obtain ⟨rfl, rfl⟩ := Prod.mk.inj heq
  exact hall j hj (by simp [hkeystore])

theorem reportsAsked_iff (identityIdOrDid : String) :
    s.ReportsAsked C identityIdOrDid ↔ trim identityIdOrDid = "" ∨
      s.FindsAsked C (s.retrieved (trim identityIdOrDid)) (removeDidPrefix (trim identityIdOrDid))
        fun _ => True := by
  by_cases h : trim identityIdOrDid = ""
  · simp [State.ReportsAsked, State.getLocalIdentity, h]
  have hstages : _ ↔ s.FindsAsked C (s.retrieved (trim identityIdOrDid))
    (removeDidPrefix (trim identityIdOrDid)) fun _ => True := stages_iff
  rw [or_iff_right h, ← hstages, ← getLocalIdentity_fst _ h]
  constructor
  · exact fun hall i hi _ => hall i hi
  · exact fun hall i hi => hall i hi trivial

end Ios

/-- Identities are their DIDs, and so are their keystores. -/
def didClient : LibClient String String where
  did i := i
  serialize := some
  deserialize := some

def latestAndroid : Android.State String String where
  cachedIdentities := ⟨[("did:zhtp:ab12", "did:zhtp:ab12")]⟩
  identityJson _ := none
  currentIdentityId := none
  active := none

def latestIos : Ios.State String String where
  identities _ := none
  latestIdentity := some "did:zhtp:ab12"
  currentIdentityId := none
  keychain _ := none
  cachedIdentities _ := none
  active := none

variable {id i : String}

theorem latestAndroid_isOf (h : IsOf didClient (latestAndroid.Holds didClient id) id i) :
    i = didPrefix ++ id ∨ latestAndroid.cachedIdentities.get id = some i := by
  rcases h with hdid | hcached | hloaded
  · exact .inl hdid
  · exact .inr hcached
  · simp [Android.State.loadIdentity, latestAndroid] at hloaded

theorem latestIos_isAsked (h : latestIos.IsAsked didClient id i) : i = didPrefix ++ id := by
  rcases h with hdid | hcached | hstored | hrestored
  · exact hdid
  · simp [latestIos] at hcached
  · simp [latestIos] at hstored
  · simp [Ios.State.restore, latestIos] at hrestored

end NativeIdentityProvisioning
