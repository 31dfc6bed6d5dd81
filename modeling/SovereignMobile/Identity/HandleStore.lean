import SovereignMobile.Collections.LinkedMap
import SovereignMobile.EventLoop.Sequential
import Mathlib.Data.List.DropRight
import Mathlib.Logic.Function.Basic
import Mathlib.Tactic.SplitIfs

/-! # The identity that signs

`NativeIdentityProvisioning` keeps the identities of the device in memory and in persistent
storage, and every transaction signer asks `getLatestIdentity` for the one to sign with. Android
(`NativeIdentityProvisioning.kt`, `IdentityStore.kt`) answers with the last value of an
insertion-ordered map, iOS (`NativeIdentityProvisioning.swift`, `IdentityHandleStore.swift`) with a
variable that each `store` overwrites. Both are compared here with a history variable: the identity
that was activated last. -/

namespace NativeIdentityProvisioning

open List Option
open String (ofList toList_ofList)

abbrev Did := String

/-- The lib-client handles: an opaque identity has a DID, and is stored as JSON. -/
structure LibClient (Identity Json : Type) where
  did : Identity → Did
  serialize : Identity → Option Json
  deserialize : Json → Option Identity

/-- The calls of the bridge, each with the outcome that lib-client or the system decides: the
    identity that was generated or recovered (`none` for a failure), whether the Keychain took the
    new item, whether it deleted the old ones. -/
inductive Call (Identity : Type) where
  | generateLocalIdentity (generated : Option Identity)
  | provisionIdentity (generated : Option Identity)
  | storeProvisionedIdentity (identityId : String) (did : Did) (keychainAdds : Bool)
  | restoreIdentityToHandleStore (identityId : String)
  | restoreIdentityFromPhrase (restored : Option Identity)
  | getLocalIdentity (identityIdOrDid : String)
  | exportKeystoreBase64 (identityIdOrDid : String)
  | cleanKeystoreDirectory (keychainDeletes : Bool)
  | cleanKeystoreDirectoryForId (identityId : String)
  | getLatestIdentity

/-! ## Identity ids -/

/-- The Unicode separators (general category Z). -/
def isSeparator (c : Char) : Bool :=
  c.val = 0x20 || c.val = 0xA0 || c.val = 0x1680 || (0x2000 ≤ c.val && c.val ≤ 0x200A) ||
    c.val = 0x2028 || c.val = 0x2029 || c.val = 0x202F || c.val = 0x205F || c.val = 0x3000

def trimWith (isSpace : Char → Bool) (s : String) : String :=
  String.ofList ((s.toList.dropWhile isSpace).reverse.dropWhile isSpace).reverse

def didPrefix : String := "did:zhtp:"

def startsWithDid (s : String) : Bool := didPrefix.toList.isPrefixOf s.toList

/-- The id without `did:zhtp:`. -/
def removeDidPrefix (trimmed : String) : String :=
  if startsWithDid trimmed then String.ofList (trimmed.toList.drop 9) else trimmed

def prefixedDid (trimmed : String) : String :=
  if startsWithDid trimmed then trimmed else didPrefix ++ removeDidPrefix trimmed

def endsWith (s suffix : String) : Bool := suffix.toList.isSuffixOf s.toList

/-- Trimming twice is trimming once. -/
theorem trimWith_trimWith (isSpace : Char → Bool) (s : String) :
    trimWith isSpace (trimWith isSpace s) = trimWith isSpace s := by
  unfold trimWith
  rw [toList_ofList]
  congr 1
  change List.rdropWhile isSpace (dropWhile isSpace
    (List.rdropWhile isSpace (s.toList.dropWhile isSpace))) = _
  -- what is left starts with a character that is no space, or is empty
  have hhead : dropWhile isSpace (List.rdropWhile isSpace (s.toList.dropWhile isSpace)) =
      List.rdropWhile isSpace (s.toList.dropWhile isSpace) := by
    rw [dropWhile_eq_self_iff]
    intro hl
    obtain ⟨rest, hrest⟩ := rdropWhile_prefix isSpace (s.toList.dropWhile isSpace)
    have hl' : 0 < (s.toList.dropWhile isSpace).length := by
      rw [← hrest, length_append]
      omega
    have hfirst := dropWhile_get_zero_not isSpace s.toList hl'
    have hget : (s.toList.dropWhile isSpace).get ⟨0, hl'⟩ =
        (List.rdropWhile isSpace (s.toList.dropWhile isSpace)).get ⟨0, hl⟩ := by
      simp only [get_eq_getElem]
      exact (( rdropWhile_prefix isSpace _).getElem hl).symm
    rw [hget] at hfirst
    simpa using hfirst
  rw [hhead]
  exact rdropWhile_idempotent isSpace _

variable {isSpace : Char → Bool}

theorem trimWith_eq_self {s : String} (h : ∀ c ∈ s.toList, isSpace c = false) :
    trimWith isSpace s = s := by
  have hdrop : ∀ cs : List Char, (∀ c ∈ cs, isSpace c = false) → cs.dropWhile isSpace = cs := by
    intro cs hcs
    cases cs with
    | nil => rfl
    | cons c cs => exact dropWhile_cons_of_neg (by simp [hcs c (by simp)])
  unfold trimWith
  rw [hdrop _ h, hdrop _ (fun c hc => h c (mem_reverse.1 hc)), reverse_reverse,
    String.ofList_toList]

theorem trimWith_spaces {front cs back : List Char} (hfront : ∀ c ∈ front, isSpace c = true)
    (hback : ∀ c ∈ back, isSpace c = true) :
    trimWith isSpace (ofList (front ++ cs ++ back)) = trimWith isSpace (ofList cs) := by
  unfold trimWith
  rw [toList_ofList, toList_ofList, append_assoc, dropWhile_append_of_pos hfront, dropWhile_append]
  split
  · -- nothing but spaces
    rename_i hnil
    rw [isEmpty_iff.1 hnil, dropWhile_eq_nil_iff.2 hback]
  · have hall : ∀ c ∈ back.reverse, isSpace c = true := fun c hc => hback c (mem_reverse.1 hc)
    rw [reverse_append, dropWhile_append_of_pos hall]

theorem trimWith_split (isSpace : Char → Bool) (s : String) :
    ∃ front back : List Char, s.toList = front ++ (trimWith isSpace s).toList ++ back ∧
      (∀ c ∈ front, isSpace c = true) ∧ ∀ c ∈ back, isSpace c = true := by
  refine ⟨s.toList.takeWhile isSpace, (s.toList.dropWhile isSpace).rtakeWhile isSpace, ?_, ?_, ?_⟩
  · have hrest : (trimWith isSpace s).toList = (s.toList.dropWhile isSpace).rdropWhile isSpace := by
      rw [trimWith, toList_ofList]
      rfl
    rw [hrest, append_assoc, rdropWhile_append_rtakeWhile, takeWhile_append_dropWhile]
  · exact fun c hc => mem_takeWhile_imp hc
  · exact fun c hc => mem_rtakeWhile_imp hc

variable {Identity Json : Type}

/-! ## Android -/

namespace Android

/-- `String.trim` of Kotlin. -/
def trim : String → String :=
  trimWith fun c => (0x09 ≤ c.val && c.val ≤ 0x0D) || (0x1C ≤ c.val && c.val ≤ 0x1F) || isSeparator c

def normalizeIdentityId (identityId : String) : String := removeDidPrefix (trim identityId)

/-- The cache, the encrypted preferences (`identity_<id>-identity_json` and
    `current_identity_id`), and the DID that was activated last. -/
structure State (Identity Json : Type) where
  cachedIdentities : LinkedMap Did Identity
  identityJson : String → Option Json
  currentIdentityId : Option String
  active : Option Did

variable (C : LibClient Identity Json)

def State.loadIdentity (s : State Identity Json) (identityId : String) : Option Identity :=
  (s.identityJson identityId).bind C.deserialize

def State.cache (s : State Identity Json) (identity : Identity) : State Identity Json :=
  { s with cachedIdentities := s.cachedIdentities.put (C.did identity) identity }

/-- `generateLocalIdentity`, `provisionIdentity` and `restoreIdentityFromPhrase` after lib-client
    has answered. -/
def State.cacheNew (s : State Identity Json) : Option Identity → State Identity Json
  | none => s
  | some identity => s.cache C identity

def State.storeProvisionedIdentity (s : State Identity Json) (identityId : String) (did : Did) :
    State Identity Json :=
  match s.cachedIdentities.get did with
  | none => s
  | some identity =>
    match C.serialize identity with
    | none => s
    | some json =>
      { s with
        identityJson := Function.update s.identityJson identityId (some json)
        currentIdentityId := some identityId
        active := some did }

def State.restoreIdentityToHandleStore (s : State Identity Json) (identityId : String) :
    State Identity Json :=
  match s.loadIdentity C identityId with
  | none => s
  | some identity =>
    { s.cache C identity with
      currentIdentityId := some identityId
      active := some (C.did identity) }

def State.getLatestIdentity (s : State Identity Json) : Option Identity × State Identity Json :=
  match s.cachedIdentities.lastOrNull with
  | some identity => (some identity, s)
  | none =>
    match s.currentIdentityId.bind (s.loadIdentity C) with
    | none => (none, s)
    | some identity => (some identity, s.cache C identity)

/-- The metadata of a stored identity is read through a temporary handle. -/
def State.getLocalIdentity (s : State Identity Json) (identityIdOrDid : String) :
    Option Identity :=
  let normalized := normalizeIdentityId identityIdOrDid
  if normalized = "" then none else s.loadIdentity C normalized

def State.exportKeystoreBase64 (s : State Identity Json) (did : String) :
    Option Identity × State Identity Json :=
  let trimmed := trim did
  if trimmed = "" then (none, s)
  else
    let normalized := normalizeIdentityId trimmed
    let found := s.cachedIdentities.get trimmed
      <|> s.cachedIdentities.get (prefixedDid trimmed)
      <|> s.cachedIdentities.get normalized
    let (identity, s') := match found with
      | some identity => (some identity, s)
      | none => s.getLatestIdentity C
    (identity.filter fun i => C.did i = trimmed || C.did i = prefixedDid trimmed ||
      endsWith (C.did i) normalized, s')

def State.cleanKeystoreDirectory (_ : State Identity Json) : State Identity Json where
  cachedIdentities := .empty
  identityJson _ := none
  currentIdentityId := none
  active := none

def State.cleanKeystoreDirectoryForId (s : State Identity Json) (identityId : String) :
    State Identity Json :=
  { s with identityJson := Function.update s.identityJson identityId none }

def State.step (s : State Identity Json) : Call Identity → State Identity Json
  | .generateLocalIdentity generated => s.cacheNew C generated
  | .provisionIdentity generated => s.cacheNew C generated
  | .storeProvisionedIdentity identityId did _ => s.storeProvisionedIdentity C identityId did
  | .restoreIdentityToHandleStore identityId => s.restoreIdentityToHandleStore C identityId
  | .restoreIdentityFromPhrase restored => s.cacheNew C restored
  | .getLocalIdentity _ => s
  | .exportKeystoreBase64 did => (s.exportKeystoreBase64 C did).2
  | .cleanKeystoreDirectory _ => s.cleanKeystoreDirectory
  | .cleanKeystoreDirectoryForId identityId => s.cleanKeystoreDirectoryForId identityId
  | .getLatestIdentity => (s.getLatestIdentity C).2

/-- A process that has just started: nothing is cached, and what the last process activated is the
    identity that the preferences name. -/
structure State.Launched (s : State Identity Json) : Prop where
  cache : s.cachedIdentities = .empty
  active : s.active = (s.currentIdentityId.bind (s.loadIdentity C)).map C.did

/-- The signer would be the identity that was activated last. -/
def State.SignsAsActive (s : State Identity Json) : Prop :=
  (s.getLatestIdentity C).1.map C.did = s.active

/-- An identity enters the cache, without being activated, only if it is there already or is the
    active one; the identity that is activated is the last one cached, or (for a restore) not
    cached at all; and the material of the active identity is not deleted while only the
    preferences hold it. -/
def State.Allows (s : State Identity Json) : Call Identity → Prop
  | .generateLocalIdentity (some i) | .provisionIdentity (some i)
  | .restoreIdentityFromPhrase (some i) =>
    C.did i ∈ s.cachedIdentities.keys ∨ s.active = some (C.did i)
  | .storeProvisionedIdentity _ did _ =>
    ((s.cachedIdentities.get did).bind C.serialize).isSome → s.cachedIdentities.lastKey = some did
  | .restoreIdentityToHandleStore identityId => ∀ i, s.loadIdentity C identityId = some i →
      C.did i ∉ s.cachedIdentities.keys ∨ s.cachedIdentities.lastKey = some (C.did i)
  | .cleanKeystoreDirectoryForId identityId => s.cachedIdentities.lastKey = none →
      s.currentIdentityId = some identityId → s.loadIdentity C identityId = none
  | _ => True

/-! ### What each call does to the signer -/

/-- Every cached identity stands under its own DID. -/
def State.Keyed (s : State Identity Json) : Prop :=
  ∀ e ∈ s.cachedIdentities.entries, e.1 = C.did e.2

/-- The DID of the identity that `getLatestIdentity` returns, read off the keys of the cache. -/
def State.signer (s : State Identity Json) : Option Did :=
  s.cachedIdentities.lastKey <|> (s.currentIdentityId.bind (s.loadIdentity C)).map C.did

variable {C} {s : State Identity Json}

theorem lastOrNull_map_did (h : s.Keyed C) :
    s.cachedIdentities.lastOrNull.map C.did = s.cachedIdentities.lastKey := by
  unfold LinkedMap.lastOrNull LinkedMap.lastKey LinkedMap.keys
  rw [getLast?_map]
  cases hl : s.cachedIdentities.entries.getLast? with
  | none => rfl
  | some e => simp [h e (mem_of_getLast? hl)]

theorem signsAsActive_iff (h : s.Keyed C) : s.SignsAsActive C ↔ s.signer C = s.active := by
  have hlast := lastOrNull_map_did h
  unfold State.SignsAsActive State.getLatestIdentity State.signer
  rw [← hlast]
  cases s.cachedIdentities.lastOrNull with
  | some i => simp
  | none =>
    cases s.currentIdentityId.bind (s.loadIdentity C) with
    | none | some => simp

theorem Keyed.cache (h : s.Keyed C) (i : Identity) : (s.cache C i).Keyed C := by
  intro e he
  rcases LinkedMap.mem_putEntry he with rfl | he
  · rfl
  · exact h e he

theorem Keyed.getLatestIdentity (h : s.Keyed C) : (s.getLatestIdentity C).2.Keyed C := by
  unfold State.getLatestIdentity
  split
  · exact h
  split
  · exact h
  · exact Keyed.cache h _

/-- `exportKeystoreBase64` reads the cache, and falls back to `getLatestIdentity`. -/
theorem exportKeystoreBase64_state (s : State Identity Json) (did : String) :
    (s.exportKeystoreBase64 C did).2 = s ∨
      (s.exportKeystoreBase64 C did).2 = (s.getLatestIdentity C).2 := by
  unfold State.exportKeystoreBase64
  dsimp only
  split
  · exact .inl rfl
  split
  · exact .inl rfl
  · exact .inr rfl

theorem signer_cache (s : State Identity Json) (i : Identity) : (s.cache C i).signer C =
      if C.did i ∈ s.cachedIdentities.keys then s.cachedIdentities.lastKey else some (C.did i) := by
  unfold State.signer State.cache
  rw [LinkedMap.lastKey_put]
  split
  · rename_i hmem
    obtain ⟨d, hd⟩ := LinkedMap.exists_lastKey hmem
    simp [hd]
  · rfl

/-- Restoring the current identity on a cache miss does not change who signs. -/
theorem signer_getLatestIdentity (s : State Identity Json) :
    (s.getLatestIdentity C).2.signer C = s.signer C ∧
      (s.getLatestIdentity C).2.active = s.active := by
  unfold State.getLatestIdentity
  split
  · exact ⟨rfl, rfl⟩
  rename_i hlast
  have hkey : s.cachedIdentities.lastKey = none := (LinkedMap.lastKey_eq_none_iff _).2 hlast
  split
  · exact ⟨rfl, rfl⟩
  rename_i i hi
  refine ⟨?_, rfl⟩
  rw [signer_cache, if_neg (by rw [getLast?_eq_none_iff.1 hkey]; simp)]
  simp [State.signer, hkey, hi]

theorem Keyed.cacheNew (h : s.Keyed C) (o : Option Identity) : (s.cacheNew C o).Keyed C := by
  cases o with
  | none => exact h
  | some i => exact Keyed.cache h i

theorem Keyed.step (c : Call Identity) (h : s.Keyed C) : (s.step C c).Keyed C := by
  cases c with
  | generateLocalIdentity o | provisionIdentity o | restoreIdentityFromPhrase o =>
    exact Keyed.cacheNew h o
  | storeProvisionedIdentity identityId did _ =>
    simp only [State.step, State.storeProvisionedIdentity]
    split
    · exact h
    · split <;> exact h
  | restoreIdentityToHandleStore identityId =>
    simp only [State.step, State.restoreIdentityToHandleStore]
    split
    · exact h
    · exact Keyed.cache h _
  | getLocalIdentity _ => exact h
  | exportKeystoreBase64 did =>
    simp only [State.step]
    rcases exportKeystoreBase64_state s did with he | he <;> rw [he]
    · exact h
    · exact Keyed.getLatestIdentity h
  | cleanKeystoreDirectory _ =>
    intro e he
    simp [State.step, State.cleanKeystoreDirectory, LinkedMap.empty] at he
  | cleanKeystoreDirectoryForId _ => exact h
  | getLatestIdentity => exact Keyed.getLatestIdentity h

theorem signer_of_lastKey {d : Did} (h : s.cachedIdentities.lastKey = some d) :
    s.signer C = some d := by
  simp [State.signer, h]

theorem cacheNew_iff (h : s.signer C = s.active) (i : Identity) :
    (s.cacheNew C (some i)).signer C = s.active ↔
      C.did i ∈ s.cachedIdentities.keys ∨ s.active = some (C.did i) := by
  simp only [State.cacheNew, signer_cache]
  split
  · rename_i hmem
    obtain ⟨d, hd⟩ := LinkedMap.exists_lastKey hmem
    simp [hmem, hd, ← h, signer_of_lastKey hd]
  · rename_i hmem
    simp [hmem, eq_comm]

theorem storeProvisionedIdentity_iff (h : s.signer C = s.active) (identityId : String) (did : Did) :
    (s.storeProvisionedIdentity C identityId did).signer C =
        (s.storeProvisionedIdentity C identityId did).active ↔
      (((s.cachedIdentities.get did).bind C.serialize).isSome →
        s.cachedIdentities.lastKey = some did) := by
  unfold State.storeProvisionedIdentity
  split
  · rename_i hget
    simp [hget, h]
  rename_i i hget
  split
  · rename_i hser
    simp [hget, hser, h]
  rename_i json hser
  simp only [hget, bind_some, hser, isSome_some]
  have hmem : did ∈ s.cachedIdentities.keys :=
    mem_map.2 ⟨(did, i), LinkedMap.mem_entries_of_get hget, rfl⟩
  -- the cache is not empty, so the preferences are not consulted
  obtain ⟨d, hd⟩ := LinkedMap.exists_lastKey hmem
  simp [State.signer, hd]

theorem restoreIdentityToHandleStore_iff (h : s.signer C = s.active) (identityId : String) :
    (s.restoreIdentityToHandleStore C identityId).signer C =
        (s.restoreIdentityToHandleStore C identityId).active ↔
      ∀ i, s.loadIdentity C identityId = some i →
        C.did i ∉ s.cachedIdentities.keys ∨ s.cachedIdentities.lastKey = some (C.did i) := by
  unfold State.restoreIdentityToHandleStore
  split
  · rename_i hload
    simp [hload, h]
  rename_i i hload
  simp only [hload, some.injEq]
  unfold State.signer State.cache
  rw [LinkedMap.lastKey_put]
  split
  · rename_i hmem
    obtain ⟨d, hd⟩ := LinkedMap.exists_lastKey hmem
    simp [hmem, hd]
  · rename_i hmem
    simp [hmem]

theorem loadIdentity_cleanKeystoreDirectoryForId (s : State Identity Json) (id identityId : String) :
    (s.cleanKeystoreDirectoryForId identityId).loadIdentity C id =
      if id = identityId then none else s.loadIdentity C id := by
  simp only [State.loadIdentity, State.cleanKeystoreDirectoryForId, Function.update_apply]
  split <;> rfl

theorem cleanKeystoreDirectoryForId_iff (h : s.signer C = s.active) (identityId : String) :
    (s.cleanKeystoreDirectoryForId identityId).signer C = s.active ↔
      (s.cachedIdentities.lastKey = none → s.currentIdentityId = some identityId →
        s.loadIdentity C identityId = none) := by
  rw [← h]
  unfold State.signer
  cases hl : s.cachedIdentities.lastKey with
  | some d => simp [State.cleanKeystoreDirectoryForId, hl]
  | none =>
    cases hid : s.currentIdentityId with
    | none => simp [State.cleanKeystoreDirectoryForId, hl, hid]
    | some id =>
      have hcurrent : (s.cleanKeystoreDirectoryForId identityId).currentIdentityId = some id := hid
      have hlast : (s.cleanKeystoreDirectoryForId identityId).cachedIdentities.lastKey = none := hl
      rw [hcurrent, hlast, bind_some, loadIdentity_cleanKeystoreDirectoryForId]
      split
      · rename_i heq
        subst heq
        cases hload : s.loadIdentity C id <;> simp [hload]
      · rename_i hne
        simp [hne]

/-- A call keeps the signer right exactly when it is allowed. -/
theorem step_iff (c : Call Identity) (hk : s.Keyed C) (hp : s.SignsAsActive C) :
    (s.step C c).SignsAsActive C ↔ s.Allows C c := by
  have h := (signsAsActive_iff hk).1 hp
  rw [signsAsActive_iff (Keyed.step c hk)]
  have hnew : ∀ o : Option Identity, (s.cacheNew C o).active = s.active := by
    intro o
    cases o <;> rfl
  cases c with
  | generateLocalIdentity o | provisionIdentity o | restoreIdentityFromPhrase o =>
    cases o with
    | none => simpa [State.step, State.cacheNew, State.Allows] using h
    | some i => exact cacheNew_iff h i
  | storeProvisionedIdentity identityId did _ => exact storeProvisionedIdentity_iff h identityId did
  | restoreIdentityToHandleStore identityId => exact restoreIdentityToHandleStore_iff h identityId
  | getLocalIdentity _ => simpa [State.step, State.Allows] using h
  | exportKeystoreBase64 did =>
    simp only [State.step, State.Allows, iff_true]
    rcases exportKeystoreBase64_state s did with he | he <;> rw [he]
    · exact h
    · rw [(signer_getLatestIdentity s).1, (signer_getLatestIdentity s).2, h]
  | cleanKeystoreDirectory _ =>
    simp [State.step, State.Allows, State.cleanKeystoreDirectory, State.signer]
  | cleanKeystoreDirectoryForId identityId => exact cleanKeystoreDirectoryForId_iff h identityId
  | getLatestIdentity =>
    simp only [State.step, State.Allows, iff_true]
    rw [(signer_getLatestIdentity s).1, (signer_getLatestIdentity s).2, h]

theorem Launched.keyed (h : s.Launched C) : s.Keyed C := by
  intro e he
  rw [h.cache] at he
  simp [LinkedMap.empty] at he

theorem Launched.signsAsActive (h : s.Launched C) : s.SignsAsActive C := by
  rw [signsAsActive_iff (Launched.keyed h), h.active]
  simp [State.signer, h.cache]

end Android

/-! ## iOS -/

namespace Ios

/-- `trimmingCharacters(in: .whitespacesAndNewlines)` -/
def trim : String → String :=
  trimWith fun c => (0x09 ≤ c.val && c.val ≤ 0x0D) || c.val = 0x85 || isSeparator c

/-- `IdentityHandleStore.shared` with its persisted `current_identity_id`, the Keychain items
    `identity_serialized_<id>`, the identities that await their registration, and the DID that was
    activated last. -/
structure State (Identity Json : Type) where
  identities : String → Option Identity
  latestIdentity : Option Identity
  currentIdentityId : Option String
  keychain : String → Option Json
  cachedIdentities : Did → Option Identity
  active : Option Did

variable (C : LibClient Identity Json)

/-- The identity that the Keychain holds for an id. -/
def State.restore (s : State Identity Json) (identityId : String) : Option Identity :=
  (s.keychain identityId).bind C.deserialize

/-- `IdentityHandleStore.store`: whoever is stored becomes the latest identity. -/
def State.store (s : State Identity Json) (identity : Identity) :
    Option String → State Identity Json
  | none =>
    { s with
      identities := Function.update s.identities (C.did identity) (some identity)
      latestIdentity := some identity }
  | some idHash =>
    { s with
      identities := Function.update (Function.update s.identities (C.did identity) (some identity))
        idHash (some identity)
      latestIdentity := some identity
      currentIdentityId := some idHash }

def State.getLatestIdentity (s : State Identity Json) : Option Identity × State Identity Json :=
  match s.latestIdentity with
  | some identity => (some identity, s)
  | none =>
    match s.currentIdentityId with
    | none => (none, s)
    | some identityId =>
      match s.restore C identityId with
      | none => (none, s)
      | some identity => (some identity, s.store C identity (some identityId))

/-- `provisionIdentity` and `restoreIdentityFromPhrase` after lib-client has answered. -/
def State.cacheNew (s : State Identity Json) : Option Identity → State Identity Json
  | none => s
  | some identity =>
    ({ s with
      cachedIdentities := Function.update s.cachedIdentities (C.did identity) (some identity) }
      ).store C identity none

/-- The handle store comes first, the Keychain (an old item is deleted before the new one is
    added) after it; only a call that gets to its end activates the identity. -/
def State.storeProvisionedIdentity (s : State Identity Json) (identityId : String) (did : Did)
    (keychainAdds : Bool) : State Identity Json :=
  match s.cachedIdentities did with
  | none => s
  | some identity =>
    let s := s.store C identity (some identityId)
    match C.serialize identity with
    | none => s
    | some json =>
      let s := { s with keychain := Function.update s.keychain identityId none }
      if keychainAdds then
        { s with
          keychain := Function.update s.keychain identityId (some json)
          active := some (C.did identity) }
      else s

def State.restoreIdentityToHandleStore (s : State Identity Json) (identityId : String) :
    State Identity Json :=
  match s.restore C identityId with
  | none => s
  | some identity =>
    { s.store C identity (some identityId) with active := some (C.did identity) }

/-- The end of both lookups: the latest identity if it is the one asked for, else the Keychain,
    whose identity is stored. -/
def State.latestOrKeychain (s : State Identity Json) (isMatch : Identity → Bool)
    (identityId : String) : Option Identity × State Identity Json :=
  let (latest, s) := s.getLatestIdentity C
  match latest.filter isMatch with
  | some identity => (some identity, s)
  | none =>
    match s.restore C identityId with
    | some identity => (some identity, s.store C identity (some identityId))
    | none => (none, s)

def State.getLocalIdentity (s : State Identity Json) (identityIdOrDid : String) :
    Option Identity × State Identity Json :=
  let trimmed := trim identityIdOrDid
  if trimmed = "" then (none, s)
  else
    let identityId := removeDidPrefix trimmed
    match s.identities trimmed with
    | some identity => (some identity, s)
    | none =>
      match if trimmed = identityId then none else s.identities identityId with
      | some identity => (some identity, s)
      | none =>
        s.latestOrKeychain C
          (fun i => C.did i = trimmed || endsWith (C.did i) identityId) identityId

def State.resolveIdentity (s : State Identity Json) (identityIdOrDid : String) :
    Option Identity × State Identity Json :=
  let trimmed := trim identityIdOrDid
  if trimmed = "" then (none, s)
  else
    let identityId := removeDidPrefix trimmed
    match s.cachedIdentities trimmed <|> s.cachedIdentities (prefixedDid trimmed)
        <|> s.cachedIdentities identityId <|> s.identities trimmed <|> s.identities identityId with
    | some identity => (some identity, s)
    | none =>
      s.latestOrKeychain C
        (fun i => C.did i = trimmed || C.did i = prefixedDid trimmed ||
          endsWith (C.did i) identityId) identityId

def State.exportKeystoreBase64 (s : State Identity Json) (identityIdOrDid : String) :
    Option Identity × State Identity Json :=
  let trimmed := trim identityIdOrDid
  if trimmed = "" then (none, s) else s.resolveIdentity C trimmed

def State.cleanKeystoreDirectory (s : State Identity Json) (keychainDeletes : Bool) :
    State Identity Json where
  identities _ := none
  latestIdentity := none
  currentIdentityId := none
  keychain := if keychainDeletes then fun _ => none else s.keychain
  cachedIdentities _ := none
  active := none

/-- `generateLocalIdentity` keeps nothing of what it generates, and the bridge has no
    `cleanKeystoreDirectoryForId` on iOS. -/
def State.step (s : State Identity Json) : Call Identity → State Identity Json
  | .generateLocalIdentity _ => s
  | .provisionIdentity generated => s.cacheNew C generated
  | .storeProvisionedIdentity identityId did keychainAdds =>
    s.storeProvisionedIdentity C identityId did keychainAdds
  | .restoreIdentityToHandleStore identityId => s.restoreIdentityToHandleStore C identityId
  | .restoreIdentityFromPhrase restored => s.cacheNew C restored
  | .getLocalIdentity identityIdOrDid => (s.getLocalIdentity C identityIdOrDid).2
  | .exportKeystoreBase64 identityIdOrDid => (s.exportKeystoreBase64 C identityIdOrDid).2
  | .cleanKeystoreDirectory keychainDeletes => s.cleanKeystoreDirectory keychainDeletes
  | .cleanKeystoreDirectoryForId _ => s
  | .getLatestIdentity => (s.getLatestIdentity C).2

structure State.Launched (s : State Identity Json) : Prop where
  identities : ∀ k, s.identities k = none
  latest : s.latestIdentity = none
  cached : ∀ d, s.cachedIdentities d = none
  active : s.active = (s.currentIdentityId.bind (s.restore C)).map C.did

def State.SignsAsActive (s : State Identity Json) : Prop :=
  (s.getLatestIdentity C).1.map C.did = s.active

/-- A lookup that found nothing in memory: the latest identity is not the one asked for, and the
    Keychain has none for the id or that of the active identity. -/
def State.KeychainHoldsActive (s : State Identity Json) (isMatch : Identity → Bool)
    (identityId : String) : Prop :=
  (s.latestIdentity <|> s.currentIdentityId.bind (s.restore C)).filter isMatch = none →
    ∀ i, s.restore C identityId = some i → s.active = some (C.did i)

/-- Only the active identity is generated, recovered or registered without success, and no lookup
    goes to the Keychain for another one. -/
def State.Allows (s : State Identity Json) : Call Identity → Prop
  | .provisionIdentity (some i) | .restoreIdentityFromPhrase (some i) => s.active = some (C.did i)
  | .storeProvisionedIdentity _ did keychainAdds => ∀ i, s.cachedIdentities did = some i →
      (keychainAdds && (C.serialize i).isSome) = false → s.active = some (C.did i)
  | .getLocalIdentity x => trim x ≠ "" → s.identities (trim x) = none →
      s.identities (removeDidPrefix (trim x)) = none → s.KeychainHoldsActive C
        (fun i => C.did i = trim x || endsWith (C.did i) (removeDidPrefix (trim x)))
        (removeDidPrefix (trim x))
  | .exportKeystoreBase64 x => trim x ≠ "" →
      (s.cachedIdentities (trim x) <|> s.cachedIdentities (prefixedDid (trim x)) <|>
        s.cachedIdentities (removeDidPrefix (trim x)) <|> s.identities (trim x) <|>
        s.identities (removeDidPrefix (trim x))) = none → s.KeychainHoldsActive C
          (fun i => C.did i = trim x || C.did i = prefixedDid (trim x) ||
            endsWith (C.did i) (removeDidPrefix (trim x)))
          (removeDidPrefix (trim x))
  | _ => True

/-! ### What each call does to the signer -/

/-- The DID of the identity that `getLatestIdentity` returns. -/
def State.signer (s : State Identity Json) : Option Did :=
  (s.latestIdentity <|> s.currentIdentityId.bind (s.restore C)).map C.did

variable {C} {s : State Identity Json}

@[simp] theorem signer_store (s : State Identity Json) (i : Identity) (id : Option String) :
    (s.store C i id).signer C = some (C.did i) := by
  cases id <;> rfl

@[simp] theorem active_store (s : State Identity Json) (i : Identity) (id : Option String) :
    (s.store C i id).active = s.active := by
  cases id <;> rfl

@[simp] theorem restore_store (s : State Identity Json) (i : Identity) (id : Option String) :
    (s.store C i id).restore C = s.restore C := by
  cases id <;> rfl

theorem getLatestIdentity_fst (s : State Identity Json) :
    (s.getLatestIdentity C).1 = (s.latestIdentity <|> s.currentIdentityId.bind (s.restore C)) := by
  unfold State.getLatestIdentity
  cases s.latestIdentity with
  | some i => rfl
  | none =>
    cases s.currentIdentityId with
    | none => rfl
    | some id => cases hr : s.restore C id <;> simp [hr]

theorem signsAsActive_iff : s.SignsAsActive C ↔ s.signer C = s.active := by
  unfold State.SignsAsActive State.signer
  rw [getLatestIdentity_fst]

/-- Restoring the current identity on a cache miss changes neither the signer nor the Keychain. -/
theorem getLatestIdentity_snd (s : State Identity Json) :
    (s.getLatestIdentity C).2.signer C = s.signer C ∧ (s.getLatestIdentity C).2.active = s.active ∧
      (s.getLatestIdentity C).2.restore C = s.restore C := by
  unfold State.getLatestIdentity
  cases hl : s.latestIdentity with
  | some i => simp
  | none =>
    cases hid : s.currentIdentityId with
    | none => simp
    | some id =>
      cases hr : s.restore C id with
      | none => simp [hr]
      | some i =>
        have hsigner : s.signer C = some (C.did i) := by simp [State.signer, hl, hid, hr]
        simp [hr, hsigner]

/-- The end of a lookup keeps the signer right exactly if the Keychain is not asked for another
    identity than the active one. -/
theorem latestOrKeychain_iff (h : s.signer C = s.active) (isMatch : Identity → Bool)
    (identityId : String) :
    (s.latestOrKeychain C isMatch identityId).2.signer C =
        (s.latestOrKeychain C isMatch identityId).2.active ↔
      s.KeychainHoldsActive C isMatch identityId := by
  obtain ⟨hsigner, hactive, hrestore⟩ := getLatestIdentity_snd s
  unfold State.latestOrKeychain State.KeychainHoldsActive
  dsimp only
  rw [getLatestIdentity_fst, hrestore]
  cases (s.latestIdentity <|> s.currentIdentityId.bind (s.restore C)).filter isMatch with
  | some i => simp [hsigner, hactive, h]
  | none =>
    cases s.restore C identityId with
    | some i => simp [hactive, eq_comm]
    | none => simp [hsigner, hactive, h]

theorem getLocalIdentity_iff (h : s.signer C = s.active) (x : String) :
    (s.getLocalIdentity C x).2.signer C = (s.getLocalIdentity C x).2.active ↔
      s.Allows C (.getLocalIdentity x) := by
  unfold State.getLocalIdentity State.Allows
  dsimp only
  split
  · rename_i hempty
    simp [hempty, h]
  rename_i hempty
  split
  · rename_i i hi
    simp [hi, h]
  rename_i hdid
  split
  · rename_i i hi
    split at hi
    · simp at hi
    · simp [hi, h]
  rename_i hid
  have hid' : s.identities (removeDidPrefix (trim x)) = none := by
    split at hid
    · rename_i heq
      rw [← heq]
      exact hdid
    · exact hid
  rw [latestOrKeychain_iff h]
  simp [hempty, hdid, hid']

theorem trim_trim (x : String) : trim (trim x) = trim x := trimWith_trimWith _ x

theorem exportKeystoreBase64_iff (h : s.signer C = s.active) (x : String) :
    (s.exportKeystoreBase64 C x).2.signer C = (s.exportKeystoreBase64 C x).2.active ↔
      s.Allows C (.exportKeystoreBase64 x) := by
  unfold State.exportKeystoreBase64 State.resolveIdentity State.Allows
  simp only [trim_trim]
  by_cases hempty : trim x = ""
  · simp [hempty, h]
  simp only [hempty, if_false, ne_eq, not_false_eq_true]
  cases s.cachedIdentities (trim x) <|> s.cachedIdentities (prefixedDid (trim x)) <|>
      s.cachedIdentities (removeDidPrefix (trim x)) <|> s.identities (trim x) <|>
      s.identities (removeDidPrefix (trim x)) with
  | some i => simp [h]
  | none =>
    dsimp only
    rw [latestOrKeychain_iff h]
    simp

theorem storeProvisionedIdentity_iff (h : s.signer C = s.active) (identityId : String) (did : Did)
    (keychainAdds : Bool) :
    (s.storeProvisionedIdentity C identityId did keychainAdds).signer C =
        (s.storeProvisionedIdentity C identityId did keychainAdds).active ↔
      s.Allows C (.storeProvisionedIdentity identityId did keychainAdds) := by
  unfold State.storeProvisionedIdentity State.Allows
  split
  · rename_i hnone
    simp [hnone, h]
  rename_i i hi
  dsimp only
  split
  · rename_i hser
    rw [eq_comm]
    simp [hi, hser]
  rename_i json hser
  split
  · rename_i hadds
    simp [hi, hser, hadds, State.signer, State.store]
  · rename_i hadds
    have hadds' : keychainAdds = false := by simpa using hadds
    simp [hi, hadds', State.signer, State.store, eq_comm]

theorem cacheNew_iff (i : Identity) :
    (s.cacheNew C (some i)).signer C = (s.cacheNew C (some i)).active ↔
      s.active = some (C.did i) := by
  simp [State.cacheNew, eq_comm]

/-- A call keeps the signer right exactly when it is allowed. -/
theorem step_iff (c : Call Identity) (hp : s.SignsAsActive C) :
    (s.step C c).SignsAsActive C ↔ s.Allows C c := by
  have h := signsAsActive_iff.1 hp
  rw [signsAsActive_iff]
  cases c with
  | generateLocalIdentity _
  | cleanKeystoreDirectoryForId _ => simpa [State.step, State.Allows] using h
  | provisionIdentity o | restoreIdentityFromPhrase o =>
    cases o with
    | none => simpa [State.step, State.cacheNew, State.Allows] using h
    | some i => exact cacheNew_iff i
  | storeProvisionedIdentity identityId did keychainAdds =>
    exact storeProvisionedIdentity_iff h identityId did keychainAdds
  | restoreIdentityToHandleStore identityId =>
    simp only [State.step, State.restoreIdentityToHandleStore, State.Allows, iff_true]
    split
    · exact h
    · rfl
  | getLocalIdentity x =>
    rw [State.step]
    exact getLocalIdentity_iff h x
  | exportKeystoreBase64 x =>
    rw [State.step]
    exact exportKeystoreBase64_iff h x
  | cleanKeystoreDirectory _ =>
    simp [State.step, State.Allows, State.cleanKeystoreDirectory, State.signer]
  | getLatestIdentity =>
    obtain ⟨hsigner, hactive, _⟩ := getLatestIdentity_snd (C := C) s
    simp [State.step, State.Allows, hsigner, hactive, h]

theorem Launched.signsAsActive (h : s.Launched C) : s.SignsAsActive C := by
  rw [signsAsActive_iff, h.active]
  simp [State.signer, h.latest]

end Ios

/-! ## Whole runs -/

/-- On both platforms, the identity that signs is the one activated last throughout a run exactly
    if every call of the run is allowed in the state in which it is made. -/
theorem signsAsActive_throughout_iff (C : LibClient Identity Json) (cs : List (Call Identity)) :
    (∀ s : Android.State Identity Json, s.Launched C →
      (EventLoop.HoldsThroughout (Android.State.step C) (Android.State.SignsAsActive C) s cs ↔
        EventLoop.StepsMeet (Android.State.step C) (Android.State.Allows C) s cs)) ∧
    (∀ s : Ios.State Identity Json, s.Launched C →
      (EventLoop.HoldsThroughout (Ios.State.step C) (Ios.State.SignsAsActive C) s cs ↔
        EventLoop.StepsMeet (Ios.State.step C) (Ios.State.Allows C) s cs)) := by
  constructor
  · intro s h
    exact EventLoop.holdsThroughout_iff
      (fun _ c hk => Android.Keyed.step c hk) (fun _ c hk hp => Android.step_iff c hk hp) cs s
      (Android.Launched.keyed h) (Android.Launched.signsAsActive h)
  · intro s h
    exact EventLoop.holdsThroughout_iff (I := fun _ => True)
      (fun _ _ _ => trivial) (fun _ c _ hp => Ios.step_iff c hp) cs s
      trivial (Ios.Launched.signsAsActive h)

/-- Identities that are their DIDs and are stored as they are. -/
def plainClient : LibClient String String where
  did i := i
  serialize i := some i
  deserialize j := some j

/-- Two identities were registered on the device, and none is current. -/
def storedJson (identityId : String) : Option String :=
  if identityId = "a" then some "did:zhtp:a"
  else if identityId = "b" then some "did:zhtp:b"
  else none

def Android.twoStored : Android.State String String where
  cachedIdentities := .empty
  identityJson := storedJson
  currentIdentityId := none
  active := none

def Ios.twoStored : Ios.State String String where
  identities _ := none
  latestIdentity := none
  currentIdentityId := none
  keychain := storedJson
  cachedIdentities _ := none
  active := none

theorem Android.twoStored_launched : Android.twoStored.Launched plainClient := ⟨rfl, rfl⟩

theorem Ios.twoStored_launched : Ios.twoStored.Launched plainClient :=
  ⟨fun _ => rfl, rfl, fun _ => rfl, rfl⟩

theorem signsAsActive_throughout_restore :
    EventLoop.HoldsThroughout (Android.State.step plainClient)
      (Android.State.SignsAsActive plainClient) Android.twoStored
      [.restoreIdentityToHandleStore "a", .restoreIdentityToHandleStore "b"] ∧
    EventLoop.HoldsThroughout (Ios.State.step plainClient)
      (Ios.State.SignsAsActive plainClient) Ios.twoStored
      [.restoreIdentityToHandleStore "a", .restoreIdentityToHandleStore "b"] := by
  constructor
  · refine ((signsAsActive_throughout_iff plainClient _).1 _ Android.twoStored_launched).2
      ⟨?_, ?_, trivial⟩
    · intro i _
      exact .inl (by simp [Android.twoStored, LinkedMap.keys, LinkedMap.empty])
    · intro i hi
      have hb : i = "did:zhtp:b" := (some.inj hi).symm
      subst hb
      exact .inl (by decide)
  · exact ((signsAsActive_throughout_iff plainClient _).2 _ Ios.twoStored_launched).2
      ⟨trivial, trivial, trivial⟩

/-- Android: switching from `a` to `b` and back leaves `b` last in the map. iOS: looking up `b`
    while `a` is active makes `b` the latest identity. -/
theorem signer_not_activated_last :
    (Android.twoStored.Launched plainClient ∧
      ¬ EventLoop.HoldsThroughout (Android.State.step plainClient)
        (Android.State.SignsAsActive plainClient) Android.twoStored
        [.restoreIdentityToHandleStore "a", .restoreIdentityToHandleStore "b",
          .restoreIdentityToHandleStore "a"]) ∧
    (Ios.twoStored.Launched plainClient ∧
      ¬ EventLoop.HoldsThroughout (Ios.State.step plainClient)
        (Ios.State.SignsAsActive plainClient) Ios.twoStored
        [.restoreIdentityToHandleStore "a", .getLocalIdentity "b"]) := by
  refine ⟨⟨Android.twoStored_launched, fun h => ?_⟩, ⟨Ios.twoStored_launched, fun h => ?_⟩⟩
  · have hlast : some "did:zhtp:b" = some "did:zhtp:a" := h.last
    exact nomatch hlast
  · have hlast : some "did:zhtp:b" = some "did:zhtp:a" := h.last
    exact nomatch hlast

end NativeIdentityProvisioning
