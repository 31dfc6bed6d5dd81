import SovereignMobile.Identity.HandleStore

/-! # The identity of a request

`extractIdentityId` of the two `NativeQuicModule`s: the identity that signs a request is named in a
header, in the body or in the path. Both platforms look in this order, but not for the same things. -/

namespace RoutedIdentity

open List Option
open NativeIdentityProvisioning (didPrefix startsWithDid removeDidPrefix)
open String (ofList toList_append)

/-! ## Requests -/

/-- A field of a JSON object. What is no string goes by the text that `String.valueOf` makes of it
    (`null`, `true`, `7`). -/
inductive Field where
  | string (s : String)
  | other (text : String) (ne : text ≠ "")

/-- The fields of the body, if it is a JSON object. -/
structure Request where
  path : String
  headers : String → Option String
  body : Option (String → Option Field)

def Request.field (r : Request) (name : String) : Option Field := r.body.bind fun json => json name

/-- What stands behind `/api/v1/wallet/list`, or behind `/api/v1/wallet/balance` and one more
    component. -/
def pathIdentity : List String → Option String
  | "api" :: "v1" :: "wallet" :: "list" :: id :: _ => some id
  | "api" :: "v1" :: "wallet" :: "balance" :: _ :: id :: _ => some id
  | _ => none

/-! ## iOS -/

/-- The characters of a Swift `String` are the grapheme clusters of the text. -/
structure Graphemes where
  characters : List Char → List (List Char)
  flatten : ∀ s, (characters s).flatten = s

namespace Ios

open NativeIdentityProvisioning.Ios (trim)

variable (g : Graphemes)

/-- `trimmed.hasPrefix("did:zhtp:")` -/
def hasDidPrefix (trimmed : String) : Bool :=
  (didPrefix.toList.map fun c => [c]).isPrefixOf (g.characters trimmed.toList)

def normalizeIdentityId (identityId : String) : String :=
  let trimmed := trim identityId
  if hasDidPrefix g trimmed then String.ofList ((g.characters trimmed.toList).drop 9).flatten
  else trimmed

/-- `path.split(separator: "/")` -/
def components (path : String) : List String :=
  (((g.characters path.toList).splitOn ['/']).filter (· ≠ [])).map fun cs => String.ofList cs.flatten

/-- `value as? String` -/
def asString : Option Field → Option String
  | some (.string s) => some s
  | _ => none

def nonEmpty (id : String) : Option String := if id = "" then none else some id

def fromPath (r : Request) : Option String :=
  match pathIdentity (components g r.path) with
  | some component => nonEmpty (normalizeIdentityId g component)
  | none => none

/-- The `did` counts in a registration only, and is returned as it is. -/
def fromBody (r : Request) : Option String :=
  match asString (r.field "identity_id") with
  | some identityId => nonEmpty (normalizeIdentityId g identityId)
  | none =>
    match if r.path = "/api/v1/identity/register" then asString (r.field "did") else none with
    | some did => nonEmpty did
    | none => fromPath g r

def extractIdentityId (r : Request) : Option String :=
  match r.headers "X-Zhtp-Identity" <|> r.headers "x-zhtp-identity" with
  | some headerValue => nonEmpty (normalizeIdentityId g headerValue)
  | none => fromBody g r

end Ios

/-! ## Android -/

namespace Android

open NativeIdentityProvisioning.Android (normalizeIdentityId)

/-- `path.split("/").filter { it.isNotEmpty() }` -/
def components (path : String) : List String :=
  ((path.toList.splitOn '/').filter (· ≠ [])).map String.ofList

/-- `json.optString(name, "")` -/
def optString : Option Field → String
  | none => ""
  | some (.string s) => s
  | some (.other text _) => text

def fromPath (r : Request) : Option String :=
  (pathIdentity (components r.path)).map normalizeIdentityId

def fromBody (r : Request) : Option String :=
  let identityId := optString (r.field "identity_id")
  if identityId ≠ "" then some (normalizeIdentityId identityId)
  else
    let did := optString (r.field "did")
    if did ≠ "" then some (normalizeIdentityId did)
    else fromPath r

def extractIdentityId (r : Request) : Option String :=
  let headerValue := (r.headers "X-Zhtp-Identity").getD ((r.headers "x-zhtp-identity").getD "")
  if headerValue ≠ "" then some (normalizeIdentityId headerValue)
  else fromBody r

end Android

/-! ## Agreement -/

open NativeIdentityProvisioning.Ios (trim)

/-- An id without the prefix, and without whitespace around it. -/
structure Clean (id : String) : Prop where
  no_did : startsWithDid id = false
  ios : trim id = id
  android : NativeIdentityProvisioning.Android.trim id = id

/-- The same id or none, and a clean one. -/
def Same (ios android : Option String) : Prop :=
  ios = android ∧ ∀ id, ios = some id ∨ android = some id → Clean id

/-- The text is the id between whitespace, with or without the prefix. -/
def Ios.Writes (g : Graphemes) (text id : String) : Prop :=
  trim text = id ∨ hasDidPrefix g (trim text) = true ∧ trim text = didPrefix ++ id

def Android.Writes (text id : String) : Prop :=
  NativeIdentityProvisioning.Android.trim text = id ∨
    NativeIdentityProvisioning.Android.trim text = didPrefix ++ id

section
variable {g : Graphemes} {text id : String}

theorem startsWithDid_append : startsWithDid (didPrefix ++ id) = true := by
  rw [startsWithDid, toList_append, isPrefixOf_iff_prefix]
  exact prefix_append _ _

theorem removeDidPrefix_append : removeDidPrefix (didPrefix ++ id) = id := by
  rw [removeDidPrefix, if_pos startsWithDid_append, toList_append]
  exact String.ofList_toList

theorem eq_append_removeDidPrefix (h : startsWithDid text = true) :
    text = didPrefix ++ removeDidPrefix text := by
  obtain ⟨rest, hrest⟩ := isPrefixOf_iff_prefix.1 h
  have happ : text = didPrefix ++ ofList rest := by
    apply String.toList_injective
    rw [toList_append, String.toList_ofList, hrest]
  conv_rhs => rw [happ, removeDidPrefix_append]
  exact happ

theorem Android.normalizeIdentityId_eq_iff (h : Clean id) :
    NativeIdentityProvisioning.Android.normalizeIdentityId text = id ↔ Android.Writes text id := by
  rw [NativeIdentityProvisioning.Android.normalizeIdentityId, Android.Writes]
  generalize NativeIdentityProvisioning.Android.trim text = trimmed
  constructor
  · intro heq
    cases hpre : startsWithDid trimmed with
    | true =>
      rw [← heq]
      exact .inr (eq_append_removeDidPrefix hpre)
    | false =>
      rw [removeDidPrefix, hpre] at heq
      exact .inl heq
  · rintro (rfl | rfl)
    · rw [removeDidPrefix, h.no_did]
      rfl
    · exact removeDidPrefix_append

/-- Characters that are the characters of the prefix are its text. -/
theorem Ios.flatten_of_prefix {cs : List (List Char)} : ∀ {l : List Char},
    (l.map fun c => [c]).isPrefixOf cs = true → cs.flatten = l ++ (cs.drop l.length).flatten := by
  intro l hpre
  obtain ⟨rest, rfl⟩ := isPrefixOf_iff_prefix.1 hpre
  have hdrop : ((l.map fun c => [c]) ++ rest).drop l.length = rest :=
    drop_left' (length_map _)
  have hsingles : (l.map fun c => [c]).flatten = l :=
    flatMap_def.symm.trans (flatMap_singleton' l)
  rw [hdrop, flatten_append, hsingles]

theorem Ios.eq_append_of_hasDidPrefix (h : Ios.hasDidPrefix g text = true) :
    text = didPrefix ++ ofList ((g.characters text.toList).drop 9).flatten := by
  apply String.toList_injective
  rw [toList_append, String.toList_ofList]
  exact (g.flatten text.toList).symm.trans (Ios.flatten_of_prefix h)

theorem Ios.normalizeIdentityId_eq_iff (h : Clean id) :
    Ios.normalizeIdentityId g text = id ↔ Ios.Writes g text id := by
  rw [Ios.normalizeIdentityId, Ios.Writes]
  generalize trim text = trimmed
  cases hpre : Ios.hasDidPrefix g trimmed with
  | true =>
    have happ := Ios.eq_append_of_hasDidPrefix hpre
    rw [if_pos rfl]
    constructor
    · intro heq
      rw [heq] at happ
      exact .inr ⟨rfl, happ⟩
    rintro (rfl | ⟨-, heq⟩)
    · rw [happ] at h
      exact absurd startsWithDid_append (by rw [h.no_did]; decide)
    · calc ofList ((g.characters trimmed.toList).drop 9).flatten = removeDidPrefix trimmed := by
            conv_rhs => rw [happ, removeDidPrefix_append]
        _ = id := by rw [heq, removeDidPrefix_append]
  | false =>
    rw [if_neg (by decide)]
    constructor
    · exact .inl
    rintro (rfl | ⟨hp, -⟩)
    · rfl
    · cases hp

end

/-! ### When they agree -/

def Request.header (r : Request) : Option String :=
  r.headers "X-Zhtp-Identity" <|> r.headers "x-zhtp-identity"

/-- The DID that a registration is for. -/
def Request.registered (r : Request) : Option String :=
  if r.path = "/api/v1/identity/register" then Ios.asString (r.field "did") else none

/-- The two texts are one clean id. -/
def Agree (g : Graphemes) (ios android : String) : Prop :=
  ∃ id, id ≠ "" ∧ Clean id ∧ Ios.Writes g ios id ∧ Android.Writes android id

/-- There is nothing behind an empty text that Android goes on to. -/
def Request.NoDid (r : Request) : Prop :=
  Android.optString (r.field "did") = "" ∧ pathIdentity (Android.components r.path) = none

/-- The path names the same id. -/
def Request.PathIs (g : Graphemes) (r : Request) (android : String) : Prop :=
  ∃ component, pathIdentity (Ios.components g r.path) = some component ∧ Agree g component android

/-- Both find the same id in the path, or Android no component and iOS no more than a blank one. -/
def Request.PathsAgree (g : Graphemes) (r : Request) : Prop :=
  match pathIdentity (Android.components r.path) with
  | some component => r.PathIs g component
  | none =>
    ∀ component, pathIdentity (Ios.components g r.path) = some component → Ios.Writes g component ""

def Request.RoutesAlike (g : Graphemes) (r : Request) : Prop :=
  match r.header with
  | some headerValue =>
    if headerValue = "" then Android.optString (r.field "identity_id") = "" ∧ r.NoDid
    else Agree g headerValue headerValue
  | none =>
    match r.field "identity_id" with
    | some (.string identityId) =>
      if identityId = "" then r.NoDid else Agree g identityId identityId
    | some (.other text _) =>
      -- only Android takes it for an id
      match r.registered with
      | some did => did ≠ "" ∧ Clean did ∧ Android.Writes text did
      | none => r.PathIs g text
    | none =>
      match r.registered with
      | some did => did = "" ∨ Clean did
      | none =>
        -- of any other path, or what is no string: only Android takes it
        if Android.optString (r.field "did") = "" then r.PathsAgree g
        else r.PathIs g (Android.optString (r.field "did"))

section
variable {g : Graphemes} {r : Request} {x y : String} {a : Option String}

theorem same_none_iff : Same none a ↔ a = none := by
  constructor
  · rintro ⟨h, -⟩
    exact h.symm
  · rintro rfl
    exact ⟨rfl, by rintro id (h | h) <;> cases h⟩

theorem same_comm {b : Option String} : Same a b ↔ Same b a := by
  constructor <;> exact fun ⟨heq, h⟩ => ⟨heq.symm, fun id hid => h id hid.symm⟩

/-- An id is none if it is empty. -/
theorem same_some_iff : Same (Ios.nonEmpty x) (some y) ↔ x ≠ "" ∧ Clean x ∧ x = y := by
  unfold Ios.nonEmpty
  by_cases hx : x = ""
  · rw [if_pos hx, same_none_iff]
    constructor
    · intro h
      cases h
    · rintro ⟨hne, -⟩
      exact absurd hx hne
  · rw [if_neg hx]
    constructor
    · rintro ⟨heq, hclean⟩
      exact ⟨hx, hclean x (.inl rfl), some.inj heq⟩
    · rintro ⟨-, hclean, rfl⟩
      refine ⟨rfl, ?_⟩
      rintro id (h | h) <;> cases h <;> exact hclean

theorem same_normalized_iff : Same (Ios.nonEmpty (Ios.normalizeIdentityId g x))
      (some (NativeIdentityProvisioning.Android.normalizeIdentityId y)) ↔ Agree g x y := by
  rw [same_some_iff]
  constructor
  · rintro ⟨hne, hclean, heq⟩
    exact ⟨_, hne, hclean, (Ios.normalizeIdentityId_eq_iff hclean).1 rfl,
      (Android.normalizeIdentityId_eq_iff hclean).1 heq.symm⟩
  rintro ⟨id, hne, hclean, hios, handroid⟩
  rw [(Ios.normalizeIdentityId_eq_iff hclean).2 hios,
    (Android.normalizeIdentityId_eq_iff hclean).2 handroid]
  exact ⟨hne, hclean, rfl⟩

theorem Ios.normalizeIdentityId_empty : Ios.normalizeIdentityId g "" = "" := by
  have hpre : Ios.hasDidPrefix g "" = false := by
    rw [Bool.eq_false_iff]
    intro h
    have hlen : "".toList.length = _ :=
      congrArg (fun s : String => s.toList.length) (Ios.eq_append_of_hasDidPrefix h)
    have hnine : didPrefix.toList.length = 9 := by decide
    rw [toList_append, length_append, String.toList_empty, length_nil] at hlen
    omega
  have htrim : trim "" = "" := by decide
  rw [Ios.normalizeIdentityId, htrim, hpre]
  rfl

/-- iOS stops at an empty text. -/
theorem same_empty_iff : Same (Ios.nonEmpty (Ios.normalizeIdentityId g "")) a ↔ a = none := by
  rw [Ios.normalizeIdentityId_empty]
  exact same_none_iff

/-! From the path, from the body, and from the header. -/

theorem Android.fromPath_eq_none_iff :
    Android.fromPath r = none ↔ pathIdentity (Android.components r.path) = none :=
  map_eq_none_iff

theorem Android.fromBody_did (h : Android.optString (r.field "identity_id") = "") :
    Android.fromBody r = if Android.optString (r.field "did") = "" then Android.fromPath r
      else some (NativeIdentityProvisioning.Android.normalizeIdentityId
        (Android.optString (r.field "did"))) := by
  rw [Android.fromBody]
  rw [if_neg (not_not.2 h), ite_not]

theorem Android.fromBody_id (h : Android.optString (r.field "identity_id") ≠ "") :
    Android.fromBody r = some (NativeIdentityProvisioning.Android.normalizeIdentityId
      (Android.optString (r.field "identity_id"))) := by
  rw [Android.fromBody]
  rw [if_pos h]

theorem Android.noDid_iff (h : Android.optString (r.field "identity_id") = "") :
    Android.fromBody r = none ↔ r.NoDid := by
  rw [Android.fromBody_did h]
  by_cases hdid : Android.optString (r.field "did") = ""
  · rw [if_pos hdid, Android.fromPath_eq_none_iff]
    exact ⟨fun hpath => ⟨hdid, hpath⟩, fun hand => hand.2⟩
  rw [if_neg hdid]
  constructor
  · intro hnone
    cases hnone
  · intro hand
    exact absurd hand.1 hdid

theorem Android.fromBody_eq_none_iff :
    Android.fromBody r = none ↔ Android.optString (r.field "identity_id") = "" ∧ r.NoDid := by
  by_cases hid : Android.optString (r.field "identity_id") = ""
  · rw [Android.noDid_iff hid]
    exact ⟨fun h => ⟨hid, h⟩, fun h => h.2⟩
  · rw [Android.fromBody_id hid]
    exact ⟨(fun h => nomatch h), fun h => absurd h.1 hid⟩

theorem Android.header_eq :
    (r.headers "X-Zhtp-Identity").getD ((r.headers "x-zhtp-identity").getD "") =
      r.header.getD "" := by
  unfold Request.header
  cases r.headers "X-Zhtp-Identity" <;> rfl

/-- iOS looks at the path, and Android has a text. -/
theorem same_path_some_iff :
    Same (Ios.fromPath g r) (some (NativeIdentityProvisioning.Android.normalizeIdentityId y)) ↔
      r.PathIs g y := by
  rw [Ios.fromPath, Request.PathIs]
  cases pathIdentity (Ios.components g r.path) with
  | none =>
    rw [same_none_iff]
    constructor
    · intro h
      cases h
    · rintro ⟨component, h, -⟩
      cases h
  | some component =>
    rw [same_normalized_iff]
    constructor
    · intro h
      exact ⟨component, rfl, h⟩
    · rintro ⟨_, h, hagree⟩
      cases h
      exact hagree

theorem clean_empty : Clean "" where
  no_did := by decide
  ios := by decide
  android := by decide

theorem Ios.nonEmpty_eq_none_iff : Ios.nonEmpty x = none ↔ x = "" := by
  unfold Ios.nonEmpty
  by_cases hx : x = ""
  · rw [if_pos hx]
    exact ⟨fun _ => hx, fun _ => rfl⟩
  · rw [if_neg hx]
    exact ⟨(fun h => nomatch h), fun h => absurd h hx⟩

theorem Ios.fromPath_eq_none_iff :
    Ios.fromPath g r = none ↔ ∀ component, pathIdentity (Ios.components g r.path) = some component →
      Ios.Writes g component "" := by
  rw [Ios.fromPath]
  cases pathIdentity (Ios.components g r.path) with
  | none =>
    constructor
    · intro _ component h
      cases h
    · intro _
      rfl
  | some component =>
    rw [Ios.nonEmpty_eq_none_iff, Ios.normalizeIdentityId_eq_iff clean_empty]
    constructor
    · intro h _ hc
      cases hc
      exact h
    · intro h
      exact h component rfl

theorem same_path_iff : Same (Ios.fromPath g r) (Android.fromPath r) ↔ r.PathsAgree g := by
  rw [Android.fromPath, Request.PathsAgree]
  cases pathIdentity (Android.components r.path) with
  | none =>
    rw [map_none, same_comm, same_none_iff, Ios.fromPath_eq_none_iff]
  | some component => exact same_path_some_iff

theorem Ios.fromBody_id {identityId : String}
    (h : Ios.asString (r.field "identity_id") = some identityId) :
    Ios.fromBody g r = Ios.nonEmpty (Ios.normalizeIdentityId g identityId) := by
  rw [Ios.fromBody, h]

theorem Ios.fromBody_did (h : Ios.asString (r.field "identity_id") = none) : Ios.fromBody g r =
      match r.registered with
      | some did => Ios.nonEmpty did
      | none => Ios.fromPath g r := by
  rw [Ios.fromBody, h]
  rfl

/-- A registration names no id in its path. -/
theorem Android.fromPath_registered {did : String} (h : r.registered = some did) :
    Android.fromPath r = none ∧ Android.optString (r.field "did") = did := by
  unfold Request.registered at h
  split at h
  · rename_i hpath
    constructor
    · rw [Android.fromPath_eq_none_iff, hpath]
      decide
    unfold Ios.asString at h
    split at h
    · rename_i hdid
      rw [hdid]
      exact some.inj h
    · cases h
  · cases h

/-- A DID that iOS returns as it is. -/
theorem same_raw_iff : Same (Ios.nonEmpty x)
    (some (NativeIdentityProvisioning.Android.normalizeIdentityId y)) ↔
      x ≠ "" ∧ Clean x ∧ Android.Writes y x := by
  rw [same_some_iff]
  constructor
  · rintro ⟨hne, hclean, heq⟩
    exact ⟨hne, hclean, (Android.normalizeIdentityId_eq_iff hclean).1 heq.symm⟩
  · rintro ⟨hne, hclean, hwrites⟩
    exact ⟨hne, hclean, ((Android.normalizeIdentityId_eq_iff hclean).2 hwrites).symm⟩

/-- There is no id in the body. -/
theorem same_did_iff (hid : r.field "identity_id" = none) :
    Same (Ios.fromBody g r) (Android.fromBody r) ↔ match r.registered with
      | some did => did = "" ∨ Clean did
      | none =>
        if Android.optString (r.field "did") = "" then r.PathsAgree g
        else r.PathIs g (Android.optString (r.field "did")) := by
  have hios : Ios.asString (r.field "identity_id") = none := by
    rw [hid]
    rfl
  have handroid : Android.optString (r.field "identity_id") = "" := by
    rw [hid]
    rfl
  rw [Ios.fromBody_did hios, Android.fromBody_did handroid]
  cases hreg : r.registered with
  | none =>
    by_cases hdid : Android.optString (r.field "did") = ""
    · rw [if_pos hdid, if_pos hdid]
      exact same_path_iff
    · rw [if_neg hdid, if_neg hdid]
      exact same_path_some_iff
  | some did =>
    obtain ⟨hpath, hdid⟩ := Android.fromPath_registered hreg
    -- iOS returns the DID itself, Android without its prefix
    rw [hdid]
    by_cases hempty : did = ""
    · rw [if_pos hempty, hpath, same_comm, same_none_iff, Ios.nonEmpty_eq_none_iff]
      exact ⟨.inl, fun _ => hempty⟩
    rw [if_neg hempty, same_raw_iff]
    constructor
    · rintro ⟨-, hclean, -⟩
      exact .inr hclean
    · rintro (h | hclean)
      · exact absurd h hempty
      · exact ⟨hempty, hclean, .inl hclean.android⟩

theorem same_body_iff (hheader : r.header = none) :
    Same (Ios.fromBody g r) (Android.fromBody r) ↔ r.RoutesAlike g := by
  rw [Request.RoutesAlike, hheader]
  cases hid : r.field "identity_id" with
  | none => exact same_did_iff hid
  | some field =>
    cases field with
    | string identityId =>
      have hios : Ios.asString (r.field "identity_id") = some identityId := by
        rw [hid]
        rfl
      have handroid : Android.optString (r.field "identity_id") = identityId := by
        rw [hid]
        rfl
      rw [Ios.fromBody_id hios]
      dsimp only
      by_cases hempty : identityId = ""
      · rw [hempty] at handroid
        rw [if_pos hempty, hempty, same_empty_iff, Android.noDid_iff handroid]
      · rw [if_neg hempty, Android.fromBody_id (by rw [handroid]; exact hempty), handroid,
          same_normalized_iff]
    | other text ne =>
      -- no string for iOS, which goes on to the DID or the path
      have hios : Ios.asString (r.field "identity_id") = none := by
        rw [hid]
        rfl
      have handroid : Android.optString (r.field "identity_id") = text := by
        rw [hid]
        rfl
      rw [Ios.fromBody_did hios, Android.fromBody_id (by rw [handroid]; exact ne), handroid]
      cases r.registered with
      | none => exact same_path_some_iff
      | some did => exact same_raw_iff

end

/-- Both platforms route a request to the same clean id exactly in these cases. -/
theorem same_identity_iff (g : Graphemes) (r : Request) :
    Same (Ios.extractIdentityId g r) (Android.extractIdentityId r) ↔ r.RoutesAlike g := by
  rw [Android.extractIdentityId, Android.header_eq]
  change Same (match r.header with | some _ => _ | none => _) _ ↔ _
  cases hheader : r.header with
  | none => exact same_body_iff hheader
  | some headerValue =>
    -- iOS never looks behind a header that is there
    rw [Request.RoutesAlike, hheader]
    dsimp only [getD_some]
    by_cases hempty : headerValue = ""
    · rw [hempty, same_empty_iff]
      exact Android.fromBody_eq_none_iff
    · rw [if_pos hempty, if_neg hempty]
      exact same_normalized_iff

/-- A text whose characters are its code points, as in plain ASCII. -/
def Graphemes.plain : Graphemes where
  characters s := s.map fun c => [c]
  flatten s := List.flatMap_def.symm.trans (List.flatMap_singleton' s)

/-- A registration that names its DID. -/
def registration : Request where
  path := "/api/v1/identity/register"
  headers _ := none
  body := some fun name => if name = "did" then some (.string "did:zhtp:ab12") else none

/-- iOS returns the DID of a registration as it is. -/
theorem registration_differs :
    Ios.extractIdentityId .plain registration = some "did:zhtp:ab12" ∧
    Android.extractIdentityId registration = some "ab12" ∧
    ¬ ∀ r : Request, Same (Ios.extractIdentityId .plain r) (Android.extractIdentityId r) := by
  have hios : Ios.extractIdentityId .plain registration = some "did:zhtp:ab12" := by decide
  have handroid : Android.extractIdentityId registration = some "ab12" := by decide
  refine ⟨hios, handroid, ?_⟩
  intro hall
  have heq := (hall registration).1
  rw [hios] at heq
  exact nomatch heq

end RoutedIdentity
