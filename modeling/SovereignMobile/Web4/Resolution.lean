import Mathlib.Data.List.Find

/-! # Which file a Web4 path stands for

`resolveManifest` and `resolveFile` of `Web4Runtime.swift` and `Web4Runtime.kt`, up to the entry of the
manifest whose blob is then read. The two are the same but for the strings: Swift compares them up to
canonical equivalence, and takes them apart by characters that may be several code points. -/

namespace Web4Runtime

open List Option

structure ManifestFile where
  path : String
  cid : String
  mime : String
  size : Int
  deriving DecidableEq

structure Manifest where
  domain : Option String := none
  version : Option String := none
  previousManifest : Option String := none
  spa : Option Bool := none
  spaFallback : Option String := none
  files : List ManifestFile

structure ResolveResponse where
  domain : String
  manifestCid : Option String
  version : Option String := none
  spa : Option Bool := none
  spaFallback : Option String := none

inductive Error where
  | client (message : String)
  | missingManifestCid
  | notFound (path : String)

/-- What the server answers. -/
structure Client where
  resolveDomain : String → Except Error ResolveResponse
  fetchManifest : String → Except Error Manifest

/-- The SPA settings are the resolver's. -/
def Manifest.hydrated (manifest : Manifest) (resolve : ResolveResponse) : Manifest :=
  { manifest with spa := resolve.spa, spaFallback := resolve.spaFallback }

/-- A manifest that is fetched is cached from then on. -/
def resolveManifest (cache : String → Option Manifest) (client : Client) (domain : String) :
    Except Error Manifest :=
  match cache domain with
  | some cached => .ok cached
  | none => do
    let resolve ← client.resolveDomain domain
    match resolve.manifestCid with
    | none => .error .missingManifestCid
    | some manifestCid => do
      let manifest ← client.fetchManifest manifestCid
      pure (manifest.hydrated resolve)

/-! ## Strings -/

/-- `==`, and the text after a leading slash. -/
structure Strings where
  same : String → String → Bool
  dropSlash : String → Option String

def kotlin : Strings where
  same a b := a = b
  dropSlash s := match s.toList with
    | '/' :: rest => some (String.ofList rest)
    | _ => none

/-- The tables of Unicode: the canonical form, and the code points that join the character before them. -/
structure Unicode where
  canonical : String → String
  joins : Char → Bool
  canonical_ascii : ∀ s : String, (∀ c ∈ s.toList, c.toNat < 128) → canonical s = s
  joins_ascii : ∀ c : Char, c.toNat < 128 → joins c = false

def swift (U : Unicode) : Strings where
  same a b := U.canonical a = U.canonical b
  dropSlash s := match s.toList with
    | '/' :: rest => if rest.head?.any U.joins then none else some (String.ofList rest)
    | _ => none

/-! ## resolveFile -/

section
variable (T : Strings)

/-- `files.first { $0.path == path }`, `files.find { it.path == path }` -/
def first (files : List ManifestFile) (path : String) : Option ManifestFile :=
  files.find? fun f => T.same f.path path

def normalizedPath (path : String) : String :=
  if T.same path "/" || path.isEmpty then "/index.html" else path

def fileEntry (manifest : Manifest) (path : String) : Option ManifestFile :=
  let normalizedPath := normalizedPath T path
  let exact := first T manifest.files normalizedPath
  let entry := match exact, T.dropSlash normalizedPath with
    | none, some pathWithoutSlash => first T manifest.files pathWithoutSlash
    | _, _ => exact
  -- the settings of the site are not asked
  match entry with
  | none => first T manifest.files "/index.html" <|> first T manifest.files "index.html"
  | some _ => entry

end

namespace Android

def resolveFile (cache : String → Option Manifest) (client : Client) (domain path : String) :
    Except Error (Option ManifestFile) := do
  let manifest ← resolveManifest cache client domain
  pure (fileEntry kotlin manifest path)

end Android

namespace Ios

def resolveFile (U : Unicode) (cache : String → Option Manifest) (client : Client)
    (domain path : String) : Except Error ManifestFile := do
  let manifest ← resolveManifest cache client domain
  match fileEntry (swift U) manifest path with
  | some entry => pure entry
  | none => .error (.notFound path)

end Ios

/-! ## What the settings ask for -/

section
variable (T : Strings)

/-- The entry at a path, which may lack the leading slash. -/
def entryAt (files : List ManifestFile) (path : String) : Option ManifestFile :=
  first T files path <|> (T.dropSlash path).bind (first T files)

/-- The requested file if it is there, the fallback of an SPA otherwise. -/
def asConfigured (manifest : Manifest) (path : String) : Option ManifestFile :=
  entryAt T manifest.files (normalizedPath T path) <|>
    if manifest.spa = some true then entryAt T manifest.files (manifest.spaFallback.getD "/index.html")
    else none

/-- The requested file is there; or the site is an SPA, and its fallback is the index file; or it is none,
    and has no index file. -/
def Follows (manifest : Manifest) (path : String) : Prop :=
  entryAt T manifest.files (normalizedPath T path) ≠ none ∨
  (manifest.spa = some true ∧ entryAt T manifest.files (manifest.spaFallback.getD "/index.html") =
    entryAt T manifest.files "/index.html") ∨
  (manifest.spa ≠ some true ∧ entryAt T manifest.files "/index.html" = none)

variable {T}

/-- What `resolveFile` finds, in two lookups. -/
theorem fileEntry_eq (hindex : T.dropSlash "/index.html" = some "index.html") (manifest : Manifest)
    (path : String) :
    fileEntry T manifest path = (entryAt T manifest.files (normalizedPath T path) <|>
      entryAt T manifest.files "/index.html") := by
  unfold fileEntry entryAt
  dsimp only
  rw [hindex]
  cases hexact : first T manifest.files (normalizedPath T path) with
  | some f => simp
  | none =>
    cases hslash : T.dropSlash (normalizedPath T path) with
    | none => simp
    | some rest =>
      cases hrest : first T manifest.files rest <;> simp [hrest]

/-- It does as the settings ask exactly if they ask for what it does in any case. -/
theorem fileEntry_asConfigured_iff (hindex : T.dropSlash "/index.html" = some "index.html")
    (manifest : Manifest) (path : String) :
    fileEntry T manifest path = asConfigured T manifest path ↔ Follows T manifest path := by
  rw [fileEntry_eq hindex, asConfigured, Follows]
  cases hfile : entryAt T manifest.files (normalizedPath T path) with
  | some f => simp
  | none =>
    by_cases hspa : manifest.spa = some true
    · simp [hspa, eq_comm]
    · simp [hspa]

end

/-! ## Strings that both platforms read alike -/

theorem kotlin_index : kotlin.dropSlash "/index.html" = some "index.html" := by decide

theorem swift_index (U : Unicode) : (swift U).dropSlash "/index.html" = some "index.html" := by
  have hjoins : U.joins 'i' = false := U.joins_ascii 'i' (by decide)
  have htext : "/index.html".toList = '/' :: "index.html".toList := by decide
  have hhead : ("index.html".toList).head? = some 'i' := by decide
  simp only [swift, htext, hhead, any_some, hjoins, if_false, Bool.false_eq_true,
    String.ofList_toList]

/-- The paths that are looked for. -/
def tried (path : String) : List String :=
  [path, (kotlin.dropSlash path).getD path, "/index.html", "index.html"]

/-- No path in the manifest is canonically equivalent to one that is looked for without being the same, and
    a leading slash is a character by itself. -/
structure Plain (U : Unicode) (manifest : Manifest) (path : String) : Prop where
  files : ∀ f ∈ manifest.files, ∀ q ∈ tried path, U.canonical f.path = U.canonical q → f.path = q
  root : U.canonical path = U.canonical "/" → path = "/"
  slash : (swift U).dropSlash path = kotlin.dropSlash path

variable {U : Unicode} {manifest : Manifest} {path : String}

theorem Plain.first_eq {q : String} (h : Plain U manifest path) (hq : q ∈ tried path) :
    first (swift U) manifest.files q = first kotlin manifest.files q := by
  have hsame : ∀ f ∈ manifest.files, (swift U).same f.path q = kotlin.same f.path q := by
    intro f hf
    have hiff : U.canonical f.path = U.canonical q ↔ f.path = q :=
      ⟨h.files f hf q hq, fun heq => by rw [heq]⟩
    exact decide_eq_decide.2 hiff
  exact find?_congr hsame

theorem Plain.normalizedPath_eq (h : Plain U manifest path) :
    normalizedPath (swift U) path = normalizedPath kotlin path := by
  have hiff : U.canonical path = U.canonical "/" ↔ path = "/" := ⟨h.root, fun heq => by rw [heq]⟩
  have hsame : (swift U).same path "/" = kotlin.same path "/" := decide_eq_decide.2 hiff
  unfold normalizedPath
  rw [hsame]

/-- Both platforms then find the same. -/
theorem Plain.fileEntry_eq (h : Plain U manifest path) :
    fileEntry (swift U) manifest path = fileEntry kotlin manifest path := by
  have hindex : entryAt (swift U) manifest.files "/index.html" =
      entryAt kotlin manifest.files "/index.html" := by
    unfold entryAt
    rw [swift_index, kotlin_index, h.first_eq (by simp [tried])]
    simp only [bind_some]
    rw [h.first_eq (by simp [tried])]
  rw [Web4Runtime.fileEntry_eq (swift_index U), Web4Runtime.fileEntry_eq kotlin_index,
    h.normalizedPath_eq, hindex]
  congr 1
  by_cases hroot : normalizedPath kotlin path = "/index.html"
  · rw [hroot]
    exact hindex
  have hpath : normalizedPath kotlin path = path := by
    unfold normalizedPath at hroot ⊢
    split
    · rename_i hempty
      rw [if_pos hempty] at hroot
      exact absurd rfl hroot
    · rfl
  rw [hpath]
  unfold entryAt
  rw [h.first_eq (by simp [tried]), h.slash]
  cases hslash : kotlin.dropSlash path with
  | none => rfl
  | some rest =>
    simp only [bind_some]
    rw [h.first_eq (by simp [tried, hslash])]

theorem ascii_of_all {s : String} (h : (s.toList.all fun c => c.toNat < 128) = true) :
    ∀ c ∈ s.toList, c.toNat < 128 := fun c hc => of_decide_eq_true (all_eq_true.1 h c hc)

/-- So do they for plain ASCII. -/
theorem plain_of_ascii (U : Unicode)
    (hfiles : ∀ f ∈ manifest.files, ∀ c ∈ f.path.toList, c.toNat < 128)
    (hpath : ∀ c ∈ path.toList, c.toNat < 128) : Plain U manifest path := by
  have hdropped : ∀ c ∈ ((kotlin.dropSlash path).getD path).toList, c.toNat < 128 := by
    intro c hc
    simp only [kotlin] at hc
    split at hc
    · rename_i rest htext
      rw [getD_some, String.toList_ofList] at hc
      exact hpath c (htext ▸ mem_cons_of_mem _ hc)
    · exact hpath c hc
  have htried : ∀ q ∈ tried path, U.canonical q = q := by
    intro q hq
    refine U.canonical_ascii q ?_
    simp only [tried, mem_cons, not_mem_nil, or_false] at hq
    rcases hq with rfl | rfl | rfl | rfl
    · exact hpath
    · exact hdropped
    · exact ascii_of_all (by decide)
    · exact ascii_of_all (by decide)
  constructor
  · intro f hf q hq heq
    rwa [U.canonical_ascii _ (hfiles f hf), htried q hq] at heq
  · intro heq
    rwa [U.canonical_ascii _ hpath, U.canonical_ascii _ (ascii_of_all (by decide))] at heq
  simp only [swift, kotlin]
  split
  · rename_i rest htext
    have hjoins : rest.head?.any U.joins = false := by
      cases rest with
      | nil => rfl
      | cons c rest => exact U.joins_ascii c (hpath c (by simp [htext]))
    rw [hjoins]
    rfl
  · rfl

/-! ## Both platforms -/

/-- What a platform returns where an entry, or none, is due. -/
def Ios.response (path : String) : Option ManifestFile → Except Error ManifestFile
  | some entry => .ok entry
  | none => .error (.notFound path)

/-- For every manifest, whatever the resolver says of the site: each platform does as the settings ask exactly
    if the requested file is there, or they ask for the index file that both of them serve in any case; and
    the two find the same entry where they read the paths alike. -/
theorem resolveFile_iff (U : Unicode) (cache : String → Option Manifest) (client : Client)
    (domain path : String) (manifest : Manifest)
    (hmanifest : resolveManifest cache client domain = .ok manifest) :
    (Android.resolveFile cache client domain path = .ok (asConfigured kotlin manifest path) ↔
      Follows kotlin manifest path) ∧
    (Ios.resolveFile U cache client domain path = Ios.response path (asConfigured (swift U) manifest path) ↔
      Follows (swift U) manifest path) ∧
    (Plain U manifest path → ∃ entry, Android.resolveFile cache client domain path = .ok entry ∧
      Ios.resolveFile U cache client domain path = Ios.response path entry) := by
  have handroid : Android.resolveFile cache client domain path = .ok (fileEntry kotlin manifest path) := by
    rw [Android.resolveFile, hmanifest]
    rfl
  have hios : Ios.resolveFile U cache client domain path =
      Ios.response path (fileEntry (swift U) manifest path) := by
    rw [Ios.resolveFile, hmanifest]
    rfl
  have hinj : ∀ e e' : Option ManifestFile, Ios.response path e = Ios.response path e' ↔ e = e' := by
    intro e e'
    cases e <;> cases e' <;> simp [Ios.response]
  refine ⟨?_, ?_, fun hplain => ⟨_, handroid, ?_⟩⟩
  · rw [handroid, Except.ok.injEq]
    exact fileEntry_asConfigured_iff kotlin_index manifest path
  · rw [hios, hinj]
    exact fileEntry_asConfigured_iff (swift_index U) manifest path
  · rw [hios, hplain.fileEntry_eq]

theorem combining_ascii (c : Char) (h : c.toNat < 128) :
    (decide (0x300 ≤ c.toNat) && decide (c.toNat < 0x370)) = false := by
  rw [Bool.and_eq_false_imp, decide_eq_true_eq]
  intro hle
  omega

/-- The combining marks of one block, and no text that needs a canonical form. -/
def diacritics : Unicode where
  canonical s := s
  joins c := decide (0x300 ≤ c.toNat) && decide (c.toNat < 0x370)
  canonical_ascii _ _ := rfl
  joins_ascii := combining_ascii

/-- A site with two files that is no SPA. -/
def server : Client where
  resolveDomain domain := .ok { domain := domain, manifestCid := some "m", spa := some false }
  fetchManifest _ :=
    .ok { files := [⟨"/index.html", "c1", "text/html", 10⟩, ⟨"app.js", "c2", "text/javascript", 20⟩] }

theorem resolveFile_app :
    Android.resolveFile (fun _ => none) server "site.sov" "/app.js" =
        .ok (some ⟨"app.js", "c2", "text/javascript", 20⟩) ∧
      ∃ entry, Android.resolveFile (fun _ => none) server "site.sov" "/app.js" = .ok entry ∧
        Ios.resolveFile diacritics (fun _ => none) server "site.sov" "/app.js" =
          Ios.response "/app.js" entry := by
  have h := resolveFile_iff diacritics (fun _ => none) server "site.sov" "/app.js" _ rfl
  have hpath : ∀ c ∈ "/app.js".toList, c.toNat < 128 := ascii_of_all (by decide)
  refine ⟨h.1.2 (.inl (by decide)), h.2.2 (plain_of_ascii diacritics ?_ hpath)⟩
  intro f hf
  rcases mem_cons.1 hf with rfl | hf
  · exact ascii_of_all (by decide)
  · rw [mem_singleton.1 hf]
    exact ascii_of_all (by decide)

/-- A missing file of a site that is no SPA is the home page. -/
theorem not_asConfigured :
    ¬(∀ (client : Client) (domain path : String) (manifest : Manifest),
      resolveManifest (fun _ => none) client domain = .ok manifest →
        Android.resolveFile (fun _ => none) client domain path = .ok (asConfigured kotlin manifest path)) ∧
    ¬(∀ (client : Client) (domain path : String) (manifest : Manifest),
      resolveManifest (fun _ => none) client domain = .ok manifest →
        Ios.resolveFile diacritics (fun _ => none) client domain path =
          Ios.response path (asConfigured (swift diacritics) manifest path)) := by
  constructor
  · intro h
    have hhome := Except.ok.inj (h server "site.sov" "/missing" _ rfl)
    exact nomatch hhome
  · intro h
    have hhome : (Except.ok ⟨"/index.html", "c1", "text/html", 10⟩ : Except Error ManifestFile) =
      .error (.notFound "/missing") := h server "site.sov" "/missing" _ rfl
    simp at hhome

end Web4Runtime
