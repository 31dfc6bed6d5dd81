import Mathlib.Data.List.TakeWhile
import SovereignMobile.Text.PercentEncoding

/-! # The target of a request

The TypeScript layer writes the path of a request into a `quic://` URL, and each native module takes
the URL apart again with a library of its own: `java.net.URI` and Foundation decode what they read,
the `url` crate does not. A target reaches the server alike from all three, and means what it meant,
exactly where there was nothing to decode in it. -/

namespace QuicUrls

open PercentEncoding List

abbrev Text := List Char

/-! ## The URL -/

/-- The characters that `encodeURIComponent` leaves as they are. -/
def unreserved (c : Char) : Bool :=
  c.isAlphanum || "-_.!~*'()".toList.contains c

def encodeURIComponent (s : Text) : Text :=
  encode unreserved s

/-- The host and the port that are dialled. -/
structure Authority where
  host : Text
  port : Nat
  host_ok : '/' ∉ host

def Authority.text (a : Authority) : Text :=
  a.host ++ ':' :: Nat.toDigits 10 a.port

/-- `/a/b/c`, each segment written by `f`. -/
def pathText (f : Text → Text) (segments : List Text) : Text :=
  ['/'].intercalate ([] :: segments.map f)

/-- `a=1&b=2`, each name and each value written by `f`. -/
def queryText (f : Text → Text) (params : List (Text × Text)) : Text :=
  ['&'].intercalate (params.map fun p => f p.1 ++ '=' :: f p.2)

def query (f : Text → Text) (params : List (Text × Text)) : Option Text :=
  if params = [] then none else some (queryText f params)

def withQuery (path : Text) (query : Option Text) : Text :=
  match query with
  | none => path
  | some query => path ++ '?' :: query

/-- What follows the scheme in the URL of a request. -/
def urlTail (a : Authority) (segments : List Text) (params : List (Text × Text)) : Text :=
  a.text ++ withQuery (pathText encodeURIComponent segments) (query encodeURIComponent params)

def quicUrl (a : Authority) (segments : List Text) (params : List (Text × Text)) : Text :=
  "quic://".toList ++ urlTail a segments params

/-! ## The three parsers -/

/-- `java.net.URI`, as far as it is read; a port of −1 is undefined. -/
structure JavaUri where
  host : Option Text
  port : Int
  path : Option Text
  query : Option Text

/-- `URL` of Foundation and of the `url` crate, as far as they are read. -/
structure Url where
  host : Option Text
  port : Option Nat
  path : Text
  query : Option Text

structure ParsedUrl where
  host : Text
  port : Int
  path : Text

def orRoot (path : Text) : Text :=
  if path = [] then ['/'] else path

namespace Android

/-- `parseQuicUrl`, which the authenticated requests go through. -/
def parseQuicUrl (uri : Text → Option JavaUri) (urlString : Text) : Option ParsedUrl :=
  match uri (replaceAll "quic://".toList "https://".toList urlString) with
  | none => none
  | some uri =>
    match uri.host with
    | none => none
    | some host =>
      let path := orRoot (uri.path.getD ['/'])
      let path := if uri.query.getD [] = [] then path else withQuery path uri.query
      some ⟨host, if uri.port = -1 then 443 else uri.port, path⟩

/-- `parse_quic_url`, which the public requests go through. -/
def parse_quic_url (parse : Text → Option Url) (url_str : Text) : Option ParsedUrl :=
  match parse (replaceAll "quic://".toList "https://".toList url_str) with
  | none => none
  | some parsed =>
    match parsed.host with
    | none => none
    | some host => some ⟨host, parsed.port.getD 443, withQuery (orRoot parsed.path) parsed.query⟩

end Android

namespace Ios

def parseQuicUrl (url : Text → Option Url) (urlString : Text) : Option ParsedUrl :=
  let normalizedUrl := if "quic://".toList.isPrefixOf urlString then
    replaceAll "quic://".toList "https://".toList urlString else urlString
  match url normalizedUrl with
  | none => none
  | some url =>
    some ⟨url.host.getD [], url.port.getD 443, withQuery (orRoot url.path) url.query⟩

end Ios

/-! ## What the libraries do -/

def httpsUrl (a : Authority) (segments : List Text) (params : List (Text × Text)) : Text :=
  "https://".toList ++ urlTail a segments params

def isDotSegment (segment : Text) : Prop :=
  segment = ['.'] ∨ segment = ['.', '.']

instance : DecidablePred isDotSegment := fun _ => inferInstanceAs (Decidable (_ ∨ _))

def apostrophe : Char := Char.ofNat 39

/-- The apostrophe is encoded in the query of an `https` URL. -/
def escapeApostrophes (query : Text) : Text :=
  query.flatMap fun c => if c = apostrophe then "%27".toList else [c]

/-- `getPath` and `getQuery` decode. -/
def ReadsAsJava (uri : Text → Option JavaUri) (a : Authority) : Prop :=
  ∀ segments params, ∃ host port, uri (httpsUrl a segments params) =
    some ⟨some host, port, decode (pathText encodeURIComponent segments),
      (query encodeURIComponent params).bind decode⟩

/-- `path` decodes, and strips a slash at the end; `query` does not decode. -/
def ReadsAsFoundation (url : Text → Option Url) (a : Authority) : Prop :=
  ∀ segments params, ∃ u, url (httpsUrl a segments params) = some u ∧
    u.query = query encodeURIComponent params ∧
    (segments.length ≤ 1 ∨ segments.getLast? ≠ some [] →
      some u.path = decode (pathText encodeURIComponent segments)) ∧
    (¬ (segments.length ≤ 1 ∨ segments.getLast? ≠ some []) →
      some u.path ≠ decode (pathText encodeURIComponent segments))

/-- Neither the path nor the query is decoded; dot segments are removed from the path. -/
def ReadsAsUrlCrate (parse : Text → Option Url) (a : Authority) : Prop :=
  ∀ segments params, ∃ u, parse (httpsUrl a segments params) = some u ∧ u.host ≠ none ∧
    u.query = (query encodeURIComponent params).map escapeApostrophes ∧
    '?' ∉ u.path ∧
    (∀ s ∈ u.path.splitOn '/', ∀ d, decode s = some d → ¬ isDotSegment d) ∧
    ((∀ s ∈ segments, ¬ isDotSegment s) → u.path = orRoot (pathText encodeURIComponent segments))

/-! ## What a target means -/

def readPath (path : Text) : Option (List Text) :=
  match path.splitOn '/' with
  | [] :: segments => segments.mapM decode
  | _ => none

def readParam (param : Text) : Option (Text × Text) :=
  match param.splitOn '=' with
  | [name, value] => do
    let name ← decode name
    let value ← decode value
    return (name, value)
  | _ => none

def readQuery (query : Text) : Option (List (Text × Text)) :=
  match query with
  | [] => some []
  | _ :: query => (query.splitOn '&').mapM readParam

/-- Split at the first `?`, the path at `/`, the query at `&` and `=`; then decode. -/
def readTarget (target : Text) : Option (List Text × List (Text × Text)) := do
  let segments ← readPath (target.takeWhile (· ≠ '?'))
  let params ← readQuery (target.dropWhile (· ≠ '?'))
  return (segments, params)

section Libraries

variable (uri : Text → Option JavaUri) (url parse : Text → Option Url) (a : Authority)

/-- All three hand the same target to the wire, and it means the segments and the parameters. -/
def Survives (segments : List Text) (params : List (Text × Text)) : Prop :=
  ∃ target,
    (Android.parseQuicUrl uri (quicUrl a segments params)).map (·.path) = some target ∧
    (Android.parse_quic_url parse (quicUrl a segments params)).map (·.path) = some target ∧
    (Ios.parseQuicUrl url (quicUrl a segments params)).map (·.path) = some target ∧
    readTarget target = some (segments, params)

end Libraries

/-- There is a segment; no character has to be encoded, and none in the parameters is an apostrophe;
    no segment is a dot segment, and the last one of several is not empty. -/
def Plain (segments : List Text) (params : List (Text × Text)) : Prop :=
  segments ≠ [] ∧ (∀ s ∈ segments, s.all unreserved = true ∧ ¬ isDotSegment s) ∧
    (segments.length ≤ 1 ∨ segments.getLast? ≠ some []) ∧
    ∀ p ∈ params, (p.1 ++ p.2).all (fun c => unreserved c && decide (c ≠ apostrophe)) = true

/-! ## Encoded components -/

theorem unreserved_percent : unreserved '%' = false := by decide

variable {c sep : Char} {s : Text} {parts : List Text}

theorem not_mem_of_all (hc : unreserved c = false) (h : s.all unreserved = true) : c ∉ s := by
  intro hmem
  exact nomatch (all_eq_true.1 h c hmem).symm.trans hc

/-- What is written is unreserved, or the octets of a character. -/
theorem mem_encodeURIComponent (h : c ∈ encodeURIComponent s) : unreserved c = true ∨ c = '%' := by
  obtain ⟨d, _, hc⟩ := mem_flatMap.1 h
  unfold encodeChar at hc
  split at hc
  · rename_i hd
    exact .inl (mem_singleton.1 hc ▸ hd)
  obtain ⟨b, _, hb⟩ := mem_flatMap.1 hc
  have hdigit : ∀ n, n < 16 → unreserved (hexDigit n) = true := by decide
  have hlt : b.toNat < 256 := b.toNat_lt
  simp only [encodeOctet, mem_cons, not_mem_nil, or_false] at hb
  rcases hb with rfl | rfl | rfl
  · exact .inr rfl
  · exact .inl (hdigit _ (by omega))
  · exact .inl (hdigit _ (by omega))

theorem not_mem_encodeURIComponent (hc : unreserved c = false) (hp : c ≠ '%') (s : Text) :
    c ∉ encodeURIComponent s := by
  intro h
  rcases mem_encodeURIComponent h with h | h
  · exact nomatch h.symm.trans hc
  · exact hp h

theorem encodeURIComponent_of_all (h : s.all unreserved = true) : encodeURIComponent s = s :=
  encode_of_all h

theorem spells_encodeURIComponent (s : Text) : Spells (encodeURIComponent s) s :=
  Spells.encode unreserved_percent s

theorem decode_pathText (segments : List Text) :
    decode (pathText encodeURIComponent segments) = some (pathText id segments) := by
  have hspells := Spells.intercalate '/' (by decide) segments fun s _ => spells_encodeURIComponent s
  cases segments with
  | nil => exact Spells.nil.decode
  | cons s segments =>
    exact ((Spells.singleton (by decide)).append hspells).decode

theorem decode_query (params : List (Text × Text)) :
    (query encodeURIComponent params).bind decode = query id params := by
  unfold query
  split
  · rfl
  refine Spells.decode (Spells.intercalate '&' (by decide) params fun p _ => ?_)
  have heq : Spells ['='] ['='] := Spells.singleton (by decide)
  have hvalue := heq.append (spells_encodeURIComponent p.2)
  exact (spells_encodeURIComponent p.1).append hvalue

/-! ## The scheme -/

/-- A colon is not followed by a slash. -/
def colonEnds : Text → Prop :=
  List.IsChain fun x y => x = ':' → y ≠ '/'

theorem colonEnds_of_no_colon (h : ':' ∉ s) : colonEnds s := by
  refine List.Pairwise.isChain (pairwise_of_forall_mem_list fun x hx _ _ hcolon => ?_)
  exact absurd (hcolon ▸ hx) h

theorem colonEnds_of_no_slash (h : '/' ∉ s) : colonEnds s := by
  refine List.Pairwise.isChain (pairwise_of_forall_mem_list fun _ _ y hy _ hslash => ?_)
  exact absurd (hslash ▸ hy) h

theorem not_mem_toDigits (hc : c.isDigit = false) (n : Nat) : c ∉ Nat.toDigits 10 n := by
  intro h
  exact nomatch (Nat.isDigit_of_mem_toDigits (by decide) (by decide) h).symm.trans hc

theorem mem_intercalate (h : c ∈ [sep].intercalate parts) : c = sep ∨ ∃ part ∈ parts, c ∈ part := by
  induction parts with
  | nil => simp at h
  | cons part parts ih =>
    cases parts with
    | nil => exact .inr ⟨part, mem_cons_self, by simpa using h⟩
    | cons part' parts =>
      rw [intercalate_cons_cons, mem_append, mem_append] at h
      rcases h with (h | h) | h
      · exact .inr ⟨part, mem_cons_self, h⟩
      · exact .inl (mem_singleton.1 h)
      rcases ih h with h | ⟨part', hpart', hc⟩
      · exact .inl h
      · exact .inr ⟨part', mem_cons_of_mem _ hpart', hc⟩

theorem mem_intercalate_of_mem {part : Text} (hpart : part ∈ parts) (hc : c ∈ part) :
    c ∈ [sep].intercalate parts := by
  induction parts with
  | nil => simp at hpart
  | cons part' parts ih =>
    cases parts with
    | nil =>
      rw [intercalate_singleton, ← mem_singleton.1 hpart]
      exact hc
    | cons part'' parts =>
      rw [intercalate_cons_cons, mem_append, mem_append]
      rcases mem_cons.1 hpart with rfl | hpart
      · exact .inl (.inl hc)
      · exact .inr (ih hpart)

/-- What the encoded path and query are made of. -/
theorem mem_withQuery {segments : List Text} {params : List (Text × Text)}
    (h : c ∈ withQuery (pathText encodeURIComponent segments) (query encodeURIComponent params)) :
    unreserved c = true ∨ c ∈ "%/?&=".toList := by
  have hcomponent : ∀ s, c ∈ encodeURIComponent s → unreserved c = true ∨ c ∈ "%/?&=".toList := by
    intro s hs
    rcases mem_encodeURIComponent hs with hs | hs
    · exact .inl hs
    · exact .inr (by simp [hs])
  have hpath : c ∈ pathText encodeURIComponent segments →
      unreserved c = true ∨ c ∈ "%/?&=".toList := by
    intro hc
    rcases mem_intercalate hc with hc | ⟨part, hpart, hc⟩
    · exact .inr (by simp [hc])
    rcases mem_cons.1 hpart with rfl | hpart
    · simp at hc
    · obtain ⟨s, _, rfl⟩ := mem_map.1 hpart
      exact hcomponent s hc
  unfold withQuery query at h
  split at h
  · exact hpath h
  rename_i q hq
  split at hq
  · simp at hq
  cases hq
  rcases mem_append.1 h with hc | hc
  · exact hpath hc
  rcases mem_cons.1 hc with hc | hc
  · exact .inr (by simp [hc])
  rcases mem_intercalate hc with hc | ⟨part, hpart, hc⟩
  · exact .inr (by simp [hc])
  obtain ⟨p, _, rfl⟩ := mem_map.1 hpart
  rcases mem_append.1 hc with hc | hc
  · exact hcomponent p.1 hc
  rcases mem_cons.1 hc with hc | hc
  · exact .inr (by simp [hc])
  · exact hcomponent p.2 hc

theorem colonEnds_urlTail (a : Authority) (segments : List Text) (params : List (Text × Text)) :
    colonEnds (urlTail a segments params) := by
  have hauthority : '/' ∉ a.text := by
    unfold Authority.text
    rw [mem_append, mem_cons]
    rintro (h | h | h)
    · exact a.host_ok h
    · exact nomatch h
    · exact not_mem_toDigits (by decide) _ h
  have htarget : ':' ∉ withQuery (pathText encodeURIComponent segments)
      (query encodeURIComponent params) := by
    intro h
    have hcolon := mem_withQuery h
    revert hcolon
    decide
  refine List.IsChain.append (colonEnds_of_no_slash hauthority) (colonEnds_of_no_colon htarget) ?_
  -- the authority ends with a digit of the port
  intro x hx y _ hcolon
  rw [Authority.text, getLast?_append, getLast?_cons] at hx
  cases hlast : (Nat.toDigits 10 a.port).getLast? with
  | none => exact absurd (getLast?_eq_none_iff.1 hlast) Nat.toDigits_ne_nil
  | some d =>
    rw [hlast] at hx
    have hd : d = x := by simpa using hx
    have hmem := mem_of_getLast? hlast
    rw [hd, hcolon] at hmem
    exact absurd hmem (not_mem_toDigits (by decide) _)

/-- Only the scheme itself is replaced: the text `quic://` does not occur again. -/
theorem replaceAll_quicUrl (a : Authority) (segments : List Text) (params : List (Text × Text)) :
    replaceAll "quic://".toList "https://".toList (quicUrl a segments params) =
      httpsUrl a segments params := by
  refine replaceAll_append _ (by decide) fun h => ?_
  obtain ⟨before, after, heq⟩ := h
  have htail := colonEnds_urlTail a segments params
  rw [← heq] at htail
  have hscheme : colonEnds "quic://".toList := htail.left_of_append.right_of_append
  exact absurd hscheme (by unfold colonEnds; decide)

/-! ## The three targets -/

section Targets

variable {uri : Text → Option JavaUri} {url parse : Text → Option Url} {a : Authority}
  {segments : List Text} {params : List (Text × Text)}

variable {f : Text → Text} {u : Url} {path : Text} {α β : Type} {q : Option Text}

theorem queryText_ne_nil (h : params ≠ []) : queryText f params ≠ [] := by
  obtain ⟨p, ps, rfl⟩ := exists_cons_of_ne_nil h
  cases ps with
  | nil => simp [queryText]
  | cons p' ps => simp [queryText]

theorem android_target (h : ReadsAsJava uri a) :
    (Android.parseQuicUrl uri (quicUrl a segments params)).map (·.path) =
      some (withQuery (orRoot (pathText id segments)) (query id params)) := by
  obtain ⟨host, port, hread⟩ := h segments params
  unfold Android.parseQuicUrl
  rw [replaceAll_quicUrl, hread]
  simp only [decode_pathText, decode_query, Option.map_some]
  split
  · rename_i hnil
    have hparams : params = [] := by
      by_contra hne
      rw [query, if_neg hne] at hnil
      exact queryText_ne_nil hne hnil
    rw [query, if_pos hparams]
    rfl
  · rfl

theorem url_crate_target (hread : parse (httpsUrl a segments params) = some u)
    (hhost : u.host ≠ none) :
    (Android.parse_quic_url parse (quicUrl a segments params)).map (·.path) =
      some (withQuery (orRoot u.path) u.query) := by
  obtain ⟨host, hhost⟩ := Option.ne_none_iff_exists'.1 hhost
  unfold Android.parse_quic_url
  rw [replaceAll_quicUrl, hread]
  simp only [hhost, Option.map_some]

theorem foundation_target (hread : url (httpsUrl a segments params) = some u) :
    (Ios.parseQuicUrl url (quicUrl a segments params)).map (·.path) =
      some (withQuery (orRoot u.path) u.query) := by
  have hprefix : "quic://".toList.isPrefixOf (quicUrl a segments params) = true :=
    isPrefixOf_iff_prefix.2 (prefix_append _ _)
  unfold Ios.parseQuicUrl
  rw [if_pos hprefix, replaceAll_quicUrl]
  dsimp only
  rw [hread]
  rfl

/-! ## Reading a target -/

theorem takeWhile_withQuery (h : '?' ∉ path) (q : Option Text) :
    (withQuery path q).takeWhile (· ≠ '?') = path := by
  have hpath : ∀ c ∈ path, decide (c ≠ '?') = true := by
    intro c hc
    exact decide_eq_true fun heq => h (heq ▸ hc)
  cases q with
  | none => exact takeWhile_eq_self_iff.2 hpath
  | some q =>
    unfold withQuery
    rw [takeWhile_append_of_pos hpath, takeWhile_cons_of_neg (by simp), append_nil]

theorem dropWhile_withQuery (h : '?' ∉ path) (q : Option Text) :
    (withQuery path q).dropWhile (· ≠ '?') = q.elim [] ('?' :: ·) := by
  have hpath : ∀ c ∈ path, decide (c ≠ '?') = true := by
    intro c hc
    exact decide_eq_true fun heq => h (heq ▸ hc)
  cases q with
  | none => exact dropWhile_eq_nil_iff.2 hpath
  | some q =>
    unfold withQuery
    rw [dropWhile_append_of_pos hpath]
    rfl

theorem mem_of_mapM {f : α → Option β} {xs : List α} :
    ∀ {ys : List β}, xs.mapM f = some ys → ∀ y ∈ ys, ∃ x ∈ xs, f x = some y := by
  induction xs with
  | nil =>
    intro ys h y hy
    obtain rfl : [] = ys := Option.some.inj h
    simp at hy
  | cons x xs ih =>
    intro ys h y hy
    rw [mapM_cons] at h
    obtain ⟨z, hz, h⟩ := Option.bind_eq_some_iff.1 h
    obtain ⟨zs, hzs, h⟩ := Option.bind_eq_some_iff.1 h
    cases h
    rcases mem_cons.1 hy with rfl | hy
    · exact ⟨x, mem_cons_self, hz⟩
    · obtain ⟨x', hx', hfx'⟩ := ih hzs y hy
      exact ⟨x', mem_cons_of_mem _ hx', hfx'⟩

theorem mapM_map_of_left_inverse (f : α → Option β) (g : β → α) (ys : List β)
    (h : ∀ y ∈ ys, f (g y) = some y) : (ys.map g).mapM f = some ys := by
  induction ys with
  | nil => rfl
  | cons y ys ih =>
    rw [map_cons, mapM_cons, h y mem_cons_self, ih fun y' hy' => h y' (mem_cons_of_mem _ hy')]
    rfl

/-- A path in which no segment decodes to a dot segment is not read as one with dot segments. -/
theorem not_isDotSegment_of_readTarget (hq : '?' ∉ path)
    (hdots : ∀ s ∈ path.splitOn '/', ∀ d, decode s = some d → ¬ isDotSegment d)
    (h : readTarget (withQuery path q) = some (segments, params)) :
    ∀ s ∈ segments, ¬ isDotSegment s := by
  obtain ⟨segments', hpath, h⟩ := Option.bind_eq_some_iff.1 h
  obtain ⟨params', _, h⟩ := Option.bind_eq_some_iff.1 h
  cases h
  rw [takeWhile_withQuery hq, readPath] at hpath
  split at hpath
  · rename_i raw hsplit
    intro s hs
    obtain ⟨r, hr, hdecode⟩ := mem_of_mapM hpath s hs
    exact hdots r (by rw [hsplit]; exact mem_cons_of_mem _ hr) s hdecode
  · simp at hpath

/-- The root is read as one empty segment. -/
theorem readTarget_root (h : readTarget (withQuery ['/'] q) =
    some (segments, params)) : segments = [[]] := by
  obtain ⟨segments', hpath, h⟩ := Option.bind_eq_some_iff.1 h
  obtain ⟨params', _, h⟩ := Option.bind_eq_some_iff.1 h
  cases h
  have hroot : readPath ['/'] = some [[]] := by
    have hsplit : ['/'].splitOn '/' = [[], []] := by decide
    unfold readPath
    rw [hsplit]
    rfl
  rw [takeWhile_withQuery (by decide)] at hpath
  exact (Option.some.inj hpath).symm

/-! ## Targets that survive -/

theorem pathText_ne_nil (h : segments ≠ []) : pathText f segments ≠ [] := by
  obtain ⟨s, ss, rfl⟩ := exists_cons_of_ne_nil h
  simp [pathText]

theorem orRoot_pathText (h : segments ≠ []) : orRoot (pathText f segments) = pathText f segments :=
  if_neg (pathText_ne_nil h)

/-- A path that is as long as it is encoded has nothing to encode. -/
theorem length_pathText (segments : List Text) :
    (pathText id segments).length ≤ (pathText encodeURIComponent segments).length ∧
      ((pathText encodeURIComponent segments).length = (pathText id segments).length →
        ∀ s ∈ segments, s.all unreserved = true) := by
  have hlength := length_intercalate_le '/' (f := id) (g := encodeURIComponent) segments
    fun s _ => (length_encode unreserved s).1
  unfold pathText
  cases segments with
  | nil => exact ⟨le_rfl, fun _ s hs => nomatch hs⟩
  | cons s ss =>
    simp only [map_cons, intercalate_cons_cons, length_append] at hlength ⊢
    refine ⟨by omega, fun heq s' hs' => ?_⟩
    exact (length_encode unreserved s').2 (hlength.2 (by omega) s' hs')

theorem length_escapeApostrophes (q : Text) : q.length ≤ (escapeApostrophes q).length ∧
    ((escapeApostrophes q).length = q.length → apostrophe ∉ q) := by
  unfold escapeApostrophes
  induction q with
  | nil => exact ⟨le_rfl, fun _ => by simp⟩
  | cons c q ih =>
    rw [flatMap_cons, length_append, length_cons]
    split
    · have hthree : "%27".toList.length = 3 := rfl
      rw [hthree]
      exact ⟨by omega, fun heq => by omega⟩
    rename_i hc
    rw [length_singleton]
    refine ⟨by omega, fun heq hmem => ?_⟩
    rcases mem_cons.1 hmem with hmem | hmem
    · exact hc hmem.symm
    · exact ih.2 (by omega) hmem

theorem escapeApostrophes_of_not_mem {q : Text} (h : apostrophe ∉ q) : escapeApostrophes q = q := by
  unfold escapeApostrophes
  induction q with
  | nil => rfl
  | cons c q ih =>
    rw [mem_cons, not_or] at h
    rw [flatMap_cons, if_neg (Ne.symm h.1), ih h.2]
    rfl

/-- The same of the parameters, where the apostrophe is encoded as well. -/
theorem length_queryText (params : List (Text × Text)) : (queryText id params).length ≤
        (escapeApostrophes (queryText encodeURIComponent params)).length ∧
      ((escapeApostrophes (queryText encodeURIComponent params)).length =
          (queryText id params).length →
        ∀ p ∈ params,
          (p.1 ++ p.2).all (fun c => unreserved c && decide (c ≠ apostrophe)) = true) := by
  have hparam : ∀ p ∈ params, (id p.1 ++ '=' :: id p.2).length ≤
      (encodeURIComponent p.1 ++ '=' :: encodeURIComponent p.2).length := by
    intro p _
    have hname := (length_encode unreserved p.1).1
    have hvalue := (length_encode unreserved p.2).1
    simp only [length_append, length_cons, id, encodeURIComponent]
    omega
  obtain ⟨hle, heq⟩ := length_intercalate_le '&' params hparam
  obtain ⟨hle', heq'⟩ := length_escapeApostrophes (queryText encodeURIComponent params)
  have hraw : (queryText id params).length ≤ (queryText encodeURIComponent params).length := hle
  refine ⟨by omega, fun hlength p hp => ?_⟩
  have hsame : (queryText encodeURIComponent params).length = (queryText id params).length := by
    omega
  have hnone : apostrophe ∉ queryText encodeURIComponent params := heq' (by omega)
  have hp' := heq hsame p hp
  simp only [length_append, length_cons, id, encodeURIComponent] at hp'
  have hname := length_encode unreserved p.1
  have hvalue := length_encode unreserved p.2
  have hname' := hname.2 (by omega)
  have hvalue' := hvalue.2 (by omega)
  rw [all_eq_true]
  intro c hc
  have hunreserved : unreserved c = true := by
    rcases mem_append.1 hc with hc | hc
    · exact all_eq_true.1 hname' c hc
    · exact all_eq_true.1 hvalue' c hc
  rw [hunreserved]
  refine decide_eq_true fun hapostrophe => hnone ?_
  rw [hapostrophe] at hc
  refine mem_intercalate_of_mem (mem_map_of_mem hp) ?_
  rw [encodeURIComponent_of_all hname', encodeURIComponent_of_all hvalue', mem_append, mem_cons]
  exact (mem_append.1 hc).imp id .inr

/-- Targets that are the same with and without encoding have nothing to encode. -/
theorem plain_of_equal (hne : segments ≠ [])
    (h : withQuery (orRoot (pathText id segments)) (query id params) =
      withQuery (orRoot (pathText encodeURIComponent segments))
        ((query encodeURIComponent params).map escapeApostrophes)) :
    (∀ s ∈ segments, s.all unreserved = true) ∧ ∀ p ∈ params,
        (p.1 ++ p.2).all (fun c => unreserved c && decide (c ≠ apostrophe)) = true := by
  rw [orRoot_pathText hne, orRoot_pathText hne] at h
  have hlength := congrArg length h
  obtain ⟨hpath, hpath'⟩ := length_pathText segments
  unfold query at hlength
  split at hlength
  · rename_i hnil
    refine ⟨hpath' hlength.symm, fun p hp => ?_⟩
    rw [hnil] at hp
    simp at hp
  · obtain ⟨hquery, hquery'⟩ := length_queryText params
    simp only [withQuery, Option.map_some, length_append, length_cons] at hlength
    exact ⟨hpath' (by omega), hquery' (by omega)⟩

theorem orRoot_orRoot (path : Text) : orRoot (orRoot path) = orRoot path := by
  by_cases h : path = []
  · rw [orRoot, orRoot, if_pos h]
    rfl
  · rw [orRoot, orRoot, if_neg h, if_neg h]

theorem splitOn_root : ['/'].splitOn '/' = [[], []] := by decide

theorem not_isDotSegment_root : ∀ s ∈ ['/'].splitOn '/', ∀ d, decode s = some d →
    ¬ isDotSegment d := by
  intro s hs d hd
  rw [splitOn_root] at hs
  have hs' : s = [] := by simpa using hs
  rw [hs'] at hd
  rw [← Option.some.inj hd]
  decide

/-- The URL crate reads no segment as a dot segment, so there was none. -/
theorem not_isDotSegment_of_url_crate (hmark : '?' ∉ u.path)
    (hdots : ∀ s ∈ u.path.splitOn '/', ∀ d, decode s = some d → ¬ isDotSegment d)
    (hread : readTarget (withQuery (orRoot u.path) u.query) = some (segments, params)) :
    ∀ s ∈ segments, ¬ isDotSegment s := by
  by_cases hnil : u.path = []
  · rw [orRoot, if_pos hnil] at hread
    exact not_isDotSegment_of_readTarget (by decide) not_isDotSegment_root hread
  · rw [orRoot, if_neg hnil] at hread
    exact not_isDotSegment_of_readTarget hmark hdots hread

/-- Plain segments are written as they are. -/
theorem pathText_of_plain (h : ∀ s ∈ segments, s.all unreserved = true) :
    pathText encodeURIComponent segments = pathText id segments := by
  have hmap : segments.map encodeURIComponent = segments.map id :=
    map_congr_left fun s hs => encodeURIComponent_of_all (h s hs)
  rw [pathText, hmap, pathText]

theorem all_of_plain {p : Text × Text}
    (h : (p.1 ++ p.2).all (fun c => unreserved c && decide (c ≠ apostrophe)) = true) :
    (p.1.all unreserved = true ∧ p.2.all unreserved = true) ∧ apostrophe ∉ p.1 ++ p.2 := by
  have hall : ∀ c ∈ p.1 ++ p.2, unreserved c = true ∧ c ≠ apostrophe := by
    intro c hc
    simpa using all_eq_true.1 h c hc
  refine ⟨⟨all_eq_true.2 fun c hc => ?_, all_eq_true.2 fun c hc => ?_⟩, fun hmem => ?_⟩
  · exact (hall c (mem_append_left _ hc)).1
  · exact (hall c (mem_append_right _ hc)).1
  · exact (hall _ hmem).2 rfl

/-- Plain parameters are written as they are. -/
theorem query_of_plain (h : ∀ p ∈ params,
    (p.1 ++ p.2).all (fun c => unreserved c && decide (c ≠ apostrophe)) = true) :
    query encodeURIComponent params = query id params ∧
      (query encodeURIComponent params).map escapeApostrophes = query id params := by
  have hmap : queryText encodeURIComponent params = queryText id params := by
    refine congrArg _ (map_congr_left fun p hp => ?_)
    obtain ⟨⟨hname, hvalue⟩, _⟩ := all_of_plain (h p hp)
    rw [encodeURIComponent_of_all hname, encodeURIComponent_of_all hvalue]
    rfl
  have hnone : apostrophe ∉ queryText id params := by
    intro hmem
    rcases mem_intercalate hmem with heq | ⟨part, hpart, hc⟩
    · exact nomatch heq
    obtain ⟨p, hp, rfl⟩ := mem_map.1 hpart
    refine (all_of_plain (h p hp)).2 ?_
    rw [mem_append, mem_cons] at hc
    rcases hc with hc | hc | hc
    · exact mem_append_left _ hc
    · exact nomatch hc
    · exact mem_append_right _ hc
  unfold query
  split
  · exact ⟨rfl, rfl⟩
  · rw [Option.map_some, hmap, escapeApostrophes_of_not_mem hnone]
    exact ⟨rfl, rfl⟩

theorem withQuery_cancel {path' : Text} (h : withQuery path q = withQuery path' q) :
    path = path' := by
  cases q with
  | none => exact h
  | some q => exact append_cancel_right h

/-- With two segments the path is not just a slash. -/
theorem pathText_ne_root (h : ¬ segments.length ≤ 1) : pathText id segments ≠ ['/'] := by
  match segments, h with
  | [], h => exact absurd (Nat.zero_le 1) h
  | [_], h => exact absurd (Nat.le_refl 1) h
  | s :: s' :: ss, _ =>
    intro heq
    have hlength := congrArg length heq
    simp [pathText] at hlength

theorem plain_of_survives (huri : ReadsAsJava uri a) (hurl : ReadsAsFoundation url a)
    (hparse : ReadsAsUrlCrate parse a) (h : Survives uri url parse a segments params) :
    Plain segments params := by
  obtain ⟨target, hauth, hpublic, hios, hread⟩ := h
  obtain ⟨u, hu, hhost, hquery, hmark, hdots, hkept⟩ := hparse segments params
  obtain ⟨v, hv, hvquery, _, hstripped⟩ := hurl segments params
  rw [android_target huri] at hauth
  rw [url_crate_target hu hhost] at hpublic
  rw [foundation_target hv, hvquery] at hios
  cases hpublic
  have hnodots := not_isDotSegment_of_url_crate hmark hdots hread
  rw [hkept hnodots, orRoot_orRoot, hquery] at hread hauth hios
  have hne : segments ≠ [] := by
    rintro rfl
    exact nomatch readTarget_root hread
  obtain ⟨hsegments, hparams⟩ := plain_of_equal hne (Option.some.inj hauth)
  refine ⟨hne, fun s hs => ⟨hsegments s hs, hnodots s hs⟩, ?_, hparams⟩
  -- a slash at the end would be missing from the target on iOS
  by_contra hlast
  obtain ⟨hplain, hescaped⟩ := query_of_plain hparams
  rw [hescaped, hplain, pathText_of_plain hsegments, orRoot_pathText hne] at hios
  have hpath : orRoot v.path = pathText id segments := withQuery_cancel (Option.some.inj hios)
  have hkeep : v.path = pathText id segments := by
    by_cases hnil : v.path = []
    · rw [orRoot, if_pos hnil] at hpath
      exact absurd hpath.symm (pathText_ne_root fun hshort => hlast (.inl hshort))
    · rwa [orRoot, if_neg hnil] at hpath
  exact hstripped hlast (by rw [hkeep, decode_pathText])

/-- A plain target is read as what it was written from. -/
theorem readTarget_of_plain (h : Plain segments params) :
    readTarget (withQuery (pathText id segments) (query id params)) = some (segments, params) := by
  obtain ⟨hne, hsegments, _, hparams⟩ := h
  have hdecode : ∀ s : Text, s.all unreserved = true → decode s = some s := by
    intro s hs
    have hspells := spells_encodeURIComponent s
    rw [encodeURIComponent_of_all hs] at hspells
    exact hspells.decode
  have hmark : '?' ∉ pathText id segments := by
    intro hmem
    rcases mem_intercalate hmem with heq | ⟨part, hpart, hc⟩
    · exact nomatch heq
    rcases mem_cons.1 hpart with rfl | hpart
    · simp at hc
    · obtain ⟨s, hs, rfl⟩ := mem_map.1 hpart
      exact not_mem_of_all (by decide) (hsegments s hs).1 hc
  have hpath : readPath (pathText id segments) = some segments := by
    have hsplit : (pathText id segments).splitOn '/' = [] :: segments := by
      unfold pathText
      rw [map_id, splitOn_intercalate '/' (fun part hpart => ?_) (by simp)]
      rcases mem_cons.1 hpart with rfl | hpart
      · simp
      · exact not_mem_of_all (by decide) (hsegments part hpart).1
    have hmap := mapM_map_of_left_inverse decode id segments
      fun s hs => hdecode s (hsegments s hs).1
    rw [map_id] at hmap
    rw [readPath, hsplit]
    exact hmap
  have hparam : ∀ p ∈ params, readParam (id p.1 ++ '=' :: id p.2) = some p := by
    intro p hp
    obtain ⟨⟨hname, hvalue⟩, _⟩ := all_of_plain (hparams p hp)
    have hsplit : (p.1 ++ '=' :: p.2).splitOn '=' = [p.1, p.2] := by
      have heq : p.1 ++ '=' :: p.2 = ['='].intercalate [p.1, p.2] := by
        simp
      rw [heq, splitOn_intercalate '=' (fun part hpart => ?_) (by simp)]
      simp only [mem_cons, not_mem_nil, or_false] at hpart
      rcases hpart with rfl | rfl
      · exact not_mem_of_all (by decide) hname
      · exact not_mem_of_all (by decide) hvalue
    unfold readParam
    simp only [id, hsplit, hdecode p.1 hname, hdecode p.2 hvalue]
    rfl
  have hquery : readQuery ((query id params).elim [] ('?' :: ·)) = some params := by
    unfold query
    split
    · rename_i hnil
      rw [hnil]
      rfl
    rename_i hparamsne
    have hsplit : (queryText id params).splitOn '&' =
        params.map fun p => id p.1 ++ '=' :: id p.2 := by
      refine splitOn_intercalate '&' (fun part hpart => ?_) (by simpa using hparamsne)
      obtain ⟨p, hp, rfl⟩ := mem_map.1 hpart
      obtain ⟨⟨hname, hvalue⟩, _⟩ := all_of_plain (hparams p hp)
      rw [mem_append, mem_cons]
      rintro (hc | hc | hc)
      · exact not_mem_of_all (by decide) hname hc
      · exact nomatch hc
      · exact not_mem_of_all (by decide) hvalue hc
    show ((queryText id params).splitOn '&').mapM readParam = some params
    rw [hsplit]
    exact mapM_map_of_left_inverse readParam _ params hparam
  unfold readTarget
  rw [takeWhile_withQuery hmark, dropWhile_withQuery hmark, hpath, hquery]
  rfl

theorem survives_of_plain (huri : ReadsAsJava uri a) (hurl : ReadsAsFoundation url a)
    (hparse : ReadsAsUrlCrate parse a) (h : Plain segments params) :
    Survives uri url parse a segments params := by
  have hread := readTarget_of_plain h
  obtain ⟨hne, hsegments, hlast, hparams⟩ := h
  obtain ⟨u, hu, hhost, hquery, _, _, hkept⟩ := hparse segments params
  obtain ⟨v, hv, hvquery, hvpath, _⟩ := hurl segments params
  obtain ⟨hplain, hescaped⟩ := query_of_plain hparams
  have hraw := pathText_of_plain fun s hs => (hsegments s hs).1
  have hroot := orRoot_pathText (f := id) hne
  refine ⟨withQuery (pathText id segments) (query id params), ?_, ?_, ?_, hread⟩
  · rw [android_target huri, hroot]
  · rw [url_crate_target hu hhost, hkept fun s hs => (hsegments s hs).2, hquery, hescaped, hraw,
      orRoot_orRoot, hroot]
  · have hpath : v.path = pathText id segments :=
      Option.some.inj ((hvpath hlast).trans (decode_pathText segments))
    rw [foundation_target hv, hvquery, hpath, hplain, hroot]

end Targets

/-- **A target survives exactly where there is nothing to decode in it.** -/
theorem survives_iff (uri : Text → Option JavaUri) (url parse : Text → Option Url) (a : Authority)
    (huri : ReadsAsJava uri a) (hurl : ReadsAsFoundation url a) (hparse : ReadsAsUrlCrate parse a)
    (segments : List Text) (params : List (Text × Text)) :
    Survives uri url parse a segments params ↔ Plain segments params :=
  ⟨plain_of_survives huri hurl hparse, survives_of_plain huri hurl hparse⟩

/-! ## Libraries that read so -/

/-- Authority, path and query of an `https` URL. -/
def splitUrl (text : Text) : Text × Text × Option Text :=
  let rest := text.drop "https://".toList.length
  let tail := rest.dropWhile fun c => c ≠ '/' && c ≠ '?'
  let query := match tail.dropWhile (· ≠ '?') with
    | [] => none
    | _ :: query => some query
  (rest.takeWhile fun c => c ≠ '/' && c ≠ '?', tail.takeWhile (· ≠ '?'), query)

def hostOf (authority : Text) : Text :=
  authority.takeWhile (· ≠ ':')

def portOf (authority : Text) : Nat :=
  Nat.ofDigitChars 10 (authority.dropWhile (· ≠ ':')).tail 0

def javaUri (text : Text) : Option JavaUri :=
  let (authority, path, query) := splitUrl text
  some ⟨some (hostOf authority), portOf authority, decode path, query.bind decode⟩

/-- A slash at the end is stripped. -/
def foundationUrl (text : Text) : Option Url :=
  let (authority, path, query) := splitUrl text
  let parts := path.splitOn '/'
  let stripped := if 2 < parts.length ∧ parts.getLast? = some []
    then ['/'].intercalate parts.dropLast else path
  some ⟨some (hostOf authority), some (portOf authority), (decode stripped).getD [], query⟩

/-- Of a path with dot segments nothing is kept. -/
def urlCrate (text : Text) : Option Url :=
  let (authority, path, query) := splitUrl text
  let dots := (path.splitOn '/').any fun s => (decode s).any fun d => decide (isDotSegment d)
  some ⟨some (hostOf authority), some (portOf authority), if dots then ['/'] else orRoot path,
    query.map escapeApostrophes⟩

def gateway : Authority :=
  ⟨"10.0.0.1".toList, 9334, by decide⟩

theorem mark_not_mem_pathText (segments : List Text) :
    '?' ∉ pathText encodeURIComponent segments := by
  intro hmem
  rcases mem_intercalate hmem with heq | ⟨part, hpart, hc⟩
  · exact nomatch heq
  rcases mem_cons.1 hpart with rfl | hpart
  · simp at hc
  · obtain ⟨s, _, rfl⟩ := mem_map.1 hpart
    exact not_mem_encodeURIComponent (by decide) (by decide) s hc

theorem dropWhile_target (segments : List Text) (params : List (Text × Text)) :
    (withQuery (pathText encodeURIComponent segments) (query encodeURIComponent params)).dropWhile
        (fun c => c ≠ '/' && c ≠ '?') =
      withQuery (pathText encodeURIComponent segments) (query encodeURIComponent params) := by
  cases segments with
  | nil =>
    have hnil : pathText encodeURIComponent [] = [] := rfl
    rw [hnil]
    cases query encodeURIComponent params with
    | none | some => rfl
  | cons s ss =>
    have hcons : pathText encodeURIComponent (s :: ss) =
        '/' :: ['/'].intercalate ((s :: ss).map encodeURIComponent) := by
      simp [pathText]
    rw [hcons]
    cases query encodeURIComponent params with
    | none | some => rfl

theorem splitUrl_httpsUrl (segments : List Text) (params : List (Text × Text)) :
    ∃ authority, splitUrl (httpsUrl gateway segments params) =
      (authority, pathText encodeURIComponent segments, query encodeURIComponent params) := by
  have hall : gateway.text.all (fun c => decide (c ≠ '/') && decide (c ≠ '?')) = true := by decide
  have hauthority := all_eq_true.1 hall
  have hrest : (httpsUrl gateway segments params).drop "https://".toList.length =
      gateway.text ++ withQuery (pathText encodeURIComponent segments)
        (query encodeURIComponent params) := drop_left
  unfold splitUrl
  dsimp only
  rw [hrest, dropWhile_append_of_pos hauthority, dropWhile_target,
    takeWhile_withQuery (mark_not_mem_pathText segments),
    dropWhile_withQuery (mark_not_mem_pathText segments)]
  cases query encodeURIComponent params with
  | none | some => exact ⟨_, rfl⟩

theorem splitOn_pathText (segments : List Text) :
    (pathText encodeURIComponent segments).splitOn '/' = [] :: segments.map encodeURIComponent := by
  refine splitOn_intercalate '/' (fun part hpart => ?_) (by simp)
  rcases mem_cons.1 hpart with rfl | hpart
  · simp
  · obtain ⟨s, _, rfl⟩ := mem_map.1 hpart
    exact not_mem_encodeURIComponent (by decide) (by decide) s

theorem readsAsJava_javaUri : ReadsAsJava javaUri gateway := by
  intro segments params
  obtain ⟨authority, hsplit⟩ := splitUrl_httpsUrl segments params
  unfold javaUri
  rw [hsplit]
  exact ⟨_, _, rfl⟩

theorem decode_encodeURIComponent (s : Text) : decode (encodeURIComponent s) = some s :=
  decode_encode unreserved_percent s

theorem readsAsUrlCrate_urlCrate : ReadsAsUrlCrate urlCrate gateway := by
  intro segments params
  obtain ⟨authority, hsplit⟩ := splitUrl_httpsUrl segments params
  unfold urlCrate
  rw [hsplit]
  refine ⟨_, rfl, by simp, rfl, ?_, ?_, fun hdots => if_neg ?_⟩
  · dsimp only
    split
    · decide
    unfold orRoot
    split
    · decide
    · exact mark_not_mem_pathText segments
  · dsimp only
    split
    · exact not_isDotSegment_root
    rename_i hnodots
    unfold orRoot
    split
    · exact not_isDotSegment_root
    intro s hs d hd hdot
    refine hnodots (any_eq_true.2 ⟨s, hs, ?_⟩)
    rw [hd]
    exact decide_eq_true hdot
  · rw [splitOn_pathText, any_eq_true]
    rintro ⟨raw, hraw, hdot⟩
    rcases mem_cons.1 hraw with rfl | hraw
    · rw [Spells.nil.decode] at hdot
      exact nomatch hdot
    · obtain ⟨s, hs, rfl⟩ := mem_map.1 hraw
      rw [decode_encodeURIComponent] at hdot
      exact hdots s hs (of_decide_eq_true hdot)

theorem intercalate_concat (h : parts ≠ []) (part : Text) :
    [sep].intercalate (parts ++ [part]) = [sep].intercalate parts ++ sep :: part := by
  induction parts with
  | nil => exact absurd rfl h
  | cons p ps ih =>
    cases ps with
    | nil => simp
    | cons p' ps =>
      rw [cons_append, cons_append, intercalate_cons_cons,
        intercalate_cons_cons, ← cons_append, ih (by simp)]
      simp only [append_assoc]

theorem encodeURIComponent_eq_nil : encodeURIComponent s = [] ↔ s = [] := by
  constructor
  · intro h
    have hdecode := decode_encodeURIComponent s
    rw [h] at hdecode
    exact (Option.some.inj hdecode).symm
  · rintro rfl
    rfl

theorem readsAsFoundation_foundationUrl : ReadsAsFoundation foundationUrl gateway := by
  intro segments params
  obtain ⟨authority, hsplit⟩ := splitUrl_httpsUrl segments params
  unfold foundationUrl
  rw [hsplit]
  -- the condition under which the slash is stripped
  have hcond : (2 < ((pathText encodeURIComponent segments).splitOn '/').length ∧
      ((pathText encodeURIComponent segments).splitOn '/').getLast? = some []) ↔
      ¬ (segments.length ≤ 1 ∨ segments.getLast? ≠ some []) := by
    rw [splitOn_pathText, getLast?_cons, getLast?_map]
    cases hlast : segments.getLast? with
    | none =>
      rw [getLast?_eq_none_iff] at hlast
      simp [hlast]
    | some s =>
      simp [encodeURIComponent_eq_nil]
      intro _
      omega
  refine ⟨_, rfl, rfl, fun hkeep => ?_, fun hstrip => ?_⟩
  · dsimp only
    rw [if_neg fun h => hcond.1 h hkeep, decode_pathText]
    rfl
  dsimp only
  rw [if_pos (hcond.2 hstrip), splitOn_pathText]
  obtain ⟨init, last, rfl⟩ := (eq_nil_or_concat segments).resolve_left
    fun hnil => hstrip (.inl (by simp [hnil]))
  have hparts : ([] :: (init.concat last).map encodeURIComponent).dropLast =
      [] :: init.map encodeURIComponent := by
    rw [concat_eq_append, map_append, ← cons_append, map_singleton, dropLast_concat]
  have hinit := decode_pathText init
  unfold pathText at hinit
  rw [hparts, hinit, decode_pathText, Option.getD_some, pathText, concat_eq_append,
    map_append, ← cons_append, map_singleton, intercalate_concat (by simp)]
  intro heq
  have hlength := congrArg length (Option.some.inj heq)
  rw [length_append, length_cons] at hlength
  omega

/-! ## What survives, and what does not -/

theorem survives_balance : Survives javaUri foundationUrl urlCrate gateway
    ["api".toList, "v1".toList, "balance".toList] [("page".toList, "2".toList)] :=
  (survives_iff javaUri foundationUrl urlCrate gateway readsAsJava_javaUri
    readsAsFoundation_foundationUrl readsAsUrlCrate_urlCrate _ _).2
    ⟨by decide, by decide, by decide, by decide⟩

/-- Is the symbol `A/B` available? -/
def symbolAvailable : List Text :=
  ["api", "v1", "assets", "symbol", "available", "A/B"].map String.toList

theorem not_survives : ¬ ∀ segments params,
    Survives javaUri foundationUrl urlCrate gateway segments params := by
  intro h
  have hplain := plain_of_survives readsAsJava_javaUri readsAsFoundation_foundationUrl
    readsAsUrlCrate_urlCrate (h symbolAvailable [])
  have hsymbol := (hplain.2.1 "A/B".toList (by simp [symbolAvailable])).1
  exact nomatch hsymbol

end QuicUrls
