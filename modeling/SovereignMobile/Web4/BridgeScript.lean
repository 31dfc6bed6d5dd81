import SovereignMobile.Codec.Base64
import SovereignMobile.Text.ScriptCalls
import Mathlib.Data.List.Infix

/-! # The script that answers a fetch

`ZhtpFetchBridge.fetch` of `Web4ReactWebView.kt` answers a page by a script, which it builds around the
MIME type, the body in base64 or the message of the exception. Texts are of UTF-16 code units, as in
Kotlin. -/

namespace Web4ReactWebView

open ScriptLiterals List Bool

/-- An exception by its message, which may be null. -/
abbrev Result (α : Type) := Except (Option Text) α

/-- The path and the query as `android.net.Uri` gives them, with their escapes decoded. -/
structure Uri where
  path : Option Text
  query : Option Text := none

structure Request where
  url : Text
  method : Text
  headersJson : Text
  body : Option (List UInt8)
  timeoutSecs : Nat
  insecure : Bool
  alpn : Text

/-- `status` is a number or else as good as missing. -/
structure Response where
  status : Option Int
  body : Option (List UInt8)

structure ResolvedFile where
  mime : Text
  length : Nat
  readBytes : Result (List UInt8)

abbrev Runtime := Text → Text → Result (Option ResolvedFile)

structure View where
  domain : Option Text := none
  embeddedApp : Option Text := none
  hostHeader : Option Text := none
  nodeHost : Option Text := none
  nodePort : Int := 0
  /-- `Web4Runtime.resolveFile` -/
  runtime : Option Runtime := none

structure Platform where
  /-- An asset that can be opened, and what reading it gives. -/
  assets : Text → Option (Result (List UInt8))
  requestBytes : Request → Option Response
  lowercase : Text → Text

def maxFetchSize : Nat := 1024 * 1024

def tooLarge (size : Nat) : Text :=
  text "File too large for fetch (" ++ ofInt size ++ text " bytes). Max: " ++ ofInt maxFetchSize

/-! ## Embedded assets -/

structure EmbeddedResolved where
  mime : Text
  stream : Result (List UInt8)

def EmbeddedResolved.readAllBytes (res : EmbeddedResolved) (max : Nat) : Result (List UInt8) := do
  let bytes ← res.stream
  if bytes.length > max then throw (some (tooLarge bytes.length)) else pure bytes

/-- For comparing with the letters of a suffix: `ſ` is an `S` too. -/
def upper (c : UInt16) : UInt16 :=
  if 97 ≤ c.toNat ∧ c.toNat ≤ 122 then c - 32 else if c = 0x17F then 83 else c

def endsWithIgnoringCase (s suffix : Text) : Bool :=
  suffix.length ≤ s.length ∧ (s.drop (s.length - suffix.length)).map upper = suffix.map upper

def mimeOf (trimmed : Text) : Text :=
  if endsWithIgnoringCase trimmed (text ".html") then text "text/html"
  else if endsWithIgnoringCase trimmed (text ".css") then text "text/css"
  else if endsWithIgnoringCase trimmed (text ".js") then text "application/javascript"
  else if endsWithIgnoringCase trimmed (text ".wasm") then text "application/wasm"
  else text "application/octet-stream"

def isApi (path : Text) : Bool := path = text "/api" ∨ text "/api/" <+: path

def resolveEmbeddedAsset (P : Platform) (app path : Text) : Option EmbeddedResolved :=
  let rel := if path = [] ∨ path = text "/" then text "/index.html" else path
  if text ".." <:+: rel then none
  else
    let trimmed := if text "/" <+: rel then rel.drop 1 else rel
    match P.assets (text "web4apps/" ++ app ++ text "/" ++ trimmed) with
    | some stream => some ⟨mimeOf trimmed, stream⟩
    | none =>
      if isApi rel then none
      -- a route of the page
      else (P.assets (text "web4apps/" ++ app ++ text "/index.html")).map fun stream =>
        ⟨text "text/html", stream⟩

/-! ## fetch -/

structure Answer where
  status : Int
  mime : Text
  body : List UInt8

def Uri.pathOrRoot (uri : Uri) : Text :=
  match uri.path with
  | none => text "/"
  | some path => if path = [] then text "/" else path

/-- The proxy. -/
def requestNode (P : Platform) (v : View) (currentDomain path : Text) (uri : Uri) : Result Answer :=
  match v.nodeHost with
  | none => .error (some (text "No node host configured"))
  | some host =>
    if v.nodePort = 0 then .error (some (text "No node port configured"))
    else
      let base := text "quic://" ++ host ++ text ":" ++ ofInt v.nodePort
      let hh := P.lowercase (v.hostHeader.getD currentDomain)
      let query := (uri.query.map fun q => text "?" ++ q).getD []
      let request : Request := {
        url := base ++ path ++ query
        method := text "GET"
        headersJson :=
          text "\x7b\"content-type\":\"application/json\",\"Host\":\"" ++ hh ++ text "\"\x7d"
        body := none
        timeoutSecs := 30
        insecure := true
        alpn := text "public" }
      match P.requestBytes request with
      | none => .error (some (text "Node request failed"))
      | some response =>
        .ok ⟨response.status.getD 200, text "application/json", response.body.getD []⟩

/-- What is read is measured once more. -/
def measured (mime : Text) (data : List UInt8) : Result Answer :=
  if data.length > maxFetchSize then .error (some (tooLarge data.length)) else .ok ⟨200, mime, data⟩

def fetchEmbedded (P : Platform) (v : View) (currentDomain embedded path : Text) (uri : Uri) :
    Result Answer :=
  match resolveEmbeddedAsset P embedded path with
  | some res => do
    let data ← res.readAllBytes maxFetchSize
    measured res.mime data
  | none =>
    if isApi path then requestNode P v currentDomain path uri
    else .error (some (text "Not found: " ++ path))

def fetchResolved (runtime : Option Runtime) (currentDomain path : Text) : Result Answer :=
  match runtime with
  | none => .error (some (text "Runtime not ready"))
  | some resolveFile => do
    let resolved ← resolveFile currentDomain path
    match resolved with
    | none => .error (some (text "Not found: " ++ path))
    | some file => do
      if file.length > maxFetchSize then throw (some (tooLarge file.length))
      let data ← file.readBytes
      measured file.mime data

/-- What the `try` of `fetch` comes to. -/
def answer (P : Platform) (v : View) (uri : Uri) : Result Answer :=
  match v.domain with
  | none => .error (some (text "No domain configured"))
  | some currentDomain =>
    match v.embeddedApp with
    | some embedded => fetchEmbedded P v currentDomain embedded uri.pathOrRoot uri
    | none => fetchResolved v.runtime currentDomain uri.pathOrRoot

/-- `Base64.encodeToString` with `NO_WRAP` -/
def base64 (bytes : List UInt8) : Text :=
  Base64.encode (fun n => unit (Base64.symbol n)) (text "=") bytes

/-- The script that is evaluated. -/
def script (callbackId : Text) : Result Answer → Text
  | .ok a =>
    text "window['" ++ callbackId ++ text "'](true, " ++ ofInt a.status ++ text ", '" ++ a.mime ++
      text "', '" ++ base64 a.body ++ text "', null)"
  | .error message =>
    let errorMsg := (message.map escapeQuotes).getD (text "Unknown error")
    text "window['" ++ callbackId ++ text "'](false, 500, '', '', '" ++ errorMsg ++ text "')"

def fetch (P : Platform) (v : View) (uri : Uri) (callbackId : Text) : Text :=
  script callbackId (answer P v uri)

/-! ## The call that is meant -/

def call (callbackId : Text) : Result Answer → Call
  | .ok a => ⟨callbackId, [.bool true, .number a.status, .string a.mime, .string (base64 a.body), .null]⟩
  | .error message =>
    ⟨callbackId,
      [.bool false, .number 500, .string [], .string [], .string (message.getD (text "Unknown error"))]⟩

/-- The text of an exception survives its quotes being escaped. -/
def Sayable (message : Option Text) : Prop := ∀ m, message = some m → Unescaped m

theorem sayable_some {m : Text} : Sayable (some m) ↔ Unescaped m :=
  ⟨fun h => h m rfl, fun h _ hm => Option.some.inj hm ▸ h⟩

/-- The text of an answer survives the quotes. -/
def Quotable : Result Answer → Prop
  | .ok a => Plain a.mime
  | .error message => Sayable message

theorem plain_base64 (bytes : List UInt8) : Plain (base64 bytes) := by
  have hsymbol : ∀ n < 64, unit (Base64.symbol n) ≠ quote ∧ unit (Base64.symbol n) ≠ backslash ∧
      isLineBreak (unit (Base64.symbol n)) = false := by decide
  have hpad : Plain (text "=") := by decide
  exact Base64.forall_mem_encode hsymbol hpad bytes

theorem literal_message (message : Option Text) :
    Literal ((message.map escapeQuotes).getD (text "Unknown error"))
      (message.getD (text "Unknown error")) (Sayable message) := by
  intro tail r
  cases message with
  | none =>
    have hplain : Plain (text "Unknown error") := by decide
    have hsayable : Sayable none := fun m hm => nomatch hm
    exact (literal_raw _).trans (and_congr_left' (iff_of_true hplain hsayable))
  | some m =>
    exact (literal_escaped m).trans (and_congr_left' sayable_some.symm)

theorem script_ok (callbackId : Text) (a : Answer) :
    parseCall (script callbackId (.ok a)) = some (call callbackId (.ok a)) ↔
      Plain callbackId ∧ Plain a.mime := by
  have hscript : script callbackId (.ok a) = text "window['" ++ (callbackId ++ quote :: (text "](" ++
      (text "true" ++ comma :: space :: (ofInt a.status ++ comma :: space :: quote :: (a.mime ++
        quote :: comma :: space :: quote :: (base64 a.body ++ quote :: comma :: text " null)")))))) := by
    simp only [script, append_assoc]
    rfl
  have hnull : ∀ n, arguments (n + 1) (text " null)") = some ([.null], []) := fun _ => rfl
  rw [hscript, call, parseCall_iff (literal_raw callbackId)]
  generalize hargs : text "true" ++ comma :: space :: (ofInt a.status ++ _) = args
  obtain ⟨n, hn⟩ : ∃ n, args.length = n + 5 := by
    refine ⟨args.length - 5, (Nat.sub_add_cancel ?_).symm⟩
    rw [← hargs]
    simp [text]
  rw [hn, ← hargs, arguments_known rfl, arguments_space,
    arguments_known (argument_ofInt a.status (by decide) _), arguments_space,
    arguments_literal (literal_raw a.mime), arguments_space,
    arguments_literal (literal_raw (base64 a.body))]
  exact and_congr_right' ⟨fun h => h.1, fun h => ⟨h, plain_base64 a.body, rfl⟩⟩

theorem script_error (callbackId : Text) (message : Option Text) :
    parseCall (script callbackId (.error message)) = some (call callbackId (.error message)) ↔
      Plain callbackId ∧ Sayable message := by
  have hscript : script callbackId (.error message) = text "window['" ++ (callbackId ++ quote ::
      (text "](" ++ (text "false" ++ comma :: space :: (text "500" ++ comma :: space :: quote :: ([] ++
        quote :: comma :: space :: quote :: ([] ++ quote :: comma :: space :: quote ::
          ((message.map escapeQuotes).getD (text "Unknown error") ++ quote :: closing :: []))))))) := by
    simp only [script, append_assoc]
    rfl
  rw [hscript, call, parseCall_iff (literal_raw callbackId)]
  generalize hargs : text "false" ++ comma :: space :: (text "500" ++ _) = args
  obtain ⟨n, hn⟩ : ∃ n, args.length = n + 5 := by
    refine ⟨args.length - 5, (Nat.sub_add_cancel ?_).symm⟩
    rw [← hargs]
    simp [text]
  have hnil : Literal [] [] (Plain []) := literal_raw []
  rw [hn, ← hargs, arguments_known rfl, arguments_known rfl, arguments_space, arguments_literal hnil,
    arguments_space, arguments_literal hnil, arguments_space,
    arguments_last_literal (literal_message message)]
  have hplain : Plain [] := by decide
  exact and_congr_right' ⟨fun h => h.2.2.1, fun h => ⟨hplain, hplain, h, rfl⟩⟩

theorem script_iff (callbackId : Text) (result : Result Answer) :
    parseCall (script callbackId result) = some (call callbackId result) ↔
      Plain callbackId ∧ Quotable result := by
  cases result with
  | ok a => exact script_ok callbackId a
  | error message => exact script_error callbackId message

/-! ## Which texts reach the script

The MIME type of a file is the site's, and so is the path of what is not found. -/

theorem unescaped_append {s t : Text} : Unescaped (s ++ t) ↔ Unescaped s ∧ Unescaped t :=
  forall_mem_append

theorem unescaped_ofNat (n : Nat) : Unescaped (ofInt n) := by
  have hword : ∀ c, isWord c = true → c ≠ backslash ∧ isLineBreak c = false := by
    intro c hc
    constructor
    · rintro rfl
      exact nomatch hc
    by_contra hbreak
    rw [not_eq_false, isLineBreak, or_eq_true, decide_eq_true_eq, decide_eq_true_eq] at hbreak
    rcases hbreak with rfl | rfl
    · exact nomatch hc
    · exact nomatch hc
  intro c hc
  obtain ⟨d, hd, rfl⟩ := mem_map.1 hc
  exact hword _ (isWord_unit (Decimals.digits_toDigits n d hd))

theorem sayable_tooLarge (size : Nat) : Sayable (some (tooLarge size)) := by
  have hfirst : Unescaped (text "File too large for fetch (") := by decide
  have hlast : Unescaped (text " bytes). Max: ") := by decide
  rw [sayable_some, tooLarge, unescaped_append, unescaped_append, unescaped_append]
  exact ⟨⟨⟨hfirst, unescaped_ofNat size⟩, hlast⟩, unescaped_ofNat maxFetchSize⟩

theorem sayable_notFound (path : Text) :
    Sayable (some (text "Not found: " ++ path)) ↔ Unescaped path := by
  have hfirst : Unescaped (text "Not found: ") := by decide
  rw [sayable_some, unescaped_append]
  exact and_iff_right hfirst

theorem plain_mimeOf (trimmed : Text) : Plain (mimeOf trimmed) := by
  unfold mimeOf
  split_ifs <;> decide

theorem resolveEmbeddedAsset_mime {P : Platform} {app path : Text} {res : EmbeddedResolved}
    (h : resolveEmbeddedAsset P app path = some res) : Plain res.mime := by
  simp only [resolveEmbeddedAsset] at h
  generalize (if path = [] ∨ path = text "/" then text "/index.html" else path) = rel at h
  split at h
  · cases h
  split at h
  · cases h
    exact plain_mimeOf _
  split at h
  · cases h
  obtain ⟨stream, _, rfl⟩ := Option.map_eq_some_iff.1 h
  show Plain (text "text/html")
  decide

theorem quotable_requestNode (P : Platform) (v : View) (currentDomain path : Text) (uri : Uri) :
    Quotable (requestNode P v currentDomain path uri) := by
  unfold requestNode
  split
  · exact sayable_some.2 (by decide)
  split
  · exact sayable_some.2 (by decide)
  dsimp only
  split
  · exact sayable_some.2 (by decide)
  · show Plain (text "application/json")
    decide

/-- What the MIME type must be, of data that is not too large. -/
theorem quotable_measured (mime : Text) (data : List UInt8) :
    Quotable (measured mime data) ↔ (data.length ≤ maxFetchSize → Plain mime) := by
  unfold measured
  split
  · rename_i hlarge
    exact iff_of_true (sayable_tooLarge _) fun hle => absurd hlarge (Nat.not_lt.2 hle)
  · rename_i hsmall
    exact ⟨fun h _ => h, fun h => h (Nat.not_lt.1 hsmall)⟩

/-- For a file that was found: its MIME type, unless it is too large, or the message if it cannot be
    read. -/
def ResolvedFile.Clean (file : ResolvedFile) : Prop :=
  file.length ≤ maxFetchSize → match file.readBytes with
    | .ok data => data.length ≤ maxFetchSize → Plain file.mime
    | .error message => Sayable message

/-- Every text that the inputs bring to the script can stand between its quotes. -/
def Clean (P : Platform) (v : View) (uri : Uri) : Prop :=
  match v.domain, v.embeddedApp, v.runtime with
  | none, _, _ => True
  | some _, some embedded, _ =>
    match resolveEmbeddedAsset P embedded uri.pathOrRoot with
    | some res => ∀ message, res.stream = .error message → Sayable message
    | none => isApi uri.pathOrRoot = false → Unescaped uri.pathOrRoot
  | some _, none, none => True
  | some currentDomain, none, some resolveFile =>
    match resolveFile currentDomain uri.pathOrRoot with
    | .error message => Sayable message
    | .ok none => Unescaped uri.pathOrRoot
    | .ok (some file) => file.Clean

theorem quotable_fetchEmbedded (P : Platform) (v : View) (currentDomain embedded : Text) (uri : Uri) :
    Quotable (fetchEmbedded P v currentDomain embedded uri.pathOrRoot uri) ↔
      match resolveEmbeddedAsset P embedded uri.pathOrRoot with
      | some res => ∀ message, res.stream = .error message → Sayable message
      | none => isApi uri.pathOrRoot = false → Unescaped uri.pathOrRoot := by
  unfold fetchEmbedded
  cases hres : resolveEmbeddedAsset P embedded uri.pathOrRoot with
  | none =>
    dsimp only
    split
    · rename_i hapi
      exact iff_of_true (quotable_requestNode P v currentDomain _ uri) fun h =>
        nomatch hapi.symm.trans h
    · rename_i hapi
      rw [not_eq_true] at hapi
      exact (sayable_notFound _).trans ⟨fun h _ => h, fun h => h hapi⟩
  | some res =>
    dsimp only
    rw [EmbeddedResolved.readAllBytes]
    cases hstream : res.stream with
    | error message =>
      exact ⟨fun h m hm => Except.error.inj hm ▸ h, fun h => h message rfl⟩
    | ok data =>
      refine iff_of_true ?_ fun m hm => nomatch hm
      show Quotable (Except.bind (if data.length > maxFetchSize then _ else _) _)
      split
      · exact sayable_tooLarge _
      · exact (quotable_measured _ _).2 fun _ => resolveEmbeddedAsset_mime hres

theorem quotable_fetchResolved (resolveFile : Runtime) (currentDomain path : Text) :
    Quotable (fetchResolved (some resolveFile) currentDomain path) ↔
      match resolveFile currentDomain path with
      | .error message => Sayable message
      | .ok none => Unescaped path
      | .ok (some file) => file.Clean := by
  simp only [fetchResolved]
  cases resolveFile currentDomain path with
  | error message => exact .rfl
  | ok resolved =>
    cases resolved with
    | none => exact sayable_notFound path
    | some file =>
      simp only [bind, Except.bind]
      unfold ResolvedFile.Clean
      by_cases hlarge : file.length > maxFetchSize
      · rw [if_pos hlarge]
        exact iff_of_true (sayable_tooLarge _) fun hle => absurd hlarge (Nat.not_lt.2 hle)
      rw [if_neg hlarge]
      have hle : file.length ≤ maxFetchSize := Nat.not_lt.1 hlarge
      cases hread : file.readBytes with
      | error message => exact ⟨fun h _ => h, fun h => h hle⟩
      | ok data => exact (quotable_measured _ _).trans ⟨fun h _ => h, fun h => h hle⟩

theorem quotable_answer (P : Platform) (v : View) (uri : Uri) :
    Quotable (answer P v uri) ↔ Clean P v uri := by
  unfold answer Clean
  cases v.domain with
  | none => exact iff_of_true (sayable_some.2 (by decide)) trivial
  | some currentDomain =>
    cases v.embeddedApp with
    | some embedded => exact quotable_fetchEmbedded P v currentDomain embedded uri
    | none =>
      cases v.runtime with
      | none => exact iff_of_true (sayable_some.2 (by decide)) trivial
      | some resolveFile => exact quotable_fetchResolved resolveFile currentDomain _

/-- The script is the call that is meant exactly if all that it quotes is clean. -/
theorem fetch_parses_iff (P : Platform) (v : View) (uri : Uri) (callbackId : Text) :
    parseCall (fetch P v uri callbackId) = some (call callbackId (answer P v uri)) ↔
      Plain callbackId ∧ Clean P v uri := by
  rw [fetch, script_iff, quotable_answer]

/-! ## A path that ends the literal -/

def nothingThere : Platform := ⟨fun _ => none, fun _ => none, id⟩

/-- The site has no such file. -/
def openSite : View := { domain := some (text "site"), runtime := some fun _ _ => .ok none }

/-- The escape of the quote is escaped by the path, and the rest of it runs. -/
theorem fetch_injects :
    ¬∀ (P : Platform) (v : View) (uri : Uri) (callbackId : Text), Plain callbackId →
      parseCall (fetch P v uri callbackId) = some (call callbackId (answer P v uri)) := by
  intro h
  have hcall := h nothingThere openSite ⟨some (text "/\\');alert(1)//"), none⟩ (text "__web4_a1b2c3")
    (by decide)
  exact nomatch hcall

end Web4ReactWebView
