import Mathlib.Algebra.Ring.Nat
import Mathlib.Data.List.Infix
import SovereignMobile.Identity.HandleStore

/-! # Identities and sessions

The types that `AuthContext` and the services under it pass around, and what of an identity is stored:
`SecureIdentityStorage` writes seven of its fields as JSON. -/

namespace Auth

abbrev Did := String

abbrev Password := String

inductive IdentityType where
  | citizen | human | organization | developer | validator
  deriving DecidableEq

/-- `createdAt?: string | number`. A number that is not finite has no JSON form, and is read back as
    `null`. -/
inductive CreatedAt where
  | text (s : String)
  | number (n : Int)
  | notFinite
  | null
  deriving DecidableEq

structure Identity where
  did : Did
  identityId : Option String := none
  displayName : String
  username : Option String := none
  identityType : IdentityType := .human
  avatar : Option String := none
  createdAt : Option CreatedAt := none
  citizenship : Option Bool := none
  deviceId : Option String := none
  masterSeedPhrase : Option String := none
  deriving DecidableEq

/-- What the Keychain entry and the backup hold: an object of these seven fields, as JSON. -/
structure StoredIdentity where
  did : Did
  displayName : String
  identityType : IdentityType
  avatar : Option String
  createdAt : Option CreatedAt
  citizenship : Option Bool
  identityId : Option String
  deriving DecidableEq

/-- A value that went through JSON. -/
def CreatedAt.viaJson : CreatedAt → CreatedAt
  | .notFinite => .null
  | c => c

/-- `JSON.stringify({ did: identity.did, … })` -/
def Identity.stringify (i : Identity) : StoredIdentity where
  did := i.did
  displayName := i.displayName
  identityType := i.identityType
  avatar := i.avatar
  createdAt := i.createdAt.map CreatedAt.viaJson
  citizenship := i.citizenship
  identityId := i.identityId

/-- `JSON.parse(…) as Identity` -/
def StoredIdentity.parse (d : StoredIdentity) : Identity where
  did := d.did
  identityId := d.identityId
  displayName := d.displayName
  identityType := d.identityType
  avatar := d.avatar
  createdAt := d.createdAt
  citizenship := d.citizenship

@[simp] theorem stringify_did (i : Identity) : i.stringify.did = i.did := rfl

theorem viaJson_eq_self_iff (c : CreatedAt) : c.viaJson = c ↔ c ≠ .notFinite := by
  cases c <;> simp [CreatedAt.viaJson]

structure LobbySession where
  sessionToken : String
  sessionKeyB64 : String
  did : Did
  username : String
  accessZone : String
  createdAt : Nat
  deriving DecidableEq

/-! ## Text -/

/-- White space of JavaScript, with the line ends and the byte order mark. -/
def isSpace (c : Char) : Bool :=
  (0x09 ≤ c.val && c.val ≤ 0x0D) || c.val = 0xFEFF || NativeIdentityProvisioning.isSeparator c

def trim : String → String := NativeIdentityProvisioning.trimWith isSpace

/-- `replaceAll(/\s+/g, '_')`; `inSpaces` after a space. -/
def underscoreSpaces (inSpaces : Bool) : List Char → List Char
  | [] => []
  | c :: cs =>
    if isSpace c then (if inSpaces then [] else ['_']) ++ underscoreSpaces true cs
    else c :: underscoreSpaces false cs

/-- `toLowerCase` of the ASCII letters. -/
def toLowerCase (s : String) : String := String.ofList (s.toList.map Char.toLower)

/-- `split(/\s+/).filter(Boolean)` -/
def words (s : String) : List String :=
  ((s.toList.splitOnP isSpace).filter fun cs => !cs.isEmpty).map String.ofList

/-- A string that is there and not empty. -/
def truthy (s : Option String) : Option String := s.filter fun x => x ≠ ""

/-- `a || b`, where the empty string is false. -/
def orElse (a b : String) : String := if a = "" then b else a

/-- `String.length` of JavaScript. -/
def utf16Length (s : String) : Nat := (s.toList.map fun c => if c.val < 0x10000 then 1 else 2).sum

def stripDidPrefix (did : Did) : String :=
  if NativeIdentityProvisioning.startsWithDid did then String.ofList (did.toList.drop 9) else did

/-- `did:zhtp:` and 64 digits that `isDigit` admits. -/
def isDidOf (isDigit : Char → Bool) (did : Did) : Bool :=
  let digits := did.toList.drop 9
  NativeIdentityProvisioning.startsWithDid did && digits.length = 64 && digits.all isDigit

def isLowerHexDigit (c : Char) : Bool := ('0' ≤ c && c ≤ '9') || ('a' ≤ c && c ≤ 'f')

/-- `/^did:zhtp:[0-9a-f]{64}$/.test(did)` -/
def isLoginDid : Did → Bool := isDidOf isLowerHexDigit

/-- `isValidDid`, which does not look at the case. -/
def isValidDid (did : Did) : Bool := isDidOf isLowerHexDigit (toLowerCase did)

/-- `text.includes(part)` -/
def includes (text part : String) : Bool := decide (part.toList <:+: text.toList)

end Auth
