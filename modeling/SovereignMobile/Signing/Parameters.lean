import SovereignMobile.Signing.Supply

/-! # What the signers hand to lib-client

Every signing method takes an object of parameters from JavaScript
(`NativeIdentityProvisioning.ts`), reads it on Android (`NativeIdentityProvisioning.kt`,
`identity_jni.rs`) or on iOS (`NativeIdentityProvisioning.swift`, `ZhtpClient.swift`), and calls a
lib-client builder. Each method is embedded as the list of the arguments of its builder, on both
platforms, beside the list of the values that JavaScript supplied. An argument is `none` where the
method rejects the call instead of passing one. -/

namespace NativeIdentityProvisioning

/-- An argument of a builder. `absent` is an argument that is left out, `js` a number that no integer
    argument can stand for. -/
inductive Value where
  | bytes (b : List UInt8)
  | number (n : Int)
  | text (s : String)
  | js (x : JsNumber)
  | manifest (cid hash : List UInt8)
  | absent
deriving DecidableEq

/-- The conversions of Foundation that the signers rely on: numbers that fit are kept, and a decimal
    digit has its value. -/
structure Ios.Foundation extends Ios.NSNumber where
  wholeNumberValue : Char → Option Nat
  uint64Value_lt : ∀ x, uint64Value x < 2 ^ 64
  uint64Value_nat : ∀ n : Nat, n < 2 ^ 64 → uint64Value (.finite n) = n
  intValue_nat : ∀ n : Nat, n < 2 ^ 63 → intValue (.finite n) = n
  uint8Value_nat : ∀ n : Nat, n < 256 → uint8Value (.finite n) = n
  wholeNumberValue_digit : ∀ c : Char, c.isDigit = true → wholeNumberValue c = some (c.toNat - 48)

/-- What the methods find outside of their parameters: whether an identity is loaded, the nonce that
    the node reports to Android, which texts `serde_json` takes for content mappings and for a JSON
    value, and lib-client's `DEFAULT_DOMAIN_CHAIN_ID`. -/
structure Env where
  hasIdentity : Bool
  fetchedNonce : Option Nat
  parsesMappings : String → Bool
  parsesJson : String → Bool
  defaultDomainChainId : Nat
  ios : Ios.Foundation

/-! ## Parameters -/

structure TokenTransferParams where
  tokenId : String
  toAddress : String
  amount : String
  nonce : JsNumber

structure SovWalletTransferParams where
  fromWalletId : String
  toWalletId : String
  amount : String
  nonce : JsNumber
  chainId : Option JsNumber

structure TokenWalletTransferParams extends SovWalletTransferParams where
  tokenId : String

structure AssetLaunchParams where
  name : String
  symbol : String
  initialSupplyAtomsLo : StringOrNumber
  initialSupplyAtomsHi : Option StringOrNumber
  decimals : Option JsNumber
  treasuryKeyIdHex : String
  daoClass : Option JsNumber
  burnBps : Option JsNumber
  chainId : Option JsNumber
  manifestCidHex : Option String
  manifestHashHex : Option String

structure DomainRegisterParams where
  domain : String
  contentMappingsJson : Option String
  feePaymentTxHex : String

structure DomainRegisterWithFeePaymentParams extends DomainRegisterParams where
  metadataJson : Option String
  chainId : Option JsNumber
  assetIdHex : Option String

structure DomainFeePaymentParams where
  senderWalletIdHex : String
  treasuryWalletIdHex : Option String
  amountAtoms : String
  nonce : JsNumber
  chainId : Option JsNumber

structure DomainUpdateParams where
  domain : String
  newManifestCid : String
  expectedPreviousManifestCid : String

structure DomainTransferParams where
  domain : String
  toOwnerDid : String

inductive SignCall where
  | tokenTransfer (p : TokenTransferParams)
  | sovWalletTransfer (p : SovWalletTransferParams)
  | tokenWalletTransfer (p : TokenWalletTransferParams)
  | assetLaunch (p : AssetLaunchParams)
  | domainRegister (p : DomainRegisterParams)
  | domainRegisterWithFeePayment (p : DomainRegisterWithFeePaymentParams)
  | domainFeePayment (p : DomainFeePaymentParams)
  | domainUpdate (p : DomainUpdateParams)
  | domainTransfer (p : DomainTransferParams)

/-! ## The values of JavaScript -/

/-- A decimal number of at most 128 bits, in ASCII digits. -/
def Decimal128 (cs : List Char) : Prop :=
  cs ≠ [] ∧ (∀ c ∈ cs, c.isDigit = true) ∧ AssetService.bigInt cs < 2 ^ 128

instance (cs : List Char) : Decidable (Decimal128 cs) :=
  decidable_of_iff (cs ≠ [] ∧ cs.all Char.isDigit = true ∧ AssetService.bigInt cs < 2 ^ 128)
    (by rw [Decimal128, List.all_eq_true])

def JsNumber.toNat? : JsNumber → Option Nat
  | .finite q => if q.den = 1 ∧ 0 ≤ q.num then some q.num.toNat else none
  | _ => none

namespace Supplied

def hexId (s : String) : Value :=
  match addressBytes s with
  | some id => .bytes id
  | none => .text s

def amount (s : String) : Value :=
  if Decimal128 s.toList then .number (AssetService.bigInt s.toList) else .text s

def number (x : JsNumber) : Value :=
  match JsNumber.toNat? x with
  | some n => .number n
  | none => .js x

def supplyHalf : StringOrNumber → Value
  | .string s =>
    match Ios.uint64 s with
    | some n => .number n
    | none => .text s
  | .number x => number x

/-- A DID stands for the key that it names. -/
def owner (did : String) : Value := hexId (removeDidPrefix did)

/-- An empty string leaves the treasury to lib-client. -/
def treasury : Option String → Option Value
  | none => none
  | some s => if s = "" then none else some (hexId s)

def isOmitted : Option String → Bool
  | none => true
  | some s => s = ""

def manifest (cid hash : Option String) : Option Value :=
  if isOmitted cid && isOmitted hash then none
  else
    match cid.bind addressBytes, hash.bind addressBytes with
    | some c, some h => some (.manifest c h)
    | _, _ => some (.text (cid.getD "" ++ hash.getD ""))

def tokenTransfer (p : TokenTransferParams) : List (Option Value) :=
  [some (hexId p.tokenId), some (hexId p.toAddress), some (amount p.amount), none,
   some (number p.nonce)]

def sovWalletTransfer (p : SovWalletTransferParams) : List (Option Value) :=
  [some (hexId p.fromWalletId), some (hexId p.toWalletId), some (amount p.amount),
   p.chainId.map number, some (number p.nonce)]

def tokenWalletTransfer (p : TokenWalletTransferParams) : List (Option Value) :=
  some (hexId p.tokenId) :: sovWalletTransfer p.toSovWalletTransferParams

def assetLaunch (p : AssetLaunchParams) : List (Option Value) :=
  [some (.text p.name), some (.text p.symbol), some (supplyHalf p.initialSupplyAtomsLo),
   p.initialSupplyAtomsHi.map supplyHalf, p.decimals.map number, some (hexId p.treasuryKeyIdHex),
   p.daoClass.map number, p.burnBps.map number, p.chainId.map number,
   manifest p.manifestCidHex p.manifestHashHex]

def domainRegister (p : DomainRegisterParams) : List (Option Value) :=
  [some (.text p.domain), p.contentMappingsJson.map .text, some (.text p.feePaymentTxHex)]

def domainRegisterWithFeePayment (p : DomainRegisterWithFeePaymentParams) : List (Option Value) :=
  domainRegister p.toDomainRegisterParams ++
    [p.metadataJson.map .text, p.chainId.map number, p.assetIdHex.map .text]

def domainFeePayment (p : DomainFeePaymentParams) : List (Option Value) :=
  [some (hexId p.senderWalletIdHex), treasury p.treasuryWalletIdHex, some (amount p.amountAtoms),
   some (number p.nonce), p.chainId.map number]

def domainUpdate (p : DomainUpdateParams) : List (Option Value) :=
  [some (.text p.domain), some (.text p.newManifestCid), some (.text p.expectedPreviousManifestCid)]

def domainTransfer (p : DomainTransferParams) : List (Option Value) :=
  [some (.text p.domain), some (owner p.toOwnerDid)]

def args : SignCall → List (Option Value)
  | .tokenTransfer p => tokenTransfer p
  | .sovWalletTransfer p => sovWalletTransfer p
  | .tokenWalletTransfer p => tokenWalletTransfer p
  | .assetLaunch p => assetLaunch p
  | .domainRegister p => domainRegister p
  | .domainRegisterWithFeePayment p => domainRegisterWithFeePayment p
  | .domainFeePayment p => domainFeePayment p
  | .domainUpdate p => domainUpdate p
  | .domainTransfer p => domainTransfer p

end Supplied

/-! ## Android -/

namespace Android

/-- `parseAmountAtoms`, then `parse_amount_atoms` of the JNI. Where `\d` matches a digit that is not
    ASCII, the latter rejects it. -/
def parseAmountAtoms (s : String) : Option Nat :=
  let str := (trim s).toList
  if Decimal128 str then some (AssetService.bigInt str) else none

/-- `getDouble(…).toLong()`, then `nonce as u64` -/
def readNonce (x : JsNumber) : Value := .number (doubleToLong x % 2 ^ 64)

/-- `getInt`: towards zero, within the range of `Int`. -/
def getInt : JsNumber → Int
  | .nan => 0
  | .infinity negative => if negative then -2 ^ 31 else 2 ^ 31 - 1
  | .finite q => max (-2 ^ 31) (min (2 ^ 31 - 1) (JsNumber.truncate q))

/-- `chain_id as u8` -/
def chainId : Option JsNumber → Value
  | none => .number 3
  | some x => .number (getInt x % 256)

def hexId (signer : Signer) (s : String) : Option Value := (readId signer s).map .bytes

def amount (s : String) : Option Value := (parseAmountAtoms s).map fun n : Nat => .number n

/-- A text that must not be empty. -/
def required (s : String) : Option Value := if s = "" then none else some (.text s)

/-- Numbers of a launch go to the JNI as they are. -/
def launchInt (default : Int) : Option JsNumber → Value
  | none => .number default
  | some x => .number (getInt x)

def supplyLo (v : StringOrNumber) : Option Value :=
  (parseAmount v).map fun n => .number (n % 2 ^ 64)

/-- What cannot be parsed is 0. -/
def supplyHi : Option StringOrNumber → Value
  | none => .number 0
  | some v => .number ((parseAmount v).getD 0 % 2 ^ 64)

/-- `isNullOrBlank` -/
def isNullOrBlank : Option String → Bool
  | none => true
  | some s => trim s = ""

def manifestBytes (s : Option String) : Option (List UInt8) :=
  s.bind fun s => hexToBytes (stripHexPrefix s.toList)

def manifest (cid hash : Option String) : Option Value :=
  match isNullOrBlank cid, isNullOrBlank hash with
  | true, true => some .absent
  | false, false =>
    match manifestBytes cid, manifestBytes hash with
    | some c, some h => some (.manifest c h)
    | _, _ => none
  | _, _ => none

/-- `serde_json::from_str(&json).ok()`: what is not parsed is left out. -/
def parsed (parses : String → Bool) : Option String → Value
  | none => .absent
  | some json => if parses json then .text json else .absent

/-- An empty string leaves the treasury to lib-client. -/
def treasury : Option String → Option Value
  | none => some .absent
  | some s => if s = "" then some .absent else hexId .walletTransfer s

variable (E : Env)

/-- The nonce of the parameters is passed over for one that the node is asked for. -/
def signTokenTransferTransaction (p : TokenTransferParams) : List (Option Value) :=
  [hexId .tokenTransfer p.tokenId, hexId .tokenTransfer p.toAddress, amount p.amount,
   some (.number 3), E.fetchedNonce.map fun n : Nat => .number n]

def signSovWalletTransferTransaction (p : SovWalletTransferParams) : List (Option Value) :=
  [hexId .walletTransfer p.fromWalletId, hexId .walletTransfer p.toWalletId, amount p.amount,
   some (chainId p.chainId), some (readNonce p.nonce)]

def signTokenWalletTransferTransaction (p : TokenWalletTransferParams) : List (Option Value) :=
  hexId .walletTransfer p.tokenId :: signSovWalletTransferTransaction p.toSovWalletTransferParams

def signAssetLaunchTransaction (p : AssetLaunchParams) : List (Option Value) :=
  [required p.name, required p.symbol, supplyLo p.initialSupplyAtomsLo,
   some (supplyHi p.initialSupplyAtomsHi), some (launchInt 18 p.decimals),
   hexId .assetLaunch p.treasuryKeyIdHex, some (launchInt 0 p.daoClass),
   some (launchInt 0 p.burnBps), some (launchInt 3 p.chainId),
   manifest p.manifestCidHex p.manifestHashHex]

def signDomainRegisterRequest (p : DomainRegisterParams) : List (Option Value) :=
  [required p.domain, some (parsed E.parsesMappings p.contentMappingsJson),
   required p.feePaymentTxHex]

/-- `effective_chain_id`: 0 stands for lib-client's default. -/
def domainChainId : Option JsNumber → Value
  | none => .number 3
  | some x => if getInt x = 0 then .number E.defaultDomainChainId else .number (getInt x % 256)

/-- The JNI function has no parameter for the asset id that Kotlin passes to it. -/
def signDomainRegisterRequestWithFeePayment (p : DomainRegisterWithFeePaymentParams) :
    List (Option Value) :=
  signDomainRegisterRequest E p.toDomainRegisterParams ++
    [some (parsed E.parsesJson p.metadataJson), some (domainChainId E p.chainId), some .absent]

def signDomainFeePaymentTx (p : DomainFeePaymentParams) : List (Option Value) :=
  [hexId .walletTransfer p.senderWalletIdHex, treasury p.treasuryWalletIdHex,
   amount p.amountAtoms, some (readNonce p.nonce), some (chainId p.chainId)]

def signDomainUpdateRequest (p : DomainUpdateParams) : List (Option Value) :=
  [required p.domain, required p.newManifestCid, some (.text p.expectedPreviousManifestCid)]

/-- lib-client gets the DID itself. -/
def signDomainTransferRequest (p : DomainTransferParams) : List (Option Value) :=
  [required p.domain, if p.toOwnerDid = "" then none else some (Supplied.owner p.toOwnerDid)]

def args : SignCall → List (Option Value)
  | .tokenTransfer p => signTokenTransferTransaction E p
  | .sovWalletTransfer p => signSovWalletTransferTransaction p
  | .tokenWalletTransfer p => signTokenWalletTransferTransaction p
  | .assetLaunch p => signAssetLaunchTransaction p
  | .domainRegister p => signDomainRegisterRequest E p
  | .domainRegisterWithFeePayment p => signDomainRegisterRequestWithFeePayment E p
  | .domainFeePayment p => signDomainFeePaymentTx p
  | .domainUpdate p => signDomainUpdateRequest p
  | .domainTransfer p => signDomainTransferRequest p

end Android

/-! ## iOS -/

namespace Ios

/-- `(hi, lo) * 10 + d`, with overflow detection -/
def timesTenPlus (halves : Nat × Nat) (d : Nat) : Option (Nat × Nat) :=
  let (lo, hi) := halves
  let loMulHi := lo * 10 / 2 ^ 64
  let loMulLo := lo * 10 % 2 ^ 64
  let addedLo := (loMulLo + d) % 2 ^ 64
  let carryFromAdd := (loMulLo + d) / 2 ^ 64
  let hiMulHi := hi * 10 / 2 ^ 64
  let hiMulLo := hi * 10 % 2 ^ 64
  if hiMulHi ≠ 0 then none
  else if 2 ^ 64 ≤ hiMulLo + loMulHi then none
  else if 2 ^ 64 ≤ hiMulLo + loMulHi + carryFromAdd then none
  else some (addedLo, hiMulLo + loMulHi + carryFromAdd)

def halvesLoop (digit : Char → Option Nat) (halves : Nat × Nat) : List Char → Option (Nat × Nat)
  | [] => some halves
  | c :: cs =>
    match digit c with
    | none => none
    | some d =>
      if 9 < d then none
      else
        match timesTenPlus halves d with
        | none => none
        | some halves' => halvesLoop digit halves' cs

def parseU128Halves (digit : Char → Option Nat) (s : String) : Option (Nat × Nat) :=
  if s.toList = [] then none else halvesLoop digit (0, 0) s.toList

/-- `withCString`: up to the first zero. -/
def cString (s : String) : String := String.ofList (s.toList.takeWhile fun c => c ≠ '\x00')

def hexId (signer : Signer) (s : String) : Option Value := (readId signer s).map .bytes

def text (s : String) : Option Value := some (.text (cString s))

def optionalText : Option String → Value
  | none => .absent
  | some s => .text (cString s)

def treasury : Option String → Option Value
  | none => some .absent
  | some s => if s = "" then some .absent else hexId .walletTransfer s

def manifest (cid hash : Option String) : Option Value :=
  match Supplied.isOmitted cid, Supplied.isOmitted hash with
  | true, true => some .absent
  | false, false =>
    match cid.bind (readId .assetLaunch), hash.bind (readId .assetLaunch) with
    | some c, some h => some (.manifest c h)
    | _, _ => none
  | _, _ => none

/-- The pairs of digits; a pair that is not a number is passed over. -/
def pubkeyBytes : List Char → List UInt8
  | c :: d :: cs =>
    match uint8Radix16 c d with
    | some b => b :: pubkeyBytes cs
    | none => pubkeyBytes cs
  | _ => []

variable (E : Env)

def amount (s : String) : Option Value :=
  (parseU128Halves E.ios.wholeNumberValue s).map fun (lo, hi) => .number (hi * 2 ^ 64 + lo : Nat)

def readNonce (x : JsNumber) : Value := .number (E.ios.uint64Value x)

/-- `UInt8(truncating:)` -/
def chainId : Option JsNumber → Value
  | none => .number 3
  | some x => .number (E.ios.uint8Value x)

/-- `UInt8(truncatingIfNeeded: n.intValue)`, and `UInt16` -/
def truncating (modulus default : Int) : Option JsNumber → Value
  | none => .number default
  | some x => .number (E.ios.intValue x % modulus)

def supplyLo (v : StringOrNumber) : Option Value :=
  (supplyHalf E.ios.toNSNumber v).map fun n : Nat => .number n

def supplyHi : Option StringOrNumber → Value
  | none => .number 0
  | some v => .number ((supplyHalf E.ios.toNSNumber v).getD 0 : Nat)

def signTokenTransferTransaction (p : TokenTransferParams) : List (Option Value) :=
  [hexId .tokenTransfer p.tokenId, hexId .tokenTransfer p.toAddress, amount E p.amount,
   some (.number 3), some (readNonce E p.nonce)]

def signSovWalletTransferTransaction (p : SovWalletTransferParams) : List (Option Value) :=
  [hexId .walletTransfer p.fromWalletId, hexId .walletTransfer p.toWalletId, amount E p.amount,
   some (chainId E p.chainId), some (readNonce E p.nonce)]

def signTokenWalletTransferTransaction (p : TokenWalletTransferParams) : List (Option Value) :=
  hexId .walletTransfer p.tokenId ::
    signSovWalletTransferTransaction E p.toSovWalletTransferParams

def signAssetLaunchTransaction (p : AssetLaunchParams) : List (Option Value) :=
  [text p.name, text p.symbol, supplyLo E p.initialSupplyAtomsLo,
   some (supplyHi E p.initialSupplyAtomsHi), some (truncating E 256 18 p.decimals),
   hexId .assetLaunch p.treasuryKeyIdHex, some (truncating E 256 0 p.daoClass),
   some (truncating E 65536 0 p.burnBps), some (truncating E 256 3 p.chainId),
   manifest p.manifestCidHex p.manifestHashHex]

/-- Domain requests also get a constant chain id, where JavaScript has no parameter for it; it is left
    out here. -/
def signDomainRegisterRequest (p : DomainRegisterParams) : List (Option Value) :=
  [text p.domain, some (optionalText p.contentMappingsJson),
   if p.feePaymentTxHex = "" then none else text p.feePaymentTxHex]

/-- `buildDomainRegisterRequestWithFeePayment` passes the metadata only beside content mappings, and
    the C function has no parameter for the asset id. -/
def signDomainRegisterRequestWithFeePayment (p : DomainRegisterWithFeePaymentParams) :
    List (Option Value) :=
  [text p.domain, some (optionalText p.contentMappingsJson), text p.feePaymentTxHex,
   some (if p.contentMappingsJson = none then .absent else optionalText p.metadataJson),
   some (truncating E 256 3 p.chainId), some .absent]

def signDomainFeePaymentTx (p : DomainFeePaymentParams) : List (Option Value) :=
  [hexId .walletTransfer p.senderWalletIdHex, treasury p.treasuryWalletIdHex,
   amount E p.amountAtoms, some (readNonce E p.nonce), some (chainId E p.chainId)]

/-- The C function has no parameter for the expected previous CID. -/
def signDomainUpdateRequest (p : DomainUpdateParams) : List (Option Value) :=
  [text p.domain, text p.newManifestCid, some .absent]

/-- The C function takes the bytes of a key. -/
def signDomainTransferRequest (p : DomainTransferParams) : List (Option Value) :=
  [text p.domain, some (.bytes (pubkeyBytes (removeDidPrefix p.toOwnerDid).toList))]

def args : SignCall → List (Option Value)
  | .tokenTransfer p => signTokenTransferTransaction E p
  | .sovWalletTransfer p => signSovWalletTransferTransaction E p
  | .tokenWalletTransfer p => signTokenWalletTransferTransaction E p
  | .assetLaunch p => signAssetLaunchTransaction E p
  | .domainRegister p => signDomainRegisterRequest p
  | .domainRegisterWithFeePayment p => signDomainRegisterRequestWithFeePayment E p
  | .domainFeePayment p => signDomainFeePaymentTx E p
  | .domainUpdate p => signDomainUpdateRequest p
  | .domainTransfer p => signDomainTransferRequest p

end Ios

/-! ## The property -/

/-- All arguments, or `none` if one of them is rejected. -/
def allArgs : List (Option Value) → Option (List Value)
  | [] => some []
  | a :: as =>
    match a, allArgs as with
    | some v, some vs => some (v :: vs)
    | _, _ => none

variable {a : Option Value} {as : List (Option Value)}

theorem allArgs_cons_eq_none : allArgs (a :: as) = none ↔ a = none ∨ allArgs as = none := by
  cases a with
  | none => simp [allArgs]
  | some v => cases h : allArgs as <;> simp [allArgs, h]

theorem allArgs_cons_eq_some {vs : List Value} :
    allArgs (a :: as) = some vs ↔ ∃ v vs', a = some v ∧ allArgs as = some vs' ∧ vs = v :: vs' := by
  cases a with
  | none => simp [allArgs]
  | some v =>
    cases h : allArgs as with
    | none => simp [allArgs, h]
    | some vs' => simp [allArgs, h, eq_comm]

/-- The arguments of the builder, or `none` where the call is rejected. -/
def builderArgs (E : Env) (args : List (Option Value)) : Option (List Value) :=
  if E.hasIdentity then allArgs args else none

/-- `v` is what JavaScript supplied, if it supplied something. -/
def Carries (supplied : Option Value) (v : Value) : Prop := ∀ w, supplied = some w → v = w

/-- Both platforms reject the call, or both pass the same arguments, with every supplied value. -/
def SignCall.PassedOn (E : Env) (c : SignCall) : Prop :=
  (builderArgs E (Android.args E c) = none ∧ builderArgs E (Ios.args E c) = none) ∨
  ∃ args, builderArgs E (Android.args E c) = some args ∧
    builderArgs E (Ios.args E c) = some args ∧ List.Forall₂ Carries (Supplied.args c) args

end NativeIdentityProvisioning
