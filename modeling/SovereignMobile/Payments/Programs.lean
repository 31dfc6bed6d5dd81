import SovereignMobile.EventLoop.Basic
import SovereignMobile.Signing.Supply

/-! # Payments

The calls that fetch a nonce, have a transaction signed and post it: `transferToken`,
`transferTokenFromWallet` and `transferSov` of `TokenService.ts`, `registerDomain` of
`DomainService.ts`, and `signTokenTransferTransaction` of `NativeIdentityProvisioning.kt`, which
fetches a nonce of its own. They run on an event loop against a node that counts the transactions it
has accepted of each sender. -/

namespace Payments

open EventLoop NativeIdentityProvisioning

inductive Platform where
  | android
  | ios
deriving DecidableEq

/-- `normalizeDidToAddress` of `NativeIdentityProvisioning.kt` -/
def normalizeDidToAddress (did : String) : String := removeDidPrefix (Android.trim did)

/-- The latest identity: its DID names the key it signs with. -/
structure Identity where
  did : String
  keyId : List UInt8
  addressBytes_did : addressBytes (normalizeDidToAddress did) = some keyId

/-- What does not change while payments run: the platform, its identity, and two ids that lib-client
    knows, of the SOV token and of the protocol treasury. -/
structure Device where
  platform : Platform
  identity : Option Identity
  sov : List UInt8
  treasury : List UInt8

/-! ## Transactions -/

/-- A nonce. History: the token and the address that the node was asked for, and how many
    transactions had been posted by then. -/
structure Nonce where
  value : Nat
  askedFor : Option (List UInt8 × List UInt8)
  postsBefore : Nat
deriving DecidableEq

structure Transaction where
  token : List UInt8
  sender : List UInt8
  recipient : List UInt8
  amount : String
  chainId : Option JsNumber
  nonce : Nonce
deriving DecidableEq

def Transaction.key (tx : Transaction) : List UInt8 × List UInt8 := (tx.token, tx.sender)

structure Post where
  tx : Transaction
  failed : Bool
deriving DecidableEq

/-- The transactions that the node has accepted. History: those that were signed, and those that
    were posted. -/
structure State where
  accepted : List Transaction
  signed : List Transaction
  posted : List Post

/-- The number of accepted transactions of one sender. -/
def State.count (s : State) (key : List UInt8 × List UInt8) : Nat :=
  s.accepted.countP fun tx => tx.key = key

/-! ## Requests -/

structure SovTransferRequest where
  fromWalletId : String
  toWalletId : String
  amount : StringOrNumber
  tokenId : String

structure WalletTransferRequest where
  tokenId : String
  fromWalletId : String
  toWalletId : String
  amount : StringOrNumber
  chainId : Option JsNumber

structure TokenTransferRequest where
  tokenId : String
  fromDid : Option String
  toDid : String
  amount : StringOrNumber
  nonce : Option Nat

structure DomainRegisterRequest where
  domain : String
  primaryWalletId : String
  assetId : Option String
  contentMappings : Option String

inductive Request where
  | transferSov (r : SovTransferRequest)
  | transferTokenFromWallet (r : WalletTransferRequest)
  | transferToken (r : TokenTransferRequest)
  | registerDomain (r : DomainRegisterRequest)

/-- What a native signer is asked to sign. -/
inductive SignRequest where
  | tokenTransfer (tokenId toAddress amount : String) (nonce : Nonce)
  | sovWalletTransfer (fromWalletId toWalletId amount : String) (nonce : Nonce)
  | tokenWalletTransfer (tokenId fromWalletId toWalletId amount : String)
      (chainId : Option JsNumber) (nonce : Nonce)
  | domainFeePayment (senderWalletIdHex amountAtoms : String) (chainId : Option JsNumber)
      (nonce : Nonce)

/-- The parts of `signDomainRegisterRequestWithFeePayment`. -/
structure RegisterRequest where
  domain : String
  feePaymentTx : Transaction
  contentMappingsJson : Option String
  chainId : Option JsNumber
  assetIdHex : Option String

structure TokenListItem where
  symbol : String
  tokenId : String

variable (D : Device)

def Device.readId (signer : Signer) : String → Option (List UInt8) :=
  match D.platform with
  | .android => Android.readId signer
  | .ios => Ios.readId signer

/-- The transaction that lib-client builds, or `none` where the signer rejects the call. The sender
    of a token transfer is the key of the identity. -/
def SignRequest.transaction : SignRequest → Option Transaction
  | .tokenTransfer tokenId toAddress amount nonce =>
    match D.identity, D.readId .tokenTransfer tokenId, D.readId .tokenTransfer toAddress with
    | some identity, some token, some recipient =>
      some ⟨token, identity.keyId, recipient, amount, none, nonce⟩
    | _, _, _ => none
  | .sovWalletTransfer fromWalletId toWalletId amount nonce =>
    match D.identity, D.readId .walletTransfer fromWalletId, D.readId .walletTransfer toWalletId with
    | some _, some sender, some recipient => some ⟨D.sov, sender, recipient, amount, none, nonce⟩
    | _, _, _ => none
  | .tokenWalletTransfer tokenId fromWalletId toWalletId amount chainId nonce =>
    match D.identity, D.readId .walletTransfer tokenId, D.readId .walletTransfer fromWalletId,
      D.readId .walletTransfer toWalletId with
    | some _, some token, some sender, some recipient =>
      some ⟨token, sender, recipient, amount, chainId, nonce⟩
    | _, _, _, _ => none
  | .domainFeePayment senderWalletIdHex amountAtoms chainId nonce =>
    match D.identity, D.readId .walletTransfer senderWalletIdHex with
    | some _, some sender => some ⟨D.sov, sender, D.treasury, amountAtoms, chainId, nonce⟩
    | _, _ => none

/-! ## The machine -/

/-- A call of the service begins; only its request is looked at, by conditions on runs. -/
inductive Op where
  | begin (r : Request)

inductive Call where
  | tokenRegistry
  | nonce (tokenId address : String)
  | latestIdentity
  | sign (r : SignRequest)
  | signDomainRegister (r : RegisterRequest)
  | post (path : String) (tx : Transaction)

/-- `signDomainRegister` answers with the `domain_tx_signature_hex` of the request it built. -/
abbrev Ret : Call → Type
  | .tokenRegistry => List TokenListItem
  | .nonce _ _ => Nonce
  | .latestIdentity => Identity
  | .sign _ => Transaction
  | .signDomainRegister _ => Option String
  | .post _ _ => Unit

/-- What the outside world decides. A post that fails may have been accepted all the same (`lost`). -/
inductive Reply where
  | ok
  | fail (message : String)
  | lost (message : String)
  | tokens (tokens : List TokenListItem)
  | signature (domainTxSignatureHex : Option String)

/-- The node reports the number of accepted transactions. -/
def State.nonceFor (s : State) (tokenId address : String) : Option Nonce :=
  match addressBytes tokenId, addressBytes address with
  | some token, some sender =>
    some ⟨s.count (token, sender), some (token, sender), s.posted.length⟩
  | _, _ => none

def State.accept (s : State) (tx : Transaction) : State :=
  { s with accepted := s.accepted ++ [tx] }

def State.post (s : State) (tx : Transaction) (failed : Bool) : State :=
  { s with posted := s.posted ++ [⟨tx, failed⟩] }

def Call.perform (c : Call) (r : Reply) (s : State) : Option (State × Except String (Ret c)) :=
  match c with
  | .tokenRegistry =>
    match r with
    | .tokens ts => some (s, .ok ts)
    | .fail e => some (s, .error e)
    | _ => none
  | .nonce tokenId address =>
    match r with
    | .ok => (s.nonceFor tokenId address).map fun n => (s, .ok n)
    | .fail e => some (s, .error e)
    | _ => none
  | .latestIdentity =>
    match r with
    | .ok => D.identity.map fun identity => (s, .ok identity)
    | .fail e => some (s, .error e)
    | _ => none
  | .sign req =>
    match r with
    | .ok => (req.transaction D).map fun tx => ({ s with signed := s.signed ++ [tx] }, .ok tx)
    | .fail e => some (s, .error e)
    | _ => none
  | .signDomainRegister _ =>
    match r with
    | .signature sig => some (s, .ok sig)
    | .fail e => some (s, .error e)
    | _ => none
  | .post _ tx =>
    match r with
    | .ok => some ((s.accept tx).post tx false, .ok ())
    | .fail e => some (s.post tx true, .error e)
    | .lost e => some ((s.accept tx).post tx true, .error e)
    | _ => none

theorem perform_tokenRegistry {r : Reply} {s s' : State} {o}
    (h : Call.perform D .tokenRegistry r s = some (s', o)) : s' = s := by
  cases r <;> simp [Call.perform] at h
  · exact h.1.symm
  · exact h.1.symm

abbrev machine : Machine where
  State := State
  Op := Op
  Call := Call
  Ret := Ret
  Err := String
  Reply := Reply
  apply _ _ s := s
  perform _ c r s := c.perform D r s

/-! ## The services -/

abbrev Prog := Async (machine D)

variable {D}

def ofOption {α : Type} (message : String) : Option α → Prog D α
  | some a => pure a
  | none => Async.throw (M := machine D) message

def begin (r : Request) : Prog D Unit := Async.op (M := machine D) (.begin r)

def sign (r : SignRequest) : Prog D Transaction := Async.await (M := machine D) (.sign r)

def quicPost (path : String) (tx : Transaction) : Prog D Unit :=
  Async.await (M := machine D) (.post path tx)

def getTokenNonce (tokenId address : String) : Prog D Nonce :=
  Async.await (M := machine D) (.nonce tokenId address)

/-- `normalizeDIDToAddress` of `TokenService.ts` -/
def normalizeDIDToAddress (did : String) : String := removeDidPrefix did

/-- `validateAtomsString` of `tokenUnits.ts` -/
def validateAtomsString (atoms : String) : Option String :=
  let s := AssetService.trim atoms
  if s.toList ≠ [] ∧ s.toList.all Char.isDigit ∧ AssetService.bigInt s.toList < 2 ^ 128 then some s
  else none

/-- A number has to be an integer of at most `Number.MAX_SAFE_INTEGER`. -/
def coerceAmountAtoms : StringOrNumber → Option String
  | .string s => validateAtomsString s
  | .number (.finite q) =>
    if 0 ≤ q ∧ q.den = 1 ∧ q ≤ 2 ^ 53 - 1 then
      validateAtomsString (AssetService.toDecimal q.num.toNat)
    else none
  | .number _ => none

/-- `String.lowercase()`; no other letter has a hexadecimal digit as its lower case. -/
def lowercase (s : String) : String := String.ofList (s.toList.map Char.toLower)

/-- Android passes over the nonce it is given and fetches one for the address of the identity. -/
def signTokenTransferTransaction (tokenId toAddress amount : String) (nonce : Nonce) :
    Prog D Transaction :=
  match D.platform with
  | .android => do
    let identity ← Async.await (M := machine D) .latestIdentity
    let own ← getTokenNonce (lowercase tokenId) (normalizeDidToAddress (Identity.did identity))
    sign (.tokenTransfer tokenId toAddress amount own)
  | .ios => sign (.tokenTransfer tokenId toAddress amount nonce)

/-- Without a sender, the recipient. -/
def TokenTransferRequest.senderForNonce (r : TokenTransferRequest) : String :=
  match r.fromDid with
  | none => normalizeDIDToAddress r.toDid
  | some did => normalizeDIDToAddress (if did = "" then r.toDid else did)

def transferNonce (r : TokenTransferRequest) : Prog D Nonce :=
  match r.nonce with
  | some n => pure ⟨n, none, 0⟩
  | none => getTokenNonce r.tokenId r.senderForNonce

def transferToken (r : TokenTransferRequest) : Prog D Unit := do
  begin (.transferToken r)
  let nonce ← transferNonce r
  let amount ← ofOption "coerceAmountAtoms" (coerceAmountAtoms r.amount)
  let tx ← signTokenTransferTransaction r.tokenId (normalizeDIDToAddress r.toDid) amount nonce
  quicPost "/api/v1/token/transfer" tx

def transferTokenFromWallet (r : WalletTransferRequest) : Prog D Unit := do
  begin (.transferTokenFromWallet r)
  let nonce ← getTokenNonce r.tokenId r.fromWalletId
  let amount ← ofOption "coerceAmountAtoms" (coerceAmountAtoms r.amount)
  let tx ← sign (.tokenWalletTransfer r.tokenId r.fromWalletId r.toWalletId amount r.chainId nonce)
  quicPost "/api/v1/token/transfer" tx

def transferSov (r : SovTransferRequest) : Prog D Unit := do
  begin (.transferSov r)
  let nonce ← getTokenNonce r.tokenId r.fromWalletId
  let amount ← ofOption "coerceAmountAtoms" (coerceAmountAtoms r.amount)
  let tx ← sign (.sovWalletTransfer r.fromWalletId r.toWalletId amount nonce)
  quicPost "/api/v1/token/transfer" tx

/-- `symbol.toUpperCase() === 'SOV'`; the long s is an S in upper case. -/
def isSov (symbol : String) : Bool :=
  match symbol.toList with
  | [s, o, v] => (s = 'S' || s = 's' || s = 'ſ') && (o = 'O' || o = 'o') && (v = 'V' || v = 'v')
  | _ => false

/-- `resolveTokenBySymbol('SOV')`, in the registry that was cached or fetched -/
def resolveSov (registry : List TokenListItem) : Option TokenListItem :=
  registry.find? fun t => isSov t.symbol

/-- `s.length`, in units of 16 bits -/
def utf16Length (s : String) : Nat :=
  (s.toList.map fun c => if c.toNat < 0x10000 then 1 else 2).sum

/-- `primary_wallet_id?.trim()`, or `none` where it has not 64 characters -/
@[irreducible] def walletIdHex (primaryWalletId : String) : Option String :=
  let trimmed := AssetService.trim primaryWalletId
  if utf16Length trimmed = 64 then some trimmed else none

/-- `asset_id?.replace(/^0x/i, '').trim() || undefined`, or `none` where it is not 64 digits -/
@[irreducible] def assetIdHex : Option String → Option (Option String)
  | none => some none
  | some assetId =>
    let stripped := match assetId.toList with
      | '0' :: 'x' :: cs | '0' :: 'X' :: cs => String.ofList cs
      | cs => String.ofList cs
    let trimmed := AssetService.trim stripped
    if trimmed = "" then some none
    else if Hex64 trimmed.toList then some (some trimmed)
    else none

def domainRegistrationFeeAtoms : String := "100000000000000000000"

def domainChainId : Option JsNumber := some (.finite 2)

def registerDomain (r : DomainRegisterRequest) : Prog D Unit := do
  begin (.registerDomain r)
  let primaryWalletIdHex ← ofOption
    "primary_wallet_id must be a 64-char hex wallet id (the owner's Primary wallet)"
    (walletIdHex r.primaryWalletId)
  let assetId ← ofOption "asset_id must be a 64-char hex sovereign asset id (no 0x required)"
    (assetIdHex r.assetId)
  let registry ← Async.await (M := machine D) .tokenRegistry
  let sovToken ← ofOption "SOV token not found in registry — cannot build domain fee tx"
    ((resolveSov registry).filter fun t => t.tokenId ≠ "")
  let nonce ← getTokenNonce sovToken.tokenId primaryWalletIdHex
  let feeTx ← sign (.domainFeePayment primaryWalletIdHex domainRegistrationFeeAtoms domainChainId
    nonce)
  let domainTxSig ← Async.await (M := machine D)
    (.signDomainRegister ⟨r.domain, feeTx, r.contentMappings, domainChainId, assetId⟩)
  let _ ← ofOption "domain_tx_signature_hex missing from signed request"
    (Option.filter (fun sig : String => sig ≠ "") domainTxSig)
  quicPost "/api/v1/web4/domains/register" feeTx

def run : Request → Prog D Unit
  | .transferSov r => transferSov r
  | .transferTokenFromWallet r => transferTokenFromWallet r
  | .transferToken r => transferToken r
  | .registerDomain r => registerDomain r

def prog (r : Request) : Task (machine D) := (run r).toTask

/-- Nothing has been signed or posted yet. -/
def State.Launched (s : State) : Prop := s.signed = [] ∧ s.posted = []

end Payments
