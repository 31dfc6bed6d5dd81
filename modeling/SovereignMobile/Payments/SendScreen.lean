import SovereignMobile.Auth.Types
import SovereignMobile.Payments.Programs

/-! # The send screen

`SendTokensScreen.tsx` as a state machine: what the user does, the wallets that arrive, the loads of the
token list that end, each with the values it was started with. Handlers see the state of the last render.
Balances are JavaScript numbers, which `Numbers` stands for. -/

namespace SendTokensScreen

open Auth (trim truthy)
open Payments (isSov)

/-- The numbers of JavaScript, as far as they are used. -/
structure Numbers where
  F : Type
  zero : F
  add : F → F → F
  gt : F → F → Bool
  isNaN : F → Bool
  parseFloat : String → F
  atomsToNumber : String → Nat → F
  toFixed2 : F → String
  toText : F → String

variable (N : Numbers)

inductive TokenType where
  | sov
  | custom
deriving DecidableEq

structure SendableToken where
  id : String
  symbol : String
  name : String
  balance : N.F
  type : TokenType
  token_id : Option String
  decimals : Option Nat

structure WalletDisplay where
  id : String
  wallet_type : String
  available_balance : N.F
  total_balance : N.F

structure TransferFormState where
  recipient : String
  amount : String
  memo : String
deriving DecidableEq

structure TransferFormErrors where
  recipient : Option String
  amount : Option String
deriving DecidableEq

variable {N}

def SOV_DECIMALS : Nat := 18

def WELFARE_TOKEN_IDS : List String :=
  ["c5f7418e4cf9dd65d945a6026ad95645a6873099366b168a459dc7bd60a9438b",
    "3fcaf4ee0d54d5c136ed6165f1ea98f0429e88540e577956d2a2b8fa5a60f8b7",
    "97743bb8df6d441dbfcc10540627330186084e54c73c458a34e9608ed9e2a912",
    "44e4b6b99b10f2a9a06399688d79a743410b5a1674c85d323331f9f7abf1ce90",
    "e043aca01bc700d49d31976f258db9c64217b4e09bf5998c3de9d76e67665b18"]

def primaryWallet (wallets : List (WalletDisplay N)) : Option (WalletDisplay N) :=
  wallets.find? (fun w => Auth.toLowerCase w.wallet_type = "primary") <|> wallets.head?

def getDefaultSovWalletId (wallets : List (WalletDisplay N)) : Option String :=
  (primaryWallet wallets).map fun w => w.id

/-! ## Text -/

def isHex (s : String) : Bool :=
  s ≠ "" && s.toList.all fun c =>
    ('0' ≤ c && c ≤ '9') || ('a' ≤ c && c ≤ 'f') || ('A' ≤ c && c ≤ 'F')

def normalizeRecipient (value : String) : String :=
  NativeIdentityProvisioning.removeDidPrefix (trim value)

def isValidRecipient (value : String) : Bool :=
  let hex := normalizeRecipient value
  isHex hex && (hex.length = 64 || hex.length = 5184)

def isValidSovRecipient (value : String) : Bool :=
  (trim value).length = 64 && isHex (trim value)

/-- `/^\d+$/` -/
def isDigits (cs : List Char) : Bool := !cs.isEmpty && cs.all fun c => '0' ≤ c && c ≤ '9'

/-- The part before the first point and the part between the first two, if there is a point. -/
def splitPoint (cs : List Char) : List Char × List Char :=
  (cs.takeWhile (· ≠ '.'), ((cs.dropWhile (· ≠ '.')).drop 1).takeWhile (· ≠ '.'))

def humanToAtomic (amountStr : String) (decimals : Nat) : Option String :=
  let normalized := trim amountStr
  if normalized = "" then none
  else
    let (whole, frac) := splitPoint normalized.toList
    if !isDigits whole || (!frac.isEmpty && !isDigits frac) then none
    else if decimals < frac.length then none
    else
      let combined := (whole ++ frac ++ List.replicate (decimals - frac.length) '0').dropWhile (· = '0')
      some (if combined.isEmpty then "0" else String.ofList combined)

/-! ## The token list -/

structure TokenBalance where
  token_id : String
  symbol : String
  name : String
  balance : String
  decimals : Option Nat

structure TokenInfo where
  symbol : String
  name : String
  decimals : Option Nat

structure TokenListItem where
  token_id : String
  symbol : String
  name : String
  decimals : Option Nat

/-- What a load hears: the balances, the tracked tokens, the registry, each unless the request failed. -/
structure Replies where
  balances : Option (List TokenBalance)
  tracked : Option (List (String × Option TokenInfo))
  registry : Option (List TokenListItem)

variable (N) in
/-- The list so far, and the keys of `tokenMap`. -/
structure Loading where
  tokens : List (SendableToken N)
  keys : List String

def sovFromWallets (wallets : List (WalletDisplay N)) : List (SendableToken N) :=
  let totalSovBalance := (wallets.map fun w => w.total_balance).foldl N.add N.zero
  if N.gt totalSovBalance N.zero then
    [⟨"SOV", "SOV", "Sovereign", totalSovBalance, .sov, none, some SOV_DECIMALS⟩]
  else []

def Loading.push (l : Loading N) (token_id symbol name : String) (balance : N.F) (decimals : Nat) :
    Loading N :=
  let token : SendableToken N :=
    ⟨token_id, Auth.orElse symbol "Token", Auth.orElse name "Unknown", balance, .custom, some token_id,
      some decimals⟩
  ⟨l.tokens ++ [token], token_id :: l.keys⟩

/-- One balance; a SOV balance is merged into the entry from the wallets. -/
def addBalance (sovEntry : Bool) (l : Loading N) (token : TokenBalance) : Loading N :=
  if token.token_id ∈ WELFARE_TOKEN_IDS then l
  else
    match token.decimals with
    | none => l
    | some decimals =>
      if isSov token.symbol && sovEntry then
        ⟨l.tokens.map fun t =>
          if t.type = .sov then { t with token_id := some token.token_id, decimals := some decimals }
          else t, token.token_id :: l.keys⟩
      else
        l.push token.token_id token.symbol token.name (N.atomsToNumber token.balance decimals) decimals

/-- SOV that no wallet holds. -/
def sovFromBalances (balances : List TokenBalance) : List (SendableToken N) :=
  match balances.find? fun t => isSov t.symbol with
  | none => []
  | some sov =>
    match sov.decimals with
    | none => []
    | some decimals =>
      [⟨"SOV", "SOV", Auth.orElse sov.name "Sovereign", N.atomsToNumber sov.balance decimals, .sov,
        some sov.token_id, some decimals⟩]

def addTracked (l : Loading N) (tracked : String × Option TokenInfo) : Loading N :=
  if tracked.1 ∈ WELFARE_TOKEN_IDS ∨ tracked.1 ∈ l.keys then l
  else
    match tracked.2 with
    | none => l
    | some info => l.push tracked.1 info.symbol info.name N.zero (info.decimals.getD 0)

def addRegistered (l : Loading N) (item : TokenListItem) : Loading N :=
  if item.token_id ∈ WELFARE_TOKEN_IDS ∨ item.token_id ∈ l.keys then l
  else if isSov item.symbol && l.tokens.any (fun t => t.type = .sov) then l
  else
    match item.decimals with
    | none => l
    | some decimals => l.push item.token_id item.symbol item.name N.zero decimals

/-- The list that a load of `wallets` ends with. -/
def loadTokens (wallets : List (WalletDisplay N)) (r : Replies) : List (SendableToken N) :=
  let sov := sovFromWallets wallets
  let l : Loading N := ⟨sov, []⟩
  let l :=
    match r.balances with
    | none => l
    | some balances =>
      let l := balances.foldl (addBalance !sov.isEmpty) l
      if sov.isEmpty then { l with tokens := sovFromBalances balances ++ l.tokens } else l
  let l := (r.tracked.getD []).foldl addTracked l
  ((r.registry.getD []).foldl addRegistered l).tokens

/-- Route-preselected token, SOV, first available. -/
def preferred (preselectedTokenId : Option String) (tokens : List (SendableToken N)) :
    Option (SendableToken N) :=
  ((truthy preselectedTokenId).bind fun p => tokens.find? fun t => t.token_id = some p || t.id = p) <|>
    tokens.find? (fun t => t.type = .sov) <|> tokens.head?

/-! ## Requests -/

inductive Request where
  | transferSov (from_wallet_id to_wallet_id amount token_id : String)
  | transferTokenFromWallet (token_id from_wallet_id to_wallet_id amount : String)
deriving DecidableEq

namespace Request

def source : Request → String
  | .transferSov from_wallet_id _ _ _ => from_wallet_id
  | .transferTokenFromWallet _ from_wallet_id _ _ => from_wallet_id

def recipient : Request → String
  | .transferSov _ to_wallet_id _ _ => to_wallet_id
  | .transferTokenFromWallet _ _ to_wallet_id _ => to_wallet_id

def amount : Request → String
  | .transferSov _ _ amount _ => amount
  | .transferTokenFromWallet _ _ _ amount => amount

def tokenId : Request → String
  | .transferSov _ _ _ token_id => token_id
  | .transferTokenFromWallet token_id _ _ _ => token_id

end Request

/-! ## The screen -/

variable (N) in
/-- What the dialog shows at a review. -/
structure Shown where
  token : SendableToken N
  form : TransferFormState
  selectedFromWallet : Option String
  primary : Option String

variable (N) in
/-- A load that was started, with the values of that render. -/
structure Started where
  wallets : List (WalletDisplay N)
  selectedFromWallet : Option String

/-- What a load did to the selection, by the ids of the tokens. -/
structure Reload where
  before : Option String
  list : List String
  after : Option String
deriving DecidableEq

variable (N) in
structure State where
  wallets : List (WalletDisplay N)
  allTokens : List (SendableToken N)
  selectedToken : Option (SendableToken N)
  tokensLoading : Bool
  tokensError : Option String
  form : TransferFormState
  errors : TransferFormErrors
  isTransferring : Bool
  showConfirmation : Bool
  selectedFromWallet : Option String
  transferError : Option String
  loads : List (Started N)
  reviewed : Option (Shown N)
  issued : List (Option (Shown N) × Request)
  reloads : List Reload

variable (N) in
inductive Event where
  | walletsArrive (wallets : List (WalletDisplay N))
  | startLoad
  | loadEnds (n : Nat) (r : Replies)
  | loadFails (n : Nat) (message : String)
  | fromWalletEffect
  | pick (n : Nat)
  | editRecipient (text : String)
  | editAmount (text : String)
  | editMemo (text : String)
  | handleReview
  | back
  | handleTransfer
  | transferEnds (error : Option String)

namespace State

/-- The screen as it is mounted. -/
def mounted (wallets : List (WalletDisplay N)) : State N where
  wallets
  allTokens := []
  selectedToken := none
  tokensLoading := true
  tokensError := none
  form := ⟨"", "", ""⟩
  errors := ⟨none, none⟩
  isTransferring := false
  showConfirmation := false
  selectedFromWallet := none
  transferError := none
  loads := []
  reviewed := none
  issued := []
  reloads := []

variable (s : State N)

def validateRecipient : Option String :=
  if trim s.form.recipient = "" then some "Recipient is required"
  else if s.selectedToken.any fun t => t.type = .sov then
    if isValidSovRecipient s.form.recipient then none
    else some "Recipient wallet ID must be 64 hex characters"
  else if isValidRecipient s.form.recipient then none
  else some "Recipient must be DID (did:zhtp:...) or hex key id/pubkey"

def validateAmount : Option String :=
  let trimmed := trim s.form.amount
  if trimmed = "" then some "Amount is required"
  else
    let amount := N.parseFloat trimmed
    if N.isNaN amount || !N.gt amount N.zero then some "Amount must be greater than 0"
    else
      match s.selectedToken with
      | none => none
      | some token =>
        match token.type, truthy s.selectedFromWallet with
        | .sov, some fromWallet =>
          match s.wallets.find? fun w => w.id = fromWallet with
          | none => none
          | some w =>
            if N.gt amount w.available_balance then
              some ("Insufficient balance (" ++ N.toFixed2 w.available_balance ++ ")")
            else none
        | _, _ =>
          if N.gt amount token.balance then
            some ("Insufficient balance (" ++ N.toText token.balance ++ ")")
          else none

def validateTransfer : TransferFormErrors := ⟨s.validateRecipient, s.validateAmount⟩

def valid : Bool := s.validateRecipient.isNone && s.validateAmount.isNone

/-- The request of `handleTransfer`, or what it throws. -/
def request (token : SendableToken N) : Except String Request :=
  let decimals := token.decimals.getD SOV_DECIMALS
  match humanToAtomic s.form.amount decimals with
  | none => .error ("Amount must have at most " ++ toString decimals ++ " decimals")
  | some baseUnits =>
    match token.type with
    | .sov =>
      match truthy s.selectedFromWallet with
      | none => .error "Please select a source wallet"
      | some fromWallet =>
        .ok (.transferSov fromWallet (trim s.form.recipient) baseUnits (token.token_id.getD ""))
    | .custom =>
      match truthy token.token_id with
      | none => .error "Token ID missing for selected token."
      | some tokenId =>
        match truthy (getDefaultSovWalletId s.wallets) with
        | none => .error "No wallet available to send from."
        | some fromWalletId =>
          .ok (.transferTokenFromWallet tokenId fromWalletId (trim s.form.recipient) baseUnits)

def handleReview : State N :=
  match s.selectedToken with
  | none => s
  | some token =>
    if s.tokensLoading || s.isTransferring || Auth.toLowerCase token.symbol = "cbe" then s
    else if s.valid then
      { s with
        errors := s.validateTransfer
        showConfirmation := true
        reviewed := some ⟨token, s.form, s.selectedFromWallet, getDefaultSovWalletId s.wallets⟩ }
    else { s with errors := s.validateTransfer }

/-- The dialog is part of what is shown when no list is loading. -/
def handleTransfer : State N :=
  if s.tokensLoading || !s.showConfirmation then s
  else
    match s.selectedToken with
    | none => { s with showConfirmation := false }
    | some token =>
      if s.valid then
        match s.request token with
        | .error message =>
          { s with
            errors := s.validateTransfer
            showConfirmation := false
            isTransferring := false
            transferError := some message }
        | .ok request =>
          { s with
            errors := s.validateTransfer
            showConfirmation := false
            isTransferring := true
            transferError := none
            issued := (s.reviewed, request) :: s.issued }
      else { s with errors := s.validateTransfer, showConfirmation := false }

def startLoad : State N :=
  { s with
    tokensLoading := true
    tokensError := none
    loads := s.loads ++ [⟨s.wallets, s.selectedFromWallet⟩] }

/-- `setAllTokens`, `setSelectedToken` and the default from-wallet. -/
def loaded (preselectedTokenId : Option String) (l : Started N) (tokens : List (SendableToken N)) :
    State N :=
  let selected := preferred preselectedTokenId tokens <|> s.selectedToken
  { s with
    allTokens := tokens
    selectedToken := selected
    tokensLoading := false
    selectedFromWallet :=
      if !l.wallets.isEmpty && (truthy l.selectedFromWallet).isNone then getDefaultSovWalletId l.wallets
      else s.selectedFromWallet
    reloads := ⟨s.selectedToken.map (fun t => t.id), tokens.map (fun t => t.id),
      selected.map (fun t => t.id)⟩ :: s.reloads }

def hasCurrentSelection : Bool :=
  (truthy s.selectedFromWallet).any fun id => s.wallets.any fun w => w.id = id

def fromWalletEffect : State N :=
  match s.selectedToken with
  | none => s
  | some token =>
    if token.type ≠ .sov ∨ s.wallets.isEmpty ∨ s.hasCurrentSelection then s
    else { s with selectedFromWallet := getDefaultSovWalletId s.wallets }

def pick (token : SendableToken N) : State N :=
  { s with
    selectedToken := some token
    form := ⟨"", "", ""⟩
    errors := ⟨none, none⟩
    selectedFromWallet :=
      if token.type = .sov ∧ s.wallets ≠ [] then getDefaultSovWalletId s.wallets
      else s.selectedFromWallet }

def step (preselectedTokenId : Option String) (s : State N) : Event N → State N
  | .walletsArrive wallets => { s with wallets }
  | .startLoad => s.startLoad
  | .loadEnds n r =>
    match s.loads[n]? with
    | none => s
    | some l =>
      { s.loaded preselectedTokenId l (loadTokens l.wallets r) with loads := s.loads.eraseIdx n }
  | .loadFails n message =>
    match s.loads[n]? with
    | none => s
    | some _ =>
      { s with tokensLoading := false, tokensError := some message, loads := s.loads.eraseIdx n }
  | .fromWalletEffect => s.fromWalletEffect
  | .pick n =>
    if s.tokensLoading then s
    else
      match s.allTokens[n]? with
      | none => s
      | some token => s.pick token
  | .editRecipient text => { s with form := { s.form with recipient := text } }
  | .editAmount text => { s with form := { s.form with amount := text } }
  | .editMemo text => { s with form := { s.form with memo := text } }
  | .handleReview => s.handleReview
  | .back => { s with showConfirmation := false }
  | .handleTransfer => s.handleTransfer
  | .transferEnds error => { s with isTransferring := false, transferError := error }

end State

end SendTokensScreen
