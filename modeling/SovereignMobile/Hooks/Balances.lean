import SovereignMobile.Hooks.AsyncData
import SovereignMobile.Hooks.RewardCounter
import SovereignMobile.Payments.TokenList
import SovereignMobile.Text.LowerCase

/-! # Balances

What `useWalletList.ts` and `useUserTokenBalances.ts` show of the current identity, beside its rewards. Both
fetch with `useAsyncData`, which keeps what it has shown until there is something new. -/

open AsyncData (Caught Hook UseAsyncDataState)
open NativeIdentityProvisioning (removeDidPrefix)
open RewardCounter (Amount atomsToSov)

namespace Hooks

/-- An empty string counts as none. -/
def truthy : Option String → Option String
  | some "" => none
  | s => s

/-- The identifier of the DID. -/
def normalizeIdentityId (identityId : Option String) : Option String :=
  (truthy identityId).map fun identityId => removeDidPrefix (Auth.trim identityId)

end Hooks

open Hooks

/-! ## The wallets -/

namespace WalletList

/-- `details` are `permissions`, `created_at` and `description`, which are shown as they are. -/
structure Wallet (P : Type) where
  wallet_id : Option String
  id : Option String
  summaryId : Option String
  name : Option String
  wallet_type : Option String
  available_balance : Amount
  staked_balance : Amount
  pending_rewards : Amount
  total_balance : Amount
  balance : Amount
  details : P

structure WalletListResponse (P : Type) where
  identity_id : Option String
  total_balance : Amount
  wallets : Option (List (Wallet P))

structure WalletDisplay (P : Type) where
  id : String
  name : String
  wallet_type : String
  available_balance : ℚ
  staked_balance : ℚ
  pending_rewards : ℚ
  total_balance : ℚ
  details : P

structure WalletListData (P : Type) where
  identityId : Option String
  totalBalance : ℚ
  wallets : List (WalletDisplay P)
  walletByType : LinkedMap String (WalletDisplay P)
  loading : Bool
  error : Option String

section
variable {P : Type} (L : LowerCasing)

def normalizeWalletType (walletType : String) : String :=
  String.ofList (L.toLowerCase walletType.toList)

def resolveWalletId (wallet : Wallet P) : String :=
  match truthy wallet.wallet_id, truthy wallet.id with
  | some id, _ => id
  | none, some id => id
  | none, none => wallet.summaryId.getD ""

/-- `a ?? b` -/
def orElse : Amount → Amount → Amount
  | .missing, b => b
  | a, _ => a

def toWalletDisplay (wallet : Wallet P) : WalletDisplay P where
  id := resolveWalletId wallet
  name := wallet.name.getD (wallet.wallet_type.getD "undefined" ++ " Wallet")
  wallet_type := wallet.wallet_type.getD "Unknown"
  available_balance := atomsToSov wallet.available_balance
  staked_balance := atomsToSov wallet.staked_balance
  pending_rewards := atomsToSov wallet.pending_rewards
  total_balance := atomsToSov (orElse wallet.total_balance wallet.balance)
  details := wallet.details

def walletData (identityId : Option String) (st : UseAsyncDataState (WalletListResponse P)) :
    WalletListData P :=
  let wallets := ((st.data.bind WalletListResponse.wallets).getD []).map toWalletDisplay
  let totalFromWallets := (wallets.map WalletDisplay.total_balance).sum
  let totalFromServer := (st.data.map fun data => atomsToSov data.total_balance).getD 0
  { identityId := (st.data.bind WalletListResponse.identity_id).or identityId
    totalBalance := if totalFromServer > 0 then totalFromServer else totalFromWallets
    wallets := wallets
    walletByType := wallets.foldl (fun acc wallet => acc.put (normalizeWalletType L wallet.wallet_type) wallet)
      LinkedMap.empty
    loading := st.loading
    error := st.error }

/-- `currentIdentity`, and which objects its wallets and `forceCleanupAndSignOut` are. -/
structure Arguments where
  did : Option String
  wallets : Option Nat
  forceCleanupAndSignOut : Nat

def Arguments.identityId (a : Arguments) : Option String := normalizeIdentityId a.did

/-- There is no mock service in any build. -/
def useWalletList : Hook Arguments (Option String) (Option String × Option Nat × Nat)
    (Except Caught (WalletListResponse P)) (WalletListResponse P) (WalletListData P) where
  asyncFunction a := a.identityId
  dependencies a := (a.identityId, a.wallets, a.forceCleanupAndSignOut)
  skip a := (truthy a.identityId).isNone
  result response := response
  shown a st := walletData L a.identityId st

/-- The answer of an identity without wallets, and one that states a balance. -/
theorem shown_differently (a : Arguments) (st st' : UseAsyncDataState (WalletListResponse P))
    (h : st.data = some ⟨none, .number 0, none⟩) (h' : st'.data = some ⟨none, .number (10 ^ 18), none⟩) :
    (useWalletList L).shown a st ≠ (useWalletList L).shown a st' := by
  intro hsame
  have htotal : (walletData L a.identityId st).totalBalance = (walletData L a.identityId st').totalBalance :=
    congrArg WalletListData.totalBalance hsame
  simp [walletData, h, h', atomsToSov] at htotal
  norm_num at htotal

end

end WalletList

/-! ## The tokens -/

namespace UserTokenBalances

/-- `address` may be undefined, and may be null. The registry is the one of the chain. -/
structure Arguments where
  did : Option String
  address : Option (Option String)
  registry : List (TokenListItem String)
  registryLoading : Bool

def Arguments.queryAddress (a : Arguments) : Option String :=
  a.address.getD (normalizeIdentityId a.did)

structure UserTokenBalancesData where
  tokens : List (TokenDisplay String)
  totalTokenCount : Nat
  loading : Bool
  error : Option String

def tokenData (a : Arguments) (st : UseAsyncDataState (List (TokenBalanceResponse String String))) :
    UserTokenBalancesData :=
  let tokens := mergeRegistryWithBalances a.registry st.data
  { tokens := tokens
    totalTokenCount := tokens.length
    loading := a.registryLoading || st.loading
    error := st.error }

def useUserTokenBalances : Hook Arguments (Option String) (Option String) (Response String)
    (List (TokenBalanceResponse String String)) UserTokenBalancesData where
  asyncFunction a := a.queryAddress
  dependencies a := a.queryAddress
  skip a := (truthy a.queryAddress).isNone
  -- an error is caught
  result response := .ok (fetchBalances response)
  shown := tokenData

/-- One atom of a token, in the answer. -/
def oneAtom : TokenBalanceResponse String String := ⟨"token", .missing, .missing, .missing, "1"⟩

theorem shown_differently (a : Arguments)
    (st st' : UseAsyncDataState (List (TokenBalanceResponse String String))) (h : st.data = some [])
    (h' : st'.data = some [oneAtom]) : useUserTokenBalances.shown a st ≠ useUserTokenBalances.shown a st' := by
  intro hsame
  have htokens : (tokenData a st).tokens = (tokenData a st').tokens :=
    congrArg UserTokenBalancesData.tokens hsame
  simp only [tokenData, h, h'] at htokens
  obtain ⟨t, ht, -, hone⟩ : ∃ t ∈ mergeRegistryWithBalances a.registry (some [oneAtom]),
      t.token_id = oneAtom.token_id ∧ t.atomicBalance = oneAtom.balance :=
    exists_shown (by simp) List.mem_cons_self
  rw [← htokens] at ht
  rcases mem_merge ht with ⟨b, hb, -⟩ | ⟨-, hzero⟩
  · exact absurd hb List.not_mem_nil
  · exact nomatch hone.symm.trans hzero

end UserTokenBalances

/-! ## The balances of another identity -/

namespace Balances

open EventLoop (StepsMeet)
open WalletList (useWalletList)

/-- **What is shown for another identity**: no wallet and no token depends on the answers for `A`, and no
    reward, exactly if since the last of them another answer has set what is shown. For the rewards, those
    answers leave the gate as it is. -/
theorem balances_independent_iff {P R : Type} (L : LowerCasing) (A : String) :
    (∀ arguments es, (∀ es', List.Forall₂ (Hook.SameBut (some A)) es es' →
        (WalletList.useWalletList (P := P) L).shownAfter arguments es' =
          (WalletList.useWalletList L).shownAfter arguments es) ↔
      some A ∉ ((WalletList.useWalletList L).run arguments es).asyncData.answered) ∧
    (∀ arguments es, (∀ es', List.Forall₂ (Hook.SameBut (some A)) es es' →
        UserTokenBalances.useUserTokenBalances.shownAfter arguments es' =
          UserTokenBalances.useUserTokenBalances.shownAfter arguments es) ↔
      some A ∉ (UserTokenBalances.useUserTokenBalances.run arguments es).asyncData.answered) ∧
    ∀ did now (es : List (RewardCounter.Event R)),
      StepsMeet RewardCounter.State.step (RewardCounter.GateKept A) (RewardCounter.mounted did now) es →
      ((∀ es', List.Forall₂ (RewardCounter.SameBut A) es es' →
        StepsMeet RewardCounter.State.step (RewardCounter.GateKept A) (RewardCounter.mounted did now) es' →
        (es'.foldl RewardCounter.State.step (RewardCounter.mounted did now)).data =
          (es.foldl RewardCounter.State.step (RewardCounter.mounted did now)).data) ↔
      A ∉ (es.foldl RewardCounter.State.step (RewardCounter.mounted did now)).rewards.by' ∧
        A ∉ (es.foldl RewardCounter.State.step (RewardCounter.mounted did now)).error.by') := by
  refine ⟨fun arguments es => ?_, fun arguments es => ?_, fun did now es hgate => ?_⟩
  · exact Hook.independent_iff (.ok ⟨none, .number 0, none⟩) (.ok ⟨none, .number (10 ^ 18), none⟩) rfl rfl
      (WalletList.shown_differently L) _ arguments es
  · exact Hook.independent_iff .failed
      (.answered (.list [some ⟨"token", .missing, .missing, .missing, .text "1"⟩])) rfl rfl
      UserTokenBalances.shown_differently _ arguments es
  · exact RewardCounter.independent_iff A did now es hgate

/-! ## Identity a, then identity b -/

/-- Rewards are fetched and answered for both. -/
def bothAnswered : List (RewardCounter.Event Unit) :=
  [.answer "a" 0 (.ok (RewardCounter.ZERO_REWARDS "a")), .render (some "b"),
    .answer "b" 0 (.ok (RewardCounter.ZERO_REWARDS "b"))]

theorem balances_independent_iff_bothAnswered :
    ∀ es', List.Forall₂ (RewardCounter.SameBut "a") bothAnswered es' →
      StepsMeet RewardCounter.State.step (RewardCounter.GateKept "a")
        (RewardCounter.mounted (some "a") 0) es' →
      (es'.foldl RewardCounter.State.step (RewardCounter.mounted (some "a") 0)).data =
        (bothAnswered.foldl RewardCounter.State.step (RewardCounter.mounted (some "a") 0)).data := by
  have hgate : StepsMeet RewardCounter.State.step (RewardCounter.GateKept "a")
      (RewardCounter.mounted (some "a") 0) bothAnswered :=
    ⟨fun _ _ => ⟨rfl, rfl⟩, trivial, fun h => absurd h (by decide), trivial⟩
  have hiff := (balances_independent_iff (P := Unit) LowerCasing.asciiOnly "a").2.2 (some "a") 0
    bothAnswered hgate
  exact hiff.2 ⟨by decide, by decide⟩

def walletsOf (did : String) : WalletList.Arguments := ⟨some did, none, 0⟩

def tokensOf (did : String) : UserTokenBalances.Arguments := ⟨some did, none, [], false⟩

def response (wallets : List (WalletList.Wallet Unit)) : WalletList.WalletListResponse Unit :=
  ⟨none, .missing, some wallets⟩

def wallet : WalletList.Wallet Unit :=
  ⟨some "w", none, none, none, some "Primary", .missing, .missing, .missing, .text "5", .missing, ()⟩

/-- The wallets of a are answered, and those of b are not. -/
def walletRun (wallets : List (WalletList.Wallet Unit)) : List (Hook.Event WalletList.Arguments
    (Option String) (Except Caught (WalletList.WalletListResponse Unit))) :=
  [Hook.Event.answer (some "a") 0 (.ok (response wallets)), .render (walletsOf "b"),
    .answer (some "b") 0 (.error .other)]

def tokenRun (answer : UserTokenBalances.Response String) :
    List (Hook.Event UserTokenBalances.Arguments (Option String) (UserTokenBalances.Response String)) :=
  [Hook.Event.answer (some "a") 0 answer, .render (tokensOf "b")]

def rewardRun (result : Except RewardCounter.Failure (RewardCounter.PoUWRewardsResponse Unit)) :
    List (RewardCounter.Event Unit) :=
  [.answer "a" 0 result, .render (some "b")]

/-- a's wallet is shown as b's, and so is a's token; the gate of a keeps b's rewards from being fetched. -/
theorem answer_of_other_shown :
    (List.Forall₂ (Hook.SameBut (some "a")) (walletRun []) (walletRun [wallet]) ∧
      ((WalletList.useWalletList LowerCasing.asciiOnly).shownAfter (walletsOf "a") (walletRun [])).wallets ≠
        ((WalletList.useWalletList LowerCasing.asciiOnly).shownAfter (walletsOf "a")
          (walletRun [wallet])).wallets) ∧
    (List.Forall₂ (Hook.SameBut (some "a")) (tokenRun .failed) (tokenRun (.answered (.list
        [some ⟨"token", .missing, .missing, .missing, .text "1"⟩]))) ∧
      (UserTokenBalances.useUserTokenBalances.shownAfter (tokensOf "a") (tokenRun .failed)).tokens ≠
        (UserTokenBalances.useUserTokenBalances.shownAfter (tokensOf "a") (tokenRun (.answered (.list
          [some ⟨"token", .missing, .missing, .missing, .text "1"⟩])))).tokens) ∧
    List.Forall₂ (RewardCounter.SameBut "a") (rewardRun (.ok (RewardCounter.ZERO_REWARDS "a")))
      (rewardRun (.error ⟨some 403, none, some (0, 86400)⟩)) ∧
    ((rewardRun (.ok (RewardCounter.ZERO_REWARDS "a"))).foldl RewardCounter.State.step
        (RewardCounter.mounted (some "a") 0)).data.maturesAt ≠
      ((rewardRun (.error ⟨some 403, none, some (0, 86400)⟩)).foldl RewardCounter.State.step
        (RewardCounter.mounted (some "a") 0)).data.maturesAt := by
  refine ⟨⟨?_, fun h => ?_⟩, ⟨?_, fun h => ?_⟩, ?_, by decide⟩
  · exact .cons (.answer _ _ fun hne => absurd rfl hne) (.cons (.render _)
      (.cons (.answer _ _ fun _ => rfl) .nil))
  · exact nomatch congrArg List.length h
  · exact .cons (.answer _ _ fun hne => absurd rfl hne) (.cons (.render _) .nil)
  · exact nomatch congrArg List.length h
  · exact .cons (.answer _ _ fun hne => absurd rfl hne) (.cons (.render _) .nil)

end Balances
