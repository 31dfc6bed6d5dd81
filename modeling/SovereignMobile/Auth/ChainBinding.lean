import SovereignMobile.Auth.Types
import SovereignMobile.EventLoop.Basic

/-! # The chain binding

`useChainReregistration.ts` on an event loop, with `reRegisterExistingIdentity` and the registration of
a new identity from `RealAuthService.ts`, over the one record of `ChainBindingStorage.ts`. The node that
the device is connected to may be replaced by one of another chain at any time. A timer is a program of
its own; the app may be started again. -/

namespace ChainReregistration

open EventLoop
open Auth (Identity IdentityType Did truthy orElse includes)

structure LocalChainBinding where
  chainId : Nat
  registeredHeight : Nat
  identityId : String
  primaryWalletId : String
  ubiWalletId : String
  savingsWalletId : String
deriving DecidableEq

structure ChainInfo where
  chain_id : Nat
  height : Nat

inductive ChainReregStatus where
  | idle
  | checking
  | syncing
  | done
  | error
deriving DecidableEq

structure RegisterBody where
  identity_id : Option String
  primary_wallet_id : Option String
  ubi_wallet_id : Option String
  savings_wallet_id : Option String

/-- An accepted registration has a body, which may be no JSON. -/
inductive RegisterResponse where
  | ok (body : Option RegisterBody)
  | failed (status : Nat) (body : String)

/-! ## The past -/

/-- The node told the task its chain. Epochs count the nodes. -/
structure Reported where
  task : Nat
  chainId : Nat
  epoch : Nat
deriving DecidableEq

/-- The node registered the identity, or had registered it. -/
structure Registration where
  task : Nat
  identityId : String
  chainId : Nat
  epoch : Nat
deriving DecidableEq

/-- The check of an identity found no binding. -/
structure Baseline where
  task : Nat
  identityId : String
deriving DecidableEq

structure Past where
  reported : List Reported
  registrations : List Registration
  baselines : List Baseline
deriving DecidableEq

/-- What makes the hook report `done`: the stored binding, or that there was none, or a registration. -/
inductive Basis where
  | stored (binding : LocalChainBinding)
  | baseline
  | registered
deriving DecidableEq

structure Report where
  identityId : String
  chainId : Nat
  basis : Basis
  past : Past
deriving DecidableEq

/-! ## The machine -/

/-- What a `checkAndReregister` was created with. -/
structure Closure where
  isConnected : Bool
  currentIdentity : Option Identity

structure State where
  chainId : Nat
  height : Nat
  epoch : Nat
  isConnected : Bool
  currentIdentity : Option Identity
  stored : Option LocalChainBinding
  status : ChainReregStatus
  errorMessage : Option String
  running : Bool
  retryCount : Nat
  timers : List (Nat × Closure)
  past : Past
  reports : List Report

inductive Op where
  | setStatus (status : ChainReregStatus)
  | setErrorMessage (message : Option String)
  | setRunning (running : Bool)
  | setRetryCount (n : Nat)
  | setTimeout (delay : Nat) (c : Closure)
  | clearTimeout (n : Nat)
  | setCurrentIdentity (identity : Option Identity)
  | setConnected (isConnected : Bool)
  | connectTo (chainId height : Nat)
  | foundNone (identityId : String)
  | report (identityId : String) (chainId : Nat) (basis : Basis)

/-- `register` carries the id that the identity goes by so far. -/
inductive Call where
  | fetchChainInfo
  | getItem
  | setItem (binding : LocalChainBinding)
  | restoreIdentityToHandleStore (identityId : String)
  | createRegistrationProof (displayName : String) (did : Did)
  | register (identityId displayName : String) (identityType : IdentityType) (did : Did)
  | storeProvisionedIdentity (identityId : String) (did : Did)
  | setIdentity (identity : Identity)

abbrev Ret : Call → Type
  | .fetchChainInfo => ChainInfo
  | .getItem => Option LocalChainBinding
  | .register .. => RegisterResponse
  | _ => Unit

inductive Reply where
  | ok
  | response (r : RegisterResponse)
  | fails (error : String)

def State.apply (i : Nat) (o : Op) (s : State) : State :=
  match o with
  | .setStatus status => { s with status }
  | .setErrorMessage errorMessage => { s with errorMessage }
  | .setRunning running => { s with running }
  | .setRetryCount retryCount => { s with retryCount }
  | .setTimeout delay c => { s with timers := s.timers ++ [(delay, c)] }
  | .clearTimeout n => { s with timers := s.timers.eraseIdx n }
  | .setCurrentIdentity currentIdentity => { s with currentIdentity }
  | .setConnected isConnected => { s with isConnected }
  | .connectTo chainId height => { s with chainId, height, epoch := s.epoch + 1 }
  | .foundNone identityId =>
    { s with past := { s.past with baselines := ⟨i, identityId⟩ :: s.past.baselines } }
  | .report identityId chainId basis =>
    { s with reports := ⟨identityId, chainId, basis, s.past⟩ :: s.reports }

/-- The id that the server has given, or the old one. -/
def RegisterBody.identityIdOr (body : RegisterBody) (identityId : String) : String :=
  (truthy body.identity_id).getD identityId

def State.registers (i : Nat) (identityId : String) (s : State) : State :=
  let r : Registration := ⟨i, identityId, s.chainId, s.epoch⟩
  { s with past := { s.past with registrations := r :: s.past.registrations } }

/-- An answer that cannot be read is not counted. -/
def State.respond (i : Nat) (identityId : String) (s : State) : RegisterResponse → State
  | .ok (some body) => s.registers i (body.identityIdOr identityId)
  | .failed 409 _ => s.registers i identityId
  | _ => s

def State.perform (i : Nat) (c : Call) (r : Reply) (s : State) :
    Option (State × Except String (Ret c)) :=
  match c, r with
  | _, .fails e => some (s, .error e)
  | .fetchChainInfo, .ok =>
    let r : Reported := ⟨i, s.chainId, s.epoch⟩
    some ({ s with past := { s.past with reported := r :: s.past.reported } },
      .ok ⟨s.chainId, s.height⟩)
  | .getItem, .ok => some (s, .ok s.stored)
  | .setItem binding, .ok => some ({ s with stored := some binding }, .ok ())
  | .register identityId .., .response r => some (s.respond i identityId r, .ok r)
  | .restoreIdentityToHandleStore _, .ok => some (s, .ok ())
  | .createRegistrationProof .., .ok => some (s, .ok ())
  | .storeProvisionedIdentity .., .ok => some (s, .ok ())
  | .setIdentity _, .ok => some (s, .ok ())
  | _, _ => none

def machine : Machine where
  State := State
  Op := Op
  Call := Call
  Ret := Ret
  Err := String
  Reply := Reply
  apply := State.apply
  perform := State.perform

abbrev Prog (α : Type) := Async machine α

def getState : Prog State := Async.get
def op (o : Op) : Prog Unit := Async.op (M := machine) o
def await (c : Call) : Prog (Ret c) := Async.await (M := machine) c
def throw {α : Type} (e : String) : Prog α := Async.throw (M := machine) e
def rescue {α : Type} (m : Prog α) (handle : String → Prog α) : Prog α := Async.tryCatch m handle

/-- `catch (err) { console.warn(…) }` -/
def ignoring (m : Prog Unit) : Prog Unit := rescue m fun _ => pure ()

/-! ## ChainBindingStorage -/

namespace ChainBindingStorage

def get : Prog (Option LocalChainBinding) := rescue (await .getItem) fun _ => pure none

def set (binding : LocalChainBinding) : Prog Unit := await (.setItem binding)

end ChainBindingStorage

/-! ## RealAuthService -/

namespace RealAuthService

/-- What the node makes of a registration: the new id, and the three wallets. -/
def registered (identityId : String) : RegisterResponse → Except String (String × String × String × String)
  | .ok (some body) => .ok (body.identityIdOr identityId, (truthy body.primary_wallet_id).getD "",
      (truthy body.ubi_wallet_id).getD "", (truthy body.savings_wallet_id).getD "")
  | .ok none => .error "JSON Parse error"
  | .failed status body =>
    if status = 409 then .ok (identityId, "", "", "")
    else .error ("Re-registration failed: HTTP " ++ toString status ++ ": " ++ body)

def renamed (identityId newIdentityId : String) (did : Did) : Prog Unit :=
  if newIdentityId = identityId then pure ()
  else do
    ignoring (await (.storeProvisionedIdentity newIdentityId did))
    ignoring (await (.restoreIdentityToHandleStore newIdentityId))

def reRegisterExistingIdentity (currentIdentity : Identity) (newChainId newHeight : Nat) :
    Prog LocalChainBinding :=
  match truthy currentIdentity.identityId with
  | none => throw "Cannot re-register: identity has no identityId"
  | some identityId => do
    rescue (await (.restoreIdentityToHandleStore identityId)) fun err =>
      throw ("Failed to restore identity handle for re-registration: " ++ err)
    let displayName := orElse currentIdentity.displayName "Recovered Identity"
    await (.createRegistrationProof displayName currentIdentity.did)
    let response ← await (.register identityId displayName currentIdentity.identityType
      currentIdentity.did)
    match registered identityId response with
    | .error e => throw e
    | .ok (newIdentityId, primaryWalletId, ubiWalletId, savingsWalletId) => do
      renamed identityId newIdentityId currentIdentity.did
      let binding : LocalChainBinding :=
        ⟨newChainId, newHeight, newIdentityId, primaryWalletId, ubiWalletId, savingsWalletId⟩
      ChainBindingStorage.set binding
      pure binding

/-- From the registration of a new identity to its binding. -/
def registerNewIdentity (displayName : String) (did : Did) : Prog Unit := do
  let response ← await (.register "" displayName .human did)
  match response with
  | .failed status body =>
    if status = 409 ∧ includes body "Identity already registered" then pure ()
    else throw ("Server registration failed: HTTP " ++ toString status ++ ": " ++ body)
  | .ok none => throw "Server registration failed: JSON Parse error"
  | .ok (some body) =>
    ignoring do
      let chainInfo ← await .fetchChainInfo
      ChainBindingStorage.set ⟨chainInfo.chain_id, chainInfo.height, body.identityIdOr "",
        (truthy body.primary_wallet_id).getD "", (truthy body.ubi_wallet_id).getD "",
        (truthy body.savings_wallet_id).getD ""⟩

end RealAuthService

/-! ## The hook -/

def MAX_RETRIES : Nat := 3

def RETRY_DELAYS : List Nat := [1000, 2000, 4000]

/-- `setStatus('done')`, for whom and on which chain. -/
def done (identityId : String) (chainId : Nat) (basis : Basis) : Prog Unit := do
  op (.report identityId chainId basis)
  op (.setStatus .done)

/-- The try block. -/
def check (currentIdentity : Identity) (identityId : String) : Prog Unit := do
  let chainInfo ← await .fetchChainInfo
  let binding ← ChainBindingStorage.get
  match binding with
  | none =>
    op (.foundNone identityId)
    ChainBindingStorage.set ⟨chainInfo.chain_id, chainInfo.height, identityId, "", "", ""⟩
    done identityId chainInfo.chain_id .baseline
  | some binding =>
    if binding.chainId = chainInfo.chain_id then
      done identityId chainInfo.chain_id (.stored binding)
    else
      op (.setStatus .syncing)
      let newBinding ← RealAuthService.reRegisterExistingIdentity currentIdentity chainInfo.chain_id
        chainInfo.height
      if newBinding.identityId ≠ identityId then
        let updatedIdentity := { currentIdentity with identityId := some newBinding.identityId }
        await (.setIdentity updatedIdentity)
        op (.setCurrentIdentity (some updatedIdentity))
      op (.setRetryCount 0)
      done newBinding.identityId chainInfo.chain_id .registered

/-- The catch block. -/
def retryLater (c : Closure) (msg : String) : Prog Unit := do
  let s ← getState
  if s.retryCount < MAX_RETRIES then
    op (.setRetryCount (s.retryCount + 1))
    op (.setStatus .syncing)
    op (.setTimeout (RETRY_DELAYS[s.retryCount]?.getD 4000) c)
  else
    op (.setErrorMessage (some msg))
    op (.setStatus .error)

def checkAndReregister (c : Closure) : Prog Unit := do
  let s ← getState
  if s.running then pure ()
  else
    match c.isConnected, c.currentIdentity with
    | true, some currentIdentity =>
      match truthy currentIdentity.identityId with
      | none => pure ()
      | some identityId => do
        op (.setRunning true)
        op (.setStatus .checking)
        op (.setErrorMessage none)
        Async.settle (rescue (check currentIdentity identityId) (retryLater c)) fun
          | .ok _ => op (.setRunning false)
          | .error e => do
            op (.setRunning false)
            throw e
    | _, _ => pure ()

/-- The closure of the last render. -/
def rendered (s : State) : Closure := ⟨s.isConnected, s.currentIdentity⟩

inductive Cmd where
  | connectTo (chainId height : Nat)
  | setConnected (isConnected : Bool)
  | setCurrentIdentity (identity : Option Identity)
  | createIdentity (displayName : String) (did : Did)
  | effect
  | retry
  | timeout (n : Nat)
  | restart

def Cmd.prog : Cmd → Prog Unit
  | .connectTo chainId height => op (.connectTo chainId height)
  | .setConnected isConnected => op (.setConnected isConnected)
  | .setCurrentIdentity identity => op (.setCurrentIdentity identity)
  | .createIdentity displayName did => RealAuthService.registerNewIdentity displayName did
  | .effect => do
    let s ← getState
    checkAndReregister (rendered s)
  | .retry => do
    op (.setRetryCount 0)
    op (.setRunning false)
    let s ← getState
    checkAndReregister (rendered s)
  | .timeout n => do
    let s ← getState
    match s.timers[n]? with
    | none => pure ()
    | some (_, c) => do
      op (.clearTimeout n)
      op (.setRunning false)
      checkAndReregister c
  | .restart => do
    op (.setStatus .idle)
    op (.setErrorMessage none)
    op (.setRunning false)
    op (.setRetryCount 0)

def prog (c : Cmd) : Task machine := c.prog.toTask

/-- A device on which nothing was registered. -/
structure Fresh (s : State) : Prop where
  stored : s.stored = none
  past : s.past = ⟨[], [], []⟩
  reports : s.reports = []

end ChainReregistration
