import SovereignMobile.Identity.HandleStore
import SovereignMobile.Threads.Basic

/-! # Identity objects on Android

The tasks of `NativeIdentityProvisioning.kt` run side by side in a cached thread pool and share
`cachedIdentities`. An `Identity` (`Identity.kt`) is the only owner of a handle in Rust, which its `close`
frees; nothing counts who has it in hand. Objects are numbered as they are made. What is signed, the
promises and the fields that an object copies when it is made are left out; the operations of the map are
taken as whole. -/

namespace CachedIdentities

open NativeIdentityProvisioning (Did prefixedDid)
open NativeIdentityProvisioning.Android (trim normalizeIdentityId)
open Threads

/-- The JNI calls on the handle of an identity. -/
inductive NativeCall where
  | signRegistrationProof
  | serialize
  | getSeedPhrase
  | exportKeystoreBase64
  | getWalletId
  | signMessage
  | signPoUWReceiptJson
  | buildKyberKeyUpdate
  | buildTokenMint
  | buildTokenTransfer
  | buildTokenBurn
  | buildSovWalletTransfer
  | buildTokenWalletTransfer
  | buildDaoStake
  | buildDomainRegisterRequest
  | buildDomainFeePaymentTx
  | buildDomainRegisterRequestWithFeePayment
  | buildAssetLaunch
  | buildDomainUpdateRequest
  | buildDomainTransferRequest
deriving DecidableEq

/-! ## State -/

/-- `modCount` counts the structural changes of the map. `dids` has the DID of each object made so far,
    `closed` those whose flag is set, `freed` the object of each `nativeIdentityFree`. -/
structure State where
  cachedIdentities : LinkedMap Did Nat
  modCount : Nat
  dids : List Did
  closed : List Nat
  freed : List Nat

def State.initial : State := ⟨.empty, 0, [], [], []⟩

namespace State

variable (s : State)

def did (o : Nat) : Did := s.dids[o]?.getD ""

/-- `fromHandle` -/
def make (did : Did) : State := { s with dids := s.dids ++ [did] }

/-- `cachedIdentities[identity.did] = identity` -/
def put (o : Nat) : State :=
  { s with
    cachedIdentities := s.cachedIdentities.put (s.did o) o
    modCount := if s.did o ∈ s.cachedIdentities.keys then s.modCount else s.modCount + 1 }

/-- `cachedIdentities.clear()` -/
def clear : State := { s with cachedIdentities := .empty, modCount := s.modCount + 1 }

/-- `closed = true` -/
def mark (o : Nat) : State := { s with closed := o :: s.closed }

def nativeIdentityFree (o : Nat) : State := { s with freed := o :: s.freed }

end State

/-! ## Tasks -/

/-- What a task does after a `close`: put its own object into the map, go on with the entries, nothing. -/
inductive After where
  | put (o : Nat)
  | sweep (next : Option Nat) (modCount : Nat)
  | done
deriving DecidableEq

/-- Where a task stands. One that makes an identity goes on to look for the entry that it replaces; a
    cleanup has an iterator, with the index of the next entry; `close` is before its test of the flag, before
    it sets the flag, and before it frees the handle. A task that needs an identity looks at the keys that
    are left, at the last value if `latest`, and then at what is stored. With an identity in hand, it has
    calls left. `use` closes an object that no other task has. -/
inductive Task where
  | making
  | replacing (o : Nat)
  | putting (o : Nat)
  | cleaning
  | sweeping (next : Option Nat) (modCount : Nat)
  | closing (o : Nat) (after : After)
  | marking (o : Nat) (after : After)
  | freeing (o : Nat) (after : After)
  | looking (keys : List Did) (latest : Bool) (calls : List NativeCall)
  | restoring (calls : List NativeCall)
  | caching (o : Nat) (calls : List NativeCall)
  | inUse (o : Nat) (calls : List NativeCall)
  | loading (calls : List NativeCall)
  | owning (o : Nat) (calls : List NativeCall)
deriving DecidableEq

/-- What a task waits for: its turn, the native side to make an identity, a call to return, or any of them
    to fail. -/
inductive Input where
  | go
  | made (did : Did)
  | returned
  | fails

def After.next : After → Option Task
  | .put o => some (.putting o)
  | .sweep next modCount => some (.sweeping next modCount)
  | .done => none

/-- A task is done with an identity after its last call. -/
def useNext (o : Nat) : List NativeCall → Option Task
  | [] => none
  | calls => some (.inUse o calls)

def Task.next (t : Task) (x : Input) (s : State) : Option (State × Option Task) :=
  match t, x with
  | .making, .made did => some (s.make did, some (.replacing s.dids.length))
  | .making, .fails => some (s, none)
  | .replacing o, .go =>
    match s.cachedIdentities.get (s.did o) with
    | some old => some (s, some (.closing old (.put o)))
    | none => some (s, some (.putting o))
  | .putting o, .go => some (s.put o, none)
  -- the iterator of `values.forEach`
  | .cleaning, .go =>
    some (s, some (.sweeping (if s.cachedIdentities.values.isEmpty then none else some 0) s.modCount))
  | .cleaning, .fails => some (s, none)
  | .sweeping none _, .go => some (s.clear, none)
  | .sweeping (some n) modCount, .go =>
    if s.modCount = modCount then
      match s.cachedIdentities.values[n]? with
      | some o =>
        some (s, some (.closing o
          (.sweep (if n + 1 < s.cachedIdentities.values.length then some (n + 1) else none) modCount)))
      | none => some (s, none)
    else
      -- ConcurrentModificationException
      some (s, none)
  | .closing o after, .go => some (s, if o ∈ s.closed then after.next else some (.marking o after))
  | .marking o after, .go => some (s.mark o, some (.freeing o after))
  | .freeing o after, .go => some (s.nativeIdentityFree o, after.next)
  | .looking (key :: keys) latest calls, .go =>
    match s.cachedIdentities.get key with
    | some o => some (s, useNext o calls)
    | none => some (s, some (.looking keys latest calls))
  | .looking [] true calls, .go =>
    match s.cachedIdentities.lastOrNull with
    | some o => some (s, useNext o calls)
    | none => some (s, some (.restoring calls))
  | .looking [] false _, .go => some (s, none)
  | .looking _ _ _, .fails => some (s, none)
  | .restoring calls, .made did => some (s.make did, some (.caching s.dids.length calls))
  | .restoring _, .fails => some (s, none)
  | .caching o calls, .go => some (s.put o, useNext o calls)
  | .inUse o (_ :: calls), .returned => some (s, useNext o calls)
  | .inUse _ _, .fails => some (s, none)
  | .loading calls, .made did => some (s.make did, some (.owning s.dids.length calls))
  | .loading _, .fails => some (s, none)
  | .owning o (_ :: calls), .returned => some (s, some (.owning o calls))
  | .owning o [], .go => some (s, some (.closing o .done))
  | .owning o _, .fails => some (s, some (.closing o .done))
  | _, _ => none

/-! ## The methods of the bridge -/

inductive Call where
  | generateLocalIdentity
  | provisionIdentity
  | restoreIdentityToHandleStore
  | restoreIdentityFromPhrase
  | cleanKeystoreDirectory
  | createRegistrationProof (did : Did)
  | storeProvisionedIdentity (did : Did)
  | getSeedPhraseForBackup (did : Did)
  | signMessageForDid (did : Did)
  | exportKeystoreBase64 (did : Did)
  | getPublicIdentity
  | signMessage
  | signPouwReceipt
  | buildKyberKeyUpdate
  | signTokenCreateTransaction
  | signTokenMintTransaction
  | signTokenTransferTransaction
  | signTokenBurnTransaction
  | signSovWalletTransferTransaction
  | signTokenWalletTransferTransaction
  | signDaoStakeTransaction
  | signDomainRegisterRequest
  | signDomainFeePaymentTx
  | signDomainRegisterRequestWithFeePayment
  | signAssetLaunchTransaction
  | signDomainUpdateRequest
  | signDomainTransferRequest
  | getLocalIdentity
  | getSeedPhraseFromStoredIdentity
  | signMessageFromSeed
  | getCurrentIdentityDid
  /-- The collector has found the object out of reach. -/
  | finalize (o : Nat)

/-- `getLatestIdentity` -/
def latest (calls : List NativeCall) : Task := .looking [] true calls

/-- `cachedIdentities[did]` -/
def cached (did : Did) (calls : List NativeCall) : Task := .looking [did] false calls

def Call.start : Call → Task
  | .generateLocalIdentity => .making
  | .provisionIdentity => .making
  | .restoreIdentityToHandleStore => .making
  | .restoreIdentityFromPhrase => .making
  | .cleanKeystoreDirectory => .cleaning
  | .createRegistrationProof did => cached did [.signRegistrationProof]
  | .storeProvisionedIdentity did => cached did [.serialize]
  | .getSeedPhraseForBackup did => cached did [.getSeedPhrase]
  | .signMessageForDid did => cached did [.signMessage]
  | .exportKeystoreBase64 did =>
    .looking [trim did, prefixedDid (trim did), normalizeIdentityId (trim did)] true [.exportKeystoreBase64]
  | .getPublicIdentity => latest []
  | .signMessage => latest [.signMessage]
  | .signPouwReceipt => latest [.signPoUWReceiptJson]
  | .buildKyberKeyUpdate => latest [.buildKyberKeyUpdate]
  | .signTokenCreateTransaction => latest [.serialize]
  | .signTokenMintTransaction => latest [.buildTokenMint]
  | .signTokenTransferTransaction => latest [.buildTokenTransfer]
  | .signTokenBurnTransaction => latest [.buildTokenBurn]
  | .signSovWalletTransferTransaction => latest [.getWalletId, .buildSovWalletTransfer]
  | .signTokenWalletTransferTransaction => latest [.buildTokenWalletTransfer]
  | .signDaoStakeTransaction => latest [.buildDaoStake]
  | .signDomainRegisterRequest => latest [.buildDomainRegisterRequest]
  | .signDomainFeePaymentTx => latest [.buildDomainFeePaymentTx]
  | .signDomainRegisterRequestWithFeePayment => latest [.buildDomainRegisterRequestWithFeePayment]
  | .signAssetLaunchTransaction => latest [.buildAssetLaunch]
  | .signDomainUpdateRequest => latest [.buildDomainUpdateRequest]
  | .signDomainTransferRequest => latest [.buildDomainTransferRequest]
  | .getLocalIdentity => .loading []
  | .getSeedPhraseFromStoredIdentity => .loading [.getSeedPhrase]
  | .signMessageFromSeed => .loading [.signMessage]
  | .getCurrentIdentityDid => .loading []
  | .finalize o => .closing o .done

def program : Program State Task Call Input where
  call c s := (s, [c.start])
  step t x s := (t.next x s).map fun r => (r.1, r.2.toList)

def init (s : State) : Prop := s = .initial

/-! ## Who has an object in hand -/

def After.own : After → List Nat
  | .put o => [o]
  | _ => []

/-- The objects that only this task can reach. -/
def Task.own : Task → List Nat
  | .replacing o => [o]
  | .putting o => [o]
  | .caching o _ => [o]
  | .owning o _ => [o]
  | .closing _ after => after.own
  | .marking _ after => after.own
  | .freeing _ after => after.own
  | _ => []

/-- The object on which the task runs `close`. -/
def Task.closes : Task → Option Nat
  | .closing o _ => some o
  | .marking o _ => some o
  | .freeing o _ => some o
  | _ => none

/-- The object from the cache that the task has calls left on. -/
def Task.uses : Task → Option Nat
  | .inUse o _ => some o
  | _ => none

def Task.holds (t : Task) : List Nat := t.own ++ (t.closes.toList ++ t.uses.toList)

/-- The object that the task is about to find in the cache, to close it. -/
def Task.findsToClose (s : State) : Task → Option Nat
  | .replacing o => s.cachedIdentities.get (s.did o)
  | .sweeping (some n) modCount => if s.modCount = modCount then s.cachedIdentities.values[n]? else none
  | _ => none

/-- The object that the task is about to find in the cache, to use it. -/
def Task.findsToUse (s : State) : Task → Option Nat
  | .looking (key :: _) _ _ => s.cachedIdentities.get key
  | .looking [] true _ => s.cachedIdentities.lastOrNull
  | _ => none

/-- The collector finalizes only what no task and no entry of the cache refers to. -/
def collects : Cond State Task Call Input := fun w m =>
  match m with
  | .call (.finalize o) =>
    o < w.shared.dids.length && o ∉ w.shared.cachedIdentities.values && w.threads.all fun t => o ∉ t.holds
  | _ => true

/-! ## The property -/

/-- No object is closed while a task has it from the cache and has calls left on it, and no handle is freed
    twice. -/
structure Safe (w : Pool State Task) : Prop where
  unclosed : ∀ t ∈ w.threads, ∀ o, t.uses = some o →
    o ∉ w.shared.closed ∧ ∀ u ∈ w.threads, u.closes ≠ some o
  freed : w.shared.freed.Nodup

/-! ## The condition -/

/-- A task that replaces an entry or empties the cache finds no object there that another task has in hand,
    and a task that needs an identity finds none that another task is closing or that is closed. -/
def findsIdle : Cond State Task Call Input := fun w m =>
  match m with
  | .call _ => true
  | .step n _ =>
    match w.threads[n]? with
    | none => true
    | some t =>
      ((t.findsToClose w.shared).all fun o => (w.threads.eraseIdx n).all fun u => o ∉ u.holds) &&
        (t.findsToUse w.shared).all fun o =>
          o ∉ w.shared.closed && (w.threads.eraseIdx n).all fun u => u.closes ≠ some o

/-- As the collector does, and as the condition says. -/
def exclusive : Cond State Task Call Input := fun w m => collects w m && findsIdle w m

end CachedIdentities
