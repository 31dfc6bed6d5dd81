import SovereignMobile.EventLoop.Script
import SovereignMobile.Messaging.Functions
import SovereignMobile.Messaging.Runs

/-! # Who is shaking hands

`getOrInitSendSession` runs one handshake for each peer at a time: whoever finds neither a session nor
a handshake in flight starts one, puts its promise in the map, and takes it out again when the promise
is settled, and whoever comes meanwhile waits for the same promise. The roles name the tasks that take
part, and `Inv` says that they fit the map and that there are never two of a kind for one peer. The
operations and calls that change anything about a handshake are listed one by one (`OpPre`, `CallPre`),
with what the task that makes them knows. -/

namespace Handshakes

open Messaging EventLoop
open Function (update update_of_ne update_self)

/-- What `initiateSession` gave, for the peer that the server named. -/
structure NewSession where
  sid : Nat
  gen : Gen
  remote : Did

/-- How far a handshake has got: it has no session yet, it has restored one, or it has initiated one,
    put it into the cache, and shipped its `KeyExchange` or failed to. -/
inductive Phase where
  | asked
  | restored (sid : Nat)
  | made (x : NewSession)
  | cached (x : NewSession)
  | shipped (x : NewSession)
  | lost (x : NewSession)

/-- What a task is doing about the outbound session with `did` on the device `me`. `since` is how much
    had happened when the task reset the session, if it did. -/
inductive Role where
  | plain
  | recovers (me did : Did) (since : Nat)
  | starts (me did : Did) (p : PromiseId) (since : Option Nat)
  | waits (me did : Did) (p : PromiseId) (owner : Bool) (since : Option Nat)
  | released (me did : Did) (p : PromiseId)
  | handshake (me did : Did) (p : PromiseId) (phase : Phase)

/-- The task runs the handshake behind the promise. -/
def Role.runs : Role → Option (Did × Did × PromiseId)
  | .handshake me did p _ => some (me, did, p)
  | _ => none

/-- The task has put the promise into the map, and will take it out; whether it has heard of its
    outcome. -/
def Role.owns : Role → Option (Did × Did × PromiseId × Bool)
  | .waits me did p true _ => some (me, did, p, false)
  | .released me did p => some (me, did, p, true)
  | _ => none

/-- The promise that the task waits for. -/
def Role.waitsFor : Role → Option (Did × Did × PromiseId)
  | .waits me did p _ _ => some (me, did, p)
  | _ => none

/-- The session that the task has reset and not heard of since. -/
def Role.since : Role → Option (Did × Did × Nat)
  | .recovers me did g => some (me, did, g)
  | .starts me did _ (some g) => some (me, did, g)
  | .waits me did _ _ (some g) => some (me, did, g)
  | _ => none

/-- Not in the middle of a segment. -/
def Role.Suspends : Role → Prop
  | .recovers _ _ _ => False
  | .starts _ _ _ _ => False
  | _ => True

abbrev Conf := Config machine Role

/-- The outbound side of the device `me`. -/
def side (c : Conf) (me : Did) : SendSide := (State.client c.state me).send

/-- The roles fit the handshakes in flight. -/
structure Inv (c : Conf) : Prop where
  runs : ∀ j me did p, (c.role j).runs = some (me, did, p) →
    (side c me).sendSessionInitInFlight did = some p ∧ (side c me).promises p = none
  owns : ∀ j me did p heard, (c.role j).owns = some (me, did, p, heard) →
    (side c me).sendSessionInitInFlight did = some p ∧
      (heard = true → (side c me).promises p ≠ none)
  oneRuns : ∀ j k me did p q, (c.role j).runs = some (me, did, p) →
    (c.role k).runs = some (me, did, q) → j = k
  oneOwns : ∀ j k me did p q heard heard', (c.role j).owns = some (me, did, p, heard) →
    (c.role k).owns = some (me, did, q, heard') → j = k
  settled : ∀ me p, (side c me).promises p ≠ none → p.n < (side c me).nextPromise
  inFlight : ∀ me did p, (side c me).sendSessionInitInFlight did = some p →
    p.did = did ∧ p.n < (side c me).nextPromise
  waited : ∀ j me did p, (c.role j).waitsFor = some (me, did, p) →
    p.did = did ∧ p.n < (side c me).nextPromise
  suspends : ∀ j, (c.role j).Suspends

/-! ## What the tasks do -/

/-- The operations that touch neither sessions nor handshakes nor recoveries. -/
def Neutral : ClientOp → Prop
  | .send (.beginRestore _) => True
  | .send .restoreFailed => True
  | .send _ => False
  | .health (.setDesynced _ _) => True
  | .health (.see _) => True
  | .health _ => False
  | .deleteConversation _ => False
  | _ => True

/-- `recoverMissingSession` has passed the cooldown test. -/
def passes (me did : Did) : Event machine → Bool
  | .op _ s (.client me' (.health (.attemptRecovery did' now _))) =>
    me' == me && did' == did && !((State.client s me).health.coolingDown did now)
  | _ => false

/-- `reconnectSession` has been called. -/
def reconnects (me did : Did) : Event machine → Bool
  | .op _ _ (.client me' (.health (.setRecoveryAttempt did' _))) => me' == me && did' == did
  | _ => false

/-- The last thing that happened is one of the two. -/
def Attempted (c : Conf) (me did : Did) : Prop :=
  ∃ h e, c.events = h ++ [e] ∧ (passes me did e = true ∨ reconnects me did e = true)

/-- `resetSendSession(did)` on the device `me` -/
def resetOp (me did : Did) : Op := .client me (.send (.resetSendSession did))

/-- Nobody waits for the promise yet. -/
def Unheard (c : Conf) (me : Did) (p : PromiseId) : Prop :=
  ∀ j did, (c.role j).waitsFor ≠ some (me, did, p)

/-- Nobody but `i` runs a handshake with `did`. -/
def NoOther (c : Conf) (i : Nat) (me did : Did) : Prop :=
  ∀ j, j ≠ i → ∀ p, (c.role j).runs ≠ some (me, did, p)

inductive OpPre (i : Nat) (c : Conf) : Op → Role → Prop
  | advance (ms : Nat) : OpPre i c (.advance ms) (c.role i)
  | neutral (me : Did) (o : ClientOp) : Neutral o → OpPre i c (.client me o) (c.role i)
  | persist (me did : Did) (sid : Nat) (blob : Session) :
      OpPre i c (.client me (.send (.setSerializedSession did sid blob))) (c.role i)
  | restored (me did : Did) (sid : Nat) : c.role i = .plain →
      OpPre i c (.client me (.send (.restored did sid))) .plain
  | restoredOwn (me did : Did) (sid : Nat) (p : PromiseId) : c.role i = .handshake me did p .asked →
      OpPre i c (.client me (.send (.restored did sid))) (.handshake me did p (.restored sid))
  | cached (me did : Did) (p : PromiseId) (x : NewSession) :
      c.role i = .handshake me did p (.made x) → NoOther c i me did →
      OpPre i c (.client me (.send (.setSession did x.sid))) (.handshake me did p (.cached x))
  | reset (me did : Did) : c.role i = .plain → Attempted c me did → Inv c →
      OpPre i c (resetOp me did) (.recovers me did c.events.length)
  | newPromise (me did : Did) : c.role i = .plain →
      OpPre i c (.client me (.send .newPromise))
        (.starts me did ⟨did, (side c me).nextPromise⟩ none)
  | newPromiseSince (me did : Did) (g : Nat) : c.role i = .recovers me did g →
      OpPre i c (.client me (.send .newPromise))
        (.starts me did ⟨did, (side c me).nextPromise⟩ (some g))
  | setInFlight (me did : Did) (p : PromiseId) (since : Option Nat) :
      c.role i = .starts me did p since → (side c me).promises p = none → Unheard c me p →
      (∀ j q, (c.role j).runs = some (me, did, q) → c.role j = .handshake me did p .asked) →
      (since.isSome → (side c me).sendSessionByDid did = none ∧ (side c me).blobs did = none) →
      OpPre i c (.client me (.send (.setInFlight did p))) (.waits me did p true since)
  | settle (me did : Did) (p : PromiseId) (phase : Phase) (r : Except Err Nat) :
      c.role i = .handshake me did p phase →
      (∀ sid, r = .ok sid → phase = .restored sid ∨ ∃ x, phase = .shipped x ∧ x.sid = sid) →
      (∀ d, (side c me).sendSessionInitInFlight d = some p ↔ d = did) → NoOther c i me did →
      (∀ j d, (c.role j).waitsFor = some (me, d, p) → d = did) →
      OpPre i c (.client me (.send (.settle p r))) .plain
  | deleteInFlight (me did : Did) (p : PromiseId) : c.role i = .released me did p →
      (∀ j q, (c.role j).runs ≠ some (me, did, q)) →
      OpPre i c (.client me (.send (.deleteInFlight did))) .plain
  | attempt (me did : Did) (again : Bool) :
      OpPre i c (.client me (.health (.attemptRecovery did (State.now c.state) again))) (c.role i)
  | reconnect (me did : Did) :
      OpPre i c (.client me (.health (.setRecoveryAttempt did (State.now c.state)))) (c.role i)
  | delete (me did : Did) : OpPre i c (.client me (.deleteConversation did)) (c.role i)

inductive ForkPre (i : Nat) (c : Conf) : Role → Prop
  | program : ForkPre i c .plain
  | handshake (me did : Did) (p : PromiseId) (since : Option Nat) :
      c.role i = .starts me did p since → (side c me).sendSessionByDid did = none → Unheard c me p →
      (∀ j q, (c.role j).runs ≠ some (me, did, q)) → ForkPre i c (.handshake me did p .asked)

inductive AwaitPre (i : Nat) (c : Conf) : Call → Role → Prop
  | keep (k : Call) : AwaitPre i c k (c.role i)
  | join (me did : Did) (p : PromiseId) (g : Nat) (h : List (Event machine)) (s : State) :
      c.role i = .recovers me did g → (side c me).sendSessionInitInFlight did = some p →
      c.events = h ++ [.op i s (resetOp me did)] → c.state = Op.apply i (resetOp me did) s →
      (∀ j q, (c.role j).runs = some (me, did, q) → q = p) →
      AwaitPre i c (.promise me p) (.waits me did p false (some g))

/-- The calls that are no step of a handshake. -/
def Quiet : Call → Prop
  | .initiateSession _ _ _ => False
  | .sendEnvelope e => e.contentType ≠ .keyExchange
  | _ => True

inductive CallPre (i : Nat) (c : Conf) : (k : Call) → Except Err (Ret k) → Role → Prop
  | quiet (k : Call) (out : Except Err (Ret k)) : Quiet k → (c.role i).since = none →
      CallPre i c k out (c.role i)
  | heard (me did : Did) (p : PromiseId) (owner : Bool) (since : Option Nat)
      (out : Except Err Nat) : c.role i = .waits me did p owner since →
      CallPre i c (.promise me p) out (if owner then .released me did p else .plain)
  | made (me did remote : Did) (p : PromiseId) (r : InitResult) :
      c.role i = .handshake me did p .asked →
      CallPre i c (.initiateSession me did remote) (.ok r)
        (.handshake me did p (.made ⟨r.sessionId, r.gen, remote⟩))
  | notMade (me did remote : Did) (p : PromiseId) (e : Err) :
      c.role i = .handshake me did p .asked →
      CallPre i c (.initiateSession me did remote) (.error e) (.handshake me did p .asked)
  | shipped (me did : Did) (p : PromiseId) (x : NewSession) (e : Envelope) (r : SendStatus) :
      c.role i = .handshake me did p (.cached x) → e.contentType = .keyExchange →
      e.senderDid = me → e.recipientDid = x.remote → e.gen = x.gen →
      CallPre i c (.sendEnvelope e) (.ok r) (.handshake me did p (.shipped x))
  | lost (me did : Did) (p : PromiseId) (x : NewSession) (e : Envelope) (err : Err) :
      c.role i = .handshake me did p (.cached x) → e.contentType = .keyExchange →
      e.senderDid = me → e.recipientDid = x.remote → e.gen = x.gen →
      CallPre i c (.sendEnvelope e) (.error err) (.handshake me did p (.lost x))

variable {i : Nat} {c c' : Conf} {r : Role} {me : Did} {s s' : State} {k : Call}

/-- The handshake that a task runs after an operation is the one that it ran before, or the operation
    has put its session into the cache, or restored one. -/
theorem handshake_of_op {o : Op} (h : OpPre i c o r) {did : Did} {p : PromiseId} {phase : Phase}
    (hr : r = .handshake me did p phase) :
    c.role i = r ∨ (∃ x, c.role i = .handshake me did p (.made x) ∧ phase = .cached x ∧
        o = .client me (.send (.setSession did x.sid))) ∨
      ∃ sid, c.role i = .handshake me did p .asked ∧ phase = .restored sid ∧
        o = .client me (.send (.restored did sid)) := by
  cases h with
  | cached me' did' p' x hi _ =>
    obtain ⟨rfl, rfl, rfl, rfl⟩ := Role.handshake.inj hr
    exact .inr (.inl ⟨x, hi, rfl, rfl⟩)
  | restoredOwn me' did' sid p' hi =>
    obtain ⟨rfl, rfl, rfl, rfl⟩ := Role.handshake.inj hr
    exact .inr (.inr ⟨sid, hi, rfl, rfl⟩)
  | advance | neutral | persist | attempt | reconnect | delete => exact .inl rfl
  | _ => simp at hr

/-- How the service shakes hands. -/
def script : Script machine Role where
  idle := .plain
  Inv := Inv
  OpPre := OpPre
  ForkPre := ForkPre
  AwaitPre := AwaitPre
  CallPre := CallPre

/-! ## The invariant -/

/-- The part of a device that `Inv` looks at. -/
def SameFlights (s s' : State) : Prop :=
  ∀ me, (s'.client me).send.sendSessionInitInFlight = (s.client me).send.sendSessionInitInFlight ∧
    (s'.client me).send.promises = (s.client me).send.promises ∧
    (s'.client me).send.nextPromise = (s.client me).send.nextPromise

theorem SameFlights.refl (s : State) : SameFlights s s := fun _ => ⟨rfl, rfl, rfl⟩

theorem Inv.same (h : Inv c) (hs : SameFlights c.state c'.state)
    (hruns : ∀ j x, (c'.role j).runs = some x → (c.role j).runs = some x)
    (howns : ∀ j x, (c'.role j).owns = some x → (c.role j).owns = some x)
    (hwaits : ∀ j me did p, (c'.role j).waitsFor = some (me, did, p) →
      p.did = did ∧ p.n < (side c me).nextPromise) (hsusp : ∀ j, (c'.role j).Suspends) :
    Inv c' where
  runs j me did p hj := by
    rw [side, (hs me).1, (hs me).2.1]
    exact h.runs j me did p (hruns j _ hj)
  owns j me did p heard hj := by
    rw [side, (hs me).1, (hs me).2.1]
    exact h.owns j me did p heard (howns j _ hj)
  oneRuns j k me did p q hj hk := h.oneRuns j k me did p q (hruns j _ hj) (hruns k _ hk)
  oneOwns j k me did p q heard heard' hj hk :=
    h.oneOwns j k me did p q heard heard' (howns j _ hj) (howns k _ hk)
  settled me p hp := by
    rw [side, (hs me).2.1] at hp
    rw [side, (hs me).2.2]
    exact h.settled me p hp
  inFlight me did p hp := by
    rw [side, (hs me).1] at hp
    rw [side, (hs me).2.2]
    exact h.inFlight me did p hp
  waited j me did p hj := by
    rw [side, (hs me).2.2]
    exact hwaits j me did p hj
  suspends := hsusp

theorem side_op_self (c : Conf) (i : Nat) (me : Did) (o : SendOp) (r : Role) :
    side (c.op i (.client me (.send o)) r) me = o.apply i (side c me) :=
  congrArg Client.send (State.modify_client_self c.state me (ClientOp.apply i (.send o)))

theorem side_op_ne (c : Conf) (i : Nat) {me' : Did} (h : me' ≠ me) (o : SendOp) (r : Role) :
    side (c.op i (.client me (.send o)) r) me' = side c me' :=
  congrArg Client.send (State.modify_client_ne c.state h (ClientOp.apply i (.send o)))

/-- What an operation does to the sending side of a device is an operation on it: a deletion resets the
    session. -/
theorem side_after (me : Did) (o : Op) (i : Nat) (c : Conf) (r : Role) :
    side (c.op i o r) me = side c me ∨ ∃ o', side (c.op i o r) me = SendOp.apply i o' (side c me) ∧
        (o = .client me (.send o') ∨
          ∃ did, o = .client me (.deleteConversation did) ∧ o' = .resetSendSession did) := by
  cases o with
  | advance ms => exact .inl rfl
  | client me' o =>
    by_cases hme : me = me'
    · subst hme
      have hself : side (c.op i (.client me o) r) me = (o.apply i (State.client c.state me)).send :=
        congrArg Client.send (State.modify_client_self ..)
      cases o with
      | send o => exact .inr ⟨o, hself, .inl rfl⟩
      | deleteConversation did =>
        exact .inr ⟨.resetSendSession did, hself, .inr ⟨did, rfl, rfl⟩⟩
      | _ => exact .inl hself
    · exact .inl (congrArg Client.send (State.modify_client_ne c.state hme _))

theorem role_cases (h : c'.role = update c.role i r) (j : Nat) :
    (j = i ∧ c'.role j = r) ∨ (j ≠ i ∧ c'.role j = c.role j) := by
  rw [h]
  by_cases hj : j = i
  · subst hj
    exact .inl ⟨rfl, update_self ..⟩
  · exact .inr ⟨hj, update_of_ne hj _ _⟩

theorem Inv.update (h : Inv c) (hs : SameFlights c.state c'.state)
    (hrole : c'.role = update c.role i r)
    (hruns : ∀ x, r.runs = some x → (c.role i).runs = some x)
    (howns : ∀ x, r.owns = some x → (c.role i).owns = some x)
    (hwaits : ∀ me did p, r.waitsFor = some (me, did, p) →
      p.did = did ∧ p.n < (side c me).nextPromise) (hsusp : r.Suspends) : Inv c' := by
  refine h.same hs (fun j x hx => ?_) (fun j x hx => ?_) (fun j me did p hp => ?_) fun j => ?_
  · rcases role_cases hrole j with ⟨rfl, hj⟩ | ⟨_, hj⟩
    · exact hruns x (hj ▸ hx)
    · exact hj ▸ hx
  · rcases role_cases hrole j with ⟨rfl, hj⟩ | ⟨_, hj⟩
    · exact howns x (hj ▸ hx)
    · exact hj ▸ hx
  · rcases role_cases hrole j with ⟨rfl, hj⟩ | ⟨_, hj⟩
    · exact hwaits me did p (hj ▸ hp)
    · exact h.waited j me did p (hj ▸ hp)
  · rcases role_cases hrole j with ⟨rfl, hj⟩ | ⟨_, hj⟩
    · exact hj ▸ hsusp
    · exact hj ▸ h.suspends j

theorem Inv.keep (h : Inv c) (hs : SameFlights c.state c'.state)
    (hrole : c'.role = Function.update c.role i (c.role i)) : Inv c' :=
  h.update hs hrole (fun _ hx => hx) (fun _ hx => hx) (h.waited i) (h.suspends i)

theorem Inv.fork (h : Inv c) : Inv (c.fork Role.plain) :=
  h.update (SameFlights.refl _) rfl (fun x hx => absurd hx (by simp [Role.runs]))
    (fun x hx => absurd hx (by simp [Role.owns]))
    (fun _ _ _ hx => absurd hx (by simp [Role.waitsFor])) trivial

theorem sameFlights_modify {f : Client → Client}
    (h : ∀ c, (f c).send.sendSessionInitInFlight = c.send.sendSessionInitInFlight ∧
      (f c).send.promises = c.send.promises ∧ (f c).send.nextPromise = c.send.nextPromise) :
    SameFlights s (s.modify me f) := by
  intro me'
  by_cases hme : me' = me
  · subst hme
    have hcl : (s.modify me' f).client me' = f (s.client me') := update_self ..
    rw [hcl]
    exact h _
  · have hcl : (s.modify me f).client me' = s.client me' := update_of_ne hme _ _
    rw [hcl]
    exact ⟨rfl, rfl, rfl⟩

/-- The operations that do nothing to the handshakes in flight. -/
def LeavesFlights : ClientOp → Prop
  | .send .newPromise => False
  | .send (.setInFlight _ _) => False
  | .send (.settle _ _) => False
  | .send (.deleteInFlight _) => False
  | _ => True

theorem sameFlights_op {o : ClientOp} (h : LeavesFlights o) :
    SameFlights s (Op.apply i (.client me o) s) := by
  refine sameFlights_modify fun c => ?_
  cases o with
  | send o =>
    cases o with
    | beginRestore did =>
      simp only [ClientOp.apply, SendOp.apply, SendSide.beginRestore]
      split <;> exact ⟨rfl, rfl, rfl⟩
    | newPromise | setInFlight | settle | deleteInFlight => exact absurd h id
    | _ => exact ⟨rfl, rfl, rfl⟩
  | _ => exact ⟨rfl, rfl, rfl⟩

theorem sameFlights_effect (h : Call.Effect i s k s') : SameFlights s s' := by
  have hsend : ∀ me f, (∀ c, (f c).sendSessionInitInFlight = c.sendSessionInitInFlight ∧
        (f c).promises = c.promises ∧ (f c).nextPromise = c.nextPromise) →
      SameFlights s (s.modifySend me f) := fun _ _ hf => sameFlights_modify fun c => hf c.send
  have hrecv : ∀ me f, SameFlights s (s.modifyRecv me f) :=
    fun _ _ => sameFlights_modify fun _ => ⟨rfl, rfl, rfl⟩
  cases h with
  | none | relayed => exact .refl s
  | initiated me did remote =>
    exact hsend me (.addNative ⟨remote, ⟨me, did, s.nextGen⟩, 0, 0, []⟩) fun _ => ⟨rfl, rfl, rfl⟩
  | keyExchange me remote gen => exact .refl s
  | text me sid body ses t _ =>
    exact hsend me (.seal sid ses (s.textEnvelope me ses body t)) fun _ => ⟨rfl, rfl, rfl⟩
  | restored me | position me => exact hsend me _ fun _ => ⟨rfl, rfl, rfl⟩
  | accepted _ me | rekeyed _ me | opened me => exact hrecv me _

theorem sameFlights_call {reply : Reply} {out : Except Err (Ret k)}
    (h : Call.perform i k reply s = some (s', out)) : SameFlights s s' :=
  sameFlights_effect (Call.effect h)

/-! ## Fragments that keep the role of their task -/

/-- Between two segments, or at a point that could be one. -/
structure At (i : Nat) (r : Role) (c : Conf) : Prop where
  inv : Inv c
  role : c.role i = r
  lt : i < c.next

/-- The task runs the fragment in the role `r` throughout. -/
abbrev Fine (r : Role) : Judgement := fun _ φ m => ∀ i c, At i r c →
  script.Wp i m (fun res c' => At i r c' ∧ ∀ a, res = .ok a → φ a) c

section Fine
variable {r : Role}

/-- A call that is no step of a handshake, and what its answer shows. -/
theorem fine_call (hsince : r.since = none) {k : Call} (hk : Quiet k) {φ : Ret k → Prop}
    (hφ : ∀ i s reply s' a, Call.perform i k reply s = some (s', .ok a) → φ a) :
    Fine r (Ret k) φ (Async.await (M := machine) k) := by
  rintro i c ⟨hinv, rfl, hlt⟩
  have hassign : Inv (c.assign i (c.role i)) := (Config.assign_self c i).symm ▸ hinv
  refine .await (c.role i) (.keep k) hassign ?_
  intro c1 hi1 hr1 hlt1 reply s out hperf
  have hpre : CallPre i c1 k out (c.role i) := hr1 ▸ .quiet k out hk (hr1 ▸ hsince)
  have hinv' : Inv (c1.call i k out s (c.role i)) :=
    hr1 ▸ hi1.keep (sameFlights_call hperf) rfl
  refine ⟨c.role i, hpre, hinv', fun c2 hi2 hr2 hlt2 => ⟨⟨hi2, hr2, hlt2⟩, ?_⟩⟩
  rintro a rfl
  exact hφ i c1.state reply s a hperf

theorem fine_sequential (hsince : r.since = none) : (Fine r).Sequential Call.Routine where
  pure a ha i c hc := .pure ⟨hc, fun _ h => Except.ok.inj h ▸ ha⟩
  throw e i c hc := .throw ⟨hc, fun _ h => nomatch h⟩
  mono hm hφ i c hc := (hm i c hc).mono fun _ _ hq => ⟨hq.1, fun a ha => hφ a (hq.2 a ha)⟩
  bind hm hf i c hc := .bind (hm i c hc) (fun a c' hq => hf a (hq.2 a rfl) i c' hq.1)
    fun _ _ hq => ⟨hq.1, fun _ h => nomatch h⟩
  settle hm hf i c hc := .settle (hm i c hc) fun res c' hq => hf res hq.2 i c' hq.1
  tryCatch hm hf i c hc := .tryCatch (hm i c hc) (fun _ _ hq => hq) fun e c' hq => hf e i c' hq.1
  await k hk := by
    refine fine_call hsince ?_ fun _ _ _ _ _ _ => trivial
    cases k <;> trivial

variable {me : Did} {o : ClientOp}

/-- An operation that does nothing to the handshakes in flight, run without a change of roles. -/
theorem fine_op (ho : LeavesFlights o) (hpre : ∀ i c, At i r c → OpPre i c (.client me o) r) :
    Fine r Unit any (exec me o) := by
  rintro i c ⟨hinv, rfl, hlt⟩
  refine .op (c.role i) (hpre i c ⟨hinv, rfl, hlt⟩) ⟨⟨?_, ?_, hlt⟩, fun _ _ => trivial⟩
  · exact hinv.keep (sameFlights_op ho) rfl
  · exact update_self ..

theorem Neutral.leavesFlights (h : Neutral o) : LeavesFlights o := by
  cases o with
  | send o => cases o <;> trivial
  | _ => trivial

theorem fine_neutral (ho : Neutral o) : Fine r Unit any (exec me o) :=
  fine_op ho.leavesFlights fun _ _ hc => hc.role ▸ .neutral me o ho

theorem fine_routine {did : Did} (ho : o.Routine did) : Fine r Unit any (exec me o) := by
  cases o with
  | send o =>
    cases o with
    | setSerializedSession d sid blob =>
      exact fine_op trivial fun i c hc => hc.role ▸ .persist me d sid blob
    | restoreFailed => exact absurd ho id
    | _ => exact absurd ho id
  | health o =>
    cases o with
    | setDesynced | see => exact fine_neutral trivial
    | _ => exact absurd ho id
  | deleteConversation d => exact absurd ho id
  | _ => exact fine_neutral trivial

theorem fine_self (me : Did) : Fine r Client any (self me) :=
  fun _ _ hc _ hk => hk _ _ ⟨hc, fun _ _ => trivial⟩

theorem fine_closed : (Fine .plain).Closed where
  toSequential := fine_sequential rfl
  spawn {α m} hm i c hc := by
    have hchild : script.Safe m.toTask c.next (c.fork .plain) Inv :=
      hm c.next _ ⟨hc.inv.fork, update_self .., Nat.lt_succ_self _⟩ _ fun _ _ hq => hq.1.inv
    refine .spawn .plain .program (hchild.frame _) fun c' hc' => ?_
    obtain ⟨hinv, hle, hrole⟩ := hc'
    have hlt := hc.lt
    simp only [Config.fork_next] at hle
    refine ⟨⟨hinv, ?_, by omega⟩, fun _ _ => trivial⟩
    rw [hrole i (Nat.lt_succ_of_lt hlt) (by omega), ← hc.role]
    exact update_of_ne (by omega) _ _
  dateNow _ _ hc _ hk := hk _ _ ⟨hc, fun _ _ => trivial⟩
  text := by
    refine ⟨fun e => e.contentType = .text, fun me sid body => ?_, fun e he => ?_⟩
    · refine fine_call (k := .sealTextSigned me sid body) rfl trivial ?_
      intro i s reply s' e hperf
      have hs := Call.succeed_of_ok rfl hperf
      simp only [Call.succeed] at hs
      split at hs
      · simp only [Option.some.injEq, Prod.mk.injEq] at hs
        rw [← hs.2]
        rfl
      · simp at hs
    · refine fine_call rfl ?_ fun _ _ _ _ _ _ => trivial
      simp [Quiet, he]

end Fine

end Handshakes
