import SovereignMobile.EventLoop.Only
import SovereignMobile.Messaging.Functions
import SovereignMobile.Messaging.Identities

/-! # Where the service gets its sessions from

The service never makes up a session identifier: what it seals and opens with, it has found in a map,
awaited from a promise or got from the native library. So where the maps hold sessions and promises from
a certain number on only, and the native library gives out no other, a program uses no other. The
theorems follow what looks after the outbound session; the rest is in `Functions.lean`. -/

namespace Identities

open Messaging EventLoop

def Floor.of (n : Floor) : SessionDir → Nat
  | .send => n.send
  | .recv => n.recv

/-- The maps hold sessions and promises from `n` on only. -/
structure From (n : Floor) (c : Client) : Prop where
  send : ∀ did sid, c.send.sendSessionByDid did = some sid → n.send ≤ sid
  recv : ∀ did sid, c.recv.recvSessionByDid did = some sid → n.recv ≤ sid
  inFlight : ∀ did p, c.send.sendSessionInitInFlight did = some p → n.promise ≤ p.n
  nextPromise : n.promise ≤ c.send.nextPromise

/-- `known` promises have been made at least. -/
def OpFrom (n : Floor) (known : Nat) : ClientOp → Prop
  | .send (.setSession _ sid) => n.send ≤ sid
  | .send (.restored _ sid) => n.send ≤ sid
  | .send (.setInFlight _ p) => n.promise ≤ p.n
  | .send (.settle p r) => p.n < known ∧ ∀ sid, r = .ok sid → n.send ≤ sid
  | .recv (.setSession _ sid) => n.recv ≤ sid
  | _ => True

def CallFrom (n : Floor) : Messaging.Call → Prop
  | .promise _ p => n.promise ≤ p.n
  | .sealTextSigned _ sid _ => n.send ≤ sid
  | .envelopeOpenVerifiedWithSession _ sid _ _ => n.recv ≤ sid
  | _ => True

def AnswerFrom (n : Floor) : (c : Messaging.Call) → Except Err (Messaging.Ret c) → Prop
  | .promise _ _, .ok sid => n.send ≤ sid
  | .initiateSession _ _ _, .ok r => n.send ≤ r.sessionId
  | .deserializeSession _ dir _, .ok sid => n.of dir ≤ sid
  | .acceptEnvelopeWithIdentity _ _, .ok sid => n.recv ≤ sid
  | _, _ => True

/-- How many promises a program knows to have been made on each device. -/
abbrev Known := Did → Nat

def Known.done (w : Known) : Messaging.Op → Known
  | .client me (.send .newPromise) => Function.update w me (w me + 1)
  | _ => w

theorem Known.le_done (w : Known) (o : Messaging.Op) : w ≤ w.done o := by
  unfold Known.done
  split
  · rename_i me
    intro me'
    by_cases h : me' = me
    · subst h
      simp
    · simp [Function.update_of_ne h]
  · exact le_refl w

/-- What a program of the service finds, does and hears. -/
def sessionKind (n : Floor) : Kind Messaging.machine Known where
  reads _ s := ∀ me, From n (Messaging.State.client s me)
  op w o := match o with
    | .client me o => OpFrom n (w me) o
    | .advance _ => True
  call _ c := CallFrom n c
  answers _ c r := AnswerFrom n c r
  seen w s me := max (w me) (Messaging.State.client s me).send.nextPromise
  done := Known.done
  le_seen _ _ _ := Nat.le_max_left _ _
  le_done := Known.le_done

/-- The program uses sessions from `n` on only, and its value satisfies `φ`. -/
abbrev UsesFrom {α : Type} (n : Floor) (φ : α → Prop) (m : Messaging.Prog α) : Prop :=
  Async.Only (sessionKind n) φ m

theorem OpFrom.mono {n : Floor} {known known' : Nat} {o : ClientOp} (h : OpFrom n known o)
    (hle : known ≤ known') : OpFrom n known' o := by
  cases o with
  | send o =>
    cases o with
    | settle p r => exact ⟨Nat.lt_of_lt_of_le h.1 hle, h.2⟩
    | _ => exact h
  | recv o => cases o <;> exact h
  | _ => exact h

section Steps
variable {n : Floor} {me did : Did}

theorem exec_from {o : ClientOp} (h : OpFrom n 0 o) :
    UsesFrom n (fun _ => True) (Messaging.exec me o) :=
  .op fun _ => h.mono (Nat.zero_le _)

theorem self_from : UsesFrom n (From n) (self me) :=
  fun w _ hk s hs => hk _ _ ((sessionKind n).le_seen w s) fun _ he => Except.ok.inj he ▸ hs me

theorem dateNow_from : UsesFrom n (fun _ => True) dateNow :=
  fun w _ hk s _ => hk _ _ ((sessionKind n).le_seen w s) fun _ _ => trivial

theorem call_from {c : Messaging.Call} (h : CallFrom n c) :
    UsesFrom n (fun a => AnswerFrom n c (.ok a)) (Async.await (M := Messaging.machine) c) :=
  .await (fun _ => h) fun _ _ ha => ha

theorem CallFrom.of_plain {c : Messaging.Call} (h : c.Plain) : CallFrom n c := by
  cases c <;> first | exact trivial | exact h.elim

theorem OpFrom.of_plain {o : ClientOp} (h : o.Plain did) : OpFrom n 0 o := by
  cases o with
  | send o | recv o => cases o <;> first | exact trivial | exact h.elim
  | _ => trivial

theorem sequential_from (n : Floor) : Judgement.Sequential (fun _ φ m => UsesFrom n φ m) Call.Plain where
  pure _ h := .pure h
  throw e := .throw (M := Messaging.machine) e
  mono := .mono
  bind := .bind
  settle := .settle
  tryCatch := .tryCatch
  await _ hc := (call_from (.of_plain hc)).mono fun _ _ => trivial

theorem tryRestoreSend_from :
    UsesFrom n (fun o => ∀ sid, o = some sid → n.send ≤ sid) (tryRestoreSession me did .send) := by
  have hnone : ∀ sid, none = some sid → n.send ≤ sid := fun sid h => by simp at h
  refine self_from.bind fun c _ => ?_
  dsimp only
  split
  · exact .pure hnone
  rename_i blob _
  refine (exec_from (by trivial)).bind fun _ _ => ?_
  refine (call_from (c := .deserializeSession me .send blob) trivial).settle fun r hr => ?_
  cases r with
  | ok sid =>
    have hsid : n.send ≤ sid := hr sid rfl
    refine (exec_from (o := .send (.restored did sid)) hsid).bind fun _ _ => ?_
    exact .pure fun sid' h => Option.some.inj h ▸ hsid
  | error e => exact (exec_from (by trivial)).bind fun _ _ => .pure hnone

/-! ## Outbound sessions -/

theorem firstContact_from (recipient : String) :
    UsesFrom n (fun sid => n.send ≤ sid) (firstContact me did recipient) := by
  refine ((sequential_from n).sessionInitFor recipient).bind fun init _ => ?_
  refine (exec_from (by trivial)).bind fun _ _ => ?_
  refine (call_from (c := .initiateSession me did init.recipientDid) trivial).bind fun r hr => ?_
  have hsid : n.send ≤ r.sessionId := hr
  refine (exec_from (o := .send (.setSession did r.sessionId)) hsid).bind fun _ _ => ?_
  refine (call_from (c := .sealKeyExchangeSigned me init.recipientDid r.gen) trivial).bind
    fun e _ => ?_
  refine (call_from (c := .sendEnvelope e) trivial).bind fun _ _ => ?_
  have hexec : ∀ o : ClientOp, o.Plain did → UsesFrom n (fun _ => True) (Messaging.exec me o) :=
    fun _ ho => exec_from (.of_plain ho)
  have hpersist := (sequential_from n).persistSession hexec .send r.sessionId
  exact ((sequential_from n).awaitFn hpersist).bind fun _ _ => .pure hsid

theorem initSendSession_from (recipient : String) :
    UsesFrom n (fun sid => n.send ≤ sid) (initSendSession me did recipient) := by
  refine ((sequential_from n).awaitFn tryRestoreSend_from).bind fun restored hr => ?_
  cases restored with
  | some sid => exact .pure (hr sid rfl)
  | none => exact firstContact_from recipient

theorem startInit_from (recipient : String) {p : PromiseId} (hp : n.promise ≤ p.n) (w : Known)
    (hw : p.n ≤ w me) (k : Except Err Nat → EventLoop.Task Messaging.machine)
    (hk : ∀ r w', w ≤ w' → (∀ sid, r = .ok sid → n.send ≤ sid) → (k r).Only (sessionKind n) w') :
    ((startInit me did recipient p).run k).Only (sessionKind n) w := by
  have hmade : p.n < w.done (.client me (.send .newPromise)) me := by
    simp only [Known.done, Function.update_self]
    omega
  refine ⟨trivial, ?_, hp, hp, fun r hr => ⟨trivial, ?_⟩⟩
  · refine initSendSession_from recipient _ _ fun r w' hle hr => ⟨⟨?_, hr⟩, trivial⟩
    exact Nat.lt_of_lt_of_le hmade (hle me)
  have hle := w.le_done (.client me (.send .newPromise))
  cases r with
  | ok sid => exact hk _ _ hle fun sid' he => Except.ok.inj he ▸ hr
  | error e => exact hk _ _ hle fun _ he => nomatch he

theorem getOrInitSendSession_from (recipient : String) :
    UsesFrom n (fun sid => n.send ≤ sid) (getOrInitSendSession me did recipient) := by
  intro w k hk s hs
  have hle := (sessionKind n).le_seen w s
  have hc := hs me
  dsimp only
  split
  · rename_i cached hcached
    exact hk _ _ hle fun _ he => Except.ok.inj he ▸ hc.send did cached hcached
  split
  · rename_i inFlight hinFlight
    refine call_from (c := .promise me inFlight) (hc.inFlight did inFlight hinFlight) _ k ?_
    exact fun r w' hle' hr => hk r w' (le_trans hle hle') hr
  · refine startInit_from recipient hc.nextPromise _ (Nat.le_max_right _ _) k ?_
    exact fun r w' hle' hr => hk r w' (le_trans hle hle') hr

theorem rehandshake_from : UsesFrom n (fun _ => True) (rehandshake me did) :=
  (exec_from (by trivial)).bind fun _ _ =>
    ((sequential_from n).awaitFn (getOrInitSendSession_from did)).bind fun _ _ => .pure trivial

theorem recoverMissingSession_from (again : Bool) :
    UsesFrom n (fun _ => True) (recoverMissingSession me did again) := by
  refine dateNow_from.bind fun now _ => self_from.bind fun c _ => ?_
  refine (exec_from (by trivial)).bind fun _ _ => ?_
  split
  · exact .pure trivial
  · exact rehandshake_from.tryCatch fun _ => .pure trivial

end Steps

def knowledge (n : Floor) : Knowledge where
  maps := From n
  send sid := n.send ≤ sid
  recv sid := n.recv ≤ sid
  cached _ did sid h := h.recv did sid

theorem follows_from (n : Floor) (me did : Did) :
    Judgement.Follows (fun _ φ m => UsesFrom n φ m) (knowledge n) me did where
  toSequential := sequential_from n
  spawn := .spawn
  dateNow := dateNow_from
  text := ⟨fun _ => True, fun me sid body h => (call_from (c := .sealTextSigned me sid body) h).mono
    fun _ _ => trivial, fun e _ => call_from (c := .sendEnvelope e) trivial⟩
  opens sid e pk h := call_from (c := .envelopeOpenVerifiedWithSession me sid e pk) h
  accepts e := call_from (c := .acceptEnvelopeWithIdentity me e) trivial
  deserializes blob := call_from (c := .deserializeSession me .recv blob) trivial
  self := self_from
  setSession sid h := exec_from h
  exec _ ho := exec_from (.of_plain ho)
  restoreSend := tryRestoreSend_from.mono fun _ _ => trivial
  getOrInit := getOrInitSendSession_from
  recover := recoverMissingSession_from
  reconnect := dateNow_from.bind fun _ _ => (exec_from (by trivial)).bind fun _ _ => rehandshake_from

theorem prog_from (n : Floor) (c : Messaging.Cmd) (w : Known) :
    (Messaging.prog c).Only (sessionKind n) w := by
  cases c with
  | upsertContact me did contact =>
    exact (exec_from (o := .store (.upsertContact did contact)) trivial).toTask w
  | sendTextMessage me did text random =>
    exact ((follows_from n me did).sendTextMessageNative text random).toTask w
  | resendMessage me did id => exact ((follows_from n me did).resendMessage id).toTask w
  | reconnectSession me did => exact (follows_from n me did).reconnect.toTask w
  | deleteConversation me did =>
    exact (exec_from (o := .deleteConversation did) trivial).toTask w
  | ingestEnvelopes me batch =>
    exact ((sequential_from n).ingestEnvelopesNative batch fun e _ =>
      follows_from n me e.senderDid).toTask w
  | advance ms =>
    have hop : ∀ w, (sessionKind n).op w (.advance ms) := fun _ => trivial
    exact (Async.Only.op hop).toTask w

end Identities
