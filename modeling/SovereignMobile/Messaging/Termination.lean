import SovereignMobile.Messaging.HandshakePrograms

/-! # The mutual re-handshake terminates

Two peers answer each other's `KeyExchange` with one of their own. Each handshake for a peer ships one
at most, and a handshake that makes a session needs an empty cache, so that there is one for each time
the session is forgotten and one for the first; the session is forgotten by a deletion, by
`reconnectSession` and by a recovery that has passed the cooldown test. -/

namespace Handshakes

open Messaging EventLoop List Option
open Bool (toNat_false toNat_true)
open Function (update update_of_ne update_self)
open Nat (le_add_right zero_le)

/-! ## What is counted -/

/-- The device `me` has shipped, or failed to ship, the `KeyExchange` of a session with `did`. -/
def ships (me did : Did) : Event machine → Bool
  | .call _ _ (.sendEnvelope e) _ =>
    e.contentType == .keyExchange && e.senderDid == me && e.gen.peer == did
  | _ => false

/-- A handshake has put a new session into the cache. -/
def caches (me did : Did) : Event machine → Bool
  | .op _ _ (.client me' (.send (.setSession did' _))) => me' == me && did' == did
  | _ => false

def resets (me did : Did) : Event machine → Bool
  | .op _ _ (.client me' (.send (.resetSendSession did'))) => me' == me && did' == did
  | _ => false

def deletes (me did : Did) : Event machine → Bool
  | .op _ _ (.client me' (.deleteConversation did')) => me' == me && did' == did
  | _ => false

theorem countP_snoc {α : Type} (p : α → Bool) (l : List α) (a : α) :
    (l ++ [a]).countP p = l.countP p + (p a).toNat := by
  rw [countP_append, countP_singleton]
  cases p a <;> rfl

/-- The device `me` has asked for a session with `did`, whom the server calls `remote`. -/
def initiates (me did remote : Did) : Event machine → Bool
  | .call _ _ (.initiateSession me' did' remote') _ => me' == me && did' == did && remote' == remote
  | _ => false

/-- The device `me` has shipped, or failed to ship, a `KeyExchange` to `remote`. -/
def shipsTo (me remote : Did) : Event machine → Bool
  | .call _ _ (.sendEnvelope e) _ =>
    e.contentType == .keyExchange && e.senderDid == me && e.recipientDid == remote
  | _ => false

/-! ## What calls leave alone -/

theorem call_leaves {i : Nat} {s s' : State} {k : Call} (h : Call.Effect i s k s') :
    s'.now = s.now ∧ ∀ me, (s'.client me).health = (s.client me).health ∧
      (s'.client me).send.sendSessionByDid = (s.client me).send.sendSessionByDid ∧
      (s'.client me).send.blobs = (s.client me).send.blobs := by
  have hmodify : ∀ me f, (∀ c, (f c).health = c.health ∧
      (f c).send.sendSessionByDid = c.send.sendSessionByDid ∧ (f c).send.blobs = c.send.blobs) →
      ∀ me', ((s.modify me f).client me').health = (s.client me').health ∧
        ((s.modify me f).client me').send.sendSessionByDid = (s.client me').send.sendSessionByDid ∧
        ((s.modify me f).client me').send.blobs = (s.client me').send.blobs := fun me f hf =>
    State.rel_modify (R := fun c c' => c'.health = c.health ∧
      c'.send.sendSessionByDid = c.send.sendSessionByDid ∧ c'.send.blobs = c.send.blobs)
      (fun _ => ⟨rfl, rfl, rfl⟩) (hf _)
  cases h with
  | none | relayed | keyExchange me remote gen => exact ⟨rfl, fun _ => ⟨rfl, rfl, rfl⟩⟩
  | initiated me did remote =>
    exact ⟨rfl, hmodify me (fun c => { c with send := c.send.addNative _ }) fun _ => ⟨rfl, rfl, rfl⟩⟩
  | text me sid body ses t _ =>
    exact ⟨rfl, hmodify me (fun c => { c with send := c.send.seal sid ses _ })
      fun _ => ⟨rfl, rfl, rfl⟩⟩
  | restored me | position me | accepted _ me | rekeyed _ me | opened me =>
    exact ⟨rfl, hmodify me _ fun _ => ⟨rfl, rfl, rfl⟩⟩

section Device
variable (me did : Did)

/-! ## A reset follows an attempt -/

/-- Every reset is one of `recoverMissingSession` past its cooldown test or of `reconnectSession`, and
    the last attempt may still be without its reset. -/
structure ResetsAttempted (c : Conf) : Prop where
  le : c.events.countP (resets me did) ≤
    c.events.countP (passes me did) + c.events.countP (reconnects me did)
  lt : Attempted c me did → c.events.countP (resets me did) <
    c.events.countP (passes me did) + c.events.countP (reconnects me did)

variable {me did}

variable {c c' : Conf} {e : Event machine} {i : Nat} {o : Op} {r : Role} {s : State} {p : PromiseId}
    {x : NewSession} {out : Except Err SendStatus} {phase : Phase}

theorem attempted_snoc (h : c'.events = c.events ++ [e]) :
    Attempted c' me did ↔ passes me did e = true ∨ reconnects me did e = true := by
  constructor
  · rintro ⟨h', e', hev, hatt⟩
    rw [h] at hev
    obtain ⟨_, he⟩ := append_inj' hev rfl
    rw [cons.injEq] at he
    exact he.1 ▸ hatt
  · exact fun hatt => ⟨c.events, e, h, hatt⟩

theorem ResetsAttempted.other (hc : ResetsAttempted me did c) (hev : c'.events = c.events ++ [e])
    (he : resets me did e = false) :
    ResetsAttempted me did c' := by
  have hle := hc.le
  constructor
  · rw [hev, countP_snoc, countP_snoc, countP_snoc, he]
    simp only [toNat_false]
    omega
  rw [attempted_snoc hev]
  rw [hev, countP_snoc, countP_snoc, countP_snoc, he]
  rintro (h | h)
  · rw [h]
    simp only [toNat_false, toNat_true]
    omega
  · rw [h]
    simp only [toNat_false, toNat_true]
    omega

theorem ResetsAttempted.reset (hc : ResetsAttempted me did c) (hev : c'.events = c.events ++ [e])
    (hatt : Attempted c me did) (he : resets me did e = true) (hpass : passes me did e = false)
    (hreconnect : reconnects me did e = false) :
    ResetsAttempted me did c' := by
  have hlt := hc.lt hatt
  constructor
  · rw [hev, countP_snoc, countP_snoc, countP_snoc, he, hpass]
    simp only [toNat_true]
    omega
  · rw [attempted_snoc hev, hpass, hreconnect]
    simp

theorem keeps_resetsAttempted : script.Keeps (ResetsAttempted me did) where
  start c hc := ⟨hc.le, hc.lt⟩
  fork i c r _ hc _ := ⟨hc.le, hc.lt⟩
  await i c k r _ hc _ := ⟨hc.le, hc.lt⟩
  call i c k out reply s r _ hc _ _ _ := hc.other rfl rfl
  op i c o r _ hc hpre := by
    by_cases he : resets me did (.op i c.state o) = true
    · cases hpre with
      | reset me' did' _ hatt _ =>
        have hsame : me' = me ∧ did' = did := by simpa [resets, resetOp] using he
        obtain ⟨rfl, rfl⟩ := hsame
        exact hc.reset rfl hatt he rfl rfl
      | neutral me' o' ho =>
        cases o' with
        | send o' => cases o' <;> first | exact absurd ho id | simp [resets] at he
        | _ => simp [resets] at he
      | _ => simp [resets] at he
    · exact hc.other (Config.op_events ..) (by simpa using he)

/-! ## Attempts are a cooldown apart -/

variable (me did) in
/-- `e` is a recovery in `h` that has passed the cooldown test, and the conversation has not been
    deleted since. -/
def PassedSince (h : List (Event machine)) (e : Event machine) : Prop :=
  ∃ h1 h2, h = h1 ++ e :: h2 ∧ passes me did e = true ∧ ∀ e' ∈ h2, deletes me did e' = false

theorem PassedSince.snoc {h : List (Event machine)} {x : Event machine}
    (hp : PassedSince me did (h ++ [x]) e) :
    (e = x ∧ passes me did x = true) ∨ (PassedSince me did h e ∧ deletes me did x = false) := by
  obtain ⟨h1, h2, hev, hpass, hquiet⟩ := hp
  rcases eq_nil_or_concat' h2 with rfl | ⟨h3, y, rfl⟩
  · obtain ⟨_, he⟩ := append_inj' hev rfl
    rw [cons.injEq] at he
    exact .inl ⟨he.1.symm, he.1 ▸ hpass⟩
  rw [← cons_append, ← append_assoc] at hev
  obtain ⟨hh, hx⟩ := append_inj' hev rfl
  rw [cons.injEq] at hx
  refine .inr ⟨⟨h1, h3, hh, hpass, fun e' he' => hquiet e' ?_⟩, hquiet x ?_⟩
  · exact mem_append_left _ he'
  · exact mem_append_right _ (mem_singleton.2 hx.1)

/-- `recoveryAttemptAt.get(did)` -/
def attemptAt (me did : Did) (c : Conf) : Option Nat :=
  (State.client c.state me).health.recoveryAttemptAt did

variable (me did) in
/-- Whatever has passed since the last deletion is on record, and what passes next is a cooldown
    later. -/
structure Cooled (c : Conf) : Prop where
  times : ∀ e ∈ c.events, State.now e.state ≤ State.now c.state
  recorded : ∀ e, PassedSince me did c.events e → ∃ t, attemptAt me did c = some t ∧
    State.now e.state ≤ t
  apart : ∀ h e₂, h ++ [e₂] <+: c.events → passes me did e₂ = true →
    ∀ e₁, PassedSince me did h e₁ → State.now e₁.state + RECOVERY_COOLDOWN_MS ≤ State.now e₂.state

variable (me did) in
/-- What an event does to the record. -/
inductive Records (c c' : Conf) (e : Event machine) : Prop
  | deleted : deletes me did e = true → passes me did e = false → Records c c' e
  | same : attemptAt me did c' = attemptAt me did c → passes me did e = false → Records c c' e
  | now : attemptAt me did c' = some (State.now c.state) →
      (passes me did e = true →
        (State.client c.state me).health.coolingDown did (State.now c.state) = false) → Records c c' e

theorem Cooled.snoc (hc : Cooled me did c) (hev : c'.events = c.events ++ [e])
    (hstate : e.state = c.state) (hnow : State.now c.state ≤ State.now c'.state)
    (he : Records me did c c' e) :
    Cooled me did c' := by
  have hbefore : ∀ x, PassedSince me did c.events x → State.now x.state ≤ State.now c.state :=
    fun x ⟨_, _, hx, _⟩ => hc.times x (by rw [hx]; simp)
  constructor
  · intro x hx
    rw [hev] at hx
    rcases mem_append.1 hx with hx | hx
    · exact Nat.le_trans (hc.times x hx) hnow
    · rw [mem_singleton.1 hx, hstate]
      exact hnow
  · intro x hx
    rw [hev] at hx
    rcases hx.snoc with ⟨rfl, hpass⟩ | ⟨hx, hquiet⟩
    · cases he with
      | deleted _ hno | same _ hno => exact nomatch hpass.symm.trans hno
      | now hat _ => exact ⟨_, hat, hstate ▸ Nat.le_refl _⟩
    cases he with
    | deleted hdel _ => exact nomatch hdel.symm.trans hquiet
    | same hat _ =>
      rw [hat]
      exact hc.recorded x hx
    | now hat _ => exact ⟨_, hat, hbefore x hx⟩
  · intro h e₂ hpre hpass e₁ h1
    rw [hev] at hpre
    rcases prefix_concat_iff.1 hpre with heq | hpre
    · obtain ⟨rfl, he2⟩ := append_inj' heq rfl
      rw [cons.injEq] at he2
      obtain ⟨rfl, _⟩ := he2
      cases he with
      | deleted _ hno | same _ hno => exact nomatch hpass.symm.trans hno
      | now _ hcool =>
        obtain ⟨t, ht, hle⟩ := hc.recorded e₁ h1
        have hcool := hcool hpass
        have hrec : (State.client c.state me).health.recoveryAttemptAt did = some t := ht
        simp only [Health.coolingDown, hrec, getD_some, decide_eq_false_iff_not,
          RECOVERY_COOLDOWN_MS] at hcool ⊢
        rw [hstate]
        omega
    · exact hc.apart h e₂ hpre hpass e₁ h1

/-- An operation on the health of a device, on the record of `did` on the device `me`. -/
theorem attemptAt_op (c : Conf) (i : Nat) (me' : Did) (o : ClientOp) (r : Role) :
    attemptAt me did (c.op i (.client me' o) r) = if me' = me then
      (o.apply i (State.client c.state me)).health.recoveryAttemptAt did else attemptAt me did c := by
  by_cases hme : me' = me
  · subst hme
    rw [if_pos rfl]
    exact congrArg (fun x => Health.recoveryAttemptAt x.health did)
      (State.modify_client_self c.state me' (o.apply i))
  · rw [if_neg hme]
    exact congrArg (fun x => Health.recoveryAttemptAt x.health did)
      (State.modify_client_ne c.state (.symm hme) (o.apply i))

theorem records_op (h : OpPre i c o r) : Records me did c (c.op i o r) (.op i c.state o) := by
  have hsame : ∀ me' o r,
      (∀ cl : Client, (o.apply i cl).health.recoveryAttemptAt did = cl.health.recoveryAttemptAt did) →
      attemptAt me did (c.op i (.client me' o) r) = attemptAt me did c := by
    intro me' o r ho
    rw [attemptAt_op]
    split
    · exact ho _
    · rfl
  cases h with
  | advance ms => exact .same rfl rfl
  | neutral me' o ho =>
    cases o with
    | send o => exact .same (hsame me' _ _ fun _ => rfl) rfl
    | health o =>
      cases o with
      | setDesynced | see => exact .same (hsame me' _ _ fun _ => rfl) rfl
      | _ => exact absurd ho id
    | deleteConversation d => exact absurd ho id
    | _ => exact .same (hsame me' _ _ fun _ => rfl) rfl
  | attempt me' did' again =>
    by_cases heq : me' = me ∧ did' = did
    · obtain ⟨rfl, rfl⟩ := heq
      cases hcool : (State.client c.state me').health.coolingDown did' (State.now c.state) with
      | true =>
        refine .same ?_ (by simp [passes, hcool])
        rw [attemptAt_op]
        simp only [ClientOp.apply, HealthOp.apply, hcool]
        rfl
      | false =>
        refine .now ?_ fun _ => hcool
        rw [attemptAt_op]
        simp [ClientOp.apply, HealthOp.apply, hcool]
    · have hno : passes me did (.op i c.state (.client me' (.health
          (.attemptRecovery did' (State.now c.state) again)))) = false := by
        simp only [passes, Bool.and_eq_false_iff, beq_eq_false_iff_ne]
        exact .inl (not_and_or.1 heq)
      refine .same ?_ hno
      rw [attemptAt_op]
      split
      · rename_i hme
        subst hme
        have hdid : did ≠ did' := fun hd => heq ⟨rfl, hd.symm⟩
        simp only [ClientOp.apply, HealthOp.apply]
        split
        · rfl
        · exact update_of_ne hdid _ _
      · rfl
  | reconnect me' did' =>
    by_cases heq : me' = me ∧ did' = did
    · obtain ⟨rfl, rfl⟩ := heq
      refine .now ?_ fun hpass => absurd hpass (by simp [passes])
      rw [attemptAt_op, if_pos rfl]
      exact update_self ..
    refine .same ?_ rfl
    rw [attemptAt_op]
    split
    · rename_i hme
      subst hme
      exact update_of_ne (fun hd => heq ⟨rfl, hd.symm⟩) _ _
    · rfl
  | delete me' did' =>
    by_cases heq : me' = me ∧ did' = did
    · exact .deleted (by simp [deletes, heq.1, heq.2]) rfl
    refine .same ?_ rfl
    rw [attemptAt_op]
    split
    · rename_i hme
      subst hme
      exact update_of_ne (fun hd => heq ⟨rfl, hd.symm⟩) _ _
    · rfl
  | _ => exact .same (hsame _ _ _ fun _ => rfl) rfl

theorem keeps_cooled : script.Keeps (Cooled me did) where
  start c hc := ⟨hc.times, hc.recorded, hc.apart⟩
  fork i c r _ hc _ := ⟨hc.times, hc.recorded, hc.apart⟩
  await i c k r _ hc _ := ⟨hc.times, hc.recorded, hc.apart⟩
  op i c o r _ hc hpre := by
    refine hc.snoc (Config.op_events ..) rfl ?_ (records_op hpre)
    cases o with
    | client me' o => exact Nat.le_refl _
    | advance ms => exact le_add_right _ _
  call i c k out reply s r _ hc _ _ hperf := by
    obtain ⟨hnow, hleaves⟩ := call_leaves (Call.effect hperf)
    refine hc.snoc rfl rfl (Nat.le_of_eq hnow.symm) (.same ?_ rfl)
    exact congrArg (fun x => Health.recoveryAttemptAt x did) (hleaves me).1

/-! ## One new session for each time the session is forgotten -/

/-- The task runs a handshake that may still put a new session into the cache. -/
def Role.fresh : Role → Option (Did × Did)
  | .handshake me did _ .asked => some (me, did)
  | .handshake me did _ (.made _) => some (me, did)
  | _ => none

theorem Role.runs_of_fresh (h : r.fresh = some (me, did)) : ∃ p, r.runs = some (me, did, p) := by
  unfold Role.fresh at h
  split at h
  iterate 2
    · simp only [some.injEq, Prod.mk.injEq] at h
      exact ⟨_, by rw [← h.1, ← h.2]; rfl⟩
  · simp at h

variable (me did) in
/-- A handshake may put a new session into the cache, now or after it has been started. -/
def Free (c : Conf) : Prop :=
  (side c me).sendSessionByDid did = none ∨ ∃ j, (c.role j).fresh = some (me, did)

variable (me did) in
structure CachedOnce (c : Conf) : Prop where
  le : c.events.countP (caches me did) ≤
    c.events.countP (resets me did) + c.events.countP (deletes me did) + 1
  free : Free me did c → c.events.countP (caches me did) ≤
    c.events.countP (resets me did) + c.events.countP (deletes me did)

theorem CachedOnce.same (hc : CachedOnce me did c)
    (hcaches : c'.events.countP (caches me did) = c.events.countP (caches me did))
    (hresets : c.events.countP (resets me did) ≤ c'.events.countP (resets me did))
    (hdeletes : c.events.countP (deletes me did) ≤ c'.events.countP (deletes me did))
    (hfree : Free me did c' → Free me did c) : CachedOnce me did c' := by
  have hle := hc.le
  constructor
  · omega
  intro h
  have := hc.free (hfree h)
  omega

/-- A task takes a role, and the cache does not become empty. -/
theorem Free.of_update (h : Free me did c') (hrole : c'.role = update c.role i r)
    (hr : r.fresh = some (me, did) → Free me did c)
    (hcache : (side c' me).sendSessionByDid did = none → (side c me).sendSessionByDid did = none) :
    Free me did c := by
  rcases h with h | ⟨j, hj⟩
  · exact .inl (hcache h)
  rcases role_cases hrole j with ⟨_, hj'⟩ | ⟨_, hj'⟩
  · exact hr (hj' ▸ hj)
  · exact .inr ⟨j, hj' ▸ hj⟩

theorem fresh_op (h : OpPre i c o r) (hr : r.fresh = some (me, did)) :
    (c.role i).fresh = some (me, did) := by
  cases h with
  | advance | neutral | persist | attempt | reconnect | delete => exact hr
  | _ => simp [Role.fresh] at hr

theorem update_cases {β : Type} (f : Did → Option β) (did did' : Did) (v : Option β) :
    update f did' v did = f did ∨ (did = did' ∧ update f did' v did = v) := by
  by_cases hd : did = did'
  · exact .inr ⟨hd, by rw [hd, update_self]⟩
  · exact .inl (update_of_ne hd _ _)

/-- An operation that is a reset of the session, or a deletion of the conversation. -/
theorem forgets_of_reset (h : o = .client me (.send (.resetSendSession did)) ∨
    ∃ did', o = .client me (.deleteConversation did') ∧
      SendOp.resetSendSession did = .resetSendSession did') :
    resets me did (.op i s o) = true ∨ deletes me did (.op i s o) = true := by
  rcases h with rfl | ⟨did', rfl, hdid⟩
  · exact .inl (by simp [resets])
  · rw [SendOp.resetSendSession.injEq] at hdid
    exact .inr (by simp [deletes, hdid])

variable (me did) in
/-- What an operation leaves in the cache for `did`. -/
theorem cache_after (o : Op) (i : Nat) (c : Conf) (r : Role) :
    (side (c.op i o r) me).sendSessionByDid did = (side c me).sendSessionByDid did ∨
      ((side (c.op i o r) me).sendSessionByDid did = none ∧
        (resets me did (.op i c.state o) = true ∨ deletes me did (.op i c.state o) = true)) ∨
      ∃ sid, (side (c.op i o r) me).sendSessionByDid did = some sid ∧
        (o = .client me (.send (.setSession did sid)) ∨ o = .client me (.send (.restored did sid))) := by
  rcases side_after me o i c r with heq | ⟨o', heq, ho⟩
  · rw [heq]
    exact .inl rfl
  rw [heq]
  cases o' with
  | setSession did' sid =>
    rcases update_cases (side c me).sendSessionByDid did did' (some sid) with h | ⟨rfl, h⟩
    · exact .inl h
    · exact .inr (.inr ⟨sid, h, .inl (ho.resolve_right (by simp))⟩)
  | restored did' sid =>
    rcases update_cases (side c me).sendSessionByDid did did' (some sid) with h | ⟨rfl, h⟩
    · exact .inl h
    · exact .inr (.inr ⟨sid, h, .inr (ho.resolve_right (by simp))⟩)
  | beginRestore did' =>
    refine .inl ?_
    simp only [SendOp.apply, SendSide.beginRestore]
    split <;> rfl
  | resetSendSession did' =>
    rcases update_cases (side c me).sendSessionByDid did did' none with h | ⟨rfl, h⟩
    · exact .inl h
    · exact .inr (.inl ⟨h, forgets_of_reset ho⟩)
  | _ => exact .inl rfl

/-- Only a reset or a deletion empties the cache. -/
theorem cache_op (hreset : resets me did (.op i c.state o) = false)
    (hdelete : deletes me did (.op i c.state o) = false)
    (h : (side (c.op i o r) me).sendSessionByDid did = none) :
    (side c me).sendSessionByDid did = none := by
  rcases cache_after me did o i c r with heq | ⟨_, hforget⟩ | ⟨sid, hsid, _⟩
  · exact heq.symm.trans h
  · rw [hreset, hdelete] at hforget
    simp at hforget
  · exact nomatch h.symm.trans hsid

/-- To cache a new session is the business of a handshake that has made one. -/
theorem cached_of_caches (h : OpPre i c o r) (hcaches : caches me did (.op i c.state o) = true) :
    ∃ p x, c.role i = .handshake me did p (.made x) ∧ r = .handshake me did p (.cached x) ∧
      o = .client me (.send (.setSession did x.sid)) ∧ NoOther c i me did := by
  cases h with
  | cached me' did' p x hi hno =>
    have heq : me' = me ∧ did' = did := by simpa [caches] using hcaches
    obtain ⟨rfl, rfl⟩ := heq
    exact ⟨p, x, hi, rfl, rfl, hno⟩
  | neutral me' o ho =>
    cases o with
    | send o => cases o <;> first | exact absurd ho id | simp [caches] at hcaches
    | _ => simp [caches] at hcaches
  | _ => simp [caches, resetOp] at hcaches

theorem CachedOnce.cached (hc : CachedOnce me did c) (hi : c.role i = .handshake me did p (.made x))
    (hno : NoOther c i me did) :
    CachedOnce me did (c.op i (.client me (.send (.setSession did x.sid)))
      (.handshake me did p (.cached x))) := by
  have hfree := hc.free (.inr ⟨i, by rw [hi]; rfl⟩)
  have hev : (c.op i (.client me (.send (.setSession did x.sid)))
      (.handshake me did p (.cached x))).events =
        c.events ++ [.op i c.state (.client me (.send (.setSession did x.sid)))] := rfl
  constructor
  · rw [hev, countP_snoc, countP_snoc, countP_snoc]
    simp only [caches, beq_self_eq_true, Bool.and_self, toNat_true]
    omega
  rintro (hcache | ⟨j, hj⟩)
  · rw [side_op_self] at hcache
    exact nomatch (update_self ..).symm.trans hcache
  rcases role_cases (Config.op_role c i (.client me (.send (.setSession did x.sid)))
    (.handshake me did p (.cached x))) j with ⟨_, hr⟩ | ⟨hne, hr⟩
  · rw [hr] at hj
    simp [Role.fresh] at hj
  · rw [hr] at hj
    obtain ⟨q, hq⟩ := Role.runs_of_fresh hj
    exact absurd hq (hno j hne q)

theorem CachedOnce.forgotten (hc : CachedOnce me did c) (hev : c'.events = c.events ++ [e])
    (hcaches : caches me did e = false) (he : resets me did e = true ∨ deletes me did e = true) :
    CachedOnce me did c' := by
  have hle := hc.le
  have hone : 1 ≤ (resets me did e).toNat + (deletes me did e).toNat := by
    rcases he with he | he
    · rw [he, toNat_true]
      omega
    · rw [he, toNat_true]
      omega
  constructor
  · rw [hev, countP_snoc, countP_snoc, countP_snoc, hcaches, toNat_false]
    omega
  · intro _
    rw [hev, countP_snoc, countP_snoc, countP_snoc, hcaches, toNat_false]
    omega

theorem keeps_cachedOnce : script.Keeps (CachedOnce me did) where
  start c hc := hc.same rfl (Nat.le_refl _) (Nat.le_refl _) fun h =>
    h.of_update rfl (fun hr => absurd hr (by simp [script, Role.fresh])) id
  fork i c r _ hc hpre := by
    refine hc.same rfl (Nat.le_refl _) (Nat.le_refl _) fun h =>
      h.of_update rfl (fun hr => ?_) id
    cases hpre with
    | program => simp [Role.fresh] at hr
    | handshake me' did' p since _ hcache _ _ =>
      cases hr
      exact .inl hcache
  await i c k r _ hc hpre := by
    refine hc.same rfl (Nat.le_refl _) (Nat.le_refl _) fun h =>
      h.of_update rfl (fun hr => ?_) id
    cases hpre with
    | keep k => exact .inr ⟨i, hr⟩
    | join me' did' p g h s _ _ _ _ _ => simp [Role.fresh] at hr
  op i c o r _ hc hpre := by
    have hev : (c.op i o r).events = c.events ++ [.op i c.state o] := rfl
    by_cases hcaches : caches me did (.op i c.state o) = true
    · obtain ⟨p, x, hi, rfl, rfl, hno⟩ := cached_of_caches hpre hcaches
      exact hc.cached hi hno
    rw [Bool.not_eq_true] at hcaches
    by_cases hforget : resets me did (.op i c.state o) = true ∨
        deletes me did (.op i c.state o) = true
    · exact hc.forgotten hev hcaches hforget
    simp only [not_or, Bool.not_eq_true] at hforget
    refine hc.same ?_ ?_ ?_ fun h => h.of_update rfl
      (fun hr => .inr ⟨i, fresh_op hpre hr⟩) (cache_op hforget.1 hforget.2)
    · rw [hev, countP_snoc, hcaches]
      rfl
    · rw [hev, countP_snoc]
      exact le_add_right _ _
    · rw [hev, countP_snoc]
      exact le_add_right _ _
  call i c k out reply s r _ hc _ hpre hperf := by
    have hev : (c.call i k out s r).events = c.events ++ [.call i c.state k out] := rfl
    have hcache : (side (c.call i k out s r) me).sendSessionByDid = (side c me).sendSessionByDid :=
      ((call_leaves (Call.effect hperf)).2 me).2.1
    refine hc.same ?_ ?_ ?_ fun h => h.of_update rfl (fun hr => ?_) (hcache ▸ id)
    · rw [hev, countP_snoc]
      rfl
    · rw [hev, countP_snoc]
      exact le_add_right _ _
    · rw [hev, countP_snoc]
      exact le_add_right _ _
    cases hpre with
    | quiet k out _ _ => exact .inr ⟨i, hr⟩
    | heard me' did' p owner since out _ =>
      cases owner <;> simp [Role.fresh] at hr
    | made _ _ _ _ _ hi | notMade _ _ _ _ _ hi => exact .inr ⟨i, by rw [hi]; exact hr⟩
    | shipped | lost => simp [Role.fresh] at hr

/-! ## Where a shipped session comes from -/

/-- The session that the task has made, with the device and the peer. -/
def Role.session : Role → Option (Did × Did × NewSession)
  | .handshake me did _ (.made x) => some (me, did, x)
  | .handshake me did _ (.cached x) => some (me, did, x)
  | .handshake me did _ (.shipped x) => some (me, did, x)
  | .handshake me did _ (.lost x) => some (me, did, x)
  | _ => none

/-- A session that is shipped has been asked for, by its device and for its peer. -/
structure Origins (c : Conf) : Prop where
  session : ∀ j me did x, (c.role j).session = some (me, did, x) →
    x.gen.peer = did ∧ ∃ e ∈ c.events, initiates me did x.remote e = true
  shipped : ∀ e ∈ c.events, ∀ me remote, shipsTo me remote e = true →
    ∃ did, ships me did e = true ∧ ∃ e' ∈ c.events, initiates me did remote e' = true

theorem Origins.of_le (h : Origins c)
    (hsession : ∀ j x, (c'.role j).session = some x → ∃ k, (c.role k).session = some x)
    (hold : ∀ e ∈ c.events, e ∈ c'.events)
    (hnew : ∀ e ∈ c'.events, e ∈ c.events ∨ ∀ me remote, shipsTo me remote e = false) :
    Origins c' where
  session j me did x hj := by
    obtain ⟨k, hk⟩ := hsession j _ hj
    obtain ⟨hpeer, e, he, hinit⟩ := h.session k me did x hk
    exact ⟨hpeer, e, hold e he, hinit⟩
  shipped e he me remote hships := by
    rcases hnew e he with he | hno
    · obtain ⟨did, hdid, e', he', hinit⟩ := h.shipped e he me remote hships
      exact ⟨did, hdid, e', hold e' he', hinit⟩
    · exact nomatch hships.symm.trans (hno me remote)

theorem session_update (hrole : c'.role = update c.role i r)
    (hr : ∀ x, r.session = some x → (c.role i).session = some x) :
    ∀ j x, (c'.role j).session = some x → ∃ k, (c.role k).session = some x := by
  intro j x hj
  rcases role_cases hrole j with ⟨_, hj'⟩ | ⟨_, hj'⟩
  · exact ⟨i, hr x (hj' ▸ hj)⟩
  · exact ⟨j, hj' ▸ hj⟩

theorem session_op (h : OpPre i c o r) (x) (hr : r.session = some x) :
    (c.role i).session = some x := by
  cases h with
  | cached me' did' p x hi _ => rw [hi]; exact hr
  | advance | neutral | persist | attempt | reconnect | delete => exact hr
  | _ => simp [Role.session] at hr

theorem Origins.made {me did remote : Did} {r : InitResult} {reply : Reply} (h : Origins c)
    (hperf : Call.perform i (.initiateSession me did remote) reply c.state = some (s, .ok r)) :
    Origins (c.call i (.initiateSession me did remote) (.ok r) s
      (.handshake me did p (.made ⟨r.sessionId, r.gen, remote⟩))) := by
  have hs := Call.succeed_of_ok rfl hperf
  simp only [Call.succeed, some.injEq, Prod.mk.injEq] at hs
  have hgen : r.gen.peer = did := by rw [← hs.2]
  have hinit : initiates me did remote
      (.call i c.state (.initiateSession me did remote) (.ok r)) = true := by
    simp [initiates]
  generalize hc' : c.call i (.initiateSession me did remote) (.ok r) s
    (.handshake me did p (.made ⟨r.sessionId, r.gen, remote⟩)) = c'
  have hev : c'.events = c.events ++
      [.call i c.state (.initiateSession me did remote) (.ok r)] := by rw [← hc']; rfl
  have hrole : c'.role = update c.role i
      (.handshake me did p (.made ⟨r.sessionId, r.gen, remote⟩)) := by rw [← hc']; rfl
  have hold : ∀ e ∈ c.events, e ∈ c'.events := fun e he => by
    rw [hev]
    exact mem_append_left _ he
  constructor
  · intro j me' did' x hj
    rcases role_cases hrole j with ⟨_, hr⟩ | ⟨_, hr⟩
    · rw [hr] at hj
      cases hj
      refine ⟨hgen, _, ?_, hinit⟩
      rw [hev]
      exact mem_append_right _ (mem_singleton.2 rfl)
    · rw [hr] at hj
      obtain ⟨hpeer, e, he, hinit⟩ := h.session j me' did' x hj
      exact ⟨hpeer, e, hold e he, hinit⟩
  · intro e he me' remote' hships
    rw [hev] at he
    rcases mem_append.1 he with he | he
    · obtain ⟨did', hdid, e', he', hinit⟩ := h.shipped e he me' remote' hships
      exact ⟨did', hdid, e', hold e' he', hinit⟩
    · rw [mem_singleton.1 he] at hships
      simp [shipsTo] at hships

/-- The `KeyExchange` of the session that a handshake has put into the cache. -/
structure Announces (e : Envelope) (me : Did) (x : NewSession) : Prop where
  type : e.contentType = .keyExchange
  sender : e.senderDid = me
  remote : e.recipientDid = x.remote
  gen : e.gen = x.gen

theorem Origins.sent {me did : Did} {e : Envelope} (h : Origins c)
    (hi : c.role i = .handshake me did p (.cached x)) (he : Announces e me x)
    (hphase : phase = .shipped x ∨ phase = .lost x) :
    Origins (c.call i (.sendEnvelope e) out s (.handshake me did p phase)) := by
  have hown : (c.role i).session = some (me, did, x) := hi ▸ rfl
  obtain ⟨hpeer, e0, he0, hinit⟩ := h.session i me did x hown
  constructor
  · intro j me' did' y hj
    have hk : ∃ k, (c.role k).session = some (me', did', y) := by
      refine session_update rfl (fun z hz => ?_) j _ hj
      rcases hphase with rfl | rfl
      · exact hown.trans hz
      · exact hown.trans hz
    obtain ⟨k, hk⟩ := hk
    obtain ⟨hpeer', e', he', hinit'⟩ := h.session k me' did' y hk
    exact ⟨hpeer', e', mem_append_left _ he', hinit'⟩
  · intro e' he' me' remote hships
    rcases mem_append.1 he' with he' | he'
    · obtain ⟨did', hdid, e₁, he1, hinit1⟩ := h.shipped e' he' me' remote hships
      exact ⟨did', hdid, e₁, mem_append_left _ he1, hinit1⟩
    rw [mem_singleton.1 he'] at hships ⊢
    simp only [shipsTo, Bool.and_eq_true, beq_iff_eq] at hships
    obtain ⟨⟨_, hsender⟩, hremote⟩ := hships
    rw [he.sender] at hsender
    rw [he.remote] at hremote
    subst hsender hremote
    refine ⟨did, ?_, e0, mem_append_left _ he0, hinit⟩
    simp [ships, he.type, he.sender, he.gen, hpeer]

/-- A call that makes no session and ships none. -/
theorem Origins.otherCall {k : Call} {out : Except Err (Ret k)} (h : Origins c)
    (hr : ∀ x, r.session = some x → (c.role i).session = some x)
    (hk : ∀ me remote, shipsTo me remote (.call (M := machine) i c.state k out) = false) :
    Origins (c.call i k out s r) := by
  refine h.of_le (session_update rfl hr) (fun e he => mem_append_left _ he) fun e he => ?_
  rcases mem_append.1 he with he | he
  · exact .inl he
  · rw [mem_singleton.1 he]
    exact .inr hk

theorem keeps_origins : script.Keeps Origins where
  start c hc := hc.of_le (session_update (r := .plain) rfl
    fun x hx => absurd hx (by simp [Role.session])) (fun _ he => he) fun _ he => .inl he
  fork i c r _ hc hpre := by
    refine hc.of_le (session_update rfl fun x hx => ?_) (fun _ he => he) fun _ he => .inl he
    cases hpre <;> simp [Role.session] at hx
  await i c k r _ hc hpre := by
    refine hc.of_le (session_update rfl fun x hx => ?_) (fun _ he => he) fun _ he => .inl he
    cases hpre with
    | keep k => exact hx
    | join me' did' p g h s _ _ _ _ _ => simp [Role.session] at hx
  op i c o r _ hc hpre := by
    refine hc.of_le (session_update (Config.op_role ..) (session_op hpre))
      (fun e he => mem_append_left _ he) fun e he => ?_
    rcases mem_append.1 he with he | he
    · exact .inl he
    · rw [mem_singleton.1 he]
      exact .inr fun _ _ => rfl
  call i c k out reply s r _ hc _ hpre hperf := by
    cases hpre with
    | quiet k out hk _ =>
      refine hc.otherCall (fun _ hx => hx) fun me remote => ?_
      cases k with
      | sendEnvelope e => simp [shipsTo, show e.contentType ≠ .keyExchange from hk]
      | _ => rfl
    | heard me did p owner since out hi =>
      refine hc.otherCall (fun x hx => ?_) fun _ _ => rfl
      cases owner <;> simp [Role.session] at hx
    | made me did remote p res _ => exact hc.made hperf
    | notMade me did remote p e hi =>
      exact hc.otherCall (fun x hx => absurd hx (by simp [Role.session])) fun _ _ => rfl
    | shipped me did p x e st hi htype hsender hremote hgen =>
      exact hc.sent hi ⟨htype, hsender, hremote, hgen⟩ (.inl rfl)
    | lost me did p x e err hi htype hsender hremote hgen =>
      exact hc.sent hi ⟨htype, hsender, hremote, hgen⟩ (.inr rfl)

/-! ## One `KeyExchange` for each new session -/

variable (me did) in
/-- What is shipped has been put into the cache before, and is shipped once. -/
structure ShippedOnce (c : Conf) : Prop extends Origins c where
  le : c.events.countP (ships me did) ≤ c.events.countP (caches me did)
  lt : ∀ j p x, c.role j = .handshake me did p (.cached x) →
    c.events.countP (ships me did) < c.events.countP (caches me did)

theorem ShippedOnce.update (hc : ShippedOnce me did c) (horigins : Origins c')
    (hrole : c'.role = update c.role i r)
    (hships : c'.events.countP (ships me did) = c.events.countP (ships me did))
    (hcaches : c.events.countP (caches me did) ≤ c'.events.countP (caches me did))
    (hr : ∀ p x, r = .handshake me did p (.cached x) → c.role i = r ∨
      c.events.countP (caches me did) < c'.events.countP (caches me did)) :
    ShippedOnce me did c' := by
  have hle := hc.le
  refine ⟨horigins, by omega, fun j p x hj => ?_⟩
  rcases role_cases hrole j with ⟨_, hj'⟩ | ⟨_, hj'⟩
  · rcases hr p x (hj' ▸ hj) with hi | hlt
    · have := hc.lt i p x (hi.trans (hj' ▸ hj))
      omega
    · omega
  · have := hc.lt j p x (hj' ▸ hj)
    omega

/-- The `KeyExchange` of the session in the cache is shipped, or fails. -/
theorem ShippedOnce.sent {me' did' : Did} {e : Envelope} (hc : ShippedOnce me did c) (hinv : Inv c)
    (hi : c.role i = .handshake me' did' p (.cached x)) (he : Announces e me' x)
    (hphase : phase = .shipped x ∨ phase = .lost x) :
    ShippedOnce me did (c.call i (.sendEnvelope e) out s (.handshake me' did' p phase)) := by
  have horigins : Origins (c.call i (.sendEnvelope e) out s (.handshake me' did' p phase)) :=
    hc.toOrigins.sent hi he hphase
  obtain ⟨hpeer, _⟩ := hc.session i me' did' x (hi ▸ rfl)
  generalize hc' : c.call i (.sendEnvelope e) out s (.handshake me' did' p phase) = c' at horigins ⊢
  have hev : c'.events = c.events ++ [.call i c.state (.sendEnvelope e) out] := by
    rw [← hc']; rfl
  have hrole : c'.role = Function.update c.role i (.handshake me' did' p phase) := by rw [← hc']; rfl
  have hcaches : c'.events.countP (caches me did) = c.events.countP (caches me did) := by
    rw [hev, countP_snoc]
    rfl
  have hnot : ∀ q y, Role.handshake me' did' p phase ≠ .handshake me did q (.cached y) := by
    rintro q y heq
    simp only [Role.handshake.injEq] at heq
    rcases hphase with rfl | rfl
    · exact nomatch heq.2.2.2
    · exact nomatch heq.2.2.2
  by_cases heq : me' = me ∧ did' = did
  · obtain ⟨rfl, rfl⟩ := heq
    have hlt := hc.lt i p x hi
    have hships : c'.events.countP (ships me' did') = c.events.countP (ships me' did') + 1 := by
      rw [hev]
      simp [ships, he.type, he.sender, he.gen, hpeer]
    refine ⟨horigins, by omega, fun j q y hj => ?_⟩
    rcases role_cases hrole j with ⟨_, hj'⟩ | ⟨hne, hj'⟩
    · exact absurd (hj'.symm.trans hj) (hnot q y)
    have hrunsj : (c.role j).runs = some (me', did', q) := by rw [← hj', hj]; rfl
    have hrunsi : (c.role i).runs = some (me', did', p) := by rw [hi]; rfl
    exact absurd (hinv.oneRuns j i me' did' q p hrunsj hrunsi) hne
  · refine hc.update horigins hrole ?_ (Nat.le_of_eq hcaches.symm)
      fun q y hr => absurd hr (hnot q y)
    have hno : ships me did (.call i c.state (.sendEnvelope e) out) = false := by
      simp only [ships, he.sender, he.gen, hpeer, Bool.and_eq_false_iff, beq_eq_false_iff_ne]
      rcases not_and_or.1 heq with h | h
      · exact .inl (.inr h)
      · exact .inr h
    rw [hev, countP_snoc, hno]
    rfl

theorem keeps_shippedOnce : script.Keeps (ShippedOnce me did) where
  start c hc := hc.update (keeps_origins.start c hc.toOrigins) (r := .plain) rfl rfl
    (Nat.le_refl _) fun p x hr => nomatch hr
  fork i c r hlt hc hpre := by
    refine hc.update (keeps_origins.fork i c r hlt hc.toOrigins hpre) rfl rfl
      (Nat.le_refl _) fun p x hr => ?_
    cases hpre <;> simp at hr
  await i c k r hlt hc hpre := by
    refine hc.update (keeps_origins.await i c k r hlt hc.toOrigins hpre) rfl rfl
      (Nat.le_refl _) fun p x hr => ?_
    cases hpre with
    | keep k => exact .inl rfl
    | join me' did' p g h s _ _ _ _ _ => simp at hr
  op i c o r hlt hc hpre := by
    have hev : (c.op i o r).events = c.events ++ [.op i c.state o] := rfl
    refine hc.update (keeps_origins.op i c o r hlt hc.toOrigins hpre) (Config.op_role ..) ?_ ?_
      fun p x hr => ?_
    · rw [hev, countP_snoc]
      rfl
    · rw [hev, countP_snoc]
      exact le_add_right _ _
    rcases handshake_of_op hpre hr with hi | ⟨y, _, _, rfl⟩ | ⟨_, _, hphase, _⟩
    · exact .inl hi
    · refine .inr ?_
      rw [hev]
      simp [caches]
    · simp at hphase
  call i c k out reply s r hlt hc hinv hpre hperf := by
    have horigins := keeps_origins.call i c k out reply s r hlt hc.toOrigins hinv hpre hperf
    have hev : (c.call i k out s r).events = c.events ++ [.call i c.state k out] := rfl
    have hother : ships me did (.call i c.state k out) = false →
        (∀ p x, r = .handshake me did p (.cached x) → c.role i = r) →
        ShippedOnce me did (c.call i k out s r) := by
      intro hno hr
      refine hc.update horigins rfl ?_ ?_ fun p x h => .inl (hr p x h)
      · rw [hev, countP_snoc, hno]
        rfl
      · rw [hev, countP_snoc]
        exact le_add_right _ _
    cases hpre with
    | quiet k out hk _ =>
      refine hother ?_ fun _ _ _ => rfl
      cases k with
      | sendEnvelope e => simp [ships, show e.contentType ≠ .keyExchange from hk]
      | _ => rfl
    | heard me' did' p owner since out _ =>
      refine hother rfl fun q y hr => ?_
      cases owner <;> simp at hr
    | made | notMade => exact hother rfl fun q y hr => nomatch hr
    | shipped me' did' p x e st hi htype hsender hremote hgen =>
      exact hc.sent hinv hi ⟨htype, hsender, hremote, hgen⟩ (.inl rfl)
    | lost me' did' p x e err hi htype hsender hremote hgen =>
      exact hc.sent hinv hi ⟨htype, hsender, hremote, hgen⟩ (.inr rfl)

end Device

/-! ## Every run -/

section Initial
variable (me did : Did) {s : State}

theorem resetsAttempted_initial : ResetsAttempted me did (script.initial s) :=
  ⟨zero_le _, fun ⟨_, _, hev, _⟩ => absurd hev (by simp [Script.initial])⟩

theorem cooled_initial : Cooled me did (script.initial s) where
  times _ he := absurd he (by simp [Script.initial])
  recorded _ := fun ⟨_, _, hev, _⟩ => absurd hev (by simp [Script.initial])
  apart _ _ hpre := absurd (prefix_nil.1 hpre) (by simp)

theorem cachedOnce_initial : CachedOnce me did (script.initial s) :=
  ⟨zero_le _, fun _ => zero_le _⟩

theorem shippedOnce_initial : ShippedOnce me did (script.initial s) where
  session _ _ _ _ hj := absurd hj (by simp [Script.initial, script, Role.session])
  shipped _ he := absurd he (by simp [Script.initial])
  le := zero_le _
  lt _ _ _ hj := absurd hj (by simp [Script.initial, script])

end Initial

/-- **Termination.** In every run the handshakes of a device for a peer ship at most one `KeyExchange`
    more than the user reconnects and deletes and the recoveries for the peer pass the cooldown test.
    So does the device to that DID, if the server gives it as the DID of nobody else. And two such
    recoveries are a cooldown apart, unless the conversation is deleted in between. -/
theorem rehandshakes_terminate {w : Sys machine} {h : List (Event machine)}
    (hw : Traced prog Launched w h) (me did : Did) :
    h.countP (ships me did) ≤ 1 + h.countP (passes me did) +
        (h.countP (reconnects me did) + h.countP (deletes me did)) ∧
      ((∀ e ∈ h, ∀ did', initiates me did' did e = true → did' = did) →
        h.countP (shipsTo me did) ≤ 1 + h.countP (passes me did) +
          (h.countP (reconnects me did) + h.countP (deletes me did))) ∧
      ∀ h' e₁ e₂, h' ++ [e₂] <+: h → PassedSince me did h' e₁ → passes me did e₂ = true →
        State.now e₁.state + RECOVERY_COOLDOWN_MS ≤ State.now e₂.state := by
  obtain ⟨c1, rfl, _, _, hships⟩ := keeps_reach keeps_shippedOnce
    (fun _ _ => shippedOnce_initial me did) hw
  obtain ⟨c2, hev2, _, _, hcaches⟩ := keeps_reach keeps_cachedOnce
    (fun _ _ => cachedOnce_initial me did) hw
  obtain ⟨c3, hev3, _, _, hresets⟩ := keeps_reach keeps_resetsAttempted
    (fun _ _ => resetsAttempted_initial me did) hw
  obtain ⟨c4, hev4, _, _, hcooled⟩ := keeps_reach keeps_cooled
    (fun _ _ => cooled_initial me did) hw
  have hbound : c1.events.countP (ships me did) ≤ 1 + c1.events.countP (passes me did) +
      (c1.events.countP (reconnects me did) + c1.events.countP (deletes me did)) := by
    have hle1 := hships.le
    have hle2 := hcaches.le
    have hle3 := hresets.le
    rw [hev2] at hle2
    rw [hev3] at hle3
    omega
  refine ⟨hbound, fun hinit => Nat.le_trans (countP_mono_left fun e he hto => ?_) hbound, ?_⟩
  · obtain ⟨did', hdid', e', he', hasked⟩ := hships.shipped e he me did hto
    exact hinit e' he' did' hasked ▸ hdid'
  · intro h' e₁ e₂ hpre hsince hpass
    exact hcooled.apart h' e₂ (hev4 ▸ hpre) hpass e₁ hsince

/-- The moves of a handshake in task `i`, after `n` turns from the lookup on. -/
def handshakeTurns (i n : Nat) : List (Move machine Cmd) :=
  List.flatten [okTurns i 1, [.perform i (.response ⟨bob, "bob", "pk"⟩), .resume i], okTurns i n,
    [.perform i (.stamped 1), .resume i, .perform i (.relayed .delivered), .resume i], okTurns i 2]

/-- Alice sends Bob a message and reconnects: both times she ships a `KeyExchange`. -/
theorem rehandshakes_terminate_reconnect : ∃ (w : Sys machine) (h : List (Event machine)),
    Traced prog Launched w h ∧ h.countP (ships alice bob) = 2 ∧
      h.countP (passes alice bob) = 0 ∧ h.countP (reconnects alice bob) = 1 ∧
        h.countP (deletes alice bob) = 0 ∧
          h.countP (ships alice bob) ≤ 1 + h.countP (passes alice bob) +
            (h.countP (reconnects alice bob) + h.countP (deletes alice bob)) := by
  have hw : ((Sys.idle (State.fresh 0)).trace prog []
      (flatten [[.start (.sendTextMessage alice bob "hi" 1)], handshakeTurns 1 2, okTurns 0 1,
        [.start (.reconnectSession alice bob)], handshakeTurns 3 2])).map (fun p =>
          (p.2.countP (ships alice bob), p.2.countP (passes alice bob),
            p.2.countP (reconnects alice bob), p.2.countP (deletes alice bob))) =
              some (2, 0, 1, 0) := by
    decide
  rw [map_eq_some_iff] at hw
  obtain ⟨p, hrun, hobs⟩ := hw
  simp only [Prod.mk.injEq] at hobs
  have htraced := Traced.of_trace (launched_fresh 0) hrun
  exact ⟨p.1, p.2, htraced, hobs.1, hobs.2.1, hobs.2.2.1, hobs.2.2.2,
    (rehandshakes_terminate htraced alice bob).1⟩

/-- Carol's contact has the handle of Bob, so that the handshakes for both ship to Bob. And Bob
    deletes the conversation after a recovery for Alice, whose next text starts another one. -/
theorem not_rehandshakes_terminate :
    (¬ ∀ (w : Sys machine) (h : List (Event machine)), Traced prog Launched w h → ∀ me did : Did,
      h.countP (shipsTo me did) ≤ 1 + h.countP (passes me did) +
        (h.countP (reconnects me did) + h.countP (deletes me did))) ∧
    ¬ ∀ (w : Sys machine) (h : List (Event machine)), Traced prog Launched w h → ∀ me did : Did,
      ((h.filter (passes me did)).map fun e => State.now e.state).Pairwise
        fun t₁ t₂ => t₁ + RECOVERY_COOLDOWN_MS ≤ t₂ := by
  constructor
  · intro hall
    have hw : ((Sys.idle (State.fresh 0)).trace prog []
        (flatten [[.start (.upsertContact alice "did:zhtp:carol" ⟨"bob", "pk"⟩),
          .start (.sendTextMessage alice "did:zhtp:carol" "hi" 1)], handshakeTurns 2 1,
          [.start (.sendTextMessage alice bob "hi" 2)], handshakeTurns 4 1])).map (fun p =>
            (p.2.countP (shipsTo alice bob), p.2.countP (passes alice bob),
              p.2.countP (reconnects alice bob), p.2.countP (deletes alice bob))) =
                some (2, 0, 0, 0) := by
      decide
    rw [map_eq_some_iff] at hw
    obtain ⟨p, hrun, hobs⟩ := hw
    simp only [Prod.mk.injEq] at hobs
    have hle := hall p.1 p.2 (.of_trace (launched_fresh 0) hrun) alice bob
    rw [hobs.1, hobs.2.1, hobs.2.2.1, hobs.2.2.2] at hle
    exact nomatch hle
  · intro hall
    have hw : ((Sys.idle (State.fresh 60000)).trace prog []
        (flatten [[.start (.ingestEnvelopes bob [firstText])], okTurns 0 3,
          [.start (.deleteConversation bob alice), .start (.ingestEnvelopes bob [firstText])],
          okTurns 4 3])).map (fun p =>
            (p.2.filter (passes bob alice)).map fun e => State.now e.state) =
              some [60000, 60000] := by
      decide
    rw [map_eq_some_iff] at hw
    obtain ⟨p, hrun, hobs⟩ := hw
    have hapart := hall p.1 p.2 (.of_trace (launched_fresh 60000) hrun) bob alice
    rw [hobs] at hapart
    exact nomatch hapart

end Handshakes
