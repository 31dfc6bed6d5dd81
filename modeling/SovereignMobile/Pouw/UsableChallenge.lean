import SovereignMobile.EventLoop.Issues
import SovereignMobile.Pouw.Controller

/-! # The challenge of a receipt

`createAndQueueReceipt` makes sure of a challenge and then builds a receipt for whichever one the
controller holds. The proof type always suits that challenge. That it has not expired is looked at
before `refreshChallenge` and after it, but not for a challenge that allows `hash`; it is true as long
as no expired challenge is stored and none expires in the turn between a function and its caller. The
flag `strict` says of a run that this is so. -/

namespace PoUWController

open EventLoop List Option Bool

/-- The receipt names the challenge `c`, which allows its proof type. -/
structure Receipt.IsFor (r : Receipt) (c : ChallengeToken) : Prop where
  task_id : r.task_id = c.task_id
  challenge_nonce : r.challenge_nonce = c.challenge_nonce
  allowed : r.proof_type ∈ c.allowed_proof_types

/-- A receipt that is built now is for the challenge that the controller holds. -/
def State.Names (s : State) (r : Receipt) : Prop :=
  r.finished_at = s.nowSecs ∧ ∃ c, s.activeChallenge = some c ∧ r.IsFor c

/-- And that challenge has not expired. -/
def State.Binds (s : State) (r : Receipt) : Prop :=
  r.finished_at = s.nowSecs ∧ ∃ c, s.activeChallenge = some c ∧ r.IsFor c ∧ s.nowSecs < c.expires_at

/-- There is no challenge, or it has not expired. -/
def State.unexpired (s : State) : Bool :=
  match s.activeChallenge with
  | none => true
  | some c => s.nowSecs < c.expires_at

def State.usable (s : State) (strict : Bool) : Prop := strict = true → s.unexpired = true

def Call.isTick : Call → Bool
  | .tick => true
  | _ => false

/-- A challenge is stored only before it expires. -/
def storesUnexpired (strict : Bool) : Cond machine where
  op _ s o :=
    match o with
    | .setChallenge (some c) => !strict || s.nowSecs < c.expires_at
    | _ => true
  call _ _ _ _ := true

/-- The clock runs on its own, and no challenge expires while a caller is about to go on. -/
def clock (strict : Bool) : World machine Int where
  drift now s := { s with nowSecs := now }
  allows w s :=
    !strict || !(w.tasks.any fun t => t.call.isTick) || !w.state.unexpired || s.unexpired

/-- The challenge stays usable during a turn, and what is signed is bound to one. -/
def usableOutlook (strict : Bool) : Outlook machine where
  Rely c s s' := c = .tick → s.usable strict → s'.usable strict
  Issue s c := ∀ r, c = .signPouwReceipt r → s.Names r ∧ s.usable strict

section Outlooks
variable {strict : Bool}

variable {i : Nat} {s : State}

theorem usable_setChallenge {challenge : Option ChallengeToken}
    (ho : (storesUnexpired strict).op i s (.setChallenge challenge) = true) :
    (apply i (.setChallenge challenge) s).usable strict := by
  intro hstrict
  cases challenge with
  | none => rfl
  | some c =>
    have hc : (!strict || decide (s.nowSecs < c.expires_at)) = true := ho
    rw [hstrict] at hc
    exact hc

theorem usable_apply {o : Op} (ho : (storesUnexpired strict).op i s o = true)
    (hs : s.usable strict) :
    (apply i o s).usable strict := by
  cases o with
  | setChallenge challenge => exact usable_setChallenge ho
  | clearInterval =>
    simp only [apply, State.clearInterval]
    split <;> exact hs
  | splice =>
    simp only [apply, State.splice]
    split <;> exact hs
  | resolve n =>
    simp only [apply, State.resolve]
    split <;> exact hs
  | unshift n =>
    simp only [apply, State.unshift]
    split <;> exact hs
  | _ => exact hs

theorem usableOutlook_sound : (usableOutlook strict).Sound (storesUnexpired strict) where
  refl _ _ _ hs := hs
  trans _ _ _ _ h1 h2 hc hs := h2 hc (h1 hc hs)
  op _ _ _ _ ho _ hs := usable_apply ho hs

theorem usableOutlook_respected : (usableOutlook strict).Respected (clock strict) := by
  intro w s hallows t ht hc hs hstrict
  simp only [clock, or_eq_true, not_eq_true'] at hallows
  rcases hallows with ((hlax | hnone) | hexpired) | hunexpired
  · exact nomatch hstrict.symm.trans hlax
  · have hany : (w.tasks.any fun t => t.call.isTick) = true :=
      any_eq_true.2 ⟨t, ht, by rw [hc]; rfl⟩
    exact nomatch hany.symm.trans hnone
  · exact nomatch (hs hstrict).symm.trans hexpired
  · exact hunexpired

end Outlooks

/-! ## The programs -/

section Programs
variable {α : Type} {s : State} {strict : Bool}

variable {c : Call} {o : Op} {m : Prog α}

theorem wp_call (hc : ∀ r, c ≠ .signPouwReceipt r) {Q : Except String (Ret c) → State → Prop}
    (h : ∀ r s', (usableOutlook strict).Rely c s s' → Q r s') :
    (usableOutlook strict).Wp (storesUnexpired strict) (call c) Q s :=
  .await (fun r he => absurd he (hc r)) h

theorem wp_exec {Q : Except String Unit → State → Prop}
    (h : ∀ i, (storesUnexpired strict).op i s o = true → Q (.ok ()) (apply i o s)) :
    (usableOutlook strict).Wp (storesUnexpired strict) (exec o) Q s :=
  .op h

/-- The turn between a function and its caller. -/
theorem wp_awaitFn {Q Q' : Except String α → State → Prop}
    (hm : (usableOutlook strict).Wp (storesUnexpired strict) m Q s)
    (hQ : ∀ r s1 s2, Q r s1 → (usableOutlook strict).Rely .tick s1 s2 → Q' r s2 ∧ ∀ e, Q' (.error e) s2) :

    (usableOutlook strict).Wp (storesUnexpired strict) (awaitFn m) Q' s := by
  refine hm.settle fun r s1 h1 => ?_
  refine .bind (wp_call (by simp) fun _ s2 hrely => hQ r s1 s2 h1 hrely) ?_ ?_
  · rintro _ s2 ⟨h2, -⟩
    cases r with
    | ok a => exact .pure h2
    | error e => exact .throw h2
  · rintro e s2 ⟨-, h2⟩
    exact h2 e

theorem wp_setChallenge (challenge : Option ChallengeToken) :
    (usableOutlook strict).Wp (storesUnexpired strict) (exec (.setChallenge challenge))
      (fun _ s' => s'.usable strict) s :=
  wp_exec fun _ ho => usable_setChallenge ho

theorem wp_fallbackChallenge (proofTypes : List ProofType) :
    (usableOutlook strict).Wp (storesUnexpired strict) (fallbackChallenge proofTypes)
      (fun _ s' => s'.usable strict) s := by
  refine (wp_call (by simp) fun _ _ _ => trivial).settle fun r s1 _ => ?_
  rcases r with e | _ | parsed
  · exact wp_setChallenge none
  · exact wp_setChallenge none
  dsimp only
  split
  · exact wp_setChallenge (some parsed)
  · exact wp_setChallenge none

theorem wp_refreshChallenge (proofTypes : List ProofType) :
    (usableOutlook strict).Wp (storesUnexpired strict) (refreshChallenge proofTypes)
      (fun _ s' => s'.usable strict) s := by
  refine (wp_call (by simp) fun _ _ _ => trivial).settle fun r s1 _ => ?_
  rcases r with e | _ | parsed
  · exact wp_fallbackChallenge proofTypes
  · exact wp_fallbackChallenge proofTypes
  dsimp only
  split
  · exact wp_setChallenge (some parsed)
  · exact wp_fallbackChallenge proofTypes

theorem unexpired_of_valid {proofTypes : List ProofType}
    (h : isChallengeValidForProofs s.nowSecs s.activeChallenge proofTypes = true) :
    s.unexpired = true := by
  unfold isChallengeValidForProofs at h
  unfold State.unexpired
  cases hc : s.activeChallenge with
  | none => rfl
  | some c =>
    rw [hc] at h
    dsimp only at h ⊢
    by_cases hlate : c.expires_at ≤ s.nowSecs + 30
    · rw [if_pos hlate] at h
      exact absurd h false_ne_true
    · exact decide_eq_true (by omega)

/-- What `refreshChallenge` has left is usable, whether it is looked at again or not. -/
theorem wp_ensureChallenge (proofTypes : List ProofType) :
    (usableOutlook strict).Wp (storesUnexpired strict) (ensureChallenge proofTypes)
      (fun r s' => ∀ a, r = .ok a → s'.usable strict) s := by
  refine .getThen ?_
  split
  · rename_i hvalid
    exact .pure fun _ _ _ => unexpired_of_valid hvalid
  have hrefresh : (usableOutlook strict).Wp (storesUnexpired strict) (awaitFn (refreshChallenge proofTypes))
      (fun _ s' => s'.usable strict) s :=
    wp_awaitFn (wp_refreshChallenge proofTypes) fun _ _ _ h hrely =>
      ⟨hrely rfl h, fun _ => hrely rfl h⟩
  have hcaught := hrefresh.tryCatch (Q := fun _ (s' : State) => s'.usable strict)
    (f := fun _ => pure ()) (fun _ _ h => h) fun _ _ h => .pure h
  refine hcaught.bind (fun _ s1 h1 => .getThen ?_) fun _ _ _ _ he => nomatch he
  split
  · exact .pure fun _ _ => h1
  · exact .throw fun _ he => nomatch he

/-- All that is asked of `m` is that what it signs is bound. -/
abbrev Quiet (strict : Bool) (m : Prog α) (s : State) : Prop :=
  (usableOutlook strict).Wp (storesUnexpired strict) m (fun _ _ => True) s

theorem quiet_bind {β : Type} {f : α → Prog β} (hm : Quiet strict m s)
    (hf : ∀ a s', Quiet strict (f a) s') : Quiet strict (m >>= f) s :=
  hm.bind (fun a s' _ => hf a s') fun _ _ _ => trivial

theorem quiet_call (hc : ∀ r, c ≠ .signPouwReceipt r) : Quiet strict (call c) s :=
  wp_call hc fun _ _ _ => trivial

theorem quiet_exec : Quiet strict (exec o) s := wp_exec fun _ _ => trivial

theorem quiet_awaitFn (hm : Quiet strict m s) : Quiet strict (awaitFn m) s :=
  wp_awaitFn hm fun _ _ _ _ _ => ⟨trivial, fun _ => trivial⟩

theorem quiet_submitBatch : Quiet strict submitBatch s := by
  refine .getThen ?_
  split
  · exact .pure trivial
  refine quiet_bind quiet_exec fun _ s1 => (quiet_call (by simp)).settle fun r s2 _ => ?_
  cases r with
  | ok | error => exact quiet_bind quiet_exec fun _ _ => .pure trivial

/-- Signing is all that a receipt has to be bound for. -/
theorem quiet_signAndQueue {r : Receipt} (h : s.Names r ∧ s.usable strict) :
    Quiet strict (signAndQueue r) s := by
  have hsign : Quiet strict (call (.signPouwReceipt r)) s := by
    refine .await (fun r' he => ?_) fun _ _ _ => trivial
    exact Call.signPouwReceipt.inj he ▸ h
  refine quiet_bind (quiet_awaitFn hsign) fun signature s1 => quiet_bind quiet_exec fun _ s2 => ?_
  refine .getThen ?_
  split
  · exact quiet_bind (quiet_awaitFn quiet_submitBatch) fun _ _ => .pure trivial
  · exact .pure trivial

theorem effectiveProofType_allowed {c : ChallengeToken} {proofType pt : ProofType}
    (h : effectiveProofType c proofType = some pt) : pt ∈ c.allowed_proof_types := by
  unfold effectiveProofType at h
  split at h
  · rename_i hreq
    exact some.inj h ▸ contains_iff_mem.1 hreq
  split at h
  · rename_i hhash
    exact some.inj h ▸ contains_iff_mem.1 hhash
  · simp at h

theorem quiet_createAndQueueReceipt (q : ReceiptRequest) : Quiet strict (createAndQueueReceipt q) s := by
  have hensure : (usableOutlook strict).Wp (storesUnexpired strict) (awaitFn (ensureChallenge [q.proofType]))
      (fun r s' => ∀ a, r = .ok a → s'.usable strict) s :=
    wp_awaitFn (wp_ensureChallenge _) fun _ _ _ h hrely =>
      ⟨fun a he => hrely rfl (h a he), fun _ _ he => nomatch he⟩
  refine hensure.bind (fun _ s1 h1 => .getThen ?_) fun _ _ _ => trivial
  split
  · rename_i c did node hc _ _
    split
    · exact .throw trivial
    rename_i pt hpt
    have hfor : (newReceipt q c did node pt s1.nowSecs).IsFor c :=
      ⟨rfl, rfl, effectiveProofType_allowed hpt⟩
    exact quiet_signAndQueue ⟨⟨rfl, c, hc, hfor⟩, h1 () rfl⟩
  · exact .pure trivial

theorem quiet_start : Quiet strict start s := by
  refine .getThen ?_
  split
  · exact .pure trivial
  refine quiet_bind (quiet_call (by simp)) fun identity s1 => quiet_bind quiet_exec fun _ s2 => ?_
  split
  · exact .throw trivial
  · refine quiet_bind quiet_exec fun _ s3 => quiet_bind (quiet_awaitFn ?_) fun _ _ => quiet_exec
    exact (wp_refreshChallenge _).mono fun _ _ _ => trivial

theorem quiet_stop : Quiet strict stop s :=
  quiet_bind quiet_exec fun _ _ =>
    quiet_bind (quiet_awaitFn quiet_submitBatch) fun _ _ => quiet_exec

theorem quiet_tick (t : Nat) : Quiet strict (tick t) s := by
  refine .getThen ?_
  split
  · exact quiet_bind quiet_submitBatch fun _ _ => .pure trivial
  · exact .pure trivial

end Programs

theorem good_prog (strict : Bool) (c : Cmd) (i : Nat) (s : State) :
    (usableOutlook strict).Good (storesUnexpired strict) i (prog c) s := by
  cases c with
  | start => exact quiet_start.toTask i
  | stop => exact quiet_stop.toTask i
  | flush => exact quiet_submitBatch.toTask i
  | createAndQueueReceipt q => exact (quiet_createAndQueueReceipt q).toTask i
  | tick t => exact (quiet_tick t).toTask i

variable {r : Receipt} {b : Bool}

theorem State.Names.binds_iff {s : State} (h : s.Names r) : s.Binds r ↔ s.unexpired = true := by
  obtain ⟨hnow, c, hc, hfor⟩ := h
  have hexp : s.unexpired = decide (s.nowSecs < c.expires_at) := by
    rw [State.unexpired, hc]
  rw [hexp, decide_eq_true_eq]
  constructor
  · rintro ⟨-, c', hc', -, hlt⟩
    obtain rfl := some.inj (hc.symm.trans hc')
    exact hlt
  · exact fun hlt => ⟨hnow, c, hc, hfor, hlt⟩

/-- Every receipt names the challenge that the controller holds when it is built, which allows its proof
    type; the challenge is usable exactly if it has not expired since it was last looked at. In a strict
    run it never has, from whatever state the controller starts and whatever else it is doing. -/
theorem receipt_binds {strict : Bool} {w w' : Sys machine} {x : Turn machine Cmd Int} {s : State}
    {r : Receipt} (h : ReachAmid (storesUnexpired strict) (clock strict) prog (fun _ => True) w)
    (hx : w.turn (storesUnexpired strict) (clock strict) prog x = some w')
    (hr : (s, .signPouwReceipt r) ∈ w.issues prog x) :
    s.Names r ∧ (s.Binds r ↔ s.unexpired = true) ∧ (strict = true → s.Binds r) := by
  obtain ⟨hnames, husable⟩ :=
    usableOutlook_sound.issues usableOutlook_respected (good_prog strict) h hx _ hr r rfl
  exact ⟨hnames, hnames.binds_iff, fun hstrict => hnames.binds_iff.2 (husable hstrict)⟩

/-! ## Two runs -/

def Call.receipt? : Call → Option Receipt
  | .signPouwReceipt r => some r
  | _ => none

theorem eq_of_receipt? {c : Call} (h : c.receipt? = some r) : c = .signPouwReceipt r := by
  cases c with
  | signPouwReceipt r' => exact congrArg Call.signPouwReceipt (some.inj h)
  | _ => simp [Call.receipt?] at h

/-- A running controller that holds no challenge. -/
def running : State :=
  { State.new 10 1000 with
    clientDid := some "did:zhtp:1"
    clientNodeId := some "2b"
    isRunning := true }

def routeRequest : ReceiptRequest := ⟨.web4manifestroute, 1024, "{}", "c1", "n1"⟩

/-- The controller asks for a challenge, which arrives at 1001, and is about to go on. -/
def refreshed (expires_at : Int) : List (Turn machine Cmd Int) :=
  [.move (.start (.createAndQueueReceipt routeRequest)),
    .move (.perform 0 ⟨1001, .challenge (some ⟨"t1", "7f", expires_at, [.hash, .web4manifestroute]⟩)⟩),
    .move (.resume 0), .move (.perform 0 ⟨1001, .ok⟩), .move (.resume 0),
    .move (.perform 0 ⟨1001, .ok⟩)]

/-- What is signed next, and whether the challenge has not expired then. -/
def signedNext (w : Sys machine) : List (Option Receipt × Bool) :=
  (w.issues prog (.move (.resume 0) : Turn machine Cmd Int)).map fun y => (y.2.receipt?, y.1.unexpired)

theorem exists_of_signedNext {w : Sys machine} (h : signedNext w = [(some r, b)]) :
    ∃ s, s.unexpired = b ∧
      (s, .signPouwReceipt r) ∈ w.issues prog (.move (.resume 0) : Turn machine Cmd Int) := by
  have hmem : (some r, b) ∈ signedNext w := by
    rw [h]
    exact mem_singleton_self _
  obtain ⟨⟨s, c⟩, hy, he⟩ := mem_map.1 hmem
  obtain ⟨hr, hs⟩ := Prod.mk.inj he
  exact ⟨s, hs, eq_of_receipt? hr ▸ hy⟩

/-- The receipt for the challenge `7f`, built at 1001. -/
def routeReceipt : Receipt :=
  newReceipt routeRequest ⟨"t1", "7f", 0, []⟩ "did:zhtp:1" "2b" .web4manifestroute 1001

/-- Whether the run of `refreshed` goes on, and what is signed then. -/
def observed (C : Cond machine) (strict : Bool) (expires_at : Int) :
    Option (List (Option Receipt × Bool) × Bool) :=
  ((Sys.idle running).turns C (clock strict) prog (refreshed expires_at)).map fun w =>
    (signedNext w, (w.turn C (clock strict) prog (.move (.resume 0))).isSome)

theorem exists_of_observed {C : Cond machine} {strict : Bool} {expires_at : Int}
    (h : observed C strict expires_at = some ([(some r, b)], true)) :
    ∃ (w w' : Sys machine) (s : State), ReachAmid C (clock strict) prog (fun _ => True) w ∧
      w.turn C (clock strict) prog (.move (.resume 0)) = some w' ∧ s.unexpired = b ∧
        (s, .signPouwReceipt r) ∈ w.issues prog (.move (.resume 0) : Turn machine Cmd Int) := by
  obtain ⟨w, hrun, hobs⟩ := map_eq_some_iff.1 h
  obtain ⟨hsigned, hturn⟩ := Prod.mk.inj hobs
  obtain ⟨w', hturn⟩ := isSome_iff_exists.1 hturn
  obtain ⟨s, hs, hmem⟩ := exists_of_signedNext hsigned
  exact ⟨w, w', s, (ReachAmid.idle running trivial).turns _ hrun, hturn, hs, hmem⟩

theorem receipt_binds_refreshed : ∃ s : State, s.Binds routeReceipt := by
  have hobs : observed (storesUnexpired true) true 1600 = some ([(some routeReceipt, true)], true) := by
    decide
  obtain ⟨w, w', s, hreach, hturn, -, hmem⟩ := exists_of_observed hobs
  exact ⟨s, (receipt_binds hreach hturn hmem).2.2 rfl⟩

/-- A node hands out a challenge that expired at 900; because it allows `hash`, the receipt is built. -/
theorem receipt_for_expired_challenge :
    ¬ ∀ (w w' : Sys machine) (x : Turn machine Cmd Int) (s : State) (r : Receipt),
      ReachAmid Cond.any (clock false) prog (fun _ => True) w →
        w.turn Cond.any (clock false) prog x = some w' →
          (s, .signPouwReceipt r) ∈ w.issues prog x → s.Binds r := by
  intro hall
  have hobs : observed .any false 900 = some ([(some routeReceipt, false)], true) := by
    decide
  obtain ⟨w, w', s, hreach, hturn, hs, hmem⟩ := exists_of_observed hobs
  obtain ⟨-, c, hc, -, hlt⟩ := hall w w' _ s _ hreach hturn hmem
  rw [State.unexpired, hc] at hs
  exact absurd hlt (of_decide_eq_false hs)

end PoUWController
