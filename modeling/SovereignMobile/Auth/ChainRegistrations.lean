import SovereignMobile.Auth.ChainBinding
import SovereignMobile.EventLoop.Wp

/-! # What a chain binding stands for

The hook compares chains, and saves a binding where it finds none. A binding therefore stands for a
registration or for such a baseline, of the identity that it names; that this is the current identity is
not looked at. -/

namespace ChainReregistration

open EventLoop List Option
open RealAuthService (registered renamed)

/-! ## The property -/

/-- `identityId` was registered by a task that the node told the chain `chainId`; on that chain, unless the
    node was replaced in between. -/
def Past.Registered (p : Past) (identityId : String) (chainId : Nat) : Prop :=
  ∃ r ∈ p.registrations, r.identityId = identityId ∧ ∃ q ∈ p.reported, q.task = r.task ∧
    q.chainId = chainId ∧ (q.epoch = r.epoch → r.chainId = chainId)

/-- A check of `identityId` on the chain `chainId` found no binding. -/
def Past.FoundNone (p : Past) (identityId : String) (chainId : Nat) : Prop :=
  ∃ b ∈ p.baselines, b.identityId = identityId ∧ ∃ q ∈ p.reported, q.task = b.task ∧ q.chainId = chainId

def Past.Justifies (p : Past) (identityId : String) (chainId : Nat) : Prop :=
  p.Registered identityId chainId ∨ p.FoundNone identityId chainId

/-- Nothing that has happened is forgotten. -/
structure Past.Grows (p p' : Past) : Prop where
  reported : p.reported ⊆ p'.reported
  registrations : p.registrations ⊆ p'.registrations
  baselines : p.baselines ⊆ p'.baselines

theorem Past.Grows.refl (p : Past) : p.Grows p :=
  ⟨List.Subset.refl _, List.Subset.refl _, List.Subset.refl _⟩

variable {p : Past} {identityId : String} {chainId : Nat} {s s' : State} {o : Op} {c : Call}

theorem Past.Grows.trans {p1 p2 : Past} (h : p.Grows p1) (h1 : p1.Grows p2) : p.Grows p2 :=
  ⟨List.Subset.trans h.reported h1.reported, List.Subset.trans h.registrations h1.registrations,
    List.Subset.trans h.baselines h1.baselines⟩

theorem Past.Justifies.grows {p' : Past} (h : p.Grows p') (hp : p.Justifies identityId chainId) :
    p'.Justifies identityId chainId := by
  rcases hp with ⟨r, hr, hid, q, hq, hrest⟩ | ⟨b, hb, hid, q, hq, hrest⟩
  · exact .inl ⟨r, h.registrations hr, hid, q, h.reported hq, hrest⟩
  · exact .inr ⟨b, h.baselines hb, hid, q, h.reported hq, hrest⟩

/-! ## The outline -/

/-- What was seen of the current node, or of an earlier one. -/
def State.Seen (s : State) (chainId epoch : Nat) : Prop :=
  epoch ≤ s.epoch ∧ (epoch = s.epoch → chainId = s.chainId)

structure State.Inv (s : State) : Prop where
  reported : ∀ q ∈ s.past.reported, s.Seen q.chainId q.epoch
  registrations : ∀ r ∈ s.past.registrations, s.Seen r.chainId r.epoch
  sameNode : ∀ q ∈ s.past.reported, ∀ r ∈ s.past.registrations, q.epoch = r.epoch → r.chainId = q.chainId
  stored : ∀ b, s.stored = some b → s.past.Justifies b.identityId b.chainId
  reports : ∀ r ∈ s.reports, ∀ b, r.basis = .stored b →
    b.chainId = r.chainId ∧ r.past.Justifies b.identityId b.chainId

/-- What has to be known where `done` is reported, and where a binding is stored. -/
def outline : Spec machine where
  Inv := State.Inv
  Rely _ s s' := s.past.Grows s'.past
  OpPre _ s
    | .report _ chainId (.stored b) => b.chainId = chainId ∧ s.past.Justifies b.identityId b.chainId
    | _ => True
  CallPre _ s
    | .setItem b => s.past.Justifies b.identityId b.chainId
    | _ => True
  Fin _ _ := True

theorem State.Inv.of_same (h : s.Inv) (hpast : s'.past = s.past) (hreports : s'.reports = s.reports)
    (hstored : s'.stored = s.stored)
    (hseen : ∀ chainId epoch, s.Seen chainId epoch → s'.Seen chainId epoch) : s'.Inv := by
  refine ⟨?_, ?_, ?_, ?_, ?_⟩
  · rw [hpast]
    exact fun q hq => hseen _ _ (h.reported q hq)
  · rw [hpast]
    exact fun r hr => hseen _ _ (h.registrations r hr)
  · rw [hpast]
    exact h.sameNode
  · rw [hpast, hstored]
    exact h.stored
  · rw [hreports]
    exact h.reports

theorem outline_op {i : Nat} (h : s.Inv) (hpre : outline.OpPre i s o) :
    (s.apply i o).Inv ∧ s.past.Grows (s.apply i o).past := by
  have hsame : ∀ s' : State, s'.past = s.past → s'.reports = s.reports → s'.stored = s.stored →
      s'.chainId = s.chainId → s'.epoch = s.epoch → s'.Inv ∧ s.past.Grows s'.past := by
    intro s' hpast hreports hstored hchain hepoch
    refine ⟨h.of_same hpast hreports hstored fun _ _ hs => ?_, hpast ▸ .refl _⟩
    rw [State.Seen, hchain, hepoch]
    exact hs
  cases o with
  | connectTo chainId height =>
    refine ⟨h.of_same rfl rfl rfl fun c e hs => ?_, .refl _⟩
    exact ⟨Nat.le_succ_of_le hs.1, fun he => absurd (he ▸ hs.1) (Nat.not_succ_le_self _)⟩
  | foundNone identityId =>
    have hgrows : s.past.Grows (s.apply i (.foundNone identityId)).past :=
      ⟨List.Subset.refl _, List.Subset.refl _, subset_cons_self _ _⟩
    exact ⟨⟨h.reported, h.registrations, h.sameNode, fun b hb => (h.stored b hb).grows hgrows,
      h.reports⟩, hgrows⟩
  | report identityId chainId basis =>
    refine ⟨⟨h.reported, h.registrations, h.sameNode, h.stored, fun r hr b hb => ?_⟩, .refl _⟩
    rcases mem_cons.1 hr with rfl | hr
    · obtain rfl : basis = .stored b := hb
      exact hpre
    · exact h.reports r hr b hb
  | _ => exact hsame _ rfl rfl rfl rfl rfl

/-- A task that was told `chainId` has registered `identityId`, or registers it before it is told. -/
theorem State.Inv.registered (h : s.Inv) {i : Nat}
    (htold : ∃ q ∈ s.past.reported, q.task = i ∧ q.chainId = chainId)
    (hreg : ∃ r ∈ s.past.registrations, r.task = i ∧ r.identityId = identityId) :
    s.past.Registered identityId chainId := by
  obtain ⟨q, hq, htask, hchain⟩ := htold
  obtain ⟨r, hr, hrtask, hid⟩ := hreg
  refine ⟨r, hr, hid, q, hq, htask.trans hrtask.symm, hchain, fun he => ?_⟩
  rw [h.sameNode q hq r hr he]
  exact hchain

theorem inv_registers {i : Nat} (h : s.Inv) (identityId : String) :
    (s.registers i identityId).Inv ∧ s.past.Grows (s.registers i identityId).past := by
  have hgrows : s.past.Grows (s.registers i identityId).past :=
    ⟨List.Subset.refl _, subset_cons_self _ _, List.Subset.refl _⟩
  refine ⟨⟨h.reported, ?_, ?_, fun b hb => (h.stored b hb).grows hgrows, h.reports⟩, hgrows⟩
  · intro r hr
    rcases mem_cons.1 hr with rfl | hr
    · exact ⟨le_rfl, fun _ => rfl⟩
    · exact h.registrations r hr
  · intro q hq r hr he
    rcases mem_cons.1 hr with rfl | hr
    · exact ((h.reported q hq).2 he).symm
    · exact h.sameNode q hq r hr he

theorem inv_respond {i : Nat} (h : s.Inv) (identityId : String) (r : RegisterResponse) :
    (s.respond i identityId r).Inv ∧ s.past.Grows (s.respond i identityId r).past := by
  unfold State.respond
  split
  · exact inv_registers h _
  · exact inv_registers h _
  · exact ⟨h, .refl _⟩

theorem outline_call {i : Nat} {r : Reply} {out : Except String (Ret c)} (h : s.Inv)
    (hpre : outline.CallPre i s c) (hperf : s.perform i c r = some (s', out)) :
    s'.Inv ∧ s.past.Grows s'.past := by
  unfold State.perform at hperf
  split at hperf
  · cases hperf
    exact ⟨h, .refl _⟩
  · cases hperf
    -- the node tells its chain
    have hgrows : s.past.Grows { s.past with reported := ⟨i, s.chainId, s.epoch⟩ :: s.past.reported } :=
      ⟨subset_cons_self _ _, List.Subset.refl _, List.Subset.refl _⟩
    refine ⟨⟨?_, h.registrations, ?_, fun b hb => (h.stored b hb).grows hgrows, h.reports⟩, hgrows⟩
    · intro q hq
      rcases mem_cons.1 hq with rfl | hq
      · exact ⟨le_rfl, fun _ => rfl⟩
      · exact h.reported q hq
    · intro q hq r hr he
      rcases mem_cons.1 hq with rfl | hq
      · exact (h.registrations r hr).2 he.symm
      · exact h.sameNode q hq r hr he
  · cases hperf
    exact ⟨h, .refl _⟩
  · cases hperf
    -- a binding is stored
    refine ⟨⟨h.reported, h.registrations, h.sameNode, fun b hb => ?_, h.reports⟩, .refl _⟩
    cases hb
    exact hpre
  · cases hperf
    exact inv_respond h _ _
  all_goals first
    | (cases hperf
       exact ⟨h, .refl _⟩)
    | simp at hperf

theorem outline_sound : outline.Sound Cond.any where
  refl _ _ := .refl _
  trans _ _ _ _ := Past.Grows.trans
  op i s o h _ hpre := by
    obtain ⟨hinv, hgrows⟩ := outline_op h hpre
    exact ⟨hinv, fun _ _ => hgrows⟩
  call i s c r s' out h hpre hperf _ := by
    obtain ⟨hinv, hgrows⟩ := outline_call h hpre hperf
    exact ⟨hinv, fun _ _ => hgrows⟩
  fin _ _ _ _ _ _ := trivial

/-! ## The programs -/

/-- The node told task `i` the chain `chainId`. -/
def State.Told (i chainId : Nat) (s : State) : Prop :=
  ∃ q ∈ s.past.reported, q.task = i ∧ q.chainId = chainId

def State.RegisteredBy (i : Nat) (identityId : String) (s : State) : Prop :=
  ∃ r ∈ s.past.registrations, r.task = i ∧ r.identityId = identityId

/-- A fact that is not forgotten. -/
def Durable (F : State → Prop) : Prop := ∀ s s' : State, F s → s.past.Grows s'.past → F s'

theorem durable_true : Durable fun _ => True := fun _ _ h _ => h

theorem durable_told (i chainId : Nat) : Durable (State.Told i chainId) :=
  fun _ _ ⟨q, hq, h⟩ hgrows => ⟨q, hgrows.reported hq, h⟩

theorem durable_registeredBy (i : Nat) (identityId : String) :
    Durable (State.RegisteredBy i identityId) :=
  fun _ _ ⟨r, hr, h⟩ hgrows => ⟨r, hgrows.registrations hr, h⟩

theorem durable_justifies (identityId : String) (chainId : Nat) :
    Durable fun s => s.past.Justifies identityId chainId :=
  fun _ _ h hgrows => h.grows hgrows

theorem Durable.and {F G : State → Prop} (hF : Durable F) (hG : Durable G) :
    Durable fun s => F s ∧ G s :=
  fun s s' h hgrows => ⟨hF s s' h.1 hgrows, hG s s' h.2 hgrows⟩

variable {i : Nat} {F : State → Prop}

/-- What task `i` may do while it knows a fact that is not forgotten. -/
abbrev Keeps (i : Nat) (F : State → Prop) {α : Type} (m : Prog α) : Prop :=
  outline.Keeps Cond.any i F m

theorem keeps_op (hF : Durable F) (hpre : ∀ s : State, s.Inv → F s → outline.OpPre i s o) :
    Keeps i F (op o) := by
  refine .op fun s hs h _ => ⟨hpre s hs h, ?_⟩
  exact hF _ _ h (outline_op hs (hpre s hs h)).2

/-- A call after which the task knows more. -/
theorem wp_await (hF : Durable F) (hpre : ∀ s : State, s.Inv → F s → outline.CallPre i s c)
    {G : Except String (Ret c) → State → Prop} (hG : ∀ r, Durable (G r))
    (hcall : ∀ (s : State) r s' o, s.Inv → s.perform i c r = some (s', o) → G o s') (h : F s) :
    outline.Wp Cond.any i (await c) (fun r s' => F s' ∧ G r s') s := by
  refine .await fun s1 hr1 hi1 => ?_
  have h1 := hF _ _ h hr1
  refine ⟨hpre s1 hi1 h1, fun r s2 o hperf _ _ s3 hr3 _ => ?_⟩
  have hgrows := (outline_call hi1 (hpre s1 hi1 h1) hperf).2
  exact ⟨hF _ _ (hF _ _ h1 hgrows) hr3, hG o _ _ (hcall s1 r s2 o hi1 hperf) hr3⟩

theorem keeps_await (hF : Durable F) (hpre : ∀ s : State, s.Inv → F s → outline.CallPre i s c) :
    Keeps i F (await c) := by
  intro s _ h
  refine (wp_await hF hpre (fun _ => durable_true)
    (fun _ _ _ _ _ _ => trivial) h).mono fun _ _ _ hq => hq.1

theorem keeps_ignoring {m : Prog Unit} (hm : Keeps i F m) : Keeps i F (ignoring m) :=
  .tryCatch hm fun _ => .pure ()

theorem wp_fetchChainInfo (hF : Durable F) (h : F s) : outline.Wp Cond.any i (await .fetchChainInfo)
      (fun r s' => F s' ∧ ∀ info, r = .ok info → s'.Told i info.chain_id) s := by
  refine wp_await (c := .fetchChainInfo) hF (fun _ _ _ => trivial) (fun r => ?_)
    (fun s r s' o _ hperf => ?_) h
  · exact fun s s' hs hgrows info hr => durable_told _ _ _ _ (hs info hr) hgrows
  intro info hinfo
  cases r with
  | ok =>
    cases hperf
    cases hinfo
    exact ⟨_, mem_cons_self, rfl, rfl⟩
  | response r => simp [State.perform] at hperf
  | fails e =>
    cases hperf
    simp at hinfo

/-- What is read is what is stored. -/
theorem wp_getItem (hF : Durable F) (h : F s) : outline.Wp Cond.any i (await .getItem)
      (fun r s' => F s' ∧ ∀ b, r = .ok (some b) → s'.past.Justifies b.identityId b.chainId) s := by
  refine wp_await (c := .getItem) hF (fun _ _ _ => trivial) (fun r => ?_)
    (fun s r s' o hs hperf => ?_) h
  · exact fun s s' hs hgrows b hr => (hs b hr).grows hgrows
  intro b hb
  cases r with
  | ok =>
    cases hperf
    exact hs.stored b (Except.ok.inj hb)
  | response r => simp [State.perform] at hperf
  | fails e =>
    cases hperf
    simp at hb

/-- A registration that the code takes for one has taken place. -/
theorem wp_register (hF : Durable F) {displayName : String} {did : Auth.Did}
    {identityType : Auth.IdentityType} (h : F s) :
    outline.Wp Cond.any i (await (.register identityId displayName identityType did))
      (fun r s' => F s' ∧ ∀ response, r = .ok response → ∀ newIdentityId wallets,
        registered identityId response = .ok (newIdentityId, wallets) →
          s'.RegisteredBy i newIdentityId) s := by
  refine wp_await (c := .register identityId displayName identityType did) hF
    (fun _ _ _ => trivial) (fun r => ?_) (fun s r s' o _ hperf => ?_) h
  · exact fun s s' hs hgrows response hr newIdentityId wallets hreg =>
      durable_registeredBy _ _ _ _ (hs response hr newIdentityId wallets hreg) hgrows
  intro response hresponse newIdentityId wallets hreg
  cases r with
  | ok => simp [State.perform] at hperf
  | fails e =>
    obtain ⟨rfl, rfl⟩ := Prod.mk.inj (some.inj hperf)
    simp at hresponse
  | response r =>
    obtain ⟨rfl, rfl⟩ := Prod.mk.inj (some.inj hperf)
    obtain rfl := Except.ok.inj hresponse
    cases r with
    | ok body =>
      cases body with
      | none => simp [registered] at hreg
      | some body =>
        obtain ⟨rfl, -⟩ := Prod.mk.inj (Except.ok.inj hreg)
        exact ⟨_, mem_cons_self, rfl, rfl⟩
    | failed status body =>
      by_cases h409 : status = 409
      · subst h409
        obtain ⟨rfl, -⟩ := Prod.mk.inj (Except.ok.inj hreg)
        exact ⟨_, mem_cons_self, rfl, rfl⟩
      · simp [registered, h409] at hreg

/-- The task was told the chain, and has registered the identity. -/
theorem keeps_set (hF : Durable F) {b : LocalChainBinding}
    (hb : ∀ s : State, s.Inv → F s → s.past.Justifies b.identityId b.chainId) :
    Keeps i F (ChainBindingStorage.set b) :=
  keeps_await hF hb

theorem keeps_renamed (hF : Durable F) (identityId newIdentityId : String) (did : Auth.Did) :
    Keeps i F (renamed identityId newIdentityId did) := by
  unfold renamed
  split
  · exact .pure ()
  · exact .bind (keeps_ignoring (keeps_await hF fun _ _ _ => trivial)) fun _ =>
      keeps_ignoring (keeps_await hF fun _ _ _ => trivial)

theorem keeps_reRegister (currentIdentity : Auth.Identity) (newChainId newHeight : Nat) :
    Keeps i (State.Told i newChainId)
      (RealAuthService.reRegisterExistingIdentity currentIdentity newChainId newHeight) := by
  have hT := durable_told i newChainId
  unfold RealAuthService.reRegisterExistingIdentity
  split
  · exact .throw _
  rename_i identityId _
  refine .bind (.tryCatch (keeps_await hT fun _ _ _ => trivial) fun _ => .throw _) fun _ => ?_
  refine .bind (keeps_await hT fun _ _ _ => trivial) fun _ => ?_
  intro s hs h
  refine .bind (wp_register hT h) (fun response s1 hs1 hq => ?_) fun _ _ _ hq => hq.1
  obtain ⟨htold, hreg⟩ := hq
  split
  · exact .throw hs1 htold
  rename_i newIdentityId primaryWalletId ubiWalletId savingsWalletId hregistered
  -- from here on the task knows that it has registered the new id
  have hR := hT.and (durable_registeredBy i newIdentityId)
  have hboth := And.intro htold (hreg response rfl _ _ hregistered)
  have hrest : Keeps i (fun s => s.Told i newChainId ∧ s.RegisteredBy i newIdentityId) (do
      renamed identityId newIdentityId currentIdentity.did
      let binding : LocalChainBinding :=
        ⟨newChainId, newHeight, newIdentityId, primaryWalletId, ubiWalletId, savingsWalletId⟩
      ChainBindingStorage.set binding
      pure binding) := by
    refine .bind (keeps_renamed hR _ _ _) fun _ => ?_
    refine .bind (keeps_set hR fun s hs h => ?_) fun _ => .pure _
    exact .inl (hs.registered h.1 h.2)
  exact (hrest s1 hs1 hboth).mono fun _ _ _ hq => hq.1

theorem keeps_registerNewIdentity (displayName : String) (did : Auth.Did) :
    Keeps i (fun _ => True) (RealAuthService.registerNewIdentity displayName did) := by
  intro s hs h
  refine .bind (wp_register durable_true h) (fun response s1 hs1 hq => ?_) fun _ _ _ _ => trivial
  cases response with
  | failed status body =>
    dsimp only
    split
    · exact .pure hs1 trivial
    · exact .throw hs1 trivial
  | ok body =>
    cases body with
    | none => exact .throw hs1 trivial
    | some body =>
      have hreg : s1.RegisteredBy i (body.identityIdOr "") := hq.2 _ rfl _ _ rfl
      refine (keeps_ignoring ?_ s1 hs1 hreg).mono fun _ _ _ _ => trivial
      have hR := durable_registeredBy i (body.identityIdOr "")
      intro s2 hs2 h2
      refine .bind (wp_fetchChainInfo hR h2) (fun info s3 hs3 hq3 => ?_) fun _ _ _ hq3 => hq3.1
      have hboth := And.intro hq3.1 (hq3.2 info rfl)
      have hset := keeps_set (i := i) (hR.and (durable_told i info.chain_id))
        (b := ⟨info.chain_id, info.height, body.identityIdOr "",
          (Auth.truthy body.primary_wallet_id).getD "", (Auth.truthy body.ubi_wallet_id).getD "",
          (Auth.truthy body.savings_wallet_id).getD ""⟩)
        (fun s hs h => .inl (hs.registered h.2 h.1))
      exact (hset s3 hs3 hboth).mono fun _ _ _ hq => hq.1

theorem keeps_done (hF : Durable F) (identityId : String) (chainId : Nat) (basis : Basis)
    (hbasis : ∀ s : State, s.Inv → F s → ∀ b, basis = .stored b →
      b.chainId = chainId ∧ s.past.Justifies b.identityId b.chainId) :
    Keeps i F (done identityId chainId basis) := by
  refine .bind (keeps_op hF fun s hs h => ?_) fun _ => keeps_op hF fun _ _ _ => trivial
  cases basis with
  | stored b => exact hbasis s hs h b rfl
  | baseline | registered => trivial

theorem wp_get (hF : Durable F) (h : F s) : outline.Wp Cond.any i ChainBindingStorage.get
      (fun r s' => F s' ∧ ∀ b, r = .ok (some b) → s'.past.Justifies b.identityId b.chainId) s := by
  refine .tryCatch (wp_getItem hF h) (fun _ _ _ hq => hq) fun e s' hs' hq' => ?_
  exact .pure hs' ⟨hq'.1, fun b hb => nomatch hb⟩

/-- A baseline is stored by a task that was told the chain and has found none. -/
theorem keeps_baseline (identityId : String) (info : ChainInfo) :
    Keeps i (State.Told i info.chain_id) (do
      op (.foundNone identityId)
      ChainBindingStorage.set ⟨info.chain_id, info.height, identityId, "", "", ""⟩
      done identityId info.chain_id .baseline) := by
  intro s hs htold
  have hJ := durable_justifies identityId info.chain_id
  have hfound : outline.Wp Cond.any i (op (.foundNone identityId)) (fun _ (s' : State) =>
      s'.Told i info.chain_id ∧ s'.past.Justifies identityId info.chain_id) s := by
    refine .op fun _ => ⟨trivial, fun _ => ⟨htold, .inr ?_⟩⟩
    obtain ⟨q, hq, htask, hchain⟩ := htold
    exact ⟨_, mem_cons_self, rfl, q, hq, htask, hchain⟩
  refine .bind hfound (fun _ s1 hs1 hq => ?_) fun _ _ _ hq => hq.1
  · have hrest := Spec.Keeps.bind (i := i) (keeps_set ((durable_told i info.chain_id).and hJ)
        (b := ⟨info.chain_id, info.height, identityId, "", "", ""⟩) fun _ _ h => h.2)
      fun _ => keeps_done ((durable_told i info.chain_id).and hJ) identityId info.chain_id .baseline
        fun _ _ _ b hb => nomatch hb
    exact (hrest s1 hs1 hq).mono fun _ _ _ hq => hq.1

theorem keeps_check (currentIdentity : Auth.Identity) (identityId : String) :
    Keeps i (fun _ => True) (check currentIdentity identityId) := by
  intro s hs h
  refine .bind (wp_fetchChainInfo durable_true h) (fun info s1 hs1 hq => ?_) fun _ _ _ _ => trivial
  have hT := durable_told i info.chain_id
  refine .bind (wp_get hT (hq.2 info rfl)) (fun binding s2 hs2 hq2 => ?_) fun _ _ _ _ => trivial
  obtain ⟨htold, hstored⟩ := hq2
  cases binding with
  | none => exact (keeps_baseline identityId info s2 hs2 htold).mono fun _ _ _ _ => trivial
  | some binding =>
    dsimp only
    split
    · rename_i hsame
      have hJ := durable_justifies binding.identityId binding.chainId
      refine (keeps_done hJ _ _ _ (fun s _ h b hb => ?_) s2 hs2 (hstored binding rfl)).mono
        fun _ _ _ _ => trivial
      obtain rfl := Basis.stored.inj hb
      exact ⟨hsame, h⟩
    · have hop : ∀ o : Op, (∀ s : State, outline.OpPre i s o) →
          Keeps i (State.Told i info.chain_id) (op o) := fun o ho => keeps_op hT fun s _ _ => ho s
      refine (Spec.Keeps.bind (hop (.setStatus .syncing) fun _ => trivial) (fun _ => ?_) s2 hs2 htold).mono
        fun _ _ _ _ => trivial
      refine Spec.Keeps.bind (keeps_reRegister _ _ _) fun newBinding => ?_
      have hlast : Keeps i (State.Told i info.chain_id) (do
          op (.setRetryCount 0)
          done newBinding.identityId info.chain_id .registered) :=
        .bind (hop _ fun _ => trivial) fun _ =>
          keeps_done hT _ _ _ fun _ _ _ b hb => nomatch hb
      split
      · exact .bind (keeps_await hT fun _ _ _ => trivial) fun _ =>
          .bind (hop _ fun _ => trivial) fun _ => hlast
      · exact hlast

theorem keeps_retryLater (c : Closure) (msg : String) : Keeps i (fun _ => True) (retryLater c msg) := by
  have hop : ∀ o : Op, (∀ s : State, outline.OpPre i s o) → Keeps i (fun _ => True) (op o) :=
    fun o ho => keeps_op durable_true fun s _ _ => ho s
  refine .getThen fun s => ?_
  split
  · exact .bind (hop _ fun _ => trivial) fun _ =>
      .bind (hop _ fun _ => trivial) fun _ => hop _ fun _ => trivial
  · exact .bind (hop _ fun _ => trivial) fun _ => hop _ fun _ => trivial

theorem keeps_checkAndReregister (c : Closure) : Keeps i (fun _ => True) (checkAndReregister c) := by
  have hop : ∀ o : Op, (∀ s : State, outline.OpPre i s o) → Keeps i (fun _ => True) (op o) :=
    fun o ho => keeps_op durable_true fun s _ _ => ho s
  refine .getThen fun s => ?_
  split
  · exact .pure ()
  split
  · split
    · exact .pure ()
    refine .bind (hop _ fun _ => trivial) fun _ =>
      .bind (hop _ fun _ => trivial) fun _ =>
        .bind (hop _ fun _ => trivial) fun _ => ?_
    refine .settle (.tryCatch (keeps_check _ _) fun _ =>
      keeps_retryLater _ _) fun r => ?_
    cases r with
    | ok _ => exact hop _ fun _ => trivial
    | error e => exact .bind (hop _ fun _ => trivial) fun _ => .throw _
  · exact .pure ()

theorem keeps_prog (c : Cmd) : Keeps i (fun _ => True) c.prog := by
  have hop : ∀ o : Op, (∀ s : State, outline.OpPre i s o) → Keeps i (fun _ => True) (op o) :=
    fun o ho => keeps_op durable_true fun s _ _ => ho s
  cases c with
  | connectTo | setConnected | setCurrentIdentity => exact hop _ fun _ => trivial
  | createIdentity displayName did => exact keeps_registerNewIdentity displayName did
  | effect => exact .getThen fun s => keeps_checkAndReregister _
  | retry =>
    exact .bind (hop _ fun _ => trivial) fun _ =>
      .bind (hop _ fun _ => trivial) fun _ =>
        .getThen fun s => keeps_checkAndReregister _
  | timeout n =>
    refine .getThen fun s => ?_
    split
    · exact .pure ()
    · exact .bind (hop _ fun _ => trivial) fun _ =>
        .bind (hop _ fun _ => trivial) fun _ => keeps_checkAndReregister _
  | restart =>
    exact .bind (hop _ fun _ => trivial) fun _ =>
      .bind (hop _ fun _ => trivial) fun _ =>
        .bind (hop _ fun _ => trivial) fun _ => hop _ fun _ => trivial

theorem inv_of_reach {w : Sys machine} (h : Reach Cond.any prog Fresh w) : State.Inv w.state := by
  refine (outline_sound.reach (fun s hs => ?_) (fun _ _ _ => trivial) (fun c i s hs _ => ?_) h).inv
  · refine ⟨?_, ?_, ?_, ?_, ?_⟩
    · rw [hs.past]
      exact fun q hq => absurd hq not_mem_nil
    · rw [hs.past]
      exact fun r hr => absurd hr not_mem_nil
    · rw [hs.past]
      exact fun q hq => absurd hq not_mem_nil
    · rw [hs.stored]
      exact fun b hb => nomatch hb
    · rw [hs.reports]
      exact fun r hr => absurd hr not_mem_nil
  · exact Spec.Wp.toTask (keeps_prog c s hs trivial) fun _ _ _ _ => trivial

/-- **Every stored binding stands for a registration or a baseline of the identity that it names**, and so
    does a `done` for an identity that the binding names. -/
theorem bindings_justified {w : Sys machine} (h : Reach Cond.any prog Fresh w) :
    (∀ b, State.stored w.state = some b →
      (State.past w.state).Justifies b.identityId b.chainId) ∧
    ∀ r ∈ State.reports w.state, ∀ b, r.basis = .stored b →
      b.chainId = r.chainId ∧ (b.identityId = r.identityId → r.past.Justifies r.identityId r.chainId) := by
  have hinv := inv_of_reach h
  refine ⟨hinv.stored, fun r hr b hb => ?_⟩
  obtain ⟨hchain, hjust⟩ := hinv.reports r hr b hb
  refine ⟨hchain, fun hid => ?_⟩
  rw [← hid, ← hchain]
  exact hjust

/-! ## Short runs -/

def fresh : State where
  chainId := 1
  height := 10
  epoch := 0
  isConnected := true
  currentIdentity := none
  stored := none
  status := .idle
  errorMessage := none
  running := false
  retryCount := 0
  timers := []
  past := ⟨[], [], []⟩
  reports := []

theorem fresh_fresh : Fresh fresh := ⟨rfl, rfl, rfl⟩

def alice : Auth.Identity where
  did := "did:zhtp:a1"
  identityId := some "a1"
  displayName := "alice"

def bob : Auth.Identity where
  did := "did:zhtp:b2"
  identityId := some "b2"
  displayName := "bob"

/-- Task `i` gets its answers one after the other. -/
def answered (i : Nat) (rs : List Reply) : List (Move machine Cmd) :=
  rs.flatMap fun r => [.perform i r, .resume i]

/-- The hook runs for one identity, then for another. Neither was ever registered. -/
def switchedRun : List (Move machine Cmd) :=
  [.start (.setCurrentIdentity (some alice)), .start .effect] ++ answered 1 [.ok, .ok, .ok] ++
    [.start (.setCurrentIdentity (some bob)), .start .effect] ++ answered 3 [.ok, .ok]

/-- The node is replaced between its answer and the registration. -/
def replacedRun : List (Move machine Cmd) :=
  [.start (.setCurrentIdentity (some alice)), .start .effect] ++ answered 1 [.ok, .ok, .ok] ++
    [.start (.connectTo 2 5), .start .effect] ++ answered 3 [.ok, .ok, .ok, .ok] ++
    [.start (.connectTo 3 7)] ++ answered 3 [.response (.failed 409 ""), .ok]

def leaves (ms : List (Move machine Cmd)) : Option (List Report × Option LocalChainBinding × Past) :=
  ((Sys.idle fresh).run Cond.any prog ms).map fun w =>
    (State.reports w.state, State.stored w.state, State.past w.state)

theorem leaves_reach {ms : List (Move machine Cmd)} {reports : List Report}
    {stored : Option LocalChainBinding} {past : Past} (h : leaves ms = some (reports, stored, past)) :
    ∃ w : Sys machine, Reach Cond.any prog Fresh w ∧ State.reports w.state = reports ∧
      State.stored w.state = stored ∧ State.past w.state = past := by
  obtain ⟨w, hw, hobs⟩ := map_eq_some_iff.1 h
  obtain ⟨hreports, hobs⟩ := Prod.mk.inj hobs
  obtain ⟨hstored, hpast⟩ := Prod.mk.inj hobs
  exact ⟨w, .of_run fresh_fresh hw, hreports, hstored, hpast⟩

/-- The baseline of `a1`. -/
def baselineBinding : LocalChainBinding := ⟨1, 10, "a1", "", "", ""⟩

def baselinePast : Past := ⟨[⟨1, 1, 0⟩], [], [⟨1, "a1"⟩]⟩

def switchedPast : Past := ⟨[⟨3, 1, 0⟩, ⟨1, 1, 0⟩], [], [⟨1, "a1"⟩]⟩

theorem leaves_switchedRun : leaves switchedRun = some
    ([⟨"b2", 1, .stored baselineBinding, switchedPast⟩, ⟨"a1", 1, .baseline, baselinePast⟩],
      some baselineBinding, switchedPast) := by
  decide

theorem bindings_justified_switched : ∃ w : Sys machine, Reach Cond.any prog Fresh w ∧
    State.stored w.state = some baselineBinding ∧ (State.past w.state).Justifies "a1" 1 := by
  obtain ⟨w, hw, -, hstored, -⟩ := leaves_reach leaves_switchedRun
  exact ⟨w, hw, hstored, (bindings_justified hw).1 _ hstored⟩

/-- The binding is for chain 2, the registration took place on chain 3. -/
theorem leaves_replacedRun : (leaves replacedRun).map (fun x => (x.2.1, x.2.2.registrations)) =
    some (some ⟨2, 5, "a1", "", "", ""⟩, [⟨3, "a1", 3, 2⟩]) := by
  decide

/-- `done` rests on the binding of another identity, a binding names an identity that was never
    registered, and one that was registered on another chain. -/
theorem not_bindings_registered :
    (¬ ∀ w : Sys machine, Reach Cond.any prog Fresh w → ∀ r ∈ State.reports w.state, ∀ b,
      r.basis = .stored b → b.identityId = r.identityId) ∧
    (¬ ∀ w : Sys machine, Reach Cond.any prog Fresh w → ∀ r ∈ State.reports w.state, ∀ b,
      r.basis = .stored b → ∃ g ∈ r.past.registrations, g.identityId = r.identityId) ∧
    (¬ ∀ w : Sys machine, Reach Cond.any prog Fresh w → ∀ b, State.stored w.state = some b →
      ∃ g ∈ (State.past w.state).registrations, g.identityId = b.identityId) ∧
    (¬ ∀ w : Sys machine, Reach Cond.any prog Fresh w → ∀ b, State.stored w.state = some b →
      ∀ g ∈ (State.past w.state).registrations, (State.past w.state).registrations = [g] →
        g.chainId = b.chainId) := by
  obtain ⟨w, hw, hreports, hstored, hpast⟩ := leaves_reach leaves_switchedRun
  have hmem : (⟨"b2", 1, .stored baselineBinding, switchedPast⟩) ∈ State.reports w.state := by
    rw [hreports]
    exact mem_cons_self
  refine ⟨fun hall => ?_, fun hall => ?_, fun hall => ?_, fun hall => ?_⟩
  · exact nomatch hall w hw _ hmem baselineBinding rfl
  · obtain ⟨g, hg, -⟩ := hall w hw _ hmem baselineBinding rfl
    exact absurd hg not_mem_nil
  · obtain ⟨g, hg, -⟩ := hall w hw baselineBinding hstored
    rw [hpast] at hg
    exact absurd hg not_mem_nil
  · obtain ⟨⟨reports, stored, past⟩, hleaves, hobs⟩ := map_eq_some_iff.1 leaves_replacedRun
    obtain ⟨hb, hregistered⟩ := Prod.mk.inj hobs
    obtain ⟨w', hw', -, hstored', hpast'⟩ := leaves_reach hleaves
    have hone : (State.past w'.state).registrations = [⟨3, "a1", 3, 2⟩] := by
      rw [hpast']
      exact hregistered
    have hchain := hall w' hw' ⟨2, 5, "a1", "", "", ""⟩ (by rw [hstored']; exact hb) ⟨3, "a1", 3, 2⟩
      (by rw [hone]; exact mem_singleton_self _) hone
    exact nomatch hchain

end ChainReregistration
