import SovereignMobile.Payments.SendScreen

/-! # What is confirmed and what is sent

The confirmation dialog and `handleTransfer` read the selected token, the wallets and the form of the
moment, and every load of the token list selects a token of its own choice. The request is the one that
was reviewed if nothing of that changes while the dialog is open. -/

namespace SendTokensScreen

open Auth (trim truthy)
open EventLoop List Option

variable {N : Numbers}

/-! ## The property -/

/-- `selectedFromWallet ?? 'Primary Wallet'` -/
def Shown.source (shown : Shown N) : Option String := shown.selectedFromWallet <|> shown.primary

structure Shown.Agrees (shown : Shown N) (r : Request) : Prop where
  tokenId : r.tokenId = shown.token.token_id.getD ""
  recipient : r.recipient = trim shown.form.recipient
  amount : humanToAtomic shown.form.amount (shown.token.decimals.getD SOV_DECIMALS) = some r.amount
  source : some r.source = shown.source

namespace State

/-- Issued requests are those reviewed, and a load keeps a selected token that is in its list. -/
structure AsConfirmed (s : State N) : Prop where
  issued : ∀ x ∈ s.issued, ∃ shown, x.1 = some shown ∧ shown.Agrees x.2
  reloads : ∀ r ∈ s.reloads, ∀ id, r.before = some id → id ∈ r.list → r.after = some id

/-! ## The condition -/

/-- The same token as far as a request is concerned. -/
structure SameToken (t t' : SendableToken N) : Prop where
  type : t.type = t'.type
  token_id : t.token_id = t'.token_id
  decimals : t.decimals = t'.decimals

/-- The dialog is open for `shown`. -/
def Reviewing (s : State N) (shown : Shown N) : Prop :=
  s.showConfirmation = true ∧ s.reviewed = some shown

/-- A load prefers the selected token if that is in its list. While the dialog is open, it prefers the
    token under review, and the source wallet that it may choose is the one shown. -/
structure LoadKeeps (preselectedTokenId : Option String) (s : State N) (l : Started N)
    (tokens : List (SendableToken N)) : Prop where
  selection : ∀ t t₀, preferred preselectedTokenId tokens = some t → s.selectedToken = some t₀ →
    t₀.id ∈ tokens.map (fun t => t.id) → t.id = t₀.id
  token : ∀ t shown, preferred preselectedTokenId tokens = some t → s.Reviewing shown →
    SameToken t shown.token
  source : ∀ shown, s.Reviewing shown → shown.token.type = .sov → l.wallets ≠ [] →
    truthy l.selectedFromWallet = none → getDefaultSovWalletId l.wallets = shown.source

/-- While the dialog is open, the form stays as it is, and wallets that arrive or are chosen are the one
    shown. A review of a custom token shows the wallet that such a token is sent from. -/
def Allows (preselectedTokenId : Option String) (s : State N) : Event N → Prop
  | .loadEnds n r => ∀ l, s.loads[n]? = some l →
      s.LoadKeeps preselectedTokenId l (loadTokens l.wallets r)
  | .walletsArrive wallets => ∀ shown, s.Reviewing shown → shown.token.type = .custom →
      getDefaultSovWalletId wallets = shown.source
  | .fromWalletEffect => ∀ shown, s.Reviewing shown → s.hasCurrentSelection = false →
      getDefaultSovWalletId s.wallets = shown.source
  | .editRecipient text => ∀ shown, s.Reviewing shown → trim text = trim s.form.recipient
  | .editAmount text => ∀ shown, s.Reviewing shown → trim text = trim s.form.amount
  | .handleReview => ∀ t, s.selectedToken = some t → t.type = .custom → s.selectedFromWallet ≠ none →
      s.selectedFromWallet = getDefaultSovWalletId s.wallets
  | _ => True

section Decidable

variable {α : Type} {q : α → Prop} [DecidablePred q]

instance decidableForallSome : ∀ o : Option α, Decidable (∀ a, o = some a → q a)
  | none => .isTrue fun _ h => nomatch h
  | some a => decidable_of_iff (q a) ⟨fun h _ hb => Option.some.inj hb ▸ h, fun h => h a rfl⟩

instance decidableReviewing (s : State N) {q : Shown N → Prop} [DecidablePred q] :
    Decidable (∀ shown, s.Reviewing shown → q shown) :=
  decidable_of_iff (∀ shown, s.reviewed = some shown → s.showConfirmation = true → q shown)
    ⟨fun h shown hs => h shown hs.2 hs.1, fun h shown hs hopen => h shown ⟨hopen, hs⟩⟩

instance decidableSameToken (t t' : SendableToken N) : Decidable (SameToken t t') :=
  decidable_of_iff (t.type = t'.type ∧ t.token_id = t'.token_id ∧ t.decimals = t'.decimals)
    ⟨fun h => ⟨h.1, h.2.1, h.2.2⟩, fun h => ⟨h.type, h.token_id, h.decimals⟩⟩

instance decidableLoadKeeps (preselectedTokenId : Option String) (s : State N) (l : Started N)
    (tokens : List (SendableToken N)) : Decidable (s.LoadKeeps preselectedTokenId l tokens) :=
  decidable_of_iff
    ((∀ t, preferred preselectedTokenId tokens = some t → ∀ t₀, s.selectedToken = some t₀ →
        t₀.id ∈ tokens.map (fun t => t.id) → t.id = t₀.id) ∧
      (∀ t, preferred preselectedTokenId tokens = some t → ∀ shown, s.Reviewing shown →
        SameToken t shown.token) ∧
      ∀ shown, s.Reviewing shown → shown.token.type = .sov → l.wallets.isEmpty = false →
        truthy l.selectedFromWallet = none → getDefaultSovWalletId l.wallets = shown.source)
    ⟨fun h => ⟨fun t t₀ ht => h.1 t ht t₀, fun t shown ht => h.2.1 t ht shown,
        fun shown hs htype hw => h.2.2 shown hs htype (List.isEmpty_eq_false_iff.2 hw)⟩,
      fun h => ⟨fun t ht t₀ => h.selection t t₀ ht, fun t ht shown => h.token t shown ht,
        fun shown hs htype hw => h.source shown hs htype (List.isEmpty_eq_false_iff.1 hw)⟩⟩

instance decidableAllows (preselectedTokenId : Option String) (s : State N) :
    ∀ e, Decidable (s.Allows preselectedTokenId e)
  | .loadEnds n r => inferInstanceAs (Decidable (∀ l, s.loads[n]? = some l →
      s.LoadKeeps preselectedTokenId l (loadTokens l.wallets r)))
  | .walletsArrive wallets => inferInstanceAs (Decidable (∀ shown, s.Reviewing shown →
      shown.token.type = .custom → getDefaultSovWalletId wallets = shown.source))
  | .fromWalletEffect => inferInstanceAs (Decidable (∀ shown, s.Reviewing shown →
      s.hasCurrentSelection = false → getDefaultSovWalletId s.wallets = shown.source))
  | .editRecipient text => inferInstanceAs (Decidable (∀ shown, s.Reviewing shown →
      trim text = trim s.form.recipient))
  | .editAmount text => inferInstanceAs (Decidable (∀ shown, s.Reviewing shown →
      trim text = trim s.form.amount))
  | .handleReview => inferInstanceAs (Decidable (∀ t, s.selectedToken = some t → t.type = .custom →
      s.selectedFromWallet ≠ none → s.selectedFromWallet = getDefaultSovWalletId s.wallets))
  | .startLoad | .loadFails _ _ | .pick _ | .editMemo _ | .back | .handleTransfer | .transferEnds _ =>
    .isTrue trivial

end Decidable

/-! ## The invariant -/

/-- A request would be the one shown. -/
structure Matches (s : State N) (shown : Shown N) : Prop where
  token : ∃ t, s.selectedToken = some t ∧ SameToken t shown.token
  recipient : trim s.form.recipient = trim shown.form.recipient
  amount : trim s.form.amount = trim shown.form.amount
  sov : shown.token.type = .sov → ∀ w, truthy s.selectedFromWallet = some w → shown.source = some w
  custom : shown.token.type = .custom → ∀ w, truthy (getDefaultSovWalletId s.wallets) = some w →
    shown.source = some w

/-- While the dialog is open, there is nothing to send, or what is shown. -/
def Dialog (s : State N) : Prop :=
  s.showConfirmation = true → ∃ shown, s.reviewed = some shown ∧
    (trim s.form.recipient = "" ∨ s.Matches shown)

structure Inv (s : State N) : Prop extends s.AsConfirmed where
  dialog : s.Dialog

variable {s : State N} {preselectedTokenId : Option String}

theorem truthy_eq_some {x : Option String} {w : String} (h : truthy x = some w) : x = some w :=
  (filter_eq_some_iff.1 h).1

/-- An event that changes no more than the rest keeps the dialog as it was. -/
theorem Dialog.of_same {s' : State N} (h : s.Dialog) (hopen : s'.showConfirmation = s.showConfirmation)
    (hreviewed : s'.reviewed = s.reviewed) (hform : s'.form.recipient = s.form.recipient ∧
      s'.form.amount = s.form.amount) (htoken : s'.selectedToken = s.selectedToken)
    (hwallet : s'.selectedFromWallet = s.selectedFromWallet) (hwallets : s'.wallets = s.wallets) :
    s'.Dialog := by
  intro hs
  obtain ⟨shown, hshown, hm⟩ := h (hopen ▸ hs)
  refine ⟨shown, hreviewed.trans hshown, hm.imp (fun hblank => ?_) fun hm => ?_⟩
  · rw [hform.1]
    exact hblank
  refine ⟨htoken ▸ hm.token, ?_, ?_, ?_, ?_⟩
  · rw [hform.1]
    exact hm.recipient
  · rw [hform.2]
    exact hm.amount
  · rw [hwallet]
    exact hm.sov
  · rw [hwallets]
    exact hm.custom

theorem review_inv (h : s.Inv) (hallow : s.Allows preselectedTokenId .handleReview) :
    s.handleReview.Inv := by
  unfold handleReview
  cases htoken : s.selectedToken with
  | none => exact h
  | some token =>
    dsimp only
    split
    · exact h
    split
    · refine ⟨⟨h.issued, h.reloads⟩, ?_⟩
      intro _
      refine ⟨_, rfl, .inr ⟨⟨token, rfl, rfl, rfl, rfl⟩, rfl, rfl, ?_, ?_⟩⟩
      · intro _ w hw
        have hfrom : s.selectedFromWallet = some w := truthy_eq_some hw
        simp [Shown.source, hfrom]
      intro htype w hw
      have hdefault : getDefaultSovWalletId s.wallets = some w := truthy_eq_some hw
      cases hfrom : s.selectedFromWallet with
      | none => simp [Shown.source, hdefault]
      | some from' =>
        have heq := hallow token htoken htype (by simp [hfrom])
        rw [hfrom, hdefault] at heq
        simpa [Shown.source] using heq
    · exact ⟨⟨h.issued, h.reloads⟩, h.dialog.of_same rfl rfl ⟨rfl, rfl⟩ htoken.symm rfl rfl⟩

variable {token : SendableToken N}

/-- The request of a form that matches what is shown. -/
theorem Matches.agrees {shown : Shown N} {r : Request} (hm : s.Matches shown)
    (htoken : s.selectedToken = some token) (hr : s.request token = .ok r) : shown.Agrees r := by
  obtain ⟨t, ht, hsame⟩ := hm.token
  obtain rfl : token = t := some.inj (htoken.symm.trans ht)
  unfold request at hr
  dsimp only at hr
  have hatoms : humanToAtomic s.form.amount (token.decimals.getD SOV_DECIMALS) =
      humanToAtomic shown.form.amount (shown.token.decimals.getD SOV_DECIMALS) := by
    simp only [humanToAtomic, hm.amount, hsame.decimals]
  rw [hatoms] at hr
  cases hamount : humanToAtomic shown.form.amount (shown.token.decimals.getD SOV_DECIMALS) with
  | none => simp [hamount] at hr
  | some baseUnits =>
    cases htype : token.type with
    | sov =>
      cases hfrom : truthy s.selectedFromWallet with
      | none => simp [hamount, htype, hfrom] at hr
      | some w =>
        simp only [hamount, htype, hfrom, Except.ok.injEq] at hr
        subst hr
        exact ⟨by rw [← hsame.token_id]; rfl, hm.recipient, hamount,
          (hm.sov (hsame.type ▸ htype) w hfrom).symm⟩
    | custom =>
      cases hid : truthy token.token_id with
      | none => simp [hamount, htype, hid] at hr
      | some tokenId =>
        cases hdefault : truthy (getDefaultSovWalletId s.wallets) with
        | none => simp [hamount, htype, hid, hdefault] at hr
        | some w =>
          simp only [hamount, htype, hid, hdefault, Except.ok.injEq] at hr
          subst hr
          have htokenId : shown.token.token_id = some tokenId :=
            hsame.token_id.symm.trans (truthy_eq_some hid)
          exact ⟨by rw [htokenId]; rfl, hm.recipient, hamount,
            (hm.custom (hsame.type ▸ htype) w hdefault).symm⟩

theorem recipient_of_valid (h : s.valid = true) : trim s.form.recipient ≠ "" := by
  intro hblank
  simp [valid, validateRecipient, hblank] at h

theorem transfer_inv (h : s.Inv) : s.handleTransfer.Inv := by
  unfold handleTransfer
  split
  · exact h
  rename_i hopen
  simp only [Bool.or_eq_true, Bool.not_eq_true', not_or, Bool.not_eq_false] at hopen
  cases htoken : s.selectedToken with
  | none => exact ⟨⟨h.issued, h.reloads⟩, fun hs => nomatch hs⟩
  | some token =>
    dsimp only
    split
    · rename_i hvalid
      cases hr : s.request token with
      | error message => exact ⟨⟨h.issued, h.reloads⟩, fun hs => nomatch hs⟩
      | ok r =>
        obtain ⟨shown, hshown, hm⟩ := h.dialog hopen.2
        have hm : s.Matches shown := hm.resolve_left (recipient_of_valid hvalid)
        refine ⟨⟨?_, h.reloads⟩, fun hs => nomatch hs⟩
        intro x hx
        cases hx with
        | head => exact ⟨shown, hshown, hm.agrees htoken hr⟩
        | tail _ hx => exact h.issued x hx
    · exact ⟨⟨h.issued, h.reloads⟩, fun hs => nomatch hs⟩

/-- A load that prefers what is selected, and what is under review. -/
theorem loaded_inv {l : Started N} {tokens : List (SendableToken N)} (h : s.Inv)
    (hkeeps : s.LoadKeeps preselectedTokenId l tokens) : (s.loaded preselectedTokenId l tokens).Inv := by
  refine ⟨⟨h.issued, ?_⟩, ?_⟩
  · intro r hr id hbefore hid
    cases hr with
    | head =>
      obtain ⟨t0, ht0, rfl⟩ := map_eq_some_iff.1 hbefore
      cases hpref : preferred preselectedTokenId tokens with
      | none => simp [ht0]
      | some t => simp [hkeeps.selection t t0 hpref ht0 hid]
    | tail _ hr => exact h.reloads r hr id hbefore hid
  · intro hs
    obtain ⟨shown, hshown, hm⟩ := h.dialog hs
    have hreviewing : s.Reviewing shown := ⟨hs, hshown⟩
    refine ⟨shown, hshown, hm.imp id ?_⟩
    intro hm
    refine ⟨?_, hm.recipient, hm.amount, ?_, hm.custom⟩
    · cases hpref : preferred preselectedTokenId tokens with
      | none => simpa [loaded, hpref] using hm.token
      | some t => exact ⟨t, by simp [loaded, hpref], hkeeps.token t shown hpref hreviewing⟩
    intro htype w hw
    dsimp only [loaded] at hw
    split at hw
    · rename_i hchosen
      simp only [Bool.and_eq_true, Bool.not_eq_true', isEmpty_eq_false_iff,
        isNone_iff_eq_none] at hchosen
      exact (hkeeps.source shown hreviewing htype hchosen.1 hchosen.2).symm.trans (truthy_eq_some hw)
    · exact hm.sov htype w hw

theorem fromWallet_inv (h : s.Inv) (hallow : s.Allows preselectedTokenId .fromWalletEffect) :
    s.fromWalletEffect.Inv := by
  unfold fromWalletEffect
  cases htoken : s.selectedToken with
  | none => exact h
  | some token =>
    dsimp only
    split
    · exact h
    rename_i hchosen
    simp only [not_or, Bool.not_eq_true] at hchosen
    refine ⟨⟨h.issued, h.reloads⟩, ?_⟩
    intro hs
    obtain ⟨shown, hshown, hm⟩ := h.dialog hs
    refine ⟨shown, hshown, hm.imp id ?_⟩
    intro hm
    refine ⟨htoken ▸ hm.token, hm.recipient, hm.amount, ?_, hm.custom⟩
    intro _ w hw
    have hdefault : getDefaultSovWalletId s.wallets = some w := truthy_eq_some hw
    rw [← hdefault]
    exact (hallow shown ⟨hs, hshown⟩ hchosen.2.2).symm

theorem trim_empty : trim "" = "" := by decide

/-- What is picked comes with an empty form. -/
theorem pick_inv (h : s.Inv) : (s.pick token).Inv := by
  refine ⟨⟨h.issued, h.reloads⟩, ?_⟩
  intro hs
  obtain ⟨shown, hshown, -⟩ := h.dialog hs
  exact ⟨shown, hshown, .inl trim_empty⟩

theorem step_inv (h : s.Inv) (e : Event N) (hallow : s.Allows preselectedTokenId e) :
    (s.step preselectedTokenId e).Inv := by
  cases e with
  | walletsArrive wallets =>
    refine ⟨⟨h.issued, h.reloads⟩, ?_⟩
    intro hs
    obtain ⟨shown, hshown, hm⟩ := h.dialog hs
    refine ⟨shown, hshown, hm.imp id ?_⟩
    intro hm
    refine ⟨hm.token, hm.recipient, hm.amount, hm.sov, ?_⟩
    intro htype w hw
    rw [← hallow shown ⟨hs, hshown⟩ htype]
    exact truthy_eq_some hw
  | startLoad
  | editMemo text
  | transferEnds error => exact ⟨⟨h.issued, h.reloads⟩, h.dialog.of_same rfl rfl ⟨rfl, rfl⟩ rfl rfl rfl⟩
  | loadEnds n r =>
    dsimp only [step]
    cases hl : s.loads[n]? with
    | none => exact h
    | some l =>
      have h' := loaded_inv h (hallow l hl)
      exact ⟨⟨h'.issued, h'.reloads⟩, h'.dialog.of_same rfl rfl ⟨rfl, rfl⟩ rfl rfl rfl⟩
  | loadFails n message =>
    dsimp only [step]
    cases s.loads[n]? with
    | none => exact h
    | some l => exact ⟨⟨h.issued, h.reloads⟩, h.dialog.of_same rfl rfl ⟨rfl, rfl⟩ rfl rfl rfl⟩
  | fromWalletEffect => exact fromWallet_inv h hallow
  | pick n =>
    dsimp only [step]
    split
    · exact h
    cases s.allTokens[n]? with
    | none => exact h
    | some token => exact pick_inv h
  | editRecipient text =>
    refine ⟨⟨h.issued, h.reloads⟩, ?_⟩
    intro hs
    obtain ⟨shown, hshown, hm⟩ := h.dialog hs
    have hsame := hallow shown ⟨hs, hshown⟩
    exact ⟨shown, hshown, hm.imp hsame.trans fun hm =>
      ⟨hm.token, hsame.trans hm.recipient, hm.amount, hm.sov, hm.custom⟩⟩
  | editAmount text =>
    refine ⟨⟨h.issued, h.reloads⟩, ?_⟩
    intro hs
    obtain ⟨shown, hshown, hm⟩ := h.dialog hs
    have hsame := hallow shown ⟨hs, hshown⟩
    exact ⟨shown, hshown, hm.imp id fun hm =>
      ⟨hm.token, hm.recipient, hsame.trans hm.amount, hm.sov, hm.custom⟩⟩
  | handleReview => exact review_inv h hallow
  | back => exact ⟨⟨h.issued, h.reloads⟩, fun hs => nomatch hs⟩
  | handleTransfer => exact transfer_inv h

theorem mounted_inv (wallets : List (WalletDisplay N)) : (mounted wallets).Inv where
  issued := fun _ hx => nomatch hx
  reloads := fun _ hr => nomatch hr
  dialog := fun hs => nomatch hs

/-- What is confirmed is what is sent, in every run of the screen whose events meet the condition. -/
theorem sent_as_confirmed (preselectedTokenId : Option String) (wallets : List (WalletDisplay N))
    (es : List (Event N))
    (hallows : StepsMeet (State.step preselectedTokenId) (Allows preselectedTokenId) (mounted wallets) es) :
    HoldsThroughout (State.step preselectedTokenId) AsConfirmed (mounted wallets) es :=
  StepsMeet.holdsThroughout
    (fun _ e h hallow => step_inv h e hallow) (fun _ h => h.toAsConfirmed) (mounted_inv wallets) hallows

end State

/-! ## A run that sends another token -/

/-- Numbers that are whole. -/
def wholeNumbers : Numbers where
  F := Int
  zero := 0
  add := (· + ·)
  gt := fun a b => b < a
  isNaN := fun _ => false
  parseFloat := fun text => text.toList.foldl (fun n c => 10 * n + (c.toNat - 48 : Nat)) 0
  atomsToNumber := fun atoms decimals =>
    atoms.toList.foldl (fun n c => 10 * n + (c.toNat - 48 : Nat)) 0 / 10 ^ decimals
  toFixed2 := fun n => toString n ++ ".00"
  toText := fun n => toString n

def primary : WalletDisplay wholeNumbers := ⟨"a1", "Primary", (100 : Int), (100 : Int)⟩

def peer : String := "5f2d8c0b7e3a49165f2d8c0b7e3a49165f2d8c0b7e3a49165f2d8c0b7e3a4916"

def gold : Replies := ⟨some [⟨"9c", "GOLD", "Gold", "5000", some 2⟩], none, none⟩

/-- A review of 25 of the token that was picked. -/
def reviewedGold : List (Event wholeNumbers) :=
  [.startLoad, .loadEnds 0 gold, .pick 1, .editRecipient peer, .editAmount "25", .handleReview]

/-- A load ends before the transfer is confirmed. -/
def reloadedGold : List (Event wholeNumbers) :=
  reviewedGold ++ [.startLoad, .loadEnds 0 gold, .handleTransfer]

open State

/-- The token under review is the one that the route names, and so every load keeps it. -/
theorem sent_as_confirmed_gold :
    HoldsThroughout (State.step (some "9c")) AsConfirmed (mounted [primary]) reloadedGold :=
  sent_as_confirmed (some "9c") [primary] _ (by decide +kernel)

theorem reload_sends_sov :
    ¬ HoldsThroughout (State.step none) AsConfirmed (mounted [primary]) reloadedGold := by
  intro h
  have hissued : (reloadedGold.foldl (State.step none) (mounted [primary])).issued.map
      (fun x => (x.1.bind fun shown => shown.token.token_id, x.2)) =
      [(some "9c", .transferSov "a1" peer "25000000000000000000" "")] := by
    decide +kernel
  obtain ⟨x, hx, hid⟩ := List.mem_map.1 (hissued ▸ mem_cons_self)
  obtain ⟨shown, hshown, hagrees⟩ := h.last.issued x hx
  rw [hshown] at hid
  obtain ⟨hid, hr⟩ := Prod.mk.inj hid
  have htokenId := hagrees.tokenId
  rw [hr, show shown.token.token_id = some "9c" from hid] at htokenId
  exact nomatch htokenId

end SendTokensScreen
