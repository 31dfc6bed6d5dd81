import SovereignMobile.Payments.ConfirmedTransfers

/-! # What the form accepts and what the signer accepts

`validateTransfer` has one grammar for the recipient of SOV and another for that of a custom token, which
takes a DID and a public key as well; the native signer of a wallet transfer has one, 64 hexadecimal digits.
In between, `handleTransfer` passes the trimmed text on as it is. -/

namespace SendTokensScreen

open List
open Auth (trim truthy)
open NativeIdentityProvisioning (addressBytes Hex64 hexValue)
open NativeIdentityProvisioning (removeDidPrefix stripHexPrefix)

variable {N : Numbers}

/-! ## The property -/

/-- Both signers read the recipient as the entered address, and nothing is missing. -/
structure Request.SignerAccepts (r : Request) (wallets : List (WalletDisplay N)) (entered : String) :
    Prop where
  tokenId : r.tokenId ≠ ""
  source : ∃ w ∈ wallets, w.id = r.source
  recipient : ∃ id, addressBytes (normalizeRecipient entered) = some id ∧
    NativeIdentityProvisioning.Android.readId .walletTransfer r.recipient = some id ∧
    NativeIdentityProvisioning.Ios.readId .walletTransfer r.recipient = some id

namespace State

variable (s : State N)

/-- `handleTransfer` issues `r`. -/
def Issues (r : Request) : Prop := s.handleTransfer.issued = (s.reviewed, r) :: s.issued

/-- The form passes `validateTransfer` for the token when its transfer is confirmed. -/
structure Accepts (token : SendableToken N) : Prop where
  shown : s.tokensLoading = false ∧ s.showConfirmation = true
  selected : s.selectedToken = some token
  valid : s.valid = true
  amount : humanToAtomic s.form.amount (token.decimals.getD SOV_DECIMALS) ≠ none

/-- SOV is sent with its token id, from a wallet of the list; a custom token, to 64 hexadecimal digits. -/
def PassesOn (token : SendableToken N) : Prop :=
  match token.type with
  | .sov => ∀ id, truthy s.selectedFromWallet = some id →
      truthy token.token_id ≠ none ∧ s.hasCurrentSelection = true
  | .custom => truthy token.token_id ≠ none → truthy (getDefaultSovWalletId s.wallets) ≠ none →
      Hex64 (trim s.form.recipient).toList

end State

/-! ## Texts -/

section
variable {t : String}

variable {s : Option String}

theorem truthy_eq_some_iff {a : String} : truthy s = some a ↔ s = some a ∧ a ≠ "" := by
  simp [truthy]

theorem truthy_ne_none_iff : truthy s ≠ none ↔ s.getD "" ≠ "" := by
  cases s with
  | none => simp [truthy]
  | some a => simp [truthy]

theorem isSome_hexValue (c : Char) : (hexValue c).isSome =
    (('0' ≤ c && c ≤ '9') || ('a' ≤ c && c ≤ 'f') || ('A' ≤ c && c ≤ 'F')) := by
  rw [Bool.eq_iff_iff]
  simp only [Bool.or_eq_true, Bool.and_eq_true, decide_eq_true_eq]
  unfold hexValue
  split_ifs with hdigit hlower hupper
  · exact iff_of_true rfl (.inl (.inl hdigit))
  · exact iff_of_true rfl (.inl (.inr hlower))
  · exact iff_of_true rfl (.inr hupper)
  refine iff_of_false (by simp) ?_
  rintro ((h | h) | h)
  · exact hdigit h
  · exact hlower h
  · exact hupper h

/-- The regular expression of the screen is that of the signer. -/
theorem hex64_iff : Hex64 t.toList ↔ isHex t = true ∧ t.length = 64 := by
  rw [Hex64, isHex, Bool.and_eq_true, all_eq_true]
  simp only [isSome_hexValue]
  constructor
  · rintro ⟨hlength, hall⟩
    refine ⟨⟨decide_eq_true ?_, hall⟩, hlength⟩
    rintro rfl
    exact nomatch hlength
  · rintro ⟨⟨-, hall⟩, hlength⟩
    exact ⟨hlength, hall⟩

/-- What is no hexadecimal digit is not in front of 64 of them. -/
theorem Hex64.ne_cons (h : Hex64 t.toList) (front : List Char) {c : Char} {rest : List Char}
    (hc : hexValue c = none) : t.toList ≠ front ++ c :: rest := by
  intro heq
  have hsome := h.2 c (by rw [heq]; simp)
  rw [hc] at hsome
  simp at hsome

/-- A DID is no hexadecimal number. -/
theorem removeDidPrefix_of_hex64 (h : Hex64 t.toList) : removeDidPrefix t = t := by
  unfold removeDidPrefix
  split
  · rename_i hdid
    obtain ⟨rest, hrest⟩ := isPrefixOf_iff_prefix.1 hdid
    exact absurd hrest.symm (Hex64.ne_cons h ['d'] (by decide))
  · rfl

theorem stripHexPrefix_of_hex64 (h : Hex64 t.toList) : stripHexPrefix t.toList = t.toList := by
  unfold stripHexPrefix
  split
  · rename_i cs heq
    exact absurd heq (Hex64.ne_cons h ['0'] (by decide))
  · rfl

/-- 64 digits mean the same 32 bytes to both signers. -/
theorem readId_of_hex64 (h : Hex64 t.toList) : ∃ id, addressBytes t = some id ∧
    NativeIdentityProvisioning.Android.readId .walletTransfer t = some id ∧
    NativeIdentityProvisioning.Ios.readId .walletTransfer t = some id := by
  obtain ⟨id, hid, hlength⟩ := h.exists_bytes
  have hstrip := stripHexPrefix_of_hex64 h
  refine ⟨id, ?_, ?_, ?_⟩
  · rw [NativeIdentityProvisioning.addressBytes_eq_some_iff, hstrip]
    exact ⟨h, hid⟩
  · rw [NativeIdentityProvisioning.Android.readId_walletTransfer_of_hex64 h,
      NativeIdentityProvisioning.hexToBytes_of_hexBytes hid, Option.map_some,
      NativeIdentityProvisioning.Android.copyTo32_of_length hlength]
  have hread : NativeIdentityProvisioning.Ios.dataFromHexString t = some id := by
    rw [NativeIdentityProvisioning.Ios.dataFromHexString, hstrip]
    exact NativeIdentityProvisioning.pairBytes_of_hexBytes hid
  rw [NativeIdentityProvisioning.Ios.readId, hread, Option.filter_some, if_pos (decide_eq_true hlength)]

end

/-! ## What is issued -/

namespace State

variable {s : State N} {token : SendableToken N} {r : Request}

variable {id : String}

theorem getDefaultSovWalletId_mem {wallets : List (WalletDisplay N)}
    (h : getDefaultSovWalletId wallets = some id) : ∃ w ∈ wallets, w.id = id := by
  obtain ⟨w, hw, rfl⟩ := Option.map_eq_some_iff.1 h
  refine ⟨w, ?_, rfl⟩
  rcases (Option.orElse_eq_some _ _ _).1 hw with hfind | ⟨-, hhead⟩
  · exact mem_of_find?_eq_some hfind
  · exact mem_of_head? hhead

/-- A confirmed transfer that the form accepts issues its request, if it has one. -/
theorem Accepts.issues_iff (h : s.Accepts token) : s.Issues r ↔ s.request token = .ok r := by
  unfold Issues handleTransfer
  rw [h.shown.1, h.shown.2, h.selected]
  simp only [h.valid]
  cases s.request token with
  | error | ok => simp

theorem amount_of_request (h : s.request token = .ok r) :
    humanToAtomic s.form.amount (token.decimals.getD SOV_DECIMALS) ≠ none := by
  intro hnone
  rw [request, hnone] at h
  simp at h

/-- Only what the form accepts is issued. -/
theorem Issues.accepts (h : s.Issues r) : ∃ token, s.Accepts token ∧ s.request token = .ok r := by
  have hlonger : s.issued ≠ (s.reviewed, r) :: s.issued := by
    intro heq
    exact absurd (congrArg List.length heq) (by simp)
  unfold Issues handleTransfer at h
  split at h
  · exact absurd h hlonger
  rename_i hshown
  rw [Bool.or_eq_true, not_or, Bool.not_eq_true', Bool.not_eq_true, Bool.not_eq_false] at hshown
  split at h
  · exact absurd h hlonger
  rename_i token hselected
  split at h
  · rename_i hvalid
    split at h
    · exact absurd h hlonger
    rename_i request hrequest
    obtain rfl : request = r := by simpa using h
    exact ⟨token, ⟨hshown, hselected, hvalid, amount_of_request hrequest⟩, hrequest⟩
  · exact absurd h hlonger

/-- A request of SOV: the recipient passes `isValidSovRecipient`. -/
theorem Accepts.sov_iff (h : s.Accepts token) (htype : token.type = .sov) :
    s.request token = .ok r ↔ ∃ from_wallet_id amount, truthy s.selectedFromWallet = some from_wallet_id ∧
      humanToAtomic s.form.amount (token.decimals.getD SOV_DECIMALS) = some amount ∧
      r = .transferSov from_wallet_id (trim s.form.recipient) amount (token.token_id.getD "") := by
  obtain ⟨amount, hamount⟩ := Option.ne_none_iff_exists'.1 h.amount
  unfold request
  simp only [hamount, htype]
  cases truthy s.selectedFromWallet with
  | none => simp
  | some id => simp [eq_comm]

theorem Accepts.custom_iff (h : s.Accepts token) (htype : token.type = .custom) :
    s.request token = .ok r ↔ ∃ token_id from_wallet_id amount, truthy token.token_id = some token_id ∧
      truthy (getDefaultSovWalletId s.wallets) = some from_wallet_id ∧
      humanToAtomic s.form.amount (token.decimals.getD SOV_DECIMALS) = some amount ∧
      r = .transferTokenFromWallet token_id from_wallet_id (trim s.form.recipient) amount := by
  obtain ⟨amount, hamount⟩ := Option.ne_none_iff_exists'.1 h.amount
  unfold request
  simp only [hamount, htype]
  cases truthy token.token_id with
  | none => simp
  | some token_id =>
    cases truthy (getDefaultSovWalletId s.wallets) with
    | none => simp
    | some id => simp [eq_comm]

theorem Accepts.recipient_none (h : s.Accepts token) : s.validateRecipient = none := by
  have hvalid := h.valid
  rw [State.valid, Bool.and_eq_true] at hvalid
  exact Option.isNone_iff_eq_none.1 hvalid.1

/-- For SOV, the form accepts what the signer accepts. -/
theorem Accepts.hex64_of_sov (h : s.Accepts token) (htype : token.type = .sov) :
    Hex64 (trim s.form.recipient).toList := by
  have hrecipient := h.recipient_none
  unfold validateRecipient at hrecipient
  rw [h.selected] at hrecipient
  split at hrecipient
  · simp at hrecipient
  split at hrecipient
  · split at hrecipient
    · rename_i hvalid
      rw [isValidSovRecipient, Bool.and_eq_true, decide_eq_true_eq] at hvalid
      exact hex64_iff.2 ⟨hvalid.2, hvalid.1⟩
    · simp at hrecipient
  · rename_i hsov
    exact absurd htype (by simpa using hsov)

/-- 64 digits denote what was entered; whatever else the form accepts, Android's signer rejects. -/
theorem recipient_iff : (∃ id, addressBytes (normalizeRecipient s.form.recipient) = some id ∧
      NativeIdentityProvisioning.Android.readId .walletTransfer (trim s.form.recipient) = some id ∧
      NativeIdentityProvisioning.Ios.readId .walletTransfer (trim s.form.recipient) = some id) ↔
      Hex64 (trim s.form.recipient).toList := by
  constructor
  · rintro ⟨id, -, hread, -⟩
    by_contra hnot
    rw [(NativeIdentityProvisioning.Android.readId_eq_none_iff .walletTransfer _).2 hnot] at hread
    simp at hread
  · intro h
    rw [normalizeRecipient, removeDidPrefix_of_hex64 h]
    exact readId_of_hex64 h

theorem hasCurrentSelection_iff (h : truthy s.selectedFromWallet = some id) :
    s.hasCurrentSelection = true ↔ ∃ w ∈ s.wallets, w.id = id := by
  simp [hasCurrentSelection, h]

/-- **When the signer accepts what the form has accepted.** -/
theorem signer_accepts_iff (s : State N) :
    (∀ r, s.Issues r → r.SignerAccepts s.wallets s.form.recipient) ↔
      ∀ token, s.Accepts token → s.PassesOn token := by
  constructor
  · intro h token haccepts
    unfold PassesOn
    cases htype : token.type with
    | sov =>
      intro id hid
      obtain ⟨amount, hamount⟩ := Option.ne_none_iff_exists'.1 haccepts.amount
      have hissues := haccepts.issues_iff.2 ((haccepts.sov_iff htype).2 ⟨id, amount, hid, hamount, rfl⟩)
      have haccepted := h _ hissues
      exact ⟨truthy_ne_none_iff.2 haccepted.tokenId, (hasCurrentSelection_iff hid).2 haccepted.source⟩
    | custom =>
      intro htoken hwallet
      obtain ⟨token_id, htoken⟩ := Option.ne_none_iff_exists'.1 htoken
      obtain ⟨id, hid⟩ := Option.ne_none_iff_exists'.1 hwallet
      obtain ⟨amount, hamount⟩ := Option.ne_none_iff_exists'.1 haccepts.amount
      have hissues := haccepts.issues_iff.2
        ((haccepts.custom_iff htype).2 ⟨token_id, id, amount, htoken, hid, hamount, rfl⟩)
      exact recipient_iff.1 (h _ hissues).recipient
  · intro h r hissues
    obtain ⟨token, haccepts, hrequest⟩ := hissues.accepts
    have hpasses := h token haccepts
    unfold PassesOn at hpasses
    cases htype : token.type with
    | sov =>
      rw [htype] at hpasses
      obtain ⟨id, amount, hid, -, rfl⟩ := (haccepts.sov_iff htype).1 hrequest
      obtain ⟨htoken, hselected⟩ := hpasses id hid
      constructor
      · exact truthy_ne_none_iff.1 htoken
      · exact (hasCurrentSelection_iff hid).1 hselected
      · exact recipient_iff.2 (haccepts.hex64_of_sov htype)
    | custom =>
      rw [htype] at hpasses
      obtain ⟨token_id, id, amount, htoken, hid, -, rfl⟩ := (haccepts.custom_iff htype).1 hrequest
      constructor
      · exact (truthy_eq_some_iff.1 htoken).2
      · exact getDefaultSovWalletId_mem (truthy_eq_some_iff.1 hid).1
      · exact recipient_iff.2 (hpasses (by simp [htoken]) (by simp [hid]))

end State

/-! ## A DID that only the form accepts -/

def goldToken : SendableToken wholeNumbers :=
  ⟨"9c", "GOLD", "Gold", (50 : Int), .custom, some "9c", some 2⟩

/-- SOV of which no balance with a token id was loaded. -/
def sovToken : SendableToken wholeNumbers :=
  ⟨"SOV", "SOV", "Sovereign", (100 : Int), .sov, none, some 18⟩

/-- The confirmed transfer of 25. -/
def confirmed (token : SendableToken wholeNumbers) (recipient : String)
    (selectedFromWallet : Option String) : State wholeNumbers :=
  { State.mounted [primary] with
    tokensLoading := false
    showConfirmation := true
    selectedToken := some token
    form := ⟨recipient, "25", ""⟩
    selectedFromWallet := selectedFromWallet }

theorem accepts_goldToDid : (confirmed goldToken ("did:zhtp:" ++ peer) none).Accepts goldToken :=
  ⟨⟨rfl, rfl⟩, rfl, by decide +kernel, by decide +kernel⟩

theorem accepts_sovFromElsewhere : (confirmed sovToken peer (some "b2")).Accepts sovToken :=
  ⟨⟨rfl, rfl⟩, rfl, by decide +kernel, by decide +kernel⟩

/-- The DID goes to the signer as it is; the SOV transfer has no token id, and its wallet is not in the
    list. -/
theorem did_not_signed :
    (∃ r, (confirmed goldToken ("did:zhtp:" ++ peer) none).Issues r ∧
      ¬r.SignerAccepts [primary] ("did:zhtp:" ++ peer)) ∧
    ∃ r, (confirmed sovToken peer (some "b2")).Issues r ∧ r.tokenId = "" ∧ r.source ≠ primary.id := by
  constructor
  · refine ⟨.transferTokenFromWallet "9c" "a1" ("did:zhtp:" ++ peer) "2500", ?_, ?_⟩
    · exact accepts_goldToDid.issues_iff.2 (by decide +kernel)
    · intro h
      obtain ⟨id, -, hread, -⟩ := h.recipient
      have hnone : NativeIdentityProvisioning.Android.readId .walletTransfer ("did:zhtp:" ++ peer) = none := by
        decide +kernel
      rw [Request.recipient, hnone] at hread
      simp at hread
  · refine ⟨.transferSov "b2" peer "25000000000000000000" "", ?_, rfl, by decide⟩
    exact accepts_sovFromElsewhere.issues_iff.2 (by decide +kernel)

end SendTokensScreen
