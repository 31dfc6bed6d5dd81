import SovereignMobile.EventLoop.Wp
import SovereignMobile.Payments.Programs

/-! # Nonces

When the nonces of posted transactions are their senders' own and differ: the node has to be asked
for the sender that is signed, and no other transaction of it may be posted in between. -/

namespace Payments

open EventLoop NativeIdentityProvisioning List Option Char
open SignRequest (transaction)

/-! ## Ids -/

variable {D : Device}

variable {id id' : List UInt8} {s s' : State} {tx : Transaction}

/-- A signer and the node that both make something of a string make the same of it. -/
theorem readId_eq_of_addressBytes {signer : Signer} {s : String}
    (hread : D.readId signer s = some id) (hnode : addressBytes s = some id') : id' = id := by
  have h64 := (addressBytes_eq_some_iff.1 hnode).1
  have hexact : addressBytes s = some id := by
    cases hp : D.platform with
    | android =>
      simp only [Device.readId, hp] at hread
      refine (Android.readId_exact_iff hread).2 ?_
      cases signer with
      | tokenMint | tokenTransfer =>
        obtain ⟨bs, hbs, -⟩ := map_eq_some_iff.1 hread
        rwa [Android.strip_eq_of_hexToBytes hbs] at h64
      | walletTransfer =>
        by_contra hne
        rw [(Android.readId_eq_none_iff .walletTransfer s).2 hne] at hread
        simp at hread
      | assetLaunch => exact h64
    | ios =>
      simp only [Device.readId, hp] at hread
      exact (Ios.readId_exact_iff hread).2 h64
  exact some.inj (hnode.symm.trans hexact)

theorem toLower_toNat (c : Char) :
    c.toLower.toNat = if 65 ≤ c.toNat ∧ c.toNat ≤ 90 then c.toNat + 32 else c.toNat := by
  have hupper : (c.val ≥ 'A'.val ∧ c.val ≤ 'Z'.val) ↔ 65 ≤ c.val.toNat ∧ c.val.toNat ≤ 90 :=
    and_congr UInt32.le_iff_toNat_le UInt32.le_iff_toNat_le
  unfold toLower Char.toNat
  split
  · rename_i h
    have hrange := hupper.1 h
    rw [if_pos hrange]
    rw [UInt32.toNat_add]
    exact Nat.mod_eq_of_lt (show c.val.toNat + 32 < 2 ^ 32 by omega)
  · rename_i h
    rw [if_neg (mt hupper.2 h)]

theorem hexValue_toLower (c : Char) : hexValue c.toLower = hexValue c := by
  unfold hexValue
  rw [toLower_toNat]
  grind

theorem hexBytes_map_toLower : ∀ cs : List Char, hexBytes (cs.map toLower) = hexBytes cs
  | [] => rfl
  | [_] => rfl
  | a :: b :: cs => by
    simp only [map_cons, hexBytes, hexValue_toLower, hexBytes_map_toLower cs]

theorem eq_of_toLower_eq_x {c : Char} (h : c.toLower = 'x') : c = 'x' ∨ c = 'X' := by
  have hnat : c.toLower.toNat = 120 := by rw [h]; rfl
  rw [toLower_toNat] at hnat
  split at hnat
  · right
    exact toNat_inj.1 (show c.toNat = 88 by omega)
  · left
    exact toNat_inj.1 hnat

/-- `hexToBytes` takes no `0X` either, so lower case adds no prefix. -/
theorem strip_map_toLower {cs : List Char} {bs : List UInt8} (h : Android.hexToBytes cs = some bs) :
    stripHexPrefix (cs.map toLower) = cs.map toLower := by
  unfold stripHexPrefix
  split
  · rename_i rest heq
    obtain ⟨a, as, rfl, ha, has⟩ := map_eq_cons_iff.1 heq
    obtain ⟨b, bs', rfl, hb, -⟩ := map_eq_cons_iff.1 has
    have hb' : Android.characterDigit b = none := by
      rcases eq_of_toLower_eq_x hb with rfl | rfl
      · decide
      · decide
    have hchunk : Android.toInt16 [a, b] = none := by
      simp [Android.toInt16, hb']
    have hnone : Android.hexToBytes (a :: b :: bs') = none :=
      Android.mapBytes_eq_none_iff.2 ⟨[a, b], by simp [Android.chunked], hchunk⟩
    cases h.symm.trans hnone
  · rfl

/-- The token that Android asks for is the token that it signs for. -/
theorem readId_eq_of_addressBytes_lowercase {s : String} (hp : D.platform = .android)
    (hread : D.readId .tokenTransfer s = some id) (hnode : addressBytes (lowercase s) = some id') :
    id' = id := by
  have hread' := hread
  simp only [Device.readId, hp] at hread'
  obtain ⟨bs, hbs, -⟩ := map_eq_some_iff.1 hread'
  have hsame : addressBytes (lowercase s) = addressBytes s := by
    unfold addressBytes lowercase
    rw [String.toList_ofList, strip_map_toLower hbs, Android.strip_eq_of_hexToBytes hbs,
      length_map, hexBytes_map_toLower]
  rw [hsame] at hnode
  exact readId_eq_of_addressBytes hread hnode

/-! ## The property and the condition -/

/-- Signed transactions carry a nonce of their own sender, and posted transactions of one sender
    differ in their nonces, unless the earlier post failed. -/
structure State.NoncesOk (s : State) : Prop where
  own : ∀ tx ∈ s.signed, tx.nonce.askedFor = some tx.key
  distinct : s.posted.Pairwise fun p q =>
    p.tx.key = q.tx.key → p.failed = false → p.tx.nonce.value ≠ q.tx.nonce.value

/-- The request names the sender whose transaction it leads to. -/
def Request.namesSender (D : Device) : Request → Bool
  | .transferSov r => addressBytes r.tokenId = some D.sov
  | .transferTokenFromWallet _ => true
  | .transferToken r =>
    D.platform = .android || (r.nonce.isNone &&
      D.identity.all fun identity => addressBytes r.senderForNonce = some identity.keyId)
  | .registerDomain _ => true

/-- No transaction of the same sender was posted since the nonce was obtained. -/
def State.stillFree (s : State) (tx : Transaction) : Bool :=
  (s.posted.drop tx.nonce.postsBefore).all fun p => p.failed || p.tx.key ≠ tx.key

def condition (D : Device) : Cond (machine D) where
  op _ _
    | .begin r => r.namesSender D
  call _ s
    | .tokenRegistry, .ok tokens =>
      (resolveSov tokens).all fun t => addressBytes t.tokenId = some D.sov
    | .post _ tx, _ => State.stillFree s tx
    | _, _ => true

/-! ## The outline -/

/-- `n` was reported for `key`, and is larger than all nonces of `key` posted before. -/
structure State.Obtained (s : State) (n : Nonce) (key : List UInt8 × List UInt8) : Prop where
  askedFor : n.askedFor = some key
  le_count : n.value ≤ s.count key
  postsBefore : n.postsBefore ≤ s.posted.length
  fresh : ∀ p ∈ s.posted.take n.postsBefore, p.tx.key = key → p.failed = false →
    p.tx.nonce.value < n.value

/-- The node counts every post that did not fail. -/
structure State.Inv (s : State) : Prop extends State.NoncesOk s where
  counted : ∀ p ∈ s.posted, p.failed = false → p.tx.nonce.value < s.count p.tx.key

def State.Grows (s s' : State) : Prop := s.accepted <+: s'.accepted ∧ s.posted <+: s'.posted

theorem State.Grows.refl (s : State) : s.Grows s := ⟨prefix_rfl, prefix_rfl⟩

theorem State.Grows.trans {s1 s2 s3 : State} (h : s1.Grows s2) (h' : s2.Grows s3) : s1.Grows s3 :=
  ⟨h.1.trans h'.1, h.2.trans h'.2⟩

theorem State.Grows.count_le (h : s.Grows s') (key : List UInt8 × List UInt8) :
    s.count key ≤ s'.count key := h.1.sublist.countP_le

theorem State.Obtained.mono {n : Nonce} {key : List UInt8 × List UInt8} (h : s.Obtained n key)
    (hg : s.Grows s') : s'.Obtained n key := by
  refine ⟨h.askedFor, h.le_count.trans (hg.count_le key), ?_, ?_⟩
  · exact h.postsBefore.trans hg.2.length_le
  obtain ⟨rest, hrest⟩ := hg.2
  rw [← hrest, take_append_of_le_length h.postsBefore]
  exact h.fresh

def spec (D : Device) : Spec (machine D) where
  Inv := State.Inv
  Rely _ := State.Grows
  OpPre _ _ _ := True
  CallPre _ s
    | .sign r => ∀ tx, r.transaction D = some tx → tx.nonce.askedFor = some tx.key
    | .post _ tx => State.Obtained s tx.nonce tx.key
    | _ => True
  Fin _ _ := True

/-! ## Posting -/

theorem State.Inv.sign (h : s.Inv) (htx : tx.nonce.askedFor = some tx.key) :
    State.Inv { s with signed := s.signed ++ [tx] } := by
  refine ⟨⟨?_, h.distinct⟩, h.counted⟩
  intro tx' htx'
  rcases mem_append.1 htx' with h' | h'
  · exact h.own tx' h'
  · rw [mem_singleton.1 h']
    exact htx

theorem State.grows_accept (s : State) (tx : Transaction) : s.Grows (s.accept tx) :=
  ⟨prefix_append _ _, prefix_rfl⟩

theorem State.grows_post (s : State) (tx : Transaction) (failed : Bool) :
    s.Grows (s.post tx failed) :=
  ⟨prefix_rfl, prefix_append _ _⟩

theorem State.Inv.accept (h : s.Inv) (tx : Transaction) : (s.accept tx).Inv :=
  ⟨⟨h.own, h.distinct⟩, fun p hp hf =>
    (h.counted p hp hf).trans_le ((s.grows_accept tx).count_le p.tx.key)⟩

theorem State.count_accept (s : State) (tx : Transaction) :
    (s.accept tx).count tx.key = s.count tx.key + 1 := by
  simp [State.count, State.accept]

/-- All transactions of the sender that were posted without failing have smaller nonces. -/
theorem State.Obtained.fresh_of_stillFree (h : s.Obtained tx.nonce tx.key)
    (hfree : s.stillFree tx = true) :
    ∀ p ∈ s.posted, p.tx.key = tx.key → p.failed = false → p.tx.nonce.value < tx.nonce.value := by
  intro p hp hkey hfailed
  rw [← take_append_drop tx.nonce.postsBefore s.posted] at hp
  rcases mem_append.1 hp with hp | hp
  · exact h.fresh p hp hkey hfailed
  · have hfree' := all_eq_true.1 hfree p hp
    simp [hfailed, hkey] at hfree'

theorem State.Inv.post {failed : Bool} (h : s.Inv)
    (hfresh : ∀ p ∈ s.posted, p.tx.key = tx.key → p.failed = false →
      p.tx.nonce.value < tx.nonce.value)
    (hcount : failed = false → tx.nonce.value < s.count tx.key) :
    (s.post tx failed).Inv := by
  refine ⟨⟨h.own, ?_⟩, ?_⟩
  · refine pairwise_append.2 ⟨h.distinct, pairwise_singleton _ _, ?_⟩
    intro p hp q hq hkey hfailed
    rw [mem_singleton.1 hq] at hkey ⊢
    exact (hfresh p hp hkey hfailed).ne
  · intro p hp hfailed
    rcases mem_append.1 hp with hp | hp
    · exact h.counted p hp hfailed
    · rw [mem_singleton.1 hp] at hfailed ⊢
      exact hcount hfailed

/-! ## What a performed call does -/

section Perform

variable {r : Reply} {s s' : State}

theorem perform_signDomainRegister {req : RegisterRequest} {o}
    (h : Call.perform D (.signDomainRegister req) r s = some (s', o)) : s' = s := by
  cases r <;> simp [Call.perform] at h
  · exact h.1.symm
  · exact h.1.symm

theorem perform_nonce {tokenId address : String} {o}
    (h : Call.perform D (.nonce tokenId address) r s = some (s', o)) :
    s' = s ∧ ∀ n, o = .ok n → s.nonceFor tokenId address = some n := by
  cases r <;> simp [Call.perform] at h
  · obtain ⟨n, hn, rfl, rfl⟩ := h
    exact ⟨rfl, fun n' hn' => by rw [hn, Except.ok.inj hn']⟩
  · obtain ⟨rfl, rfl⟩ := h
    exact ⟨rfl, fun _ hn => by simp at hn⟩

theorem perform_latestIdentity {o} (h : Call.perform D .latestIdentity r s = some (s', o)) :
    s' = s ∧ ∀ identity, o = .ok identity → D.identity = some identity := by
  cases r <;> simp [Call.perform] at h
  · obtain ⟨n, hn, rfl, rfl⟩ := h
    exact ⟨rfl, fun n' hn' => by rw [hn, Except.ok.inj hn']⟩
  · obtain ⟨rfl, rfl⟩ := h
    exact ⟨rfl, fun _ hn => by simp at hn⟩

theorem perform_sign {req : SignRequest} {o} (h : Call.perform D (.sign req) r s = some (s', o)) :
    (∃ tx, req.transaction D = some tx ∧ s' = { s with signed := s.signed ++ [tx] } ∧ o = .ok tx) ∨
      (s' = s ∧ ∀ tx, o ≠ .ok tx) := by
  cases r <;> simp [Call.perform] at h
  · obtain ⟨tx, htx, rfl, rfl⟩ := h
    exact .inl ⟨tx, htx, rfl, rfl⟩
  · obtain ⟨rfl, rfl⟩ := h
    exact .inr ⟨rfl, by simp⟩

theorem perform_post {path : String} {tx : Transaction} {o}
    (h : Call.perform D (.post path tx) r s = some (s', o)) :
    s' = (s.accept tx).post tx false ∨ s' = s.post tx true ∨ s' = (s.accept tx).post tx true := by
  cases r <;> simp [Call.perform] at h
  · exact .inl h.1.symm
  · exact .inr (.inl h.1.symm)
  · exact .inr (.inr h.1.symm)

end Perform

/-- A post keeps the invariant while the nonce is still free. -/
theorem State.Inv.perform_post (h : s.Inv) (hobtained : s.Obtained tx.nonce tx.key)
    (hfree : s.stillFree tx = true) (hs' : s' = (s.accept tx).post tx false ∨ s' = s.post tx true ∨
      s' = (s.accept tx).post tx true) : s'.Inv ∧ s.Grows s' := by
  have hfresh := hobtained.fresh_of_stillFree hfree
  have hcount : tx.nonce.value < (s.accept tx).count tx.key := by
    rw [State.count_accept]
    exact Nat.lt_succ_of_le hobtained.le_count
  have haccept := s.grows_accept tx
  rcases hs' with rfl | rfl | rfl
  · exact ⟨(h.accept tx).post hfresh fun _ => hcount, haccept.trans (State.grows_post _ _ _)⟩
  · exact ⟨h.post hfresh fun hf => by simp at hf, State.grows_post _ _ _⟩
  · exact ⟨(h.accept tx).post hfresh fun _ => hcount, haccept.trans (State.grows_post _ _ _)⟩

theorem spec_sound : (spec D).Sound (condition D) where
  refl _ s := State.Grows.refl s
  trans _ _ _ _ h h' := State.Grows.trans h h'
  op _ s _ hi _ _ := ⟨hi, fun _ _ => State.Grows.refl s⟩
  fin _ _ _ _ _ _ := trivial
  call i s c r s' o hi hpre hp hc := by
    suffices h : State.Inv s' ∧ State.Grows s s' from ⟨h.1, fun _ _ => h.2⟩
    -- most calls leave the state alone
    have hsame : s' = s → State.Inv s' ∧ State.Grows s s' := by
      rintro rfl
      exact ⟨hi, State.Grows.refl _⟩
    cases c with
    | tokenRegistry => exact hsame (perform_tokenRegistry D hp)
    | nonce tokenId address => exact hsame (perform_nonce (D := D) hp).1
    | latestIdentity => exact hsame (perform_latestIdentity hp).1
    | sign req =>
      rcases perform_sign hp with ⟨tx, htx, rfl, -⟩ | ⟨rfl, -⟩
      · exact ⟨State.Inv.sign hi (hpre tx htx), prefix_rfl, prefix_rfl⟩
      · exact hsame rfl
    | signDomainRegister req => exact hsame (perform_signDomainRegister (D := D) hp)
    | post path tx => exact State.Inv.perform_post hi hpre hc (perform_post (D := D) hp)

/-! ## What the signers sign -/

section Sign

variable {tokenId fromWalletId toWalletId amount : String} {chainId : Option JsNumber} {n : Nonce}
  {tx : Transaction} {token sender : List UInt8}

theorem tokenTransfer_key {identity : Identity} (hid : D.identity = some identity)
    (htx : (SignRequest.tokenTransfer tokenId toWalletId amount n).transaction D = some tx)
    (htoken : ∀ id, D.readId .tokenTransfer tokenId = some id → token = id) :
    tx.nonce = n ∧ tx.key = (token, identity.keyId) := by
  simp only [transaction, hid] at htx
  split at htx
  · rename_i identity' id recipient heq hread _
    cases heq
    cases htx
    rw [htoken id hread]
    exact ⟨rfl, rfl⟩
  · simp at htx

theorem sovWalletTransfer_key
    (htx : (SignRequest.sovWalletTransfer fromWalletId toWalletId amount n).transaction D = some tx)
    (hsender : addressBytes fromWalletId = some sender) :
    tx.nonce = n ∧ tx.key = (D.sov, sender) := by
  simp only [transaction] at htx
  split at htx
  · rename_i id recipient _ hread _
    cases htx
    rw [readId_eq_of_addressBytes hread hsender]
    exact ⟨rfl, rfl⟩
  · simp at htx

theorem tokenWalletTransfer_key
    (htx : (SignRequest.tokenWalletTransfer tokenId fromWalletId toWalletId amount chainId
      n).transaction D = some tx)
    (htoken : addressBytes tokenId = some token) (hsender : addressBytes fromWalletId = some sender) :
    tx.nonce = n ∧ tx.key = (token, sender) := by
  simp only [transaction] at htx
  split at htx
  · rename_i tokenRead senderRead recipient _ hread1 hread2 _
    cases htx
    rw [readId_eq_of_addressBytes hread1 htoken, readId_eq_of_addressBytes hread2 hsender]
    exact ⟨rfl, rfl⟩
  · simp at htx

theorem domainFeePayment_key
    (htx : (SignRequest.domainFeePayment fromWalletId amount chainId n).transaction D = some tx)
    (hsender : addressBytes fromWalletId = some sender) :
    tx.nonce = n ∧ tx.key = (D.sov, sender) := by
  simp only [transaction] at htx
  split at htx
  · rename_i id _ hread
    cases htx
    rw [readId_eq_of_addressBytes hread hsender]
    exact ⟨rfl, rfl⟩
  · simp at htx

end Sign

/-! ## The programs meet the outline -/

/-- Nothing is promised about an exception. -/
def onOk {α : Type} (P : α → State → Prop) : Except String α → State → Prop :=
  fun r s => ∀ a, r = .ok a → P a s

section Programs

variable {i : Nat} {s : State} {α β : Type}

theorem wp_bind {m : Prog D α} {f : α → Prog D β} {P : α → State → Prop} {Q : β → State → Prop}
    (hm : (spec D).Wp (condition D) i m (onOk P) s)
    (hf : ∀ a s', State.Inv s' → P a s' → (spec D).Wp (condition D) i (f a) (onOk Q) s') :
    (spec D).Wp (condition D) i (m >>= f) (onOk Q) s :=
  .bind hm (fun a s' hi ha => hf a s' hi (ha a rfl)) fun e _ _ _ b hb => by simp at hb

theorem wp_ofOption (hi : s.Inv) (message : String) (o : Option α) :
    (spec D).Wp (condition D) i (ofOption message o) (onOk fun a s' => s' = s ∧ o = some a) s := by
  cases o with
  | none => exact .throw hi fun a h => by simp at h
  | some a => exact .pure hi fun a' h => ⟨rfl, by rw [Except.ok.inj h]⟩

theorem wp_begin (r : Request) :
    (spec D).Wp (condition D) i (begin r) (onOk fun _ _ => r.namesSender D = true) s :=
  .op fun hc => ⟨trivial, fun _ _ _ => hc⟩

variable {tokenId : String} {n : Nonce}

/-- What the node reports is larger than every nonce that was posted and did not fail. -/
theorem State.Inv.obtained {address : String} (h : s.Inv)
    (hn : s.nonceFor tokenId address = some n) :

    ∃ token sender, addressBytes tokenId = some token ∧ addressBytes address = some sender ∧
      s.Obtained n (token, sender) := by
  unfold State.nonceFor at hn
  split at hn
  · rename_i token sender htoken hsender
    cases hn
    refine ⟨token, sender, htoken, hsender, rfl, le_rfl, le_rfl, ?_⟩
    intro p hp hkey hfailed
    rw [← hkey]
    exact h.counted p (mem_of_mem_take hp) hfailed
  · simp at hn

theorem wp_getTokenNonce (tokenId address : String) :
    (spec D).Wp (condition D) i (getTokenNonce tokenId address) (onOk fun n s' =>
      ∃ token sender, addressBytes tokenId = some token ∧ addressBytes address = some sender ∧
        s'.Obtained n (token, sender)) s := by
  refine .await fun s1 _ _ => ⟨trivial, ?_⟩
  intro r s2 o hp _ hi2 s3 hr3 _ n hn
  obtain ⟨rfl, hnonce⟩ := perform_nonce (D := D) hp
  obtain ⟨token, sender, htoken, hsender, hobtained⟩ := State.Inv.obtained hi2 (hnonce n hn)
  exact ⟨token, sender, htoken, hsender, hobtained.mono hr3⟩

theorem wp_sign {req : SignRequest} {key : List UInt8 × List UInt8} (hn : s.Obtained n key)
    (hreq : ∀ tx, req.transaction D = some tx → tx.nonce = n ∧ tx.key = key) :
    (spec D).Wp (condition D) i (sign req) (onOk fun tx s' => s'.Obtained tx.nonce tx.key) s := by
  refine .await fun s1 hr1 _ => ⟨?_, ?_⟩
  · intro tx htx
    obtain ⟨hnonce, hkey⟩ := hreq tx htx
    rw [hnonce, hkey]
    exact hn.askedFor
  intro r s2 o hp _ _ s3 hr3 _ tx htx
  rcases perform_sign hp with ⟨tx', htx', rfl, rfl⟩ | ⟨rfl, hne⟩
  · cases htx
    obtain ⟨hnonce, hkey⟩ := hreq tx htx'
    rw [hnonce, hkey]
    have hgrows : State.Grows s1 { s1 with signed := s1.signed ++ [tx] } :=
      ⟨prefix_rfl, prefix_rfl⟩
    exact hn.mono (State.Grows.trans hr1 (hgrows.trans hr3))
  · exact absurd htx (hne tx)

theorem wp_quicPost {tx : Transaction} (path : String) (hn : s.Obtained tx.nonce tx.key) :
    (spec D).Wp (condition D) i (quicPost path tx) (onOk fun _ _ => True) s :=
  .await fun _ hr1 _ => ⟨hn.mono hr1, fun _ _ _ _ _ _ _ _ _ _ _ => trivial⟩

theorem wp_transferSov (r : SovTransferRequest) :
    (spec D).Wp (condition D) i (transferSov r) (onOk fun _ _ => True) s := by
  refine wp_bind (wp_begin _) fun _ s1 hi1 hnames => ?_
  have hsov : addressBytes r.tokenId = some D.sov := of_decide_eq_true hnames
  refine wp_bind (wp_getTokenNonce _ _) fun n s2 hi2 ⟨token, sender, htoken, hsender, hn⟩ => ?_
  obtain rfl : token = D.sov := some.inj (htoken.symm.trans hsov)
  refine wp_bind (wp_ofOption hi2 _ _) fun amount s3 hi3 ⟨hsame, _⟩ => ?_
  subst hsame
  refine wp_bind (wp_sign hn fun tx htx => sovWalletTransfer_key htx hsender) ?_
  exact fun tx s4 _ htx => wp_quicPost _ htx

theorem wp_transferTokenFromWallet (r : WalletTransferRequest) :
    (spec D).Wp (condition D) i (transferTokenFromWallet r) (onOk fun _ _ => True) s := by
  refine wp_bind (wp_begin _) fun _ s1 hi1 _ => ?_
  refine wp_bind (wp_getTokenNonce _ _) fun n s2 hi2 ⟨token, sender, htoken, hsender, hn⟩ => ?_
  refine wp_bind (wp_ofOption hi2 _ _) fun amount s3 hi3 ⟨hsame, _⟩ => ?_
  subst hsame
  refine wp_bind (wp_sign hn fun tx htx => tokenWalletTransfer_key htx htoken hsender) ?_
  exact fun tx s4 _ htx => wp_quicPost _ htx

/-- Android asks for the address of the identity that signs. -/
theorem wp_signTokenTransfer_android (hp : D.platform = .android)
    (tokenId toAddress amount : String) (n : Nonce) :
    (spec D).Wp (condition D) i (signTokenTransferTransaction tokenId toAddress amount n)
      (onOk fun tx s' => s'.Obtained tx.nonce tx.key) s := by
  unfold signTokenTransferTransaction
  rewrite [hp]
  refine wp_bind (P := fun identity _ => D.identity = some identity) ?_ fun identity s1 _ hid => ?_
  · refine .await fun s1 _ _ => ⟨trivial, ?_⟩
    intro r s2 o hp _ _ s3 _ _ identity hidentity
    exact (perform_latestIdentity hp).2 identity hidentity
  refine wp_bind (wp_getTokenNonce _ _) fun own s2 hi2 ⟨token, sender, htoken, hsender, hn⟩ => ?_
  obtain rfl : sender = identity.keyId :=
    some.inj (hsender.symm.trans identity.addressBytes_did)
  exact wp_sign hn fun tx htx => tokenTransfer_key hid htx fun id hread =>
    readId_eq_of_addressBytes_lowercase hp hread htoken

/-- iOS signs with the nonce that it is given. -/
theorem wp_signTokenTransfer_ios (hp : D.platform = .ios) (toAddress amount : String)
    {token sender : List UInt8} (hn : s.Obtained n (token, sender))
    (htoken : addressBytes tokenId = some token)
    (hsender : ∀ identity, D.identity = some identity → sender = identity.keyId) :
    (spec D).Wp (condition D) i (signTokenTransferTransaction tokenId toAddress amount n)
      (onOk fun tx s' => s'.Obtained tx.nonce tx.key) s := by
  unfold signTokenTransferTransaction
  rewrite [hp]
  refine wp_sign hn fun tx htx => ?_
  cases hid : D.identity with
  | none =>
    simp only [transaction, hid] at htx
    simp at htx
  | some identity =>
    rw [hsender identity hid]
    exact tokenTransfer_key hid htx fun id hread => readId_eq_of_addressBytes hread htoken

theorem wp_transferNonce_ios {r : TokenTransferRequest} (hnone : r.nonce = none) :
    (spec D).Wp (condition D) i (transferNonce r) (onOk fun n s' =>
      ∃ token sender, addressBytes r.tokenId = some token ∧
        addressBytes r.senderForNonce = some sender ∧ s'.Obtained n (token, sender)) s := by
  unfold transferNonce
  rewrite [hnone]
  exact wp_getTokenNonce _ _

theorem wp_transferNonce (hi : s.Inv) (r : TokenTransferRequest) :
    (spec D).Wp (condition D) i (transferNonce r) (onOk fun _ _ => True) s := by
  unfold transferNonce
  split
  · exact .pure hi fun _ _ => trivial
  · exact (wp_getTokenNonce _ _).mono fun _ _ _ _ _ _ => trivial

theorem wp_transferToken (r : TokenTransferRequest) :
    (spec D).Wp (condition D) i (transferToken r) (onOk fun _ _ => True) s := by
  refine wp_bind (wp_begin _) fun _ s1 hi1 hnames => ?_
  cases hp : D.platform with
  | android =>
    refine wp_bind (wp_transferNonce hi1 r) fun n s2 hi2 _ => ?_
    refine wp_bind (wp_ofOption hi2 _ _) fun amount s3 _ _ => ?_
    refine wp_bind (wp_signTokenTransfer_android hp _ _ _ _) ?_
    exact fun tx s4 _ htx => wp_quicPost _ htx
  | ios =>
    simp only [Request.namesSender, hp, Bool.or_eq_true, Bool.and_eq_true] at hnames
    obtain ⟨hnone, hid⟩ := hnames.resolve_left (by decide)
    rw [isNone_iff_eq_none] at hnone
    refine wp_bind (wp_transferNonce_ios hnone) fun n s2 hi2 ⟨token, sender, htoken, hsender, hn⟩ => ?_
    refine wp_bind (wp_ofOption hi2 _ _) fun amount s3 _ ⟨hsame, _⟩ => ?_
    subst hsame
    refine wp_bind (wp_signTokenTransfer_ios hp _ _ hn htoken fun identity hidentity => ?_) ?_
    · rw [hidentity, all_some, decide_eq_true_iff, hsender] at hid
      exact some.inj hid
    · exact fun tx s4 _ htx => wp_quicPost _ htx

theorem wp_tokenRegistry :
    (spec D).Wp (condition D) i (Async.await (M := machine D) .tokenRegistry) (onOk fun tokens _ =>
      ∀ t, resolveSov tokens = some t → addressBytes t.tokenId = some D.sov) s := by
  refine .await fun s1 _ _ => ⟨trivial, ?_⟩
  intro r s2 o _ hc _ s3 _ _ tokens htokens t ht
  subst htokens
  simpa [condition, ht] using hc

/-- The registration is signed after the fee payment, whose nonce has to stay good meanwhile. -/
theorem wp_signDomainRegister (req : RegisterRequest) :
    (spec D).Wp (condition D) i (Async.await (M := machine D) (.signDomainRegister req))
      (onOk fun _ s' => s.Grows s') s := by
  refine .await fun s1 hr1 _ => ⟨trivial, ?_⟩
  intro r s2 o hp _ _ s3 hr3 _ _ _
  obtain rfl := perform_signDomainRegister (D := D) hp
  exact State.Grows.trans hr1 hr3

theorem wp_registerDomain (r : DomainRegisterRequest) :
    (spec D).Wp (condition D) i (registerDomain r) (onOk fun _ _ => True) s := by
  refine wp_bind (wp_begin _) fun _ s0 hi0 _ => ?_
  refine wp_bind (wp_ofOption hi0 _ _) fun primaryWalletIdHex s1 hi1 _ => ?_
  refine wp_bind (wp_ofOption hi1 _ _) fun assetId s2 _ _ => ?_
  refine wp_bind wp_tokenRegistry fun registry s3 hi3 hsov => ?_
  refine wp_bind (wp_ofOption hi3 _ _) fun sovToken s4 _ ⟨_, htoken⟩ => ?_
  have hid := hsov sovToken (filter_eq_some_iff.1 htoken).1
  refine wp_bind (wp_getTokenNonce _ _) fun n s5 hi5 ⟨token, sender, htoken, hsender, hn⟩ => ?_
  obtain rfl : token = D.sov := some.inj (htoken.symm.trans hid)
  refine wp_bind (wp_sign hn fun tx htx => domainFeePayment_key htx hsender) ?_
  intro tx s6 _ htx
  refine wp_bind (wp_signDomainRegister _) fun sig s7 hi7 hgrows => ?_
  refine wp_bind (wp_ofOption hi7 _ _) fun _ s8 _ ⟨hsame, _⟩ => ?_
  subst hsame
  exact wp_quicPost _ (htx.mono hgrows)

theorem safe_prog (r : Request) : (spec D).Safe (condition D) i (prog r) s := by
  have hwp : (spec D).Wp (condition D) i (run r) (onOk fun _ _ => True) s := by
    cases r with
    | transferSov r => exact wp_transferSov r
    | transferTokenFromWallet r => exact wp_transferTokenFromWallet r
    | transferToken r => exact wp_transferToken r
    | registerDomain r => exact wp_registerDomain r
  exact hwp.toTask fun _ _ _ _ => trivial

end Programs

/-! ## Every run -/

/-- In every run whose requests name their senders and whose posts find their nonces still free, the
    nonces are the senders' own and differ. -/
theorem nonces_ok_of_reach (D : Device) {w : Sys (machine D)}
    (h : Reach (condition D) prog State.Launched w) : State.NoncesOk w.state := by
  refine (spec_sound.reach ?_ (fun _ _ _ => trivial) (fun r i s _ _ => safe_prog r) h).inv.toNoncesOk
  rintro s ⟨hsigned, hposted⟩
  refine ⟨⟨?_, ?_⟩, ?_⟩
  · simp [hsigned]
  · simp [hposted]
  · simp [hposted]

/-! ### Two payments -/

def hexOf (c : Char) : String := String.ofList (List.replicate 64 c)

def phone : Device where
  platform := .ios
  identity := some ⟨"did:zhtp:" ++ hexOf 'd', List.replicate 32 0xDD, by decide +kernel⟩
  sov := List.replicate 32 0x11
  treasury := List.replicate 32 0x22

def emptyChain : State := ⟨[], [], []⟩

def payment : Request := .transferSov ⟨hexOf 'a', hexOf 'b', .string "5", hexOf '1'⟩

/-- Fetch, sign and post. -/
def steps (i : Nat) : List (Move (machine phone) Request) :=
  [.perform i .ok, .resume i, .perform i .ok, .resume i, .perform i .ok, .resume i]

theorem nonces_ok_one_after_the_other :
    ∃ w : Sys (machine phone),
      (Sys.idle emptyChain).run (condition phone) prog
        (.start payment :: steps 0 ++ .start payment :: steps 1) = some w ∧
      w.state.posted.map (fun p => p.tx.nonce.value) = [0, 1] ∧ State.NoncesOk w.state := by
  have hw : ((Sys.idle emptyChain).run (condition phone) prog
      (.start payment :: steps 0 ++ .start payment :: steps 1)).map
      (fun w => w.state.posted.map fun p => p.tx.nonce.value) = some [0, 1] := by decide +kernel
  obtain ⟨w, hrun, hobs⟩ := map_eq_some_iff.1 hw
  exact ⟨w, hrun, hobs, nonces_ok_of_reach phone (.of_run ⟨rfl, rfl⟩ hrun)⟩

/-- Both payments have fetched before one of them is posted; the node turns the second away. -/
def overlapping : List (Move (machine phone) Request) :=
  [.start payment, .start payment, .perform 0 .ok, .perform 1 .ok, .resume 0, .resume 1,
   .perform 0 .ok, .perform 1 .ok, .resume 0, .resume 1, .perform 0 .ok,
   .perform 1 (.fail "nonce already used")]

/-- A token transfer without `from`. -/
def withoutFrom : Request :=
  .transferToken ⟨hexOf '3', none, "did:zhtp:" ++ hexOf 'b', .string "5", none⟩

theorem nonces_not_ok :
    (∃ w : Sys (machine phone), Reach Cond.any prog State.Launched w ∧
      ¬ w.state.posted.Pairwise fun p q =>
        p.tx.key = q.tx.key → p.failed = false → p.tx.nonce.value ≠ q.tx.nonce.value) ∧
    ∃ w : Sys (machine phone), Reach Cond.any prog State.Launched w ∧
      ¬ ∀ tx ∈ w.state.signed, tx.nonce.askedFor = some tx.key := by
  have hposted : ((Sys.idle emptyChain).run Cond.any prog overlapping).map
      (fun w => decide (w.state.posted.Pairwise fun p q =>
        p.tx.key = q.tx.key → p.failed = false → p.tx.nonce.value ≠ q.tx.nonce.value)) =
      some false := by decide +kernel
  have hsigned : ((Sys.idle (M := machine phone) emptyChain).run Cond.any prog
      [.start withoutFrom, .perform 0 .ok, .resume 0, .perform 0 .ok]).map
      (fun w => decide (∀ tx ∈ w.state.signed, tx.nonce.askedFor = some tx.key)) =
      some false := by decide +kernel
  obtain ⟨w, hrun, hobs⟩ := map_eq_some_iff.1 hposted
  obtain ⟨w', hrun', hobs'⟩ := map_eq_some_iff.1 hsigned
  exact ⟨⟨w, .of_run ⟨rfl, rfl⟩ hrun, of_decide_eq_false hobs⟩,
    ⟨w', .of_run ⟨rfl, rfl⟩ hrun', of_decide_eq_false hobs'⟩⟩

end Payments
