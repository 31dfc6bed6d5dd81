import SovereignMobile.Pouw.ReceiptSigners

/-! # Receipts that are signed by the identity they name

Neither flush compares the DID of a pending receipt with the identity that signs it. The two agree in the
runs in which the identity does not change under a receipt that is pending. -/

namespace ReceiptSigners

open NativeIdentityProvisioning (Did LibClient)
open EventLoop List Option
open NativeIdentityProvisioning (plainClient)
open NativeIdentityProvisioning.Ios (getLatestIdentity_fst getLatestIdentity_snd restore_store)

/-- Each receipt of the batch names its signer, as does the batch. -/
def Batch.Agrees (b : Batch) : Prop :=
  ∀ r ∈ b.receipts, r.client_did = r.signer ∧ r.client_did = b.client_did

instance (b : Batch) : Decidable b.Agrees :=
  inferInstanceAs (Decidable (∀ r ∈ b.receipts, _ ∧ _))

variable {Identity Json : Type}

/-! ## iOS -/

namespace Ios

/-- Batches agree, and are carried by a session of the identity that their receipts name. -/
structure Device.SignedByNamed (s : Device Identity Json) : Prop where
  issued : ∀ b ∈ s.issued, b.Agrees
  carried : ∀ x ∈ s.carried, ∀ r ∈ x.1.receipts, r.client_did = x.2

namespace Device

variable (C : LibClient Identity Json) (sign : Identity → RCTPoUW.PoUWReceipt → Option String)
  (P : RCTPoUW.Platform) (s : Device Identity Json)

/-! ### The condition -/

/-- The receipts that a flush would submit. -/
def eligible : List RCTPoUW.PoUWReceipt := s.pouw.pendingReceipts.filter fun r => r.isEligible

def signer : Option Did := s.store.signer C

/-- The identity id of the module, as a session has it. -/
def sessionId : String := normalizeIdentityId (s.pouw.identityId.getD "")

/-- The DID of the identity that a session for the module would be opened with. -/
def sessionDid : Option Did := (materials C s.store s.sessionId).map C.did

/-- No receipt is pending, no batch waits for a session, and none is open for the module. -/
structure Idle : Prop where
  eligible : s.eligible = []
  underWay : s.underWay = []
  sessions : ∀ x ∈ s.sessions, x.1 ≠ s.sessionId

/-- Unless nothing depends on it, the identity that signs stays, and the one of the session. -/
def Steady (store : NativeIdentityProvisioning.Ios.State Identity Json) : Prop :=
  s.Idle ∨ store.signer C = s.signer C ∧ (materials C store s.sessionId).map C.did = s.sessionDid C

/-- The identity is not switched under receipts, batches and sessions; content is verified once the module
    has loaded the identity that signs; and a flush finds that loaded, and its session is of that
    identity. -/
def Allows (s : Device Identity Json) : Event Identity → Prop
  | .identity c => s.Steady C (s.store.step C c)
  | .readIdentity => s.loading = .started → s.Steady C (s.store.getLatestIdentity C).2
  | .handshake identityId _ => s.Steady C (loadIdentityForHandshake C s.store identityId)
  | .relaunch => s.eligible = [] ∨ s.relaunchedStore.signer C = s.signer C
  | .verifyContent q => RCTPoUW.minVerifiedBytes ≤ q.bytesData.length →
      s.pouw.clientDid ≠ none ∧ s.pouw.clientDid = s.signer C
  | .flush _ => s.eligible ≠ [] → s.pouw.clientDid ≠ none ∧ s.sessionDid C = s.signer C ∧
      s.Steady C (s.store.getLatestIdentity C).2
  | _ => True

/-! ### The invariant -/

structure Inv : Prop extends s.SignedByNamed where
  consistent : RCTPoUW.Consistent s.pouw
  pending : ∀ r ∈ s.eligible, some r.clientDid = s.signer C
  loaded : s.eligible ≠ [] → ∀ did, s.pouw.clientDid = some did → some did = s.signer C
  read : s.eligible ≠ [] → ∀ did, s.loading = .read (some did) → some did = s.signer C
  done : s.pouw.clientDid ≠ none → s.loading = .done
  sessions : ∀ x ∈ s.sessions, x.1 = s.sessionId → some x.2 = s.sessionDid C
  underWay : ∀ x ∈ s.underWay, normalizeIdentityId x.2.1 = s.sessionId ∧
    ∀ r ∈ x.2.2.receipts, some r.client_did = s.sessionDid C

variable {C} {sign} {P} {s}

theorem installed_inv (store : NativeIdentityProvisioning.Ios.State Identity Json) :
    (installed store).Inv C where
  issued _ h := nomatch h
  carried _ h := nomatch h
  consistent := RCTPoUW.launch_consistent _ _
  pending _ h := nomatch h
  loaded h := absurd rfl h
  read h := absurd rfl h
  done h := absurd rfl h
  sessions _ h := nomatch h
  underWay _ h := nomatch h

theorem Inv.withStore {store : NativeIdentityProvisioning.Ios.State Identity Json} (h : s.Inv C)
    (hsteady : s.Steady C store) : ({ s with store } : Device Identity Json).Inv C := by
  rcases hsteady with hidle | ⟨hsigner, hsession⟩
  · refine ⟨⟨h.issued, h.carried⟩, h.consistent, ?_, ?_, ?_, h.done, ?_, ?_⟩
    · intro r hr
      exact absurd hr (hidle.eligible ▸ not_mem_nil)
    · exact fun hne => absurd hidle.eligible hne
    · exact fun hne => absurd hidle.eligible hne
    · exact fun x hx heq => absurd heq (hidle.sessions x hx)
    · intro x hx
      exact absurd hx (hidle.underWay ▸ not_mem_nil)
  · refine ⟨⟨h.issued, h.carried⟩, h.consistent, ?_, ?_, ?_, h.done, ?_, ?_⟩
    · exact fun r hr => (h.pending r hr).trans hsigner.symm
    · exact fun hne did hdid => (h.loaded hne did hdid).trans hsigner.symm
    · exact fun hne did hdid => (h.read hne did hdid).trans hsigner.symm
    · exact fun x hx heq => (h.sessions x hx heq).trans hsession.symm
    · exact fun x hx => ⟨(h.underWay x hx).1, fun r hr => ((h.underWay x hx).2 r hr).trans hsession.symm⟩

/-- The module keeps its identity id, and what it holds is still of the identity that signs. -/
theorem Inv.withModule {pouw : RCTPoUW.State} {loading : Loading} (h : s.Inv C)
    (hconsistent : RCTPoUW.Consistent pouw) (hid : pouw.identityId = s.pouw.identityId)
    (hpending : ∀ r ∈ pouw.pendingReceipts.filter (fun r => r.isEligible), some r.clientDid = s.signer C)
    (hloaded : pouw.pendingReceipts.filter (fun r => r.isEligible) ≠ [] →
      ∀ did, pouw.clientDid = some did → some did = s.signer C)
    (hread : pouw.pendingReceipts.filter (fun r => r.isEligible) ≠ [] →
      ∀ did, loading = .read (some did) → some did = s.signer C)
    (hdone : pouw.clientDid ≠ none → loading = .done) :
    ({ s with pouw, loading } : Device Identity Json).Inv C := by
  have hsession : ({ s with pouw, loading }).sessionId = s.sessionId := by
    simp only [sessionId, hid]
  refine ⟨⟨h.issued, h.carried⟩, hconsistent, hpending, hloaded, hread, hdone, ?_, ?_⟩
  · intro x hx heq
    have hold := h.sessions x hx (heq.trans hsession)
    simp only [sessionDid, hsession]
    exact hold
  · intro x hx
    obtain ⟨hheader, hdid⟩ := h.underWay x hx
    refine ⟨hheader.trans hsession.symm, ?_⟩
    simp only [sessionDid, hsession]
    exact hdid

/-! ### What the module does -/

theorem dropIneligible_spec (p : RCTPoUW.State) :
    p.dropIneligible.pendingReceipts = p.pendingReceipts.filter (fun r => r.isEligible) ∧
      p.dropIneligible.identityId = p.identityId ∧ p.dropIneligible.clientDid = p.clientDid := by
  unfold RCTPoUW.State.dropIneligible
  dsimp only
  split
  · exact ⟨rfl, rfl, rfl⟩
  · rename_i hlen
    exact ⟨(filter_sublist.eq_of_length (not_not.1 hlen)).symm, rfl, rfl⟩

/-- A flush leaves the eligible receipts where they are. -/
theorem flush_keeps (q : RCTPoUW.FlushCall) (p : RCTPoUW.State) :
    (RCTPoUW.flush q p).1.pendingReceipts.filter (fun r => r.isEligible) =
        p.pendingReceipts.filter (fun r => r.isEligible) ∧
      (RCTPoUW.flush q p).1.identityId = p.identityId ∧
      (RCTPoUW.flush q p).1.clientDid = p.clientDid := by
  obtain ⟨hpending, hid, hdid⟩ := dropIneligible_spec p
  have hfilter : p.dropIneligible.pendingReceipts.filter (fun r => r.isEligible) =
      p.pendingReceipts.filter (fun r => r.isEligible) := by
    rw [hpending]
    simp
  rcases RCTPoUW.flush_cases q with h | h | ⟨request, h⟩
  · rw [h]
    exact ⟨rfl, rfl, rfl⟩
  · rw [h]
    exact ⟨hfilter, hid, hdid⟩
  · rw [h]
    exact ⟨hfilter, hid, hdid⟩

variable {q : RCTPoUW.FlushCall} {request : RCTPoUW.SubmitRequest}

theorem signReceipt_receipt {r : RCTPoUW.PoUWReceipt} {x : RCTPoUW.SignedReceipt}
    (h : RCTPoUW.signReceipt q r = some x) : x.receipt = r ∧ (q.sign r).isSome := by
  unfold RCTPoUW.signReceipt at h
  split at h
  · split at h
    · rename_i signature hsign
      split at h
      · cases h
      · cases h
        exact ⟨rfl, by rw [hsign]; rfl⟩
    · cases h
  · cases h

/-- What a flush submits: eligible receipts, each with a signature. -/
theorem flush_request {p : RCTPoUW.State} (h : (RCTPoUW.flush q p).2 = .ok request) :
    request.clientDid = p.clientDid.getD "" ∧ p.identityId = some request.identityHeader ∧
      p.pendingReceipts.filter (fun r => r.isEligible) ≠ [] ∧
      ∀ x ∈ request.receipts, x.receipt ∈ p.pendingReceipts.filter (fun r => r.isEligible) ∧
        (q.sign x.receipt).isSome := by
  obtain ⟨hpending, hid, hdid⟩ := dropIneligible_spec p
  unfold RCTPoUW.flush at h
  split at h
  · cases h
  dsimp only at h
  split at h
  · cases h
  rename_i hne
  split at h
  · cases h
  rename_i identityId hidentity
  split at h
  · cases h
  split at h
  · cases h
  cases h
  refine ⟨by rw [hdid], hid.symm.trans hidentity, ?_, ?_⟩
  · rw [← hpending]
    simpa using hne
  intro x hx
  obtain ⟨r, hr, hsigned⟩ := mem_filterMap.1 hx
  obtain ⟨rfl, hsome⟩ := signReceipt_receipt hsigned
  exact ⟨hpending ▸ hr, hsome⟩

/-- Only large content with a challenge at hand is queued, under the DID of the module. -/
theorem verifyContent_cases (q : RCTPoUW.VerifyCall) (p : RCTPoUW.State) :
    (RCTPoUW.verifyAndQueueReceipt P q p).1 = p ∨ RCTPoUW.minVerifiedBytes ≤ q.bytesData.length ∧
      ∃ r : RCTPoUW.PoUWReceipt, r.clientDid = p.clientDid.getD "" ∧
        (RCTPoUW.verifyAndQueueReceipt P q p).1 = p.queue r := by
  unfold RCTPoUW.verifyAndQueueReceipt
  split
  · exact .inl rfl
  split
  · exact .inl rfl
  split
  · exact .inl rfl
  rename_i hlarge
  split
  · exact .inr ⟨Nat.not_lt.1 hlarge, _, rfl, rfl⟩
  · exact .inl rfl

/-- An answer leaves the queue as it is or empties it. -/
theorem respond_keeps (id : Nat) (c : RCTPoUW.Completion) (p : RCTPoUW.State) :
    let p' := RCTPoUW.step P p (.respond id c)
    (p'.pendingReceipts = p.pendingReceipts ∨ p'.pendingReceipts = []) ∧ p'.identityId = p.identityId ∧
      p'.clientDid = p.clientDid := by
  dsimp only [RCTPoUW.step]
  split
  · exact ⟨.inl rfl, rfl, rfl⟩
  unfold RCTPoUW.State.complete RCTPoUW.finishFlush
  split
  · exact ⟨.inl rfl, rfl, rfl⟩
  · exact ⟨.inr rfl, rfl, rfl⟩
  · exact ⟨.inl rfl, rfl, rfl⟩

/-! ### The invariant is kept -/

theorem identityLoaded_inv (h : s.Inv C) : (s.step C sign P .identityLoaded).Inv C := by
  dsimp only [step]
  split
  · rename_i did hloading
    refine h.withModule (h.consistent.step _) rfl h.pending ?_ (fun _ _ hd => nomatch hd) fun _ => rfl
    exact fun hne d hd => some.inj hd ▸ h.read hne did hloading
  · exact h.withModule h.consistent rfl h.pending h.loaded (fun _ _ hd => nomatch hd) fun _ => rfl
  · exact h

theorem readIdentity_inv (h : s.Inv C) (hallow : s.Allows C .readIdentity) :
    (s.step C sign P .readIdentity).Inv C := by
  dsimp only [step]
  split
  · rename_i hstarted
    have h' := h.withStore (hallow hstarted)
    refine h'.withModule h'.consistent rfl h'.pending h'.loaded ?_ ?_
    · intro _ did hdid
      have hread : (s.store.getLatestIdentity C).1.map C.did = some did := by simpa using hdid
      rw [← hread]
      simp only [signer, (getLatestIdentity_snd s.store).1]
      rw [getLatestIdentity_fst]
      rfl
    · intro hne
      exact absurd (h.done hne) (by simp [hstarted])
  · exact h

theorem verifyContent_inv (h : s.Inv C) (q : RCTPoUW.VerifyCall)
    (hallow : s.Allows C (.verifyContent q)) : (s.step C sign P (.verifyContent q)).Inv C := by
  have hconsistent : RCTPoUW.Consistent (RCTPoUW.step P s.pouw (.verifyContent q)) := h.consistent.step _
  dsimp only [step, RCTPoUW.step] at hconsistent ⊢
  rcases verifyContent_cases q s.pouw with heq | ⟨hlarge, r, hr, heq⟩
  · rw [heq]
    exact h
  rw [heq] at hconsistent ⊢
  obtain ⟨hloaded, hsigner⟩ := hallow hlarge
  obtain ⟨did, hdid⟩ := ne_none_iff_exists'.1 hloaded
  have hr' : some r.clientDid = s.signer C := by
    rw [hr, ← hsigner, hdid]
    rfl
  refine h.withModule hconsistent rfl ?_ ?_ ?_ h.done
  · intro x hx
    rcases mem_append.1 (filter_append .. ▸ hx) with hx | hx
    · exact h.pending x hx
    · obtain rfl := mem_singleton.1 (mem_filter.1 hx).1
      exact hr'
  · exact fun _ d hd => hd ▸ hsigner
  · intro _ d hd
    exact absurd (h.done hloaded) (by simp [hd])

theorem respond_inv (h : s.Inv C) (id : Nat) (c : RCTPoUW.Completion) :
    (s.step C sign P (.respond id c)).Inv C := by
  obtain ⟨hpending, hid, hdid⟩ := respond_keeps id c s.pouw
  have hsub : ∀ r ∈ (RCTPoUW.step P s.pouw (.respond id c)).pendingReceipts.filter (fun r => r.isEligible),
      r ∈ s.eligible := by
    intro r hr
    obtain ⟨hr, he⟩ := mem_filter.1 hr
    rcases hpending with heq | heq
    · exact mem_filter.2 ⟨heq ▸ hr, he⟩
    · exact absurd (heq ▸ hr) not_mem_nil
  have hne : (RCTPoUW.step P s.pouw (.respond id c)).pendingReceipts.filter (fun r => r.isEligible) ≠ [] →
      s.eligible ≠ [] := by
    intro hne hnil
    obtain ⟨r, hr⟩ := exists_mem_of_ne_nil _ hne
    exact absurd (hsub r hr) (hnil ▸ not_mem_nil)
  have h' : ({ s with pouw := RCTPoUW.step P s.pouw (.respond id c) } : Device Identity Json).Inv C := by
    refine h.withModule (h.consistent.step _) hid (fun r hr => h.pending r (hsub r hr)) ?_ ?_ ?_
    · exact fun hn d hd => h.loaded (hne hn) d (hdid ▸ hd)
    · exact fun hn => h.read (hne hn)
    · exact fun hn => h.done (hdid ▸ hn)
  refine ⟨⟨h'.issued, h'.carried⟩, h'.consistent, h'.pending, h'.loaded, h'.read, h'.done, h'.sessions, ?_⟩
  intro x hx
  exact h'.underWay x (mem_filter.1 hx).1

/-- The batch that a flush submits, where the receipts, the module and the session are of the identity that
    signs. -/
theorem flush_agrees {latest : Option Identity} {serializes : Bool} {did : Did}
    (hlatest : latest.map C.did = some did) (hloaded : s.pouw.clientDid = some did)
    (hpending : ∀ r ∈ s.eligible, r.clientDid = did)
    (h : (RCTPoUW.flush ⟨fun receipt => latest.bind fun i => sign i receipt, serializes⟩ s.pouw).2 =
      .ok request) (r : Signed)
    (hr : r ∈ request.receipts.map fun x => (⟨x.receipt.clientDid, (latest.map C.did).getD ""⟩ : Signed))
    :
    r.client_did = did ∧ r.signer = did ∧ request.clientDid = did := by
  obtain ⟨hclient, -, -, hreceipts⟩ := flush_request h
  obtain ⟨x, hx, rfl⟩ := mem_map.1 hr
  exact ⟨hpending _ (hreceipts x hx).1, by rw [hlatest]; rfl, by rw [hclient, hloaded]; rfl⟩

theorem flush_inv (h : s.Inv C) (serializes : Bool) (hallow : s.Allows C (.flush serializes)) :
    (s.step C sign P (.flush serializes)).Inv C := by
  let q : RCTPoUW.FlushCall :=
    ⟨fun receipt => (s.store.getLatestIdentity C).1.bind fun i => sign i receipt, serializes⟩
  obtain ⟨hkeeps, hid, hdid⟩ := flush_keeps q s.pouw
  have hconsistent : RCTPoUW.Consistent (RCTPoUW.flush q s.pouw).1 := h.consistent.step (P := P) (.flush q)
  -- the module afterwards, over any store that is steady
  have hmodule : ∀ store, s.Steady C store →
      ({ s with store, pouw := (RCTPoUW.flush q s.pouw).1 } : Device Identity Json).Inv C := by
    intro store hsteady
    have h' := h.withStore hsteady
    refine h'.withModule hconsistent hid ?_ ?_ ?_ ?_
    · rw [hkeeps]
      exact h'.pending
    · rw [hkeeps, hdid]
      exact h'.loaded
    · rw [hkeeps]
      exact h'.read
    · rw [hdid]
      exact h'.done
  have hsame : s.Steady C s.store := .inr ⟨rfl, rfl⟩
  dsimp only [step, flush]
  by_cases hempty : s.eligible = []
  · -- nothing is signed, and nothing is submitted
    have hnone : s.pouw.dropIneligible.pendingReceipts.isEmpty = true := by
      rw [(dropIneligible_spec s.pouw).1]
      exact isEmpty_iff.2 hempty
    rw [hnone]
    split
    · exact hmodule s.store hsame
    · rename_i request hrequest
      exact absurd hempty (flush_request hrequest).2.2.1
  · obtain ⟨hloaded, hsession, hsteady⟩ := hallow hempty
    obtain ⟨did, hclient⟩ := ne_none_iff_exists'.1 hloaded
    have hsigner : s.signer C = some did := (h.loaded hempty did hclient).symm
    have hlatest : (s.store.getLatestIdentity C).1.map C.did = some did := by
      rw [getLatestIdentity_fst]
      exact hsigner
    have hpending : ∀ r ∈ s.eligible, r.clientDid = did :=
      fun r hr => some.inj ((h.pending r hr).trans hsigner)
    have hstore : s.Steady C (if s.pouw.dropIneligible.pendingReceipts.isEmpty || s.pouw.identityId.isNone
        then s.store else (s.store.getLatestIdentity C).2) := by
      split
      · exact hsame
      · exact hsteady
    split
    · exact hmodule _ hstore
    rename_i request hrequest
    have hagrees := flush_agrees hlatest hclient hpending hrequest
    have h' := hmodule _ hstore
    refine ⟨⟨?_, h'.carried⟩, h'.consistent, h'.pending, h'.loaded, h'.read, h'.done, h'.sessions, ?_⟩
    · intro b hb
      rcases mem_cons.1 hb with rfl | hb
      · intro r hr
        obtain ⟨hnamed, hsigned, hbatch⟩ := hagrees r hr
        exact ⟨hnamed.trans hsigned.symm, hnamed.trans hbatch.symm⟩
      · exact h'.issued b hb
    · intro x hx
      rcases mem_append.1 hx with hx | hx
      · exact h'.underWay x hx
      obtain rfl := mem_singleton.1 hx
      have hheader := (flush_request hrequest).2.1
      have hkept := (hstore.resolve_left fun hidle => hempty hidle.eligible).2
      refine ⟨?_, ?_⟩
      · rw [sessionId, hid, hheader]
        rfl
      intro r hr
      rw [(hagrees r hr).1, ← hsigner, ← hsession, ← hkept]
      simp only [sessionDid, sessionId]
      rw [hid]

/-- A handshake finds what it has stored. -/
theorem materials_loadIdentityForHandshake
    (store : NativeIdentityProvisioning.Ios.State Identity Json) (identityId : String) :
    materials C (loadIdentityForHandshake C store identityId) identityId = materials C store identityId := by
  unfold loadIdentityForHandshake
  cases hserialized : serialized C store identityId with
  | none => rfl
  | some identity =>
    have hkept : serialized C (store.store C identity none) identityId = some identity := by
      rw [← hserialized]
      unfold serialized
      rw [restore_store]
    simp only [materials, hserialized, hkept]
    rfl

theorem handshake_inv (h : s.Inv C) (identityId : String) (ok : Bool)
    (hallow : s.Allows C (.handshake identityId ok)) :
    (s.step C sign P (.handshake identityId ok)).Inv C := by
  have h' := h.withStore hallow
  refine ⟨⟨h'.issued, h'.carried⟩, h'.consistent, h'.pending, h'.loaded, h'.read, h'.done, ?_, h'.underWay⟩
  intro x hx heq
  rcases mem_append.1 hx with hx | hx
  · exact h'.sessions x hx heq
  cases ok with
  | false => exact absurd hx not_mem_nil
  | true =>
    obtain ⟨i, hi, rfl⟩ := List.mem_map.1 hx
    have hfound : materials C s.store identityId = some i := by simpa using hi
    have hid : identityId = s.sessionId := by simpa only [step, handshake, sessionId] using heq
    rw [← materials_loadIdentityForHandshake, hid] at hfound
    have hsession : (s.step C sign P (.handshake identityId true)).sessionDid C =
        (materials C (loadIdentityForHandshake C s.store identityId) s.sessionId).map C.did := by
      simp only [step, handshake, sessionDid, sessionId]
    rw [hsession, hid, hfound]
    rfl

theorem carry_inv (h : s.Inv C) (request session : Nat) :
    (s.step C sign P (.carry request session)).Inv C := by
  dsimp only [step, carry]
  split
  · rename_i id header batch identityId did hbatch hsession
    split
    · rename_i hheader
      refine ⟨⟨h.issued, ?_⟩, h.consistent, h.pending, h.loaded, h.read, h.done, h.sessions, ?_⟩
      · intro x hx
        rcases mem_cons.1 hx with rfl | hx
        · intro r hr
          obtain ⟨hid, hdid⟩ := h.underWay _ (mem_of_getElem? hbatch)
          have hopen := h.sessions _ (mem_of_getElem? hsession) (hheader.1.symm.trans hid)
          exact some.inj ((hdid r hr).trans hopen.symm)
        · exact h.carried x hx
      · exact fun x hx => h.underWay x (mem_of_mem_eraseIdx hx)
    · exact h
  · exact h

theorem relaunch_inv (h : s.Inv C) (hallow : s.Allows C .relaunch) :
    (s.step C sign P .relaunch).Inv C := by
  have hstored : s.pouw.storedReceipts.filter (fun r => r.isEligible) = s.eligible := by
    rw [h.consistent.stored]
    rfl
  refine ⟨⟨h.issued, h.carried⟩, h.consistent.step (P := P) (.relaunch s.store.currentIdentityId), ?_,
    (fun _ _ hd => nomatch hd), (fun _ _ hd => nomatch hd), (fun hne => absurd rfl hne),
    (fun _ hx => absurd hx not_mem_nil), (fun _ hx => absurd hx not_mem_nil)⟩
  intro r hr
  have hr' : r ∈ s.eligible := hstored ▸ hr
  rcases hallow with hempty | hsigner
  · exact absurd hr' (hempty ▸ not_mem_nil)
  · exact (h.pending r hr').trans hsigner.symm

theorem step_inv (h : s.Inv C) (e : Event Identity) (hallow : s.Allows C e) :
    (s.step C sign P e).Inv C := by
  cases e with
  | identity c => exact h.withStore hallow
  | readIdentity => exact readIdentity_inv h hallow
  | identityLoaded => exact identityLoaded_inv h
  | setNodeUrl => exact h.withModule (h.consistent.step .setNodeUrl) rfl h.pending h.loaded h.read h.done
  | getChallengeDone taskId challengeNonce =>
    exact h.withModule (h.consistent.step (.getChallengeDone taskId challengeNonce)) rfl h.pending h.loaded
      h.read h.done
  | verifyContent q => exact verifyContent_inv h q hallow
  | flush serializes => exact flush_inv h serializes hallow
  | handshake identityId ok => exact handshake_inv h identityId ok hallow
  | carry request session => exact carry_inv h request session
  | closeSession session =>
    refine ⟨⟨h.issued, h.carried⟩, h.consistent, h.pending, h.loaded, h.read, h.done, ?_, h.underWay⟩
    exact fun x hx => h.sessions x (mem_of_mem_eraseIdx hx)
  | respond id c => exact respond_inv h id c
  | relaunch => exact relaunch_inv h hallow

/-- What iOS submits is signed and carried by the identity that it names, in every run whose events meet the
    condition. -/
theorem signedByNamed (store : NativeIdentityProvisioning.Ios.State Identity Json)
    (es : List (Event Identity))
    (hallows : StepsMeet (Device.step C sign P) (Device.Allows C) (installed store) es) :
    HoldsThroughout (Device.step C sign P) SignedByNamed (installed store) es :=
  StepsMeet.holdsThroughout (fun _ e h hallow => step_inv h e hallow)
    (fun _ h => h.toSignedByNamed) (installed_inv store) hallows

end Device

end Ios

/-! ## Android -/

namespace Android

open KeyedTable
open ReceiptStore (ReceiptEntity)

/-- Batches agree; no session carries one. -/
def Device.SignedByNamed (s : Device Identity Json) : Prop := ∀ b ∈ s.issued, b.Agrees

instance (s : Device Identity Json) : Decidable s.SignedByNamed :=
  inferInstanceAs (Decidable (∀ b ∈ s.issued, b.Agrees))

namespace Device

variable (C : LibClient Identity Json) (s : Device Identity Json)

/-! ### The condition -/

/-- No receipt is pending, and no submission is under way. -/
structure Idle : Prop where
  pending : ∀ r ∈ s.table.receipts, r.isPending = false
  held : s.held = []

/-- The controller is of the identity of the last one. -/
def OfLast (n : Nat) : Prop := ∀ i, s.controllers[n]? = some i → some (C.did i) = s.lastDid

instance (n : Nat) : Decidable (s.OfLast C n) :=
  inferInstanceAs (Decidable (∀ i ∈ s.controllers[n]?, some (C.did i) = s.lastDid))

/-- A controller for another identity is made only when idle, and those before it neither create nor submit;
    and the receipt that is marked for a retry is the oldest one pending. -/
def Allows (s : Device Identity Json) : Event Identity → Prop
  | .ensureController => ∀ l, s.newController C = some l → some (C.did l.2) = s.lastDid ∨ s.Idle
  | .createReceipt n _ => s.OfLast C n
  | .getPending n => s.OfLast C n
  | .row k (.lookUp nonce ok) => ∀ h, s.held[k]? = some h → h.has nonce = true →
      (found s.table nonce ok).isSome
  | _ => True

/-! ### The invariant -/

/-- The rows with the nonces of a batch. -/
structure HeldRight (h : Held) : Prop where
  controller : ∀ i, s.controllers[h.controller]? = some i → some (C.did i) = s.lastDid
  receipts : ∀ r ∈ h.receipts, r.clientDid = s.lastDid
  rows : ∀ r ∈ s.table.receipts, h.has r.receiptNonce = true → r.clientDid = s.lastDid
  retrying : ∀ nonce receipt, h.retrying = some (nonce, receipt) → ∃ r, receipt = some r ∧
    r.clientDid = s.lastDid

structure Inv : Prop where
  issued : s.SignedByNamed
  keyed : Keyed ReceiptEntity.receiptNonce s.table.receipts
  pending : ∀ r ∈ s.table.receipts, r.isPending = true → r.clientDid = s.lastDid
  held : ∀ h ∈ s.held, s.HeldRight C h

variable {C} {s}

theorem installed_inv (store : NativeIdentityProvisioning.Android.State Identity Json)
    (currentTimeMillis : Int) : (installed store currentTimeMillis).Inv C where
  issued _ h := nomatch h
  keyed := nodup_nil
  pending _ h := nomatch h
  held _ h := nomatch h

variable {b : Held} {t t' : ReceiptStore.State} {lastDid : Option Did}

/-- It depends on the controllers, the rows and the last identity only. -/
theorem HeldRight.of_eq {s' : Device Identity Json} (h : s.HeldRight C b)
    (hcontrollers : s'.controllers = s.controllers)
    (hreceipts : s'.table.receipts = s.table.receipts) (hlast : s'.lastDid = s.lastDid) :
    s'.HeldRight C b where
  controller := by
    rw [hcontrollers, hlast]
    exact h.controller
  receipts := by
    rw [hlast]
    exact h.receipts
  rows := by
    rw [hreceipts, hlast]
    exact h.rows
  retrying := by
    rw [hlast]
    exact h.retrying

/-- Rows are written that belong to the last identity, or were there before in another state. -/
structure Writes (t t' : ReceiptStore.State) (lastDid : Option Did) : Prop where
  keyed : Keyed ReceiptEntity.receiptNonce t.receipts → Keyed ReceiptEntity.receiptNonce t'.receipts
  rows : ∀ r ∈ t'.receipts, r.clientDid = lastDid ∨ ∃ r₀ ∈ t.receipts, r.receiptNonce = r₀.receiptNonce ∧
    r.clientDid = r₀.clientDid ∧ (r.isPending = true → r₀.isPending = true)

theorem Inv.writes {table : ReceiptStore.State} (h : s.Inv C) (hw : Writes s.table table s.lastDid) :
    ({ s with table } : Device Identity Json).Inv C := by
  refine ⟨h.issued, hw.keyed h.keyed, ?_, ?_⟩
  · intro r hr hpending
    rcases hw.rows r hr with hlast | ⟨r0, hr0, -, hdid, hp⟩
    · exact hlast
    · exact hdid.trans (h.pending r0 hr0 (hp hpending))
  intro b hb
  have hright := h.held b hb
  refine ⟨hright.controller, hright.receipts, ?_, hright.retrying⟩
  intro r hr hhas
  rcases hw.rows r hr with hlast | ⟨r0, hr0, hnonce, hdid, -⟩
  · exact hlast
  · exact hdid.trans (hright.rows r0 hr0 (hnonce ▸ hhas))

/-- Rows are only deleted. -/
theorem writes_sublist (lastDid : Option Did) (h : t'.receipts.Sublist t.receipts) :
    Writes t t' lastDid where
  keyed hk := hk.sublist (h.map _)
  rows r hr := .inr ⟨r, h.subset hr, rfl, rfl, id⟩

theorem writes_refl (t : ReceiptStore.State) (lastDid : Option Did) : Writes t t lastDid :=
  writes_sublist lastDid (.refl _)

theorem writes_insert {receipt : ReceiptEntity} (t : ReceiptStore.State)
    (h : receipt.clientDid = lastDid) : Writes t (t.insert receipt) lastDid where
  keyed hk := hk.replace receipt
  rows r hr := by
    rcases mem_replace.1 hr with ⟨hr, -⟩ | rfl
    · exact .inr ⟨r, hr, rfl, rfl, id⟩
    · exact .inl h

/-- An update of rows that belong to the last identity. -/
theorem writes_updateWhere (p : ReceiptStore.Bytes → Bool) {f : ReceiptEntity → ReceiptEntity}
    (ht : t'.receipts = updateWhere (fun r => p r.receiptNonce) f t.receipts)
    (hnonce : ∀ r, (f r).receiptNonce = r.receiptNonce) (hdid : ∀ r, (f r).clientDid = r.clientDid)
    (hp : ∀ r ∈ t.receipts, p r.receiptNonce = true → r.clientDid = lastDid) :
    Writes t t' lastDid where
  keyed hk := ht ▸ hk.updateWhere _ hnonce
  rows r hr := by
    obtain ⟨r0, hr0, rfl⟩ := mem_updateWhere.1 (ht ▸ hr)
    split
    · rename_i hmatch
      exact .inl ((hdid r0).trans (hp r0 hr0 hmatch))
    · exact .inr ⟨r0, hr0, rfl, rfl, id⟩

/-- What a submission does to the table, and to what it holds. -/
theorem row_spec (hright : s.HeldRight C b)
    (hpending : ∀ r ∈ s.table.receipts, r.isPending = true → r.clientDid = s.lastDid) (c : RowCall)
    (hfound : ∀ nonce ok, c = .lookUp nonce ok → b.has nonce = true → (found s.table nonce ok).isSome)
    :
    Writes s.table (row b s.table c).2 s.lastDid ∧ (row b s.table c).1.controller = b.controller ∧
      (row b s.table c).1.receipts = b.receipts ∧
      ∀ nonce receipt, (row b s.table c).1.retrying = some (nonce, receipt) →
        ∃ r, receipt = some r ∧ r.clientDid = s.lastDid := by
  have hrows : ∀ nonce, b.has nonce = true → ∀ r ∈ s.table.receipts, r.receiptNonce = nonce →
      r.clientDid = s.lastDid := by
    intro nonce hhas r hr heq
    exact hright.rows r hr (heq ▸ hhas)
  cases c with
  | update receipt =>
    refine ⟨?_, rfl, rfl, hright.retrying⟩
    dsimp only [row]
    split
    · rename_i hmem
      exact writes_insert s.table (hright.receipts receipt hmem)
    · exact writes_refl _ _
  | markAccepted nonce =>
    refine ⟨?_, rfl, rfl, hright.retrying⟩
    dsimp only [row]
    split
    · rename_i hhas
      have hp : ∀ r ∈ s.table.receipts, [nonce].contains r.receiptNonce = true →
          r.clientDid = s.lastDid := fun r hr hc => hrows nonce hhas r hr (by simpa using hc)
      exact writes_updateWhere (fun n => [nonce].contains n) rfl (fun _ => rfl) (fun _ => rfl) hp
    · exact writes_refl _ _
  | markRejected nonce _ | markRetry nonce =>
    refine ⟨?_, rfl, rfl, hright.retrying⟩
    dsimp only [row]
    split
    · rename_i hhas
      have hp : ∀ r ∈ s.table.receipts, decide (r.receiptNonce = nonce) = true →
          r.clientDid = s.lastDid := fun r hr hc => hrows nonce hhas r hr (of_decide_eq_true hc)
      exact writes_updateWhere (fun n => n = nonce) rfl (fun _ => rfl) (fun _ => rfl) hp
    · exact writes_refl _ _
  | lookUp nonce ok =>
    dsimp only [row]
    split
    · rename_i hhas
      refine ⟨writes_refl _ _, rfl, rfl, ?_⟩
      rintro nonce' receipt ⟨⟩
      obtain ⟨r, hr⟩ := isSome_iff_exists.1 (hfound nonce ok rfl hhas)
      refine ⟨r, hr, ?_⟩
      unfold found at hr
      split at hr
      · have hmem := mem_of_mem_take (mem_of_find?_eq_some hr)
        obtain ⟨hmem, hp⟩ := mem_filter.1 (mem_insertionSort _ |>.1 hmem)
        exact hpending r hmem hp
      · cases hr
    · exact ⟨writes_refl _ _, rfl, rfl, hright.retrying⟩
  | insertRetried error =>
    dsimp only [row]
    split
    · exact ⟨writes_refl _ _, rfl, rfl, hright.retrying⟩
    rename_i nonce receipt hretrying
    obtain ⟨r, rfl, hr⟩ := hright.retrying nonce receipt hretrying
    exact ⟨writes_insert _ hr, rfl, rfl, fun _ _ hnone => nomatch hnone⟩

/-! ### The invariant is kept -/

/-- The rows that `getPending` reads are pending rows of the table. -/
theorem mem_oldestPending {limit : Nat} {rows : List ReceiptEntity} {r : ReceiptEntity}
    (h : r ∈ ReceiptStore.oldestPending limit rows) : r ∈ rows ∧ r.isPending = true :=
  mem_filter.1 (mem_insertionSort _ |>.1 (mem_of_mem_take h))

theorem ensureController_inv (h : s.Inv C) (hallow : s.Allows C .ensureController) :
    (s.step C .ensureController).Inv C := by
  dsimp only [step, ensureController]
  split
  · exact h
  split
  · exact ⟨h.issued, h.keyed, h.pending, fun b hb => (h.held b hb).of_eq rfl rfl rfl⟩
  rename_i identityId identity hnew
  rcases hallow _ hnew with hlast | hidle
  · -- another controller of the last identity
    rw [hlast]
    refine ⟨h.issued, h.keyed, h.pending, ?_⟩
    intro b hb
    have hright := h.held b hb
    refine ⟨?_, hright.receipts, hright.rows, hright.retrying⟩
    intro i hi
    rcases mem_append.1 (mem_of_getElem? hi) with hold | hnew
    · by_cases hlt : b.controller < s.controllers.length
      · exact hright.controller i (getElem?_append_left hlt ▸ hi)
      rw [getElem?_append_right (Nat.not_lt.1 hlt)] at hi
      obtain rfl := mem_singleton.1 (mem_of_getElem? hi)
      exact hlast
    · obtain rfl := mem_singleton.1 hnew
      exact hlast
  · refine ⟨h.issued, h.keyed, ?_, ?_⟩
    · intro r hr hpending
      rw [hidle.pending r hr] at hpending
      cases hpending
    · intro b hb
      exact absurd (hidle.held ▸ hb) not_mem_nil

theorem createReceipt_inv (h : s.Inv C) (n : Nat) (q : ReceiptStore.NewReceipt)
    (hallow : s.Allows C (.createReceipt n q)) : (s.step C (.createReceipt n q)).Inv C := by
  dsimp only [step]
  split
  · exact h
  · rename_i identity hidentity
    exact h.writes (writes_insert _ (hallow identity hidentity))

theorem getPending_inv (h : s.Inv C) (n : Nat) (hallow : s.Allows C (.getPending n)) :
    (s.step C (.getPending n)).Inv C := by
  dsimp only [step]
  split
  · exact h
  refine ⟨h.issued, h.keyed, h.pending, ?_⟩
  intro b hb
  rcases mem_append.1 hb with hb | hb
  · exact (h.held b hb).of_eq rfl rfl rfl
  obtain rfl := mem_singleton.1 hb
  refine ⟨hallow, ?_, ?_, fun _ _ hnone => nomatch hnone⟩
  · intro r hr
    obtain ⟨hr, hpending⟩ := mem_oldestPending hr
    exact h.pending r hr hpending
  intro r hr hhas
  -- the row with the nonce is the one that was read
  obtain ⟨r', hr', hnonce⟩ := mem_map.1 (of_decide_eq_true hhas)
  obtain ⟨hmem, hpending⟩ := mem_oldestPending hr'
  obtain rfl := inj_on_of_nodup_map h.keyed hmem hr hnonce
  exact h.pending r' hr hpending

/-- A batch of a submission of the last identity. -/
theorem batch_agrees (hright : s.HeldRight C b) {identity : Identity}
    (hidentity : s.controllers[b.controller]? = some identity) :
    (batch C identity b.receipts).Agrees := by
  have hdid : ∀ r ∈ b.receipts, r.clientDid = some (C.did identity) :=
    fun r hr => (hright.receipts r hr).trans (hright.controller identity hidentity).symm
  intro x hx
  obtain ⟨r, hr, rfl⟩ := mem_map.1 hx
  have hhead : (b.receipts.head?.bind fun r => r.clientDid) = some (C.did identity) := by
    cases hreceipts : b.receipts with
    | nil => exact absurd (hreceipts ▸ hr) not_mem_nil
    | cons first rest => exact hdid first (hreceipts ▸ mem_cons_self)
  refine ⟨?_, ?_⟩
  · dsimp only
    rw [hdid r hr]
    rfl
  · dsimp only [batch]
    rw [hhead, hdid r hr]

theorem submitBatch_inv (h : s.Inv C) (k : Nat) : (s.step C (.submitBatch k)).Inv C := by
  dsimp only [step]
  split
  · exact h
  rename_i b hb
  split
  · exact h
  rename_i identity hidentity
  split
  · exact h
  refine ⟨?_, h.keyed, h.pending, fun b' hb' => ?_⟩
  · intro x hx
    rcases mem_cons.1 hx with rfl | hx
    · exact batch_agrees (h.held b (mem_of_getElem? hb)) hidentity
    · exact h.issued x hx
  · exact (h.held b' hb').of_eq rfl rfl rfl

theorem row_inv (h : s.Inv C) (k : Nat) (c : RowCall) (hallow : s.Allows C (.row k c)) :
    (s.step C (.row k c)).Inv C := by
  dsimp only [step]
  split
  · exact h
  rename_i b hb
  have hright := h.held b (mem_of_getElem? hb)
  have hfound : ∀ nonce ok, c = .lookUp nonce ok → b.has nonce = true →
      (found s.table nonce ok).isSome := by
    rintro nonce ok rfl hhas
    exact hallow b hb hhas
  obtain ⟨hw, hcontroller, hreceipts, hretrying⟩ := row_spec hright h.pending c hfound
  have h' := h.writes hw
  have hsame := h'.held b (mem_of_getElem? hb)
  refine ⟨h'.issued, h'.keyed, h'.pending, ?_⟩
  intro b' hb'
  rcases mem_or_eq_of_mem_set hb' with hb' | rfl
  · exact (h'.held b' hb').of_eq rfl rfl rfl
  refine ⟨?_, ?_, ?_, hretrying⟩
  · rw [hcontroller]
    exact hsame.controller
  · rw [hreceipts]
    exact hsame.receipts
  intro r hr hhas
  unfold Held.has at hhas
  rw [hreceipts] at hhas
  exact hsame.rows r hr hhas

theorem step_inv (h : s.Inv C) (e : Event Identity) (hallow : s.Allows C e) : (s.step C e).Inv C := by
  cases e with
  | identity c =>
    exact ⟨h.issued, h.keyed, h.pending, fun b hb => (h.held b hb).of_eq rfl rfl rfl⟩
  | ensureController => exact ensureController_inv h hallow
  | createReceipt n q => exact createReceipt_inv h n q hallow
  | getPending n => exact getPending_inv h n hallow
  | submitBatch k => exact submitBatch_inv h k
  | row k c => exact row_inv h k c hallow
  | done k =>
    refine ⟨h.issued, h.keyed, h.pending, ?_⟩
    intro b hb
    exact (h.held b (mem_of_mem_eraseIdx hb)).of_eq rfl rfl rfl
  | deleteOldAccepted before => exact h.writes (writes_sublist _ filter_sublist)
  | tick currentTimeMillis => exact h.writes (writes_sublist _ (.refl _))
  | relaunch => exact ⟨h.issued, h.keyed, h.pending, fun b hb => absurd hb not_mem_nil⟩

/-- What Android submits is signed by the identity that it names, in every run whose events meet the
    condition. -/
theorem signedByNamed (store : NativeIdentityProvisioning.Android.State Identity Json)
    (currentTimeMillis : Int) (es : List (Event Identity))
    (hallows : StepsMeet (Device.step C) (Device.Allows C) (installed store currentTimeMillis) es) :
    HoldsThroughout (Device.step C) SignedByNamed (installed store currentTimeMillis) es :=
  StepsMeet.holdsThroughout (fun _ e h hallow => step_inv h e hallow)
    (fun _ h => h.issued) (installed_inv store currentTimeMillis) hallows

end Device

end Android

/-! ## Both platforms -/

/-- In every run on either platform whose events meet the condition, every receipt that is submitted is
    signed, and on iOS carried, by the identity that it names, which is the identity of its batch. -/
theorem named_identity_signs (C : LibClient Identity Json)
    (sign : Identity → RCTPoUW.PoUWReceipt → Option String) (P : RCTPoUW.Platform) :
    (∀ store es, StepsMeet (Ios.Device.step C sign P) (Ios.Device.Allows C) (Ios.Device.installed store) es →
      HoldsThroughout (Ios.Device.step C sign P) Ios.Device.SignedByNamed (Ios.Device.installed store) es) ∧
    ∀ store currentTimeMillis es, StepsMeet (Android.Device.step C) (Android.Device.Allows C)
        (Android.Device.installed store currentTimeMillis) es →
      HoldsThroughout (Android.Device.step C) Android.Device.SignedByNamed
        (Android.Device.installed store currentTimeMillis) es :=
  ⟨Ios.Device.signedByNamed, Android.Device.signedByNamed⟩

/-! ### Two identities on the device -/

def signs : String → RCTPoUW.PoUWReceipt → Option String := fun _ _ => some "5f"

def Ios.firstCurrent : NativeIdentityProvisioning.Ios.State String String :=
  { NativeIdentityProvisioning.Ios.twoStored with currentIdentityId := some "a" }

def Android.firstCurrent : NativeIdentityProvisioning.Android.State String String :=
  { NativeIdentityProvisioning.Android.twoStored with currentIdentityId := some "a" }

/-- A session is opened, and a receipt queued. -/
def Ios.queued : List (Ios.Event String) :=
  [.readIdentity, .identityLoaded, .handshake "a" true, .getChallengeDone "aa" "bb",
    .verifyContent RCTPoUW.verifyZeros]

def Android.created : List (Android.Event String) :=
  [.ensureController, .createReceipt 0 { taskId := [1], receiptNonce := [2], signedReceiptData := [] }]

theorem named_identity_signs_first :
    HoldsThroughout (Ios.Device.step NativeIdentityProvisioning.plainClient signs RCTPoUW.zerosPlatform)
      Ios.Device.SignedByNamed (Ios.Device.installed Ios.firstCurrent)
      (Ios.queued ++ [.flush true, .carry 0 0]) ∧
    HoldsThroughout (Android.Device.step NativeIdentityProvisioning.plainClient)
      Android.Device.SignedByNamed (Android.Device.installed Android.firstCurrent 0)
      (Android.created ++ [.getPending 0, .submitBatch 0]) := by
  have h := named_identity_signs plainClient signs RCTPoUW.zerosPlatform
  constructor
  · refine h.1 _ _ ?_
    refine ⟨fun _ => .inr ?_, trivial, .inr ?_, trivial, fun _ => ?_, fun _ => ⟨?_, ?_, .inr ?_⟩, trivial,
      trivial⟩
    all_goals decide +kernel
  · refine h.2 _ _ _ ?_
    refine ⟨fun _ _ => .inr ⟨?_, rfl⟩, ?_, ?_, trivial, trivial⟩
    · exact fun _ hr => absurd hr not_mem_nil
    · change Android.Device.OfLast _ _ 0
      decide
    · change Android.Device.OfLast _ _ 0
      decide

/-- The receipt is pending when the second identity is restored, which then signs it. -/
theorem switched_identity_signs :
    ¬ HoldsThroughout (Ios.Device.step NativeIdentityProvisioning.plainClient signs RCTPoUW.zerosPlatform)
      Ios.Device.SignedByNamed (Ios.Device.installed Ios.firstCurrent)
      (Ios.queued ++ [.identity (.restoreIdentityToHandleStore "b"), .flush true]) ∧
    ¬ HoldsThroughout (Android.Device.step NativeIdentityProvisioning.plainClient)
      Android.Device.SignedByNamed (Android.Device.installed Android.firstCurrent 0)
      (Android.created ++ [.identity (.restoreIdentityToHandleStore "b"), .ensureController, .getPending 1,
        .submitBatch 0]) := by
  constructor
  · intro h
    have hissued := h.last.issued
    revert hissued
    decide +kernel
  · intro h
    have hissued := h.last
    revert hissued
    decide

end ReceiptSigners
