import SovereignMobile.Quic.RequestQueue

/-! # What a handshake has to show

The native handshake ends with the same result on both platforms; `quinn-ffi` hands it to Swift as a C
struct, `quic-jni` to Kotlin as a map. `performLegacyHandshake` and `runHandshakeAndDrain` decide
whether requests go over the connection. Kotlin leaves the PQC flag unread, and Swift leaves the handle
of a handshake without it in the client table. -/

namespace NativeHandshakes

open QuicRequests List Option

/-- `[u8; 32]` -/
abbrev Bytes32 := { bytes : List UInt8 // bytes.length = 32 }

/-- What `handshake_with_transcript` returns, as far as it is read. -/
structure HandshakeResult where
  did : String
  session_key : Bytes32
  session_id : List UInt8
  handshake_hash : Bytes32
  pqc_hybrid_enabled : Bool

/-- `session_id[..len].copy_from_slice(&result.session_id)`, which panics on more than 32 bytes. -/
def sessionIdArray (session_id : List UInt8) : Option Bytes32 :=
  if h : session_id.length ≤ 32 then
    some ⟨session_id ++ List.replicate (32 - session_id.length) 0, by
      rw [List.length_append, List.length_replicate]
      omega⟩
  else none

/-- The comparison with the expected DID, where `same` compares two strings. -/
def checkDidBy (same : String → String → Bool) (debug : Bool) (expectedDid peerDid : String) :
    Except String Unit :=
  if expectedDid = "" then
    if debug then .ok ()
    else .error "No expected DID configured — refusing handshake (set BOOTSTRAP_GATEWAY_DID in .env)"
  else if same peerDid expectedDid then .ok ()
  else .error ("Peer DID mismatch — expected " ++ expectedDid ++ ", got " ++ peerDid)

/-! ## iOS -/

namespace Ios

/-- The struct that `uhp_quic_connect_and_handshake` fills; a null pointer is `none`. -/
structure UhpSession where
  session_key : Bytes32
  session_id : Bytes32
  session_id_len : Nat
  handshake_hash : Bytes32
  peer_did : Option String
  pqc_hybrid_enabled : UInt8

/-- What `uhp_quic_connect_and_handshake` returns; `none` if the process ends there. -/
def uhp_quic_connect_and_handshake :
    Except String HandshakeResult → Option (Except String UhpSession)
  | .error err => some (.error ("handshake failed: " ++ err))
  | .ok result =>
    if '\x00' ∈ result.did.toList then some (.error "peer DID contains invalid null byte")
    else (sessionIdArray result.session_id).map fun session_id => .ok
      { session_key := result.session_key
        session_id := session_id
        session_id_len := result.session_id.length
        handshake_hash := result.handshake_hash
        peer_did := some result.did
        pqc_hybrid_enabled := if result.pqc_hybrid_enabled then 1 else 0 }

/-- The client table. History: the handles that `uhp_quic_close` was called with. -/
structure Clients where
  held : List Nat
  nextId : Nat
  closes : List Nat

def Clients.store_client (t : Clients) : Clients :=
  { t with held := t.nextId :: t.held, nextId := t.nextId + 1 }

def Clients.close (handle : Nat) (t : Clients) : Clients :=
  { t with held := t.held.filter (· ≠ handle), closes := handle :: t.closes }

structure QuinnHandshakeSession where
  sessionKey : List UInt8
  sessionId : List UInt8
  handshakeHash : List UInt8
  peerDid : String

structure QuinnHandshakeResult where
  handle : Nat
  session : QuinnHandshakeSession

section Worker
variable (same : String → String → Bool) (debug : Bool) (activeExpectedDid : String)

/-- The checks after the DID has been accepted. None of them closes the handle. -/
def checkSession (handle : Nat) (session : UhpSession) (peerDid : String) :
    Except String QuinnHandshakeResult :=
  let sessionId := session.session_id.1.take 32
  if sessionId.length ≠ 32 then .error "Invalid session ID length"
  else if session.session_key.1.length ≠ 32 then .error "Invalid session key length"
  else if session.handshake_hash.1.length ≠ 32 then .error "Invalid handshake hash length"
  else if session.pqc_hybrid_enabled ≠ 1 then
    .error "Server did not enable PQC hybrid key exchange"
  else .ok ⟨handle, ⟨session.session_key.1, sessionId, session.handshake_hash.1, peerDid⟩⟩

/-- From the native call on; what fails before it is one of its errors. -/
def performLegacyHandshake (native : Except String UhpSession) (t : Clients) :
    Except String QuinnHandshakeResult × Clients :=
  match native with
  | .error message => (.error message, t)
  | .ok session =>
    match session.peer_did with
    | none => (.error "Server DID missing", t.store_client)
    | some peerDid =>
      match checkDidBy same debug activeExpectedDid peerDid with
      | .error e => (.error e, t.store_client.close t.nextId)
      | .ok _ => (checkSession t.nextId session peerDid, t.store_client)

/-- `drainQuinnQueue`: what it finds each time it looks into the queue, `true` for a request. The flag
    says whether it has returned. -/
def drainQuinnQueue (quinnHandle : Nat) : List Bool → Clients → Clients × Bool
  | [], t => (t, false)
  | true :: polls, t => drainQuinnQueue quinnHandle polls t
  | false :: _, t => (t.close quinnHandle, true)

/-- What a handshake thread leaves: the table, the handles it drained the queue over, and whether it
    has returned. -/
structure Run where
  clients : Clients
  drains : List Nat
  returned : Bool

/-- The `switch handshakeResult` of `enqueueQuinnRequest`. -/
def handleResult (deriveMacKey : List UInt8 → List UInt8 → Except String (List UInt8))
    (polls : List Bool) (handshakeResult : Except String QuinnHandshakeResult) (t : Clients) : Run :=
  match handshakeResult with
  | .error _ => ⟨t, [], true⟩
  | .ok result =>
    match deriveMacKey result.session.sessionKey result.session.handshakeHash with
    | .error _ => ⟨t.close result.handle, [], true⟩
    | .ok _ =>
      let (t, returned) := drainQuinnQueue result.handle polls t
      ⟨t, [result.handle], returned⟩

/-- The body of `handshakeThread`. -/
def handshakeThread (deriveMacKey : List UInt8 → List UInt8 → Except String (List UInt8))
    (native : Except String UhpSession) (polls : List Bool) (t : Clients) : Run :=
  let (handshakeResult, t) := performLegacyHandshake same debug activeExpectedDid native t
  handleResult deriveMacKey polls handshakeResult t

end Worker

/-- The handle `h` went to one worker, which closes it when it returns and not before, or it was closed
    once; it is in the table exactly as long as it has not been closed. -/
def ReleasedOnce (h : Nat) (t : Clients) (r : Run) : Prop :=
  (r.drains = [h] ∧ r.clients.closes = (if r.returned then [h] else []) ++ t.closes ∧
    (h ∈ r.clients.held ↔ r.returned = false)) ∨
  (r.drains = [] ∧ r.clients.closes = h :: t.closes ∧ h ∉ r.clients.held)

/-- The peer has a DID, and if it is accepted, the flag is set. -/
def ReachesAClose (same : String → String → Bool) (debug : Bool) (activeExpectedDid : String)
    (session : UhpSession) : Prop :=
  ∃ peerDid, session.peer_did = some peerDid ∧
    (checkDidBy same debug activeExpectedDid peerDid = .ok () → session.pqc_hybrid_enabled = 1)

section Handles
variable {same : String → String → Bool} {debug : Bool} {activeExpectedDid : String} {t : Clients}

/-- The lengths are those of the struct. -/
theorem checkSession_eq (handle : Nat) (session : UhpSession) (peerDid : String) :
    checkSession handle session peerDid = if session.pqc_hybrid_enabled = 1 then
        .ok ⟨handle, ⟨session.session_key.1, session.session_id.1, session.handshake_hash.1, peerDid⟩⟩
      else .error "Server did not enable PQC hybrid key exchange" := by
  have hid : session.session_id.1.take 32 = session.session_id.1 :=
    take_of_length_le (Nat.le_of_eq session.session_id.2)
  unfold checkSession
  simp only [hid, session.session_id.2, session.session_key.2, session.handshake_hash.2, ne_eq,
    not_true_eq_false, if_false, ite_not]

theorem not_mem_close (h : Nat) : h ∉ (t.close h).held := by
  intro hmem
  simpa using (mem_filter.1 hmem).2

theorem mem_store_client : t.nextId ∈ t.store_client.held := mem_cons_self

/-- The worker closes its handle when the queue is empty, and never before. -/
theorem drainQuinnQueue_closes (h : Nat) (polls : List Bool) :
    (drainQuinnQueue h polls t).1.closes =
      (if (drainQuinnQueue h polls t).2 then [h] else []) ++ t.closes ∧
    (h ∈ t.held → (h ∈ (drainQuinnQueue h polls t).1.held ↔ (drainQuinnQueue h polls t).2 = false)) := by
  induction polls with
  | nil => exact ⟨rfl, fun hmem => ⟨fun _ => rfl, fun _ => hmem⟩⟩
  | cons found polls ih =>
    cases found with
    | true => exact ih
    | false =>
      refine ⟨rfl, fun _ => ⟨fun hmem => absurd hmem (not_mem_close h), ?_⟩⟩
      exact fun he => absurd he (by simp [drainQuinnQueue])

/-- How a handshake ends that the native side has completed: the handle is forgotten, closed or handed
    over. -/
inductive Ends (same : String → String → Bool) (debug : Bool) (activeExpectedDid : String)
    (session : UhpSession) (t : Clients) : Except String QuinnHandshakeResult × Clients → Prop where
  | forgets (e : String) : ¬ ReachesAClose same debug activeExpectedDid session →
      Ends same debug activeExpectedDid session t (.error e, t.store_client)
  | closes (e : String) : ReachesAClose same debug activeExpectedDid session →
      Ends same debug activeExpectedDid session t (.error e, t.store_client.close t.nextId)
  | hands (info : QuinnHandshakeSession) : ReachesAClose same debug activeExpectedDid session →
      Ends same debug activeExpectedDid session t (.ok ⟨t.nextId, info⟩, t.store_client)

variable (same debug activeExpectedDid)

theorem performLegacyHandshake_ends (session : UhpSession) (t : Clients) :
    Ends same debug activeExpectedDid session t
      (performLegacyHandshake same debug activeExpectedDid (.ok session) t) := by
  unfold performLegacyHandshake
  dsimp only
  split
  · rename_i hdid
    refine .forgets _ ?_
    rintro ⟨_, he, -⟩
    exact nomatch hdid.symm.trans he
  rename_i peerDid hdid
  split
  · rename_i e hcheck
    exact .closes _ ⟨peerDid, hdid, fun he => nomatch hcheck.symm.trans he⟩
  rename_i hcheck
  rw [checkSession_eq]
  by_cases hpqc : session.pqc_hybrid_enabled = 1
  · rw [if_pos hpqc]
    exact .hands _ ⟨peerDid, hdid, fun _ => hpqc⟩
  rw [if_neg hpqc]
  refine .forgets _ ?_
  rintro ⟨peerDid', he, himp⟩
  obtain rfl := some.inj (hdid.symm.trans he)
  exact hpqc (himp hcheck)

theorem releasedOnce_iff (deriveMacKey : List UInt8 → List UInt8 → Except String (List UInt8))
    (session : UhpSession) (polls : List Bool) (t : Clients) :
    ReleasedOnce t.nextId t (handshakeThread same debug activeExpectedDid deriveMacKey (.ok session)
      polls t) ↔ ReachesAClose same debug activeExpectedDid session := by
  have hends := performLegacyHandshake_ends same debug activeExpectedDid session t
  unfold handshakeThread
  generalize performLegacyHandshake same debug activeExpectedDid (.ok session) t = result at hends ⊢
  cases hends with
  | forgets e hnot =>
    refine iff_of_false ?_ hnot
    -- a handle that stays in the table without a worker
    rintro (⟨hdrains, -⟩ | ⟨-, -, hheld⟩)
    · simp [handleResult] at hdrains
    · exact hheld mem_store_client
  | closes e hreach => exact iff_of_true (.inr ⟨rfl, rfl, not_mem_close _⟩) hreach
  | hands info hreach =>
    refine iff_of_true ?_ hreach
    unfold handleResult
    dsimp only
    split
    · exact .inr ⟨rfl, rfl, not_mem_close _⟩
    · obtain ⟨hcloses, hheld⟩ := drainQuinnQueue_closes t.nextId polls
      exact .inl ⟨rfl, hcloses, hheld mem_store_client⟩

end Handles

end Ios

/-! ## Android -/

namespace Android

structure UhpSessionInfo where
  session_key : Bytes32
  session_id : Bytes32
  session_id_len : Nat
  handshake_hash : Bytes32
  peer_did : String
  pqc_hybrid_enabled : Bool

/-- `hkdf` expands to as many bytes as are asked for: key material, salt, info and length. An expansion
    fails beyond 255 blocks of 32 bytes. -/
def derive_mac_key (hkdf : List UInt8 → List UInt8 → List UInt8 → Nat → List UInt8)
    (session_key handshake_hash : List UInt8) : Except String (List UInt8) :=
  let length := 32
  if 255 * 32 < length then .error "HKDF expand failed"
  else .ok (hkdf session_key handshake_hash "zhtp/v2/mac_key".toUTF8.toList length)

/-- What `quic_connect_and_handshake` returns; `none` if the process ends there. -/
def quic_connect_and_handshake (hkdf : List UInt8 → List UInt8 → List UInt8 → Nat → List UInt8) :
    Except String HandshakeResult → Option (Except String UhpSessionInfo)
  | .error err => some (.error err)
  | .ok result => (sessionIdArray result.session_id).map fun session_id =>
    (derive_mac_key hkdf result.session_key.1 result.handshake_hash.1).map fun _ =>
      { session_key := result.session_key
        session_id := session_id
        session_id_len := result.session_id.length
        handshake_hash := result.handshake_hash
        peer_did := result.did
        pqc_hybrid_enabled := result.pqc_hybrid_enabled }

/-- The map that `create_handshake_result_map` builds, without the bytes. -/
structure HandshakeMap where
  ok : Option Bool
  error : Option String
  peerDid : Option String
  pqcHybridEnabled : Option Bool
  sessionIdLen : Option Nat

def create_handshake_result_map : Except String UhpSessionInfo → HandshakeMap
  | .ok session =>
    { ok := some true
      error := none
      peerDid := some session.peer_did
      pqcHybridEnabled := some session.pqc_hybrid_enabled
      sessionIdLen := some session.session_id_len }
  | .error err =>
    { ok := some false
      error := some err
      peerDid := none
      pqcHybridEnabled := none
      sessionIdLen := none }

/-- `runHandshakeAndDrain` from the handshake on: what it fails the queue with, or that it drains it. The
    expected DID is looked at before the one of the peer. -/
def runHandshakeAndDrain (debug : Bool) (activeExpectedDid : String)
    (handshake : Option HandshakeMap) : Except String Unit :=
  if (handshake.bind (·.ok)).getD false then
    checkDid debug activeExpectedDid ((handshake.bind (·.peerDid)).getD "")
  else .error ((handshake.bind (·.error)).getD "Handshake failed")

end Android

/-! ## Both platforms -/

section Policies
variable (same : String → String → Bool)
  (hkdf : List UInt8 → List UInt8 → List UInt8 → Nat → List UInt8)

/-- In a release build, iOS lets requests over the connection. -/
def iosAccepts (expectedDid : String) (result : Except String HandshakeResult) : Prop :=
  ∃ session, Ios.uhp_quic_connect_and_handshake result = some session ∧
    ∀ t, ∃ accepted, (Ios.performLegacyHandshake same false expectedDid session t).1 = .ok accepted

/-- In a release build, Android does. -/
def androidAccepts (expectedDid : String) (result : Except String HandshakeResult) : Prop :=
  ∃ session, Android.quic_connect_and_handshake hkdf result = some session ∧
    Android.runHandshakeAndDrain false expectedDid
      (some (Android.create_handshake_result_map session)) = .ok ()

/-- Both platforms accept the handshake or neither does, and if they do, the peer is the expected one and
    the key exchange was a hybrid one. -/
def SamePolicy (expectedDid : String) (result : Except String HandshakeResult) : Prop :=
  (androidAccepts hkdf expectedDid result ↔ iosAccepts same expectedDid result) ∧
    (androidAccepts hkdf expectedDid result ∨ iosAccepts same expectedDid result →
      ∃ r, result = .ok r ∧ r.did = expectedDid ∧ r.pqc_hybrid_enabled = true)

/-- A result that can be read, and for which a DID is expected: if the peer has that DID, the flag is set
    and C can hold the DID; if it has another, Swift does not accept it for the expected one. -/
def ToldApart (expectedDid : String) : Except String HandshakeResult → Prop
  | .error _ => True
  | .ok r => expectedDid = "" ∨ 32 < r.session_id.length ∨
    if r.did = expectedDid then r.pqc_hybrid_enabled = true ∧ '\x00' ∉ r.did.toList
    else ¬ (same r.did expectedDid = true ∧ r.pqc_hybrid_enabled = true ∧ '\x00' ∉ r.did.toList)

variable {same hkdf} {expectedDid : String}

theorem checkDidBy_release (peerDid : String) : checkDidBy same false expectedDid peerDid = .ok () ↔
    expectedDid ≠ "" ∧ same peerDid expectedDid = true := by
  unfold checkDidBy
  by_cases he : expectedDid = ""
  · simp [he]
  by_cases hs : same peerDid expectedDid = true
  · simp [he]
  · simp [he]

theorem checkDid_release (peerDid : String) : checkDid false expectedDid peerDid = .ok () ↔
    expectedDid ≠ "" ∧ peerDid = expectedDid := by
  unfold checkDid
  by_cases he : expectedDid = ""
  · simp [he]
  by_cases hs : peerDid = expectedDid
  · simp [he]
  · simp [he]

theorem exists_sessionIdArray {id : List UInt8} :
    (∃ bytes, sessionIdArray id = some bytes) ↔ id.length ≤ 32 := by
  unfold sessionIdArray
  by_cases h : id.length ≤ 32
  · simp [h]
  · simp [h]

theorem androidAccepts_iff (result : Except String HandshakeResult) :
    androidAccepts hkdf expectedDid result ↔
      ∃ r, result = .ok r ∧ r.session_id.length ≤ 32 ∧ expectedDid ≠ "" ∧ r.did = expectedDid := by
  constructor
  · rintro ⟨session, hnative, haccepts⟩
    cases result with
    | error e =>
      cases hnative
      simp [Android.runHandshakeAndDrain, Android.create_handshake_result_map] at haccepts
    | ok r =>
      obtain ⟨id, hid, hsession⟩ := map_eq_some_iff.1 hnative
      subst hsession
      obtain ⟨hne, hdid⟩ := (checkDid_release r.did).1 haccepts
      exact ⟨r, rfl, exists_sessionIdArray.1 ⟨id, hid⟩, hne, hdid⟩
  · rintro ⟨r, rfl, hlen, hne, hdid⟩
    obtain ⟨id, hid⟩ := exists_sessionIdArray.2 hlen
    refine ⟨_, map_eq_some_iff.2 ⟨id, hid, rfl⟩, ?_⟩
    exact (checkDid_release r.did).2 ⟨hne, hdid⟩

theorem performLegacyHandshake_accepts (session : Ios.UhpSession) (t : Ios.Clients) :
    (∃ x, (Ios.performLegacyHandshake same false expectedDid (.ok session) t).1 = .ok x) ↔
      ∃ did, session.peer_did = some did ∧ checkDidBy same false expectedDid did = .ok () ∧
        session.pqc_hybrid_enabled = 1 := by
  obtain ⟨key, id, len, hash, peer_did, flag⟩ := session
  unfold Ios.performLegacyHandshake
  cases peer_did with
  | none => simp
  | some did =>
    cases hcheck : checkDidBy same false expectedDid did with
    | error e => simp [hcheck]
    | ok _ =>
      simp only [hcheck, Ios.checkSession_eq]
      by_cases hpqc : flag = 1
      · simp [hpqc, hcheck]
      · simp [hpqc]

theorem iosAccepts_iff (result : Except String HandshakeResult) :
    iosAccepts same expectedDid result ↔
      ∃ r, result = .ok r ∧ r.session_id.length ≤ 32 ∧ expectedDid ≠ "" ∧
        same r.did expectedDid = true ∧ r.pqc_hybrid_enabled = true ∧ '\x00' ∉ r.did.toList := by
  constructor
  · rintro ⟨session, hnative, haccepts⟩
    obtain ⟨x, hx⟩ := haccepts ⟨[], 0, []⟩
    cases result with
    | error e =>
      cases hnative
      simp [Ios.performLegacyHandshake] at hx
    | ok r =>
      rw [Ios.uhp_quic_connect_and_handshake] at hnative
      split at hnative
      · cases hnative
        simp [Ios.performLegacyHandshake] at hx
      rename_i hnul
      obtain ⟨id, hid, rfl⟩ := map_eq_some_iff.1 hnative
      obtain ⟨did, hdid, hcheck, hpqc⟩ := (performLegacyHandshake_accepts _ _).1 ⟨x, hx⟩
      cases hdid
      obtain ⟨hne, hsame⟩ := (checkDidBy_release r.did).1 hcheck
      have hflag : r.pqc_hybrid_enabled = true := by
        by_contra hoff
        simp [hoff] at hpqc
      exact ⟨r, rfl, exists_sessionIdArray.1 ⟨id, hid⟩, hne, hsame, hflag, hnul⟩
  · rintro ⟨r, rfl, hlen, hne, hsame, hflag, hnul⟩
    obtain ⟨id, hid⟩ := exists_sessionIdArray.2 hlen
    have hnative : Ios.uhp_quic_connect_and_handshake (.ok r) = some (.ok
        ⟨r.session_key, id, r.session_id.length, r.handshake_hash, some r.did, 1⟩) := by
      rw [Ios.uhp_quic_connect_and_handshake, if_neg hnul, hid, map_some, hflag, if_pos rfl]
    refine ⟨_, hnative, fun t => (performLegacyHandshake_accepts _ t).2 ?_⟩
    exact ⟨r.did, rfl, (checkDidBy_release r.did).2 ⟨hne, hsame⟩, rfl⟩

/-- Both platforms treat exactly those handshakes alike that are told apart, if Swift takes every string
    for itself. -/
theorem samePolicy_iff (hsame : ∀ did, same did did = true) (result : Except String HandshakeResult) :
    SamePolicy same hkdf expectedDid result ↔ ToldApart same expectedDid result := by
  unfold SamePolicy
  rw [androidAccepts_iff, iosAccepts_iff]
  cases result with
  | error e => simp [ToldApart]
  | ok r =>
    simp only [ToldApart]
    by_cases hne : expectedDid = ""
    · simp [hne]
    · by_cases hlen : r.session_id.length ≤ 32
      · have hnot : ¬ 32 < r.session_id.length := by omega
        by_cases hdid : r.did = expectedDid
        · -- iOS accepts what has the flag, Android accepts it anyway
          have hflag : r.pqc_hybrid_enabled = true → '\x00' ∉ expectedDid.toList →
              r.pqc_hybrid_enabled = true := fun h _ => h
          simpa [hne, hlen, hnot, hdid, hsame] using hflag
        · simp [hne, hlen, hnot, hdid]
      · have hlong : 32 < r.session_id.length := by omega
        simp [hlen, hlong]

end Policies

/-! ## Two handshakes -/

def gatewayDid : String := "did:zhtp:9c41"

/-- The expected peer, with the key exchange that is asked for or without. -/
def gatewayResult (pqc_hybrid_enabled : Bool) : HandshakeResult where
  did := gatewayDid
  session_key := ⟨List.replicate 32 1, rfl⟩
  session_id := List.replicate 32 2
  handshake_hash := ⟨List.replicate 32 3, rfl⟩
  pqc_hybrid_enabled := pqc_hybrid_enabled

theorem samePolicy_hybrid : SamePolicy (fun a b => a == b) (fun _ _ _ n => List.replicate n 0) gatewayDid
    (.ok (gatewayResult true)) :=
  (samePolicy_iff (fun did => beq_self_eq_true did) _).2 (.inr (.inr ⟨rfl, by decide⟩))

/-- Without the hybrid key exchange, Android accepts the handshake and iOS does not. -/
theorem not_samePolicy_classical :
    ¬ ∀ (same : String → String → Bool) (hkdf : List UInt8 → List UInt8 → List UInt8 → Nat → List UInt8),
      (∀ did, same did did = true) → ∀ expectedDid result, SamePolicy same hkdf expectedDid result := by
  intro hall
  have hsame := hall (fun a b => a == b) (fun _ _ _ n => replicate n 0) (fun did => beq_self_eq_true did)
    gatewayDid (.ok (gatewayResult false))
  have handroid : androidAccepts (fun _ _ _ n => replicate n 0) gatewayDid
      (.ok (gatewayResult false)) :=
    (androidAccepts_iff _).2 ⟨_, rfl, by decide, by decide, rfl⟩
  obtain ⟨r, hr, -, hflag⟩ := hsame.2 (.inl handroid)
  cases hr
  exact nomatch hflag

end NativeHandshakes
