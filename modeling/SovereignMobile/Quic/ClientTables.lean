import SovereignMobile.Quic.NativeHandshakes

/-! # The handle tables on Android

`uhp_quinn.rs` keeps the connection of a handle in `CLIENTS` and its session in `SESSIONS`, each under a
lock of its own. `quic_authenticated_request` works on a copy of the session and writes it back after
the response; `quic_close` removes the handle from one table and then from the other. A session that is
written back after that stays. What a session contains is left out. -/

namespace ClientTables

open Threads List

/-- The handles in the two tables. History: those that a `quic_close` has returned for. -/
structure State where
  clients : List Nat
  sessions : List Nat
  closed : List Nat

namespace State

def take_client (handle : Nat) (s : State) : State :=
  { s with clients := s.clients.filter (· ≠ handle) }

def removeSession (handle : Nat) (s : State) : State :=
  { s with sessions := s.sessions.filter (· ≠ handle), closed := handle :: s.closed }

def insertSession (handle : Nat) (s : State) : State :=
  { s with sessions := handle :: s.sessions.filter (· ≠ handle) }

end State

/-- Where a call stands: a request before it looks into `CLIENTS`, before it looks into `SESSIONS`, on the
    wire, and before it writes the session back; a close before each of its two removals. -/
inductive Thread where
  | requesting (handle : Nat)
  | connected (handle : Nat)
  | sending (handle : Nat)
  | storing (handle : Nat)
  | closing (handle : Nat)
  | removing (handle : Nat)
deriving DecidableEq

def Thread.handle : Thread → Nat
  | .requesting h => h
  | .connected h => h
  | .sending h => h
  | .storing h => h
  | .closing h => h
  | .removing h => h

inductive Input where
  | go
  | response (ok : Bool)

def step (t : Thread) (x : Input) (s : State) : Option (State × List Thread) :=
  match t, x with
  -- "invalid QUIC handle"
  | .requesting h, .go => some (s, if h ∈ s.clients then [.connected h] else [])
  -- "missing auth session"
  | .connected h, .go => some (s, if h ∈ s.sessions then [.sending h] else [])
  | .sending h, .response ok => some (s, if ok then [.storing h] else [])
  | .storing h, .go => some (s.insertSession h, [])
  | .closing h, .go => some (s.take_client h, [.removing h])
  | .removing h, .go => some (s.removeSession h, [])
  | _, _ => none

inductive Call where
  | quic_authenticated_request (handle : Nat)
  | quic_close (handle : Nat)

def call (c : Call) (s : State) : State × List Thread :=
  match c with
  | .quic_authenticated_request h => (s, [.requesting h])
  | .quic_close h => (s, [.closing h])

def program : Program State Thread Call Input := ⟨call, step⟩

/-- Whatever the tables hold. -/
def init (s : State) : Prop := s.closed = []

/-- Once a close of it has returned and no call on it is under way, a handle is in neither table. -/
def ClosedForGood (w : Pool State Thread) : Prop :=
  ∀ h ∈ w.shared.closed, (∀ t ∈ w.threads, t.handle ≠ h) →
    h ∉ w.shared.clients ∧ h ∉ w.shared.sessions

/-- A close of the handle is still going to remove the session. -/
def closePending (h : Nat) (threads : List Thread) : Bool :=
  threads.contains (.closing h) || threads.contains (.removing h)

/-- No session is written back after the last close of its handle. -/
def storesBeforeClose : Cond State Thread Call Input := fun w m =>
  match m with
  | .call _ => true
  | .step n _ =>
    match w.threads[n]? with
    | some (.storing h) => h ∉ w.shared.closed || closePending h w.threads
    | _ => true

/-! ## The invariant -/

structure Inv (w : Pool State Thread) : Prop where
  clients : ∀ h, h ∈ w.shared.closed ∨ .removing h ∈ w.threads → h ∉ w.shared.clients
  sessions : ∀ h ∈ w.shared.closed, h ∉ w.shared.sessions ∨ closePending h w.threads = true

variable {w : Pool State Thread} {t : Thread} {x : Input} {s s' : State} {ts : List Thread}

theorem Inv.closedForGood (hw : Inv w) : ClosedForGood w := by
  intro h hclosed hidle
  refine ⟨hw.clients h (.inl hclosed), (hw.sessions h hclosed).resolve_right fun hpending => ?_⟩
  simp only [closePending, Bool.or_eq_true, contains_iff_mem] at hpending
  rcases hpending with hmem | hmem
  · exact hidle _ hmem rfl
  · exact hidle _ hmem rfl

/-- What a step can do. -/
inductive Outcome (s : State) : Thread → State → List Thread → Prop where
  | goesOn (t : Thread) (ts : List Thread) : (∀ t' ∈ ts, ∀ h, t' ≠ .removing h) →
      (∀ h, t ≠ .closing h ∧ t ≠ .removing h) → Outcome s t s ts
  | stores (h : Nat) : Outcome s (.storing h) (s.insertSession h) []
  | takes (h : Nat) : Outcome s (.closing h) (s.take_client h) [.removing h]
  | removes (h : Nat) : Outcome s (.removing h) (s.removeSession h) []

theorem step_outcome (h : step t x s = some (s', ts)) : Outcome s t s' ts := by
  unfold step at h
  split at h
  iterate 3
    · cases h
      exact .goesOn _ _ (by split <;> simp) (by simp)
  · cases h
    exact .stores _
  · cases h
    exact .takes _
  · cases h
    exact .removes _
  · simp at h

theorem closePending_iff {h : Nat} {threads : List Thread} :
    closePending h threads = true ↔ .closing h ∈ threads ∨ .removing h ∈ threads := by
  simp [closePending]

theorem Inv.step {pre post : List Thread} (hw : Inv ⟨s, pre ++ t :: post⟩)
    (hc : storesBeforeClose ⟨s, pre ++ t :: post⟩ (.step pre.length x) = true)
    (hstep : step t x s = some (s', ts)) : Inv ⟨s', pre ++ (ts ++ post)⟩ := by
  have hpending : ∀ h, t ≠ .closing h → t ≠ .removing h →
      closePending h (pre ++ t :: post) = true → closePending h (pre ++ (ts ++ post)) = true := by
    intro h hne1 hne2 hp
    rw [closePending_iff] at hp ⊢
    rcases hp with hp | hp
    · exact .inl (mem_others_stepped hp hne1.symm)
    · exact .inr (mem_others_stepped hp hne2.symm)
  cases step_outcome hstep with
  | goesOn _ _ hnew hne =>
    refine ⟨fun h hh => hw.clients h ?_, fun h hclosed => ?_⟩
    · rcases hh with hclosed | hmem
      · exact .inl hclosed
      · exact .inr ((mem_stepped hmem).resolve_left fun hts => hnew _ hts h rfl)
    · rcases hw.sessions h hclosed with hgone | hp
      · exact .inl hgone
      · exact .inr (hpending h (hne h).1 (hne h).2 hp)
  | stores h0 =>
    refine ⟨fun h hh => hw.clients h ?_, fun h hclosed => ?_⟩
    · rcases hh with hclosed | hmem
      · exact .inl hclosed
      · exact .inr ((mem_stepped hmem).resolve_left (by simp))
    by_cases heq : h = h0
    · -- only with a close still to come
      subst heq
      have hc' : (decide (h ∉ s.closed) || closePending h (pre ++ .storing h :: post)) = true := by
        simpa [storesBeforeClose] using hc
      rcases Bool.or_eq_true _ _ ▸ hc' with hopen | hp
      · exact absurd hclosed (of_decide_eq_true hopen)
      · exact .inr (hpending h (by simp) (by simp) hp)
    · rcases hw.sessions h hclosed with hgone | hp
      · refine .inl fun hmem => ?_
        rcases mem_cons.1 hmem with he | hmem
        · exact heq he
        · exact hgone (mem_filter.1 hmem).1
      · exact .inr (hpending h (by simp) (by simp) hp)
  | takes h0 =>
    refine ⟨fun h hh hmem => ?_, fun h hclosed => ?_⟩
    · obtain ⟨hmem, hne⟩ := mem_filter.1 hmem
      have hne' : h ≠ h0 := by simpa using hne
      refine hw.clients h ?_ hmem
      rcases hh with hclosed | hthread
      · exact .inl hclosed
      · exact .inr ((mem_stepped hthread).resolve_left (by simpa using hne'))
    · by_cases heq : h = h0
      · subst heq
        exact .inr (closePending_iff.2 (.inr (by simp)))
      · rcases hw.sessions h hclosed with hgone | hp
        · exact .inl hgone
        · exact .inr (hpending h (by simpa using Ne.symm heq) (by simp) hp)
  | removes h0 =>
    refine ⟨fun h hh => hw.clients h ?_, fun h hclosed => ?_⟩
    · rcases hh with hclosed | hmem
      · rcases mem_cons.1 hclosed with rfl | hclosed
        · exact .inr (by simp)
        · exact .inl hclosed
      · exact .inr ((mem_stepped hmem).resolve_left (by simp))
    by_cases heq : h = h0
    · subst heq
      exact .inl fun hmem => by simpa using (mem_filter.1 hmem).2
    have hclosed' : h ∈ s.closed := (mem_cons.1 hclosed).resolve_left heq
    rcases hw.sessions h hclosed' with hgone | hp
    · exact .inl fun hmem => hgone (mem_filter.1 hmem).1
    · exact .inr (hpending h (by simp) (by simpa using Ne.symm heq) hp)

theorem inv_of_reach (h : Reach program storesBeforeClose init w) : Inv w := by
  refine Reach.invariant (fun s hs => ?_) (fun w c _ hw _ => ?_) ?_ h
  · have hnone : ∀ h, h ∉ s.closed := fun h => by rw [hs]; exact not_mem_nil
    exact ⟨fun h hh => absurd hh (by simp [hnone]), fun h hclosed => absurd hclosed (hnone h)⟩
  · have hcall : ∀ h, .removing h ∈ (w.call program c).threads → .removing h ∈ w.threads := by
      intro h hmem
      cases c <;> simpa [Pool.call, program, call] using hmem
    cases c with
    | _ =>
      refine ⟨fun h hh => hw.clients h (hh.imp_right (hcall h)), fun h hclosed => ?_⟩
      rcases hw.sessions h hclosed with hgone | hp
      · exact .inl hgone
      · rw [closePending_iff] at hp
        exact .inr (closePending_iff.2 (hp.imp (mem_append_left _) (mem_append_left _)))
  · exact fun s pre t post x s' ts _ hw hc hstep => hw.step hc hstep

open NativeHandshakes in
/-- On iOS a handle is released once exactly if the checks that follow the one of the DID have nothing to
    object; on Android a closed handle is in neither table, in runs where no session is written back
    after the last close. -/
theorem handles_released (same : String → String → Bool) (debug : Bool) (activeExpectedDid : String)
    (deriveMacKey : List UInt8 → List UInt8 → Except String (List UInt8)) (session : Ios.UhpSession)
    (polls : List Bool) (t : Ios.Clients) {w : Pool State Thread}
    (hw : Reach program storesBeforeClose init w) :
    (Ios.ReleasedOnce t.nextId t (Ios.handshakeThread same debug activeExpectedDid deriveMacKey
        (.ok session) polls t) ↔ Ios.ReachesAClose same debug activeExpectedDid session) ∧
      ClosedForGood w :=
  ⟨Ios.releasedOnce_iff same debug activeExpectedDid deriveMacKey session polls t,
    (inv_of_reach hw).closedForGood⟩

/-! ## Short runs -/

def opened : State := ⟨[5], [5], []⟩

theorem init_opened : init opened := rfl

/-- A request gets its response, and the handle is closed afterwards. -/
def closedAfter : List (Move Call Input) :=
  [.call (.quic_authenticated_request 5), .step 0 .go, .step 0 .go, .step 0 (.response true), .step 0 .go,
    .call (.quic_close 5), .step 0 .go, .step 0 .go]

/-- The handle is closed while the request is on the wire. -/
def closedMeanwhile : List (Move Call Input) :=
  [.call (.quic_authenticated_request 5), .step 0 .go, .step 0 .go, .call (.quic_close 5), .step 1 .go,
    .step 1 .go, .step 0 (.response true), .step 0 .go]

/-- What is left of a run: the tables, and how many calls are under way. -/
def leaves (C : Cond State Thread Call Input) (ms : List (Move Call Input)) :
    Option (List Nat × List Nat × List Nat × Nat) :=
  (Pool.run program C ⟨opened, []⟩ ms).map fun w =>
    (w.shared.clients, w.shared.sessions, w.shared.closed, w.threads.length)

/-- A handshake with the expected peer. -/
def gatewaySession (pqc_hybrid_enabled : UInt8) : NativeHandshakes.Ios.UhpSession where
  session_key := ⟨List.replicate 32 11, rfl⟩
  session_id := ⟨List.replicate 32 12, rfl⟩
  session_id_len := 32
  handshake_hash := ⟨List.replicate 32 13, rfl⟩
  peer_did := some "did:zhtp:9c41"
  pqc_hybrid_enabled := pqc_hybrid_enabled

open NativeHandshakes in
theorem handles_released_closedAfter :
    Ios.ReleasedOnce 0 ⟨[], 0, []⟩ (Ios.handshakeThread (fun a b => a == b) false "did:zhtp:9c41"
      (fun _ _ => .error "HKDF") (.ok (gatewaySession 1)) [true, false] ⟨[], 0, []⟩) ∧
    ∃ w : Pool State Thread, w.shared.closed = [5] ∧ ClosedForGood w := by
  have hrun : leaves storesBeforeClose closedAfter = some ([], [], [5], 0) := by decide
  obtain ⟨w, hw, hobs⟩ := Option.map_eq_some_iff.1 hrun
  have hreach : Reach program storesBeforeClose init w := .of_run init_opened hw
  obtain ⟨hios, handroid⟩ := handles_released (fun a b => a == b) false "did:zhtp:9c41"
    (fun _ _ => .error "HKDF") (gatewaySession 1) [true, false] ⟨[], 0, []⟩ hreach
  have hclosed : w.shared.closed = [5] := (Prod.mk.inj (Prod.mk.inj (Prod.mk.inj hobs).2).2).1
  exact ⟨hios.2 ⟨_, rfl, fun _ => rfl⟩, w, hclosed, handroid⟩

open NativeHandshakes in
/-- Without the PQC flag, iOS forgets the handle; a request that outlives the close leaves its session. -/
theorem not_handles_released :
    ¬ ((∀ (same : String → String → Bool) (debug : Bool) (activeExpectedDid : String)
        (deriveMacKey : List UInt8 → List UInt8 → Except String (List UInt8)) (session : Ios.UhpSession)
        (polls : List Bool) (t : Ios.Clients), Ios.ReleasedOnce t.nextId t
          (Ios.handshakeThread same debug activeExpectedDid deriveMacKey (.ok session) polls t)) ∨
      ∀ w : Pool State Thread, Reach program .any init w → ClosedForGood w) := by
  rintro (hios | handroid)
  · have hreach := (Ios.releasedOnce_iff _ _ _ _ _ _ _).1 (hios (fun a b => a == b) false "did:zhtp:9c41"
      (fun _ _ => .error "HKDF") (gatewaySession 0) [] ⟨[], 0, []⟩)
    obtain ⟨peerDid, hdid, hflag⟩ := hreach
    cases hdid
    exact nomatch hflag (by decide)
  · have hrun : leaves .any closedMeanwhile = some ([], [5], [5], 0) := by decide
    obtain ⟨w, hw, hobs⟩ := Option.map_eq_some_iff.1 hrun
    obtain ⟨-, hobs⟩ := Prod.mk.inj hobs
    obtain ⟨hsessions, hobs⟩ := Prod.mk.inj hobs
    obtain ⟨hclosed, hidle⟩ := Prod.mk.inj hobs
    have hgood := handroid w (.of_run init_opened hw) 5 (by rw [hclosed]; exact mem_singleton_self 5)
      fun t ht => by
        rw [length_eq_zero_iff.1 hidle] at ht
        simp at ht
    exact hgood.2 (by rw [hsessions]; exact mem_singleton_self 5)

end ClientTables
