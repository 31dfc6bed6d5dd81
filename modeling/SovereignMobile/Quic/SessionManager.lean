import SovereignMobile.EventLoop.Safety
import Mathlib.Data.List.Nodup
import Mathlib.Order.Basic

/-! # The persistent QUIC session of the signed-in identity

`QuicSessionManager.ts`: three module variables (`boundDid`, `liveSessionId`, `inFlight`) that
`bindIdentity`, `getSession` and `dropSession` update around the asynchronous
`NativeQuicSession.openSession`. -/

namespace QuicSessionManager

open EventLoop List Prod
open Function (update update_of_ne)

abbrev Did := String

/-- The module variables and the promises behind `inFlight`, the native side (which session was
    opened for which identity, which were passed to `closeSession`), and history: the opens in
    flight (by promise) with the task that runs each, the sessions whose open has been processed,
    the `getSession` calls that wait for a promise, and what each call resolved to, with the
    identity bound at that moment. -/
structure State where
  isNativeQuicSessionAvailable : Bool
  boundDid : Option Did
  liveSessionId : Option Nat
  inFlight : Option Nat
  promises : Nat → Option (Except String Nat)
  nextPromise : Nat
  openedFor : Nat → Option Did
  nextSession : Nat
  closed : List Nat
  opening : List (Nat × Did)
  opener : Nat → Option Nat
  processed : List Nat
  waiting : List (Nat × Nat)
  resolved : List (Nat × Option Did)

/-- A freshly loaded module. -/
def State.init : State where
  isNativeQuicSessionAvailable := true
  boundDid := none
  liveSessionId := none
  inFlight := none
  promises _ := none
  nextPromise := 0
  openedFor _ := none
  nextSession := 0
  closed := []
  opening := []
  opener _ := none
  processed := []
  waiting := []
  resolved := []

/-- `NativeQuicSession.closeSession(liveSessionId); liveSessionId = null` -/
def State.closeLive (s : State) : State :=
  match s.liveSessionId with
  | none => s
  | some id => { s with closed := s.closed ++ [id], liveSessionId := none }

/-- The DID that `bindIdentity` compares: an empty one counts as none. -/
def normalizeDid : Option Did → Option Did
  | some d => if d = "" then none else some d
  | none => none

def State.bindIdentity (did : Option Did) (s : State) : State :=
  if normalizeDid did = s.boundDid then s
  else { ({ s with boundDid := normalizeDid did }).closeLive with inFlight := none }

def State.dropSession (s : State) : State :=
  { s.closeLive with inFlight := none }

inductive Op where
  | bindIdentity (did : Option Did)
  | dropSession
  | beginOpen (did : Did)
  | startOpen (p : Nat)
  | failOpen (p : Nat)
  | cacheOpen (p id : Nat)
  | closeStaleOpen (p id : Nat)
  | settle (p : Nat) (r : Except String Nat)
  | clearInFlight
  | wait (p : Nat)
  | resolveNow (id : Nat)
  | resolve (p id : Nat)
  | reject (p : Nat)

def State.endOpen (p : Nat) (s : State) : State :=
  { s with opening := s.opening.filter fun o => o.1 ≠ p }

def State.stopWaiting (i : Nat) (s : State) : State :=
  { s with waiting := s.waiting.filter fun x => x.1 ≠ i }

def apply (i : Nat) (o : Op) (s : State) : State :=
  match o with
  | .bindIdentity did => s.bindIdentity did
  | .dropSession => s.dropSession
  | .beginOpen did =>
    { s with
      inFlight := some s.nextPromise,
      nextPromise := s.nextPromise + 1,
      opening := s.opening ++ [(s.nextPromise, did)] }
  | .startOpen p => { s with opener := Function.update s.opener p (some i) }
  | .failOpen p => s.endOpen p
  | .cacheOpen p id =>
    { s.endOpen p with liveSessionId := some id, processed := s.processed ++ [id] }
  | .closeStaleOpen p id =>
    { s.endOpen p with closed := s.closed ++ [id], processed := s.processed ++ [id] }
  | .settle p r => { s with promises := Function.update s.promises p (some r) }
  | .clearInFlight => { s with inFlight := none }
  | .wait p => { s with waiting := s.waiting ++ [(i, p)] }
  | .resolveNow id => { s with resolved := s.resolved ++ [(id, s.boundDid)] }
  | .resolve _ id => { s.stopWaiting i with resolved := s.resolved ++ [(id, s.boundDid)] }
  | .reject _ => s.stopWaiting i

inductive Call where
  | openSession (did : Did)
  | promise (p : Nat)

abbrev Ret : Call → Type
  | .openSession _ => Nat
  | .promise _ => Nat

inductive Reply where
  | ok
  | fail

def perform (_i : Nat) (c : Call) (r : Reply) (s : State) :
    Option (State × Except String (Ret c)) :=
  match c with
  | .openSession did =>
    match r with
    | .ok => some ({ s with
        openedFor := Function.update s.openedFor s.nextSession (some did),
        nextSession := s.nextSession + 1 }, .ok s.nextSession)
    | .fail => some (s, .error "openFailed")
  | .promise p =>
    match s.promises p with
    | none => none
    | some out => some (s, out)

abbrev machine : Machine where
  State := State
  Op := Op
  Call := Call
  Ret := Ret
  Err := String
  Reply := Reply
  apply := apply
  perform := perform

abbrev Prog := Async machine

def read : Prog State := Async.get

def exec (o : Op) : Prog Unit := Async.op (M := machine) o

def fail {α : Type} (e : String) : Prog α := Async.throw (M := machine) e

/-- The asynchronous function whose promise `p` is `inFlight`. -/
def openFor (did : Did) (p : Nat) : Prog Nat := do
  exec (.startOpen p)
  Async.settle (Async.await (M := machine) (.openSession did)) fun
    | .error e => do
      exec (.failOpen p)
      fail e
    | .ok id => do
      let s ← read
      -- race-guard: only cache if the identity hasn't changed under us
      if s.boundDid ≠ some did then do
        exec (.closeStaleOpen p id)
        fail "QuicSessionManager: identity changed mid-open"
      else do
        exec (.cacheOpen p id)
        pure id

/-- Wait for the promise `p` and run the synchronous `after`; `resolve` and `reject` record what
    the waiting call ends with. -/
def awaitPromise (p : Nat) (after : Prog Unit) : Prog Nat :=
  Async.settle (Async.await (M := machine) (.promise p)) fun
    | .error e => do
      after
      exec (.reject p)
      fail e
    | .ok id => do
      after
      exec (.resolve p id)
      pure id

def getSession : Prog Nat := do
  let s ← read
  if !s.isNativeQuicSessionAvailable then fail "NativeQuicSession bridge not registered"
  else match s.boundDid with
    | none => fail "QuicSessionManager: no identity bound"
    | some did =>
      match s.liveSessionId with
      | some id => do
        exec (.resolveNow id)
        pure id
      | none =>
        match s.inFlight with
        | some p => do
          exec (.wait p)
          awaitPromise p (pure ())
        | none => do
          -- `inFlight = (async () => …)()`: up to its first suspension the function only issues
          -- the native call, so the assignment may as well come first
          exec (.beginOpen did)
          exec (.wait s.nextPromise)
          Async.spawn (Async.settle (openFor did s.nextPromise) fun r =>
            exec (.settle s.nextPromise r))
          awaitPromise s.nextPromise (exec .clearInFlight)

inductive Cmd where
  | bindIdentity (did : Option Did)
  | getSession
  | dropSession

def prog : Cmd → Task machine
  | .bindIdentity did => (exec (.bindIdentity did)).toTask
  | .getSession => getSession.toTask
  | .dropSession => (exec .dropSession).toTask

/-! ## What the manager promises -/

/-- A session whose open has been processed is the cached one of the bound identity or was passed
    to `closeSession`; a call resolves to a session of the identity bound at that moment; at most
    one open is in flight for the bound identity. -/
structure OneSession (s : State) : Prop where
  noLeak : ∀ id ∈ s.processed,
    (s.liveSessionId = some id ∧ s.boundDid.isSome ∧ s.openedFor id = s.boundDid) ∨ id ∈ s.closed
  resolved : ∀ x ∈ s.resolved, x.2.isSome ∧ s.openedFor x.1 = x.2
  oneOpen : ∀ did, s.boundDid = some did → (s.opening.filter fun o => o.2 = did).length ≤ 1

/-- No open is in flight for the identity `did`. -/
def State.quietFor (s : State) (did : Option Did) : Bool :=
  s.opening.all fun o => decide (some o.2 ≠ did)

/-- No call is about to resume with a session it was promised. -/
def State.nonePromised (s : State) : Bool :=
  s.waiting.all fun x => match s.promises x.2 with
    | some (.ok _) => false
    | _ => true

/-- `inFlight` is cleared (by a rebind, by `dropSession`, by the `finally` of `getSession`) only
    while no open is in flight for the identity then bound, and the identity is not rebound
    between the moment an open is cached and the moment its callers resume. -/
def keepsInFlight : Cond machine where
  op _ s o :=
    match o with
    | .bindIdentity did => decide (normalizeDid did = s.boundDid) ||
        (s.quietFor (normalizeDid did) && s.nonePromised)
    | .dropSession => s.quietFor s.boundDid
    | .clearInFlight => s.quietFor s.boundDid
    | _ => true
  call _ _ _ _ := true

/-! ## What holds at every moment -/

structure Inv (s : State) : Prop where
  noLeak : ∀ id ∈ s.processed, s.liveSessionId = some id ∨ id ∈ s.closed
  live : ∀ id, s.liveSessionId = some id → s.boundDid.isSome ∧ s.openedFor id = s.boundDid
  resolved : ∀ x ∈ s.resolved, x.2.isSome ∧ s.openedFor x.1 = x.2
  distinct : (s.opening.map Prod.snd).Nodup
  joined : ∀ o ∈ s.opening, s.boundDid = some o.2 → s.liveSessionId = none ∧ s.inFlight.isSome
  promised : ∀ x ∈ s.waiting, ∀ id, s.promises x.2 = some (.ok id) →
    s.boundDid.isSome ∧ s.openedFor id = s.boundDid
  cached : ∀ p id, s.inFlight = some p → s.promises p = some (.ok id) → s.liveSessionId = some id
  sessions : ∀ id d, s.openedFor id = some d → id < s.nextSession
  fresh : ∀ p, s.nextPromise ≤ p → s.opener p = none ∧ s.promises p = none

/-- What a task keeps: the open it runs, its place among the waiting calls, settled promises and
    the identity each session was opened for. -/
structure Rely (i : Nat) (s s' : State) : Prop where
  opener : ∀ p, s.opener p = some i → s'.opener p = some i ∧ s'.promises p = s.promises p ∧
    ∀ d, (p, d) ∈ s.opening → (p, d) ∈ s'.opening
  waiting : ∀ p, (i, p) ∈ s.waiting → (i, p) ∈ s'.waiting
  settled : ∀ p r, s.promises p = some r → s'.promises p = some r
  openedFor : ∀ id d, s.openedFor id = some d → s'.openedFor id = some d

def OpPre (i : Nat) (s : State) : Op → Prop
  | .beginOpen did => s.boundDid = some did ∧ s.liveSessionId = none ∧ s.inFlight = none
  | .startOpen p => s.opener p = none ∧ p < s.nextPromise
  | .failOpen p => s.opener p = some i
  | .cacheOpen p id => s.opener p = some i ∧
      ∃ did, (p, did) ∈ s.opening ∧ s.boundDid = some did ∧ s.openedFor id = some did
  | .closeStaleOpen p _ => s.opener p = some i
  | .settle p r => s.opener p = some i ∧ s.promises p = none ∧
      ∀ id, r = .ok id → s.liveSessionId = some id
  | .wait p => ∀ id, s.promises p ≠ some (.ok id)
  | .resolveNow id => s.liveSessionId = some id
  | .resolve p id => (i, p) ∈ s.waiting ∧ s.promises p = some (.ok id)
  | _ => True

def spec : Spec machine where
  Inv := Inv
  Rely := Rely
  OpPre := OpPre
  CallPre _ _ _ := True
  Fin _ _ := True

theorem Rely.refl (i : Nat) (s : State) : Rely i s s :=
  ⟨fun _ h => ⟨h, rfl, fun _ hd => hd⟩, fun _ h => h, fun _ _ h => h, fun _ _ h => h⟩

variable {i j p : Nat} {s s' : State} {did : Did} {r : Reply}

theorem Rely.trans {s1 s2 s3 : State} (h1 : Rely i s1 s2) (h2 : Rely i s2 s3) : Rely i s1 s3 := by
  refine ⟨fun p hp => ?_, fun p hp => h2.waiting p (h1.waiting p hp),
    fun p r hr => h2.settled p r (h1.settled p r hr),
    fun id d hd => h2.openedFor id d (h1.openedFor id d hd)⟩
  obtain ⟨a1, b1, c1⟩ := h1.opener p hp
  obtain ⟨a2, b2, c2⟩ := h2.opener p a1
  exact ⟨a2, b2.trans b1, fun d hd => c2 d (c1 d hd)⟩

theorem quietFor_iff {did : Option Did} :
    s.quietFor did = true ↔ ∀ o ∈ s.opening, some o.2 ≠ did := by
  simp [State.quietFor]

theorem nonePromised_iff :
    s.nonePromised = true ↔ ∀ x ∈ s.waiting, ∀ id, s.promises x.2 ≠ some (.ok id) := by
  simp only [State.nonePromised, all_eq_true]
  refine forall₂_congr fun x _ => ?_
  split
  · rename_i id hid
    simp [hid]
  · rename_i hnot
    simpa using hnot

/-! ## One operation -/

/-- Every operation that touches neither the opens, the promises, the waiting calls nor the native
    sessions leaves all tasks alone. -/
theorem rely_of_same (ho : s'.opener = s.opener) (hp : s'.promises = s.promises)
    (hop : s'.opening = s.opening) (hw : s'.waiting = s.waiting) (hf : s'.openedFor = s.openedFor) :
    Rely j s s' := by
  refine ⟨fun p h => ?_, fun p h => ?_, fun p r h => ?_, fun id d h => ?_⟩
  · rw [ho, hp, hop]
    exact ⟨h, rfl, fun _ hd => hd⟩
  · rwa [hw]
  · rwa [hp]
  · rwa [hf]

/-- Closing the live session and clearing `inFlight`, for the same or another identity. -/
theorem inv_forget {b : Option Did} (hs : Inv s) (hq : s.quietFor b = true)
    (hb : b = s.boundDid ∨ s.nonePromised = true) :
    Inv { ({ s with boundDid := b }).closeLive with inFlight := none } ∧
      ∀ j, Rely j s { ({ s with boundDid := b }).closeLive with inFlight := none } := by
  rw [quietFor_iff] at hq
  have hprom : ∀ x ∈ s.waiting, ∀ id, s.promises x.2 = some (.ok id) →
      b.isSome ∧ s.openedFor id = b := by
    rcases hb with rfl | hb
    · exact hs.promised
    · exact fun x hx id hid => absurd hid (nonePromised_iff.1 hb x hx id)
  cases hl : s.liveSessionId with
  | none =>
    simp only [State.closeLive]
    refine ⟨⟨?_, ?_, hs.resolved, hs.distinct, ?_, hprom, ?_, hs.sessions, hs.fresh⟩,
      fun j => rely_of_same rfl rfl rfl rfl rfl⟩
    · simpa [hl] using hs.noLeak
    · exact fun id hid => nomatch hid
    · exact fun o ho hbo => absurd hbo.symm (hq o ho)
    · exact fun p id hp => nomatch hp
  | some id0 =>
    simp only [State.closeLive]
    refine ⟨⟨?_, ?_, hs.resolved, hs.distinct, ?_, hprom, ?_, hs.sessions, hs.fresh⟩,
      fun j => rely_of_same rfl rfl rfl rfl rfl⟩
    · intro id hid
      right
      rw [mem_append, mem_singleton]
      rcases hs.noLeak id hid with h | h
      · rw [hl, Option.some.injEq] at h
        exact .inr h.symm
      · exact .inl h
    · exact fun id hid => nomatch hid
    · exact fun o ho hbo => absurd hbo.symm (hq o ho)
    · exact fun p id hp => nomatch hp

/-- An open ends: its entry goes, the others stay. -/
theorem rely_endOpen (hi : s.opener p = some i) (hj : j ≠ i) (ho : s'.opener = s.opener)
    (hp : s'.promises = s.promises) (hop : s'.opening = s.opening.filter fun o => o.1 ≠ p)
    (hw : s'.waiting = s.waiting) (hf : s'.openedFor = s.openedFor) : Rely j s s' := by
  refine ⟨fun q h => ?_, fun q h => ?_, fun q r h => ?_, fun id d h => ?_⟩
  · rw [ho, hp, hop]
    refine ⟨h, rfl, fun d hd => ?_⟩
    have hne : q ≠ p := by
      rintro rfl
      rw [hi, Option.some.injEq] at h
      exact hj h.symm
    simpa [hne] using hd
  · rwa [hw]
  · rwa [hp]
  · rwa [hf]

theorem distinct_endOpen (hs : Inv s) (p : Nat) :
    ((s.opening.filter fun o => decide (o.1 ≠ p)).map snd).Nodup :=
  hs.distinct.sublist (filter_sublist.map _)

/-- While the open of `p` for the bound identity ends, no other open of that identity is left. -/
theorem bound_endOpen (hs : Inv s) (hp : (p, did) ∈ s.opening) (o : Nat × Did) (ho : o ∈ s.opening)
    (hne : o.1 ≠ p) : o.2 ≠ did := by
  intro he
  have := inj_on_of_nodup_map hs.distinct ho hp he
  exact hne (by rw [this])

theorem inv_op {o : Op} (hs : Inv s) (hc : keepsInFlight.op i s o = true) (hpre : OpPre i s o) :
    Inv (apply i o s) ∧ ∀ j, j ≠ i → Rely j s (apply i o s) := by
  cases o with
  | bindIdentity did =>
    simp only [keepsInFlight, Bool.or_eq_true, decide_eq_true_eq, Bool.and_eq_true] at hc
    simp only [apply, State.bindIdentity]
    split
    · exact ⟨hs, fun j _ => Rely.refl j s⟩
    rename_i hne
    obtain ⟨hq, hn⟩ := hc.resolve_left hne
    have := inv_forget hs hq (.inr hn)
    exact ⟨this.1, fun j _ => this.2 j⟩
  | dropSession =>
    have := inv_forget hs hc (.inl rfl)
    exact ⟨this.1, fun j _ => this.2 j⟩
  | beginOpen did =>
    obtain ⟨hb, hl, hf⟩ := hpre
    -- no open of this identity is in flight, or `inFlight` would be set
    have hnone : did ∉ s.opening.map snd := by
      intro hmem
      obtain ⟨o, ho, rfl⟩ := mem_map.1 hmem
      have := (hs.joined o ho hb).2
      rw [hf] at this
      simp at this
    refine ⟨⟨hs.noLeak, hs.live, hs.resolved, ?_, ?_, hs.promised, ?_, hs.sessions, ?_⟩,
      fun j _ => ⟨fun p h => ⟨h, rfl, fun d hd => mem_append_left _ hd⟩, fun _ h => h,
        fun _ _ h => h, fun _ _ h => h⟩⟩
    · simp only [apply, map_append]
      exact hs.distinct.append (nodup_singleton did) (disjoint_singleton.2 hnone)
    · exact fun o _ _ => ⟨hl, rfl⟩
    · intro p id hp hid
      simp only [apply, Option.some.injEq] at hp
      rw [← hp] at hid
      simp only [apply, (hs.fresh s.nextPromise (Nat.le_refl _)).2] at hid
      simp at hid
    · intro p hp
      have hp' : s.nextPromise + 1 ≤ p := hp
      exact hs.fresh p (by omega)
  | startOpen p =>
    obtain ⟨hn, hlt⟩ := hpre
    refine ⟨⟨hs.noLeak, hs.live, hs.resolved, hs.distinct, hs.joined, hs.promised, hs.cached,
      hs.sessions, ?_⟩, fun j _ => ⟨fun q h => ?_, fun _ h => h, fun _ _ h => h, fun _ _ h => h⟩⟩
    · intro q hq
      have hq' : s.nextPromise ≤ q := hq
      simp only [apply, update_of_ne (show q ≠ p by omega)]
      exact hs.fresh q hq
    · have hne : q ≠ p := by
        rintro rfl
        rw [hn] at h
        simp at h
      exact ⟨by simpa only [apply, update_of_ne hne] using h, rfl, fun _ hd => hd⟩
  | failOpen p =>
    refine ⟨⟨hs.noLeak, hs.live, hs.resolved, distinct_endOpen hs p, ?_, hs.promised, hs.cached,
      hs.sessions, hs.fresh⟩, fun j hj => rely_endOpen hpre hj rfl rfl rfl rfl rfl⟩
    exact fun o ho hb => hs.joined o (mem_filter.1 ho).1 hb
  | cacheOpen p id =>
    obtain ⟨hi, did, hmem, hb, hf⟩ := hpre
    have hl : s.liveSessionId = none := (hs.joined _ hmem hb).1
    refine ⟨⟨?_, ?_, hs.resolved, distinct_endOpen hs p, ?_, hs.promised, ?_, hs.sessions,
      hs.fresh⟩, fun j hj => rely_endOpen hi hj rfl rfl rfl rfl rfl⟩
    · intro id' hid'
      simp only [apply, mem_append, mem_singleton] at hid' ⊢
      rcases hid' with h | rfl
      · rcases hs.noLeak id' h with h | h
        · rw [hl] at h
          simp at h
        · exact .inr h
      · exact .inl rfl
    · intro id' hid'
      cases hid'
      exact ⟨by simp [apply, State.endOpen, hb], hf.trans hb.symm⟩
    · intro o ho hbo
      obtain ⟨ho1, ho2⟩ := mem_filter.1 ho
      have hne := bound_endOpen hs hmem o ho1 (by simpa using ho2)
      exact absurd (Option.some.inj (hbo.symm.trans hb)) hne
    · intro q id' hq hid'
      have := hs.cached q id' hq hid'
      rw [hl] at this
      simp at this
  | closeStaleOpen p id =>
    refine ⟨⟨?_, hs.live, hs.resolved, distinct_endOpen hs p, ?_, hs.promised, hs.cached,
      hs.sessions, hs.fresh⟩, fun j hj => rely_endOpen hpre hj rfl rfl rfl rfl rfl⟩
    · intro id' hid'
      simp only [apply, mem_append, mem_singleton] at hid' ⊢
      rcases hid' with h | rfl
      · exact (hs.noLeak id' h).imp (fun h => h) .inl
      · exact .inr (.inr rfl)
    · exact fun o ho hb => hs.joined o (mem_filter.1 ho).1 hb
  | settle p r =>
    obtain ⟨hi, hn, hr⟩ := hpre
    have hlt : p < s.nextPromise := by
      by_contra hle
      rw [(hs.fresh p (by omega)).1] at hi
      simp at hi
    have hpast : ∀ q, q ≠ p → (apply i (.settle p r) s).promises q = s.promises q :=
      fun q hq => update_of_ne hq _ _
    have hnow : (apply i (.settle p r) s).promises p = some r := Function.update_self ..
    refine ⟨⟨hs.noLeak, hs.live, hs.resolved, hs.distinct, hs.joined, ?_, ?_, hs.sessions, ?_⟩,
      fun j hj => ⟨fun q h => ?_, fun _ h => h, fun q r' h => ?_, fun _ _ h => h⟩⟩
    · intro x hx id hid
      by_cases he : x.2 = p
      · rw [he, hnow, Option.some.injEq] at hid
        exact hs.live id (hr id hid)
      · rw [hpast _ he] at hid
        exact hs.promised x hx id hid
    · intro q id hq hid
      by_cases he : q = p
      · rw [he, hnow, Option.some.injEq] at hid
        exact hr id hid
      · rw [hpast _ he] at hid
        exact hs.cached q id hq hid
    · intro q hq
      have hq' : s.nextPromise ≤ q := hq
      rw [hpast q (by omega)]
      exact hs.fresh q hq
    · have hne : q ≠ p := by
        rintro rfl
        rw [hi, Option.some.injEq] at h
        exact hj h.symm
      exact ⟨h, hpast q hne, fun _ hd => hd⟩
    · have hne : q ≠ p := by
        rintro rfl
        rw [hn] at h
        simp at h
      rw [hpast q hne]
      exact h
  | clearInFlight =>
    have hq := quietFor_iff.1 hc
    refine ⟨⟨hs.noLeak, hs.live, hs.resolved, hs.distinct, ?_, hs.promised, ?_, hs.sessions,
      hs.fresh⟩, fun j _ => rely_of_same rfl rfl rfl rfl rfl⟩
    · exact fun o ho hb => absurd hb.symm (hq o ho)
    · exact fun p id hp => absurd hp (by simp [apply])
  | wait p =>
    refine ⟨⟨hs.noLeak, hs.live, hs.resolved, hs.distinct, hs.joined, ?_, hs.cached, hs.sessions,
      hs.fresh⟩, fun j _ => ⟨fun q h => ⟨h, rfl, fun _ hd => hd⟩,
        fun q h => mem_append_left _ h, fun _ _ h => h, fun _ _ h => h⟩⟩
    intro x hx id hid
    rcases mem_append.1 hx with hx | hx
    · exact hs.promised x hx id hid
    rw [mem_singleton] at hx
    subst hx
    exact absurd hid (hpre id)
  | resolveNow id =>
    refine ⟨⟨hs.noLeak, hs.live, ?_, hs.distinct, hs.joined, hs.promised, hs.cached, hs.sessions,
      hs.fresh⟩, fun j _ => rely_of_same rfl rfl rfl rfl rfl⟩
    intro x hx
    rcases mem_append.1 hx with hx | hx
    · exact hs.resolved x hx
    rw [mem_singleton] at hx
    subst hx
    exact hs.live id hpre
  | resolve p id =>
    refine ⟨⟨hs.noLeak, hs.live, ?_, hs.distinct, hs.joined, ?_, hs.cached, hs.sessions,
      hs.fresh⟩, fun j hj => ⟨fun q h => ⟨h, rfl, fun _ hd => hd⟩, fun q h => ?_,
        fun _ _ h => h, fun _ _ h => h⟩⟩
    · intro x hx
      rcases mem_append.1 hx with hx | hx
      · exact hs.resolved x hx
      rw [mem_singleton] at hx
      subst hx
      exact hs.promised _ hpre.1 id hpre.2
    · exact fun x hx => hs.promised x (mem_filter.1 hx).1
    · exact mem_filter.2 ⟨h, by simpa using hj⟩
  | reject p =>
    refine ⟨⟨hs.noLeak, hs.live, hs.resolved, hs.distinct, hs.joined, ?_, hs.cached, hs.sessions,
      hs.fresh⟩, fun j hj => ⟨fun q h => ⟨h, rfl, fun _ hd => hd⟩, fun q h => ?_,
        fun _ _ h => h, fun _ _ h => h⟩⟩
    · exact fun x hx => hs.promised x (mem_filter.1 hx).1
    · exact mem_filter.2 ⟨h, by simpa using hj⟩

theorem perform_promise {o : Except String Nat} (hp : perform i (.promise p) r s = some (s', o)) :
    s' = s ∧ s.promises p = some o := by
  simp only [perform] at hp
  split at hp
  · simp at hp
  rename_i out hout
  simp only [Option.some.injEq, Prod.mk.injEq] at hp
  exact ⟨hp.1.symm, by rw [hout, hp.2]⟩

theorem inv_call {c : Call} {o : Except String (Ret c)} (hs : Inv s)
    (hp : perform i c r s = some (s', o)) : Inv s' ∧ ∀ j, Rely j s s' := by
  cases c with
  | promise p =>
    obtain ⟨rfl, _⟩ := perform_promise hp
    exact ⟨hs, fun j => Rely.refl j s'⟩
  | openSession did =>
    cases r with
    | fail =>
      cases hp
      exact ⟨hs, fun j => Rely.refl j s⟩
    | ok =>
      cases hp
      -- the new identifier was not in use
      have hold : ∀ id b, b.isSome ∧ s.openedFor id = b → b.isSome ∧
          update s.openedFor s.nextSession (some did) id = b := by
        rintro id b ⟨hb, he⟩
        obtain ⟨d, rfl⟩ := Option.isSome_iff_exists.1 hb
        have := hs.sessions id d he
        exact ⟨hb, by rw [update_of_ne (by omega), he]⟩
      refine ⟨⟨hs.noLeak, fun id hid => hold id _ (hs.live id hid),
        fun x hx => hold _ _ (hs.resolved x hx), hs.distinct, hs.joined,
        fun x hx id hid => hold id _ (hs.promised x hx id hid), hs.cached, ?_, hs.fresh⟩,
        fun j => ⟨fun p h => ⟨h, rfl, fun _ hd => hd⟩, fun _ h => h, fun _ _ h => h, ?_⟩⟩
      · intro id d hid
        by_cases he : id = s.nextSession
        · dsimp only
          omega
        simp only [update_of_ne he] at hid
        have := hs.sessions id d hid
        dsimp only
        omega
      · intro id d hid
        exact (hold id (some d) ⟨rfl, hid⟩).2

theorem spec_sound : spec.Sound keepsInFlight where
  refl := Rely.refl
  trans _ _ _ _ := .trans
  op _ _ _ hs hc hpre := inv_op hs hc hpre
  call i _ _ _ _ _ hs _ hp _ :=
    ⟨(inv_call (i := i) hs hp).1, fun j _ => (inv_call (i := i) hs hp).2 j⟩
  fin _ _ _ _ _ _ := trivial

/-! ## The programs -/

/-- A call that waits for a promise resolves only to what that promise holds. -/
theorem safe_awaitPromise {after : Prog Unit} {k : Except String Nat → Task machine}
    (hw : (i, p) ∈ s.waiting) (hafter : ∀ k' s', Inv s' → (i, p) ∈ s'.waiting →
      (∀ s'', Inv s'' → (i, p) ∈ s''.waiting → s''.promises = s'.promises →
        spec.Safe keepsInFlight i (k' (.ok ())) s'') →
      spec.Safe keepsInFlight i (after.run k') s')
    (hk : ∀ r s', Inv s' → spec.Safe keepsInFlight i (k r) s') :
    spec.Safe keepsInFlight i ((awaitPromise p after).run k) s := by
  intro s1 hr1 _
  refine ⟨trivial, fun r s2 o hp _ _ s3 hr3 hi3 => ?_⟩
  obtain ⟨rfl, hout⟩ := perform_promise (i := i) (r := r) hp
  have hw3 : (i, p) ∈ s3.waiting := (hr1.trans hr3).waiting p hw
  have hp3 : s3.promises p = some o := hr3.settled p o hout
  cases o with
  | error e =>
    refine hafter _ s3 hi3 hw3 fun s4 _ _ _ _ => ?_
    exact ⟨trivial, fun hi5 => hk _ _ hi5⟩
  | ok id =>
    refine hafter _ s3 hi3 hw3 fun s4 _ hw4 hs4 _ => ?_
    exact ⟨⟨hw4, by rw [hs4]; exact hp3⟩, fun hi5 => hk _ _ hi5⟩

/-- The open runs alone on its promise, and settles it with a session only if it is the live
    one. -/
theorem safe_openFor (hn : s.opener p = none) (hlt : p < s.nextPromise)
    (hmem : (p, did) ∈ s.opening) (hu : s.promises p = none) :
    spec.Safe keepsInFlight i
      (Async.settle (openFor did p) fun r => exec (.settle p r)).toTask s := by
  refine fun _ => ⟨⟨hn, hlt⟩, fun _ => ?_⟩
  intro s1 hr1 hi1
  refine ⟨trivial, fun r s2 o hp _ _ s3 hr3 hi3 => ?_⟩
  have hr12 : Rely i s1 s2 := (inv_call (i := i) (c := .openSession did) hi1 hp).2 i
  obtain ⟨ho, hpr, hop⟩ := ((hr1.trans hr12).trans hr3).opener p (by simp [apply])
  have hu3 : s3.promises p = none := hpr.trans hu
  have hmem3 : (p, did) ∈ s3.opening := hop did hmem
  cases o with
  | error e =>
    refine fun _ => ⟨ho, fun _ _ => ⟨⟨ho, hu3, ?_⟩, fun _ => trivial⟩⟩
    exact fun id hid => nomatch hid
  | ok id =>
    have hf2 : s2.openedFor id = some did := by
      cases r <;> simp only [perform, Option.some.injEq, Prod.mk.injEq] at hp
      · obtain ⟨rfl, hid⟩ := hp
        cases hid
        simp
      · exact nomatch hp.2
    have hf3 : s3.openedFor id = some did := hr3.openedFor id did hf2
    simp only [Async.bind_run, read, Async.get_run]
    rw [Spec.safe_read]
    split
    · refine fun _ => ⟨ho, fun _ _ => ⟨⟨ho, hu3, ?_⟩, fun _ => trivial⟩⟩
      exact fun id hid => nomatch hid
    rename_i hb
    have hb' : s3.boundDid = some did := by simpa using hb
    refine fun _ => ⟨⟨ho, did, hmem3, hb', hf3⟩, fun _ _ => ⟨⟨ho, hu3, ?_⟩, fun _ => trivial⟩⟩
    intro id' hid'
    simp only [Except.ok.injEq] at hid'
    rw [← hid']
    rfl

theorem safe_getSession (i : Nat) (s : State) (hs : Inv s) :
    spec.Safe keepsInFlight i getSession.toTask s := by
  unfold getSession
  simp only [Async.toTask, Async.bind_run, read, Async.get_run]
  rw [Spec.safe_read]
  split
  · exact trivial
  split
  · exact trivial
  rename_i did hb
  split
  · rename_i id hl
    exact fun _ => ⟨hl, fun _ => trivial⟩
  rename_i hl
  split
  · rename_i p hf
    refine fun _ => ⟨fun id hid => ?_, fun _ => ?_⟩
    · have := hs.cached p id hf hid
      rw [hl] at this
      simp at this
    · refine safe_awaitPromise (mem_append_right _ (mem_singleton.2 rfl)) ?_ fun _ _ _ => trivial
      exact fun k' s' hi' hw' hk' => hk' s' hi' hw' rfl
  · rename_i hf
    obtain ⟨hfo, hfp⟩ := hs.fresh s.nextPromise (Nat.le_refl _)
    refine fun _ => ⟨⟨hb, hl, hf⟩, fun _ _ => ⟨fun id hid => ?_, fun _ => ⟨fun c _ _ => ?_, ?_⟩⟩⟩
    · exact nomatch hfp.symm.trans hid
    · exact safe_openFor hfo (Nat.lt_succ_self _) (mem_append_right _ (mem_singleton.2 rfl)) hfp
    intro s1 hr1 _
    refine safe_awaitPromise (hr1.waiting _ ?_) ?_ fun _ _ _ => trivial
    · exact mem_append_right _ (mem_singleton.2 rfl)
    · exact fun k' s' hi' hw' hk' _ => ⟨trivial, fun hi'' => hk' _ hi'' hw' rfl⟩

theorem safe_prog (c : Cmd) (i : Nat) (s : State) (hs : Inv s) :
    spec.Safe keepsInFlight i (prog c) s := by
  cases c with
  | bindIdentity did | dropSession => exact fun _ => ⟨trivial, fun _ => trivial⟩
  | getSession => exact safe_getSession i s hs

def Init (s : State) : Prop := s = State.init

theorem init_init : Init State.init := rfl

theorem inv_init : Inv State.init := by
  constructor <;> simp [State.init]

theorem Inv.oneSession (hs : Inv s) : OneSession s where
  noLeak id hid := (hs.noLeak id hid).imp (fun h => ⟨h, hs.live id h⟩) fun h => h
  resolved := hs.resolved
  oneOpen did _ := by
    have hsub := (filter_sublist (p := fun o => decide (o.2 = did)) (l := s.opening)).map snd
    have hnd := hs.distinct.sublist hsub
    have hall : ∀ d ∈ (s.opening.filter fun o => decide (o.2 = did)).map snd, d = did := by
      intro d hd
      obtain ⟨o, ho, rfl⟩ := mem_map.1 hd
      simpa using (mem_filter.1 ho).2
    rw [← length_map]
    rw [← count_eq_length.2 fun d hd => (hall d hd).symm]
    exact nodup_iff_count_le_one.1 hnd did

/-- **One session per identity.** In every run in which `inFlight` is forgotten only while no open
    runs for the bound identity, and no rebind comes between a cached open and its callers, no
    session leaks, `getSession` resolves to sessions of the bound identity, and at most one open
    is in flight for it. -/
theorem oneSession_of_keepsInFlight {w : Sys machine} (h : Reach keepsInFlight prog Init w) :
    OneSession w.state := by
  have hinit : ∀ s, Init s → Inv s := fun s hs => by rw [hs]; exact inv_init
  have hpool := spec_sound.reach hinit (fun _ _ _ => trivial)
    (fun c i s hs _ => safe_prog c i s hs) h
  exact Inv.oneSession hpool.inv

/-! ## A dropped open leaks its session -/

/-- `dropSession` while the first open is in flight, and a second `getSession`. -/
def droppedMidOpen : List (Move machine Cmd) :=
  [.start (.bindIdentity (some "did:zhtp:a")), .start .getSession, .start .dropSession,
   .start .getSession, .perform 2 .ok, .resume 2, .perform 5 .ok, .resume 5]

theorem not_oneSession :
    ¬ ∀ w : Sys machine, Reach Cond.any prog Init w → OneSession w.state := by
  intro hall
  have hw : ((Sys.idle State.init).run Cond.any prog droppedMidOpen).map
      (fun w => (w.state.processed, w.state.liveSessionId, w.state.closed))
      = some ([0, 1], some 1, []) := by decide
  rw [Option.map_eq_some_iff] at hw
  obtain ⟨w, hrun, hobs⟩ := hw
  simp only [Prod.mk.injEq] at hobs
  obtain ⟨hproc, hlive, hclosed⟩ := hobs
  -- session 0 is neither cached nor closed
  have hleak := (hall w (.of_run init_init hrun)).noLeak 0 (by rw [hproc]; decide)
  rw [hlive, hclosed] at hleak
  rcases hleak with ⟨h, _⟩ | h
  · exact nomatch h
  · exact nomatch h

/-- Two callers share one open, then the identity signs out and another one signs in. -/
def sharedOpen : List (Move machine Cmd) :=
  [.start (.bindIdentity (some "did:zhtp:a")), .start .getSession, .start .getSession,
   .perform 2 .ok, .resume 2, .perform 1 .ok, .perform 3 .ok, .resume 1, .resume 3,
   .start (.bindIdentity none), .start (.bindIdentity (some "did:zhtp:b")), .start .getSession,
   .perform 7 .ok, .resume 7]

theorem oneSession_sharedOpen :
    ∃ w : Sys machine, (Sys.idle State.init).run keepsInFlight prog sharedOpen = some w ∧
      w.state.resolved = [(0, some "did:zhtp:a"), (0, some "did:zhtp:a")] ∧
      w.state.closed = [0] ∧ w.state.liveSessionId = some 1 ∧ OneSession w.state := by
  have hw : ((Sys.idle State.init).run keepsInFlight prog sharedOpen).map
      (fun w => (w.state.resolved, w.state.closed, w.state.liveSessionId))
      = some ([(0, some "did:zhtp:a"), (0, some "did:zhtp:a")], [0], some 1) := by decide
  rw [Option.map_eq_some_iff] at hw
  obtain ⟨w, hrun, hobs⟩ := hw
  simp only [Prod.mk.injEq] at hobs
  obtain ⟨hres, hclosed, hlive⟩ := hobs
  exact ⟨w, hrun, hres, hclosed, hlive, oneSession_of_keepsInFlight (.of_run init_init hrun)⟩

end QuicSessionManager
