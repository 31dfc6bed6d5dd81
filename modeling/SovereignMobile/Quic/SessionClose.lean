import SovereignMobile.Quic.NativeSessions

/-! # Closing a session that is in use

`closeSession` waits for the readers that it finds, each for a limited time, and for nothing else. What
is in use when it takes the session out of the map is in use when it closes it; what is not can no
longer come into use, since every use begins with a look into the map. -/

namespace NativeSessions

open Threads List Option

/-! ## What a step can do -/

/-- The two states differ only in flags. -/
structure Same (s s' : State) : Prop where
  sessions : s'.sessions = s.sessions
  inboundStreams : s'.inboundStreams = s.inboundStreams
  closed : s'.closed = s.closed
  nextSession : s'.nextSession = s.nextSession
  nextStream : s'.nextStream = s.nextStream

theorem Same.refl (s : State) : Same s s := ⟨rfl, rfl, rfl, rfl, rfl⟩

/-- `t'` stands where `t` stood, for all that matters to a session. -/
structure Stays (t t' : Thread) : Prop where
  uses : t'.uses = t.uses
  stream : t'.stream = t.stream
  closes : t'.closes = t.closes

inductive Outcome (s : State) : Thread → State → List Thread → Prop where
  | ends (t : Thread) (s' : State) : Same s s' → Outcome s t s' []
  | goesOn (t t' : Thread) (s' : State) : Same s s' → Stays t t' → Outcome s t s' [t']
  | opens : Outcome s .openingSession s.addSession []
  | registers (session : Nat) : Outcome s (.registering session) (s.register session)
      [.readerLoop session s.nextStream]
  | leaves (session stream : Nat) : Outcome s (.readerClosing session stream) (s.unregister stream)
      [.readerExiting stream]
  | removes (session : Nat) : Outcome s (.awaiting session []) (s.removeSession session)
      (if session ∈ s.sessions then [.removed session] else [])
  | closes (session : Nat) : Outcome s (.removed session)
      { s with closed := session :: s.closed } [.closing session]

variable {t : Thread} {x : Input} {s s' : State} {ts threads pre post : List Thread}
    {w : Pool State Thread} {session : Nat}

theorem step_outcome (h : step t x s = some (s', ts)) : Outcome s t s' ts := by
  have hstays : ∀ {t t' : Thread}, t'.uses = t.uses → t'.stream = t.stream →
      t'.closes = t.closes → Outcome s t s [t'] :=
    fun h1 h2 h3 => .goesOn _ _ s (Same.refl s) ⟨h1, h2, h3⟩
  unfold step at h
  split at h
  · rename_i found
    cases h
    cases found with
    | true => exact .opens
    | false => exact .ends _ _ (Same.refl s)
  · split at h
    · cases h
      exact .ends _ _ (Same.refl s)
    · cases h
      exact hstays rfl rfl rfl
  · cases h
    exact .ends _ _ (Same.refl s)
  · split at h
    · cases h
      exact .ends _ _ (Same.refl s)
    · cases h
      exact hstays rfl rfl rfl
  · rename_i found
    cases h
    cases found with
    | true => exact hstays rfl rfl rfl
    | false => exact .ends _ _ (Same.refl s)
  · cases h
    exact .registers _
  · cases h
    split <;> exact hstays rfl rfl rfl
  · rename_i frame
    cases h
    cases frame <;> exact hstays rfl rfl rfl
  · cases h
    exact .leaves _ _
  · cases h
    exact .ends _ _ ⟨rfl, rfl, rfl, rfl, rfl⟩
  · cases h
    exact hstays rfl rfl rfl
  · cases h
    exact .goesOn _ _ _ ⟨rfl, rfl, rfl, rfl, rfl⟩ ⟨rfl, rfl, rfl⟩
  · split at h
    · cases h
      exact hstays rfl rfl rfl
    · simp at h
  · cases h
    exact hstays rfl rfl rfl
  · cases h
    exact .removes _
  · split at h
    · cases h
      exact .ends _ _ (Same.refl s)
    · cases h
      exact .closes _
  · cases h
    exact .ends _ _ (Same.refl s)
  · simp at h

/-! ## The condition -/

/-- The task of a call of `rpc` or `openInbound` that has the session. -/
def Thread.task : Thread → Option Nat
  | .rpcQueued session => some session
  | .rpc session => some session
  | .openInboundQueued session => some session
  | .openInbound session => some session
  | .registering session => some session
  | _ => none

/-- `inboundStreams` has no reader of the session, and no call of `rpc` or `openInbound` that has it is
    queued or running. -/
def unused (w : Pool State Thread) (session : Nat) : Bool :=
  (w.shared.attached session).isEmpty && w.threads.all fun t => t.task ≠ some session

/-- This is so of every session that is taken out of the map. -/
def closesUnused : Cond State Thread Call Input := fun w m =>
  match m with
  | .call _ => true
  | .step n _ =>
    match w.threads[n]? with
    | some (.awaiting session []) => session ∉ w.shared.sessions || unused w session
    | _ => true

/-! ## The invariant -/

/-- The session is out of the map for good, and no thread uses it. -/
def Gone (w : Pool State Thread) (session : Nat) : Prop :=
  session < w.shared.nextSession ∧ session ∉ w.shared.sessions ∧
    ∀ t ∈ w.threads, t.uses ≠ some session

structure Inv (w : Pool State Thread) : Prop where
  sessions : ∀ session ∈ w.shared.sessions, session < w.shared.nextSession
  streams : (w.threads.filterMap Thread.stream).Nodup
  streamsLt : ∀ t ∈ w.threads, ∀ stream, t.stream = some stream → stream < w.shared.nextStream
  registered : ∀ t ∈ w.threads, ∀ stream session, t.stream = some stream → t.uses = some session →
    (stream, session) ∈ w.shared.inboundStreams
  closing : ∀ t ∈ w.threads, ∀ session, t.closes = some session → Gone w session
  closed : ∀ session ∈ w.shared.closed, Gone w session

theorem Inv.noneInUse (h : Inv w) : NoneInUse w :=
  fun session hs => (h.closed session hs).2.2

theorem Gone.mono {w' : Pool State Thread} (h : Gone w session)
    (hn : w.shared.nextSession ≤ w'.shared.nextSession)
    (hs : ∀ x ∈ w'.shared.sessions, x ∈ w.shared.sessions ∨ w.shared.nextSession ≤ x)
    (hu : ∀ t' ∈ w'.threads, ∀ x, t'.uses = some x →
      (∃ t ∈ w.threads, t.uses = some x) ∨ x ∈ w.shared.sessions) : Gone w' session := by
  obtain ⟨hlt, hnot, huses⟩ := h
  refine ⟨Nat.lt_of_lt_of_le hlt hn, fun hmem => ?_, fun t' ht' huse => ?_⟩
  · rcases hs session hmem with hmem | hle
    · exact hnot hmem
    · omega
  · rcases hu t' ht' session huse with ⟨t, ht, huse⟩ | hmem
    · exact huses t ht huse
    · exact hnot hmem

theorem Inv.same (h : Inv ⟨s, threads⟩) (hs : Same s s') : Inv ⟨s', threads⟩ := by
  obtain ⟨h1, h2, h3, h4, h5⟩ := hs
  have hgone : ∀ {session}, Gone ⟨s, threads⟩ session → Gone ⟨s', threads⟩ session := by
    intro session hg
    refine hg.mono (Nat.le_of_eq h4.symm) (fun x hx => .inl (h1 ▸ hx)) fun t ht x hx => ?_
    exact .inl ⟨t, ht, hx⟩
  refine ⟨?_, h.streams, ?_, ?_, fun t ht x hx => hgone (h.closing t ht x hx), fun x hx => ?_⟩
  · show ∀ session ∈ s'.sessions, session < s'.nextSession
    rw [h1, h4]
    exact h.sessions
  · show ∀ t ∈ threads, ∀ stream, t.stream = some stream → stream < s'.nextStream
    rw [h5]
    exact h.streamsLt
  · show ∀ t ∈ threads, ∀ stream session, t.stream = some stream → t.uses = some session →
      (stream, session) ∈ s'.inboundStreams
    rw [h2]
    exact h.registered
  · have hx' : x ∈ s'.closed := hx
    rw [h3] at hx'
    exact hgone (h.closed x hx')

section Pools
variable {s : State} {pre post : List Thread} {t : Thread}

theorem mem_of_mem_others {u : Thread} (h : u ∈ pre ++ post) : u ∈ pre ++ t :: post :=
  (append_sublist_append_left pre |>.2 (sublist_cons_self t post)).subset h

variable {stream session : Nat}

theorem streams_middle (h : t.stream = some stream) :
    ((pre ++ t :: post).filterMap Thread.stream).Nodup ↔
      (stream :: (pre ++ post).filterMap Thread.stream).Nodup := by
  rw [filterMap_append, filterMap_cons_some h, nodup_middle, filterMap_append]

/-- A thread ends. -/
theorem Inv.drop (h : Inv ⟨s, pre ++ t :: post⟩) : Inv ⟨s, pre ++ post⟩ := by
  have hgone : ∀ {session}, Gone ⟨s, pre ++ t :: post⟩ session → Gone ⟨s, pre ++ post⟩ session :=
    fun hg => hg.mono (Nat.le_refl _) (fun x hx => .inl hx) fun u hu x hx =>
      .inl ⟨u, mem_of_mem_others hu, hx⟩
  refine ⟨h.sessions, ?_, fun u hu => h.streamsLt u (mem_of_mem_others hu),
    fun u hu => h.registered u (mem_of_mem_others hu),
    fun u hu x hx => hgone (h.closing u (mem_of_mem_others hu) x hx),
    fun x hx => hgone (h.closed x hx)⟩
  have hsub : (pre ++ post).Sublist (pre ++ t :: post) :=
    append_sublist_append_left pre |>.2 (sublist_cons_self t post)
  exact h.streams.sublist (hsub.filterMap Thread.stream)

/-- A thread goes on, and stands for the same. -/
theorem Inv.replace {t' : Thread} (h : Inv ⟨s, pre ++ t :: post⟩) (hstay : Stays t t') :
    Inv ⟨s, pre ++ t' :: post⟩ := by
  have hold : ∀ u ∈ pre ++ t' :: post, ∃ u' ∈ pre ++ t :: post, Stays u' u := by
    intro u hu
    rcases mem_append.1 hu with hu | hu
    · exact ⟨u, mem_append_left _ hu, rfl, rfl, rfl⟩
    rcases mem_cons.1 hu with rfl | hu
    · exact ⟨t, by simp, hstay⟩
    · exact ⟨u, by simp [hu], rfl, rfl, rfl⟩
  have hgone : ∀ {session}, Gone ⟨s, pre ++ t :: post⟩ session →
      Gone ⟨s, pre ++ t' :: post⟩ session := by
    intro session hg
    refine hg.mono (Nat.le_refl _) (fun x hx => .inl hx) fun u hu x hx => ?_
    obtain ⟨u', hu', hs⟩ := hold u hu
    exact .inl ⟨u', hu', hs.uses ▸ hx⟩
  refine ⟨h.sessions, ?_, fun u hu k hk => ?_, fun u hu k x hk hx => ?_, fun u hu x hx => ?_,
    fun x hx => hgone (h.closed x hx)⟩
  · have hstreams := h.streams
    rw [filterMap_append, filterMap_cons] at hstreams ⊢
    rw [hstay.stream]
    exact hstreams
  · obtain ⟨u', hu', hs⟩ := hold u hu
    exact h.streamsLt u' hu' k (hs.stream ▸ hk)
  · obtain ⟨u', hu', hs⟩ := hold u hu
    exact h.registered u' hu' k x (hs.stream ▸ hk) (hs.uses ▸ hx)
  · obtain ⟨u', hu', hs⟩ := hold u hu
    exact hgone (h.closing u' hu' x (hs.closes ▸ hx))

/-! ## Steps that change the maps -/

theorem Inv.addSession {threads : List Thread} (h : Inv ⟨s, threads⟩) :
    Inv ⟨s.addSession, threads⟩ := by
  have hgone : ∀ {session}, Gone ⟨s, threads⟩ session → Gone ⟨s.addSession, threads⟩ session := by
    refine fun hg => hg.mono (Nat.le_succ _) (fun x hx => ?_) fun u hu x hx => .inl ⟨u, hu, hx⟩
    rcases mem_cons.1 hx with rfl | hx
    · exact .inr (Nat.le_refl _)
    · exact .inl hx
  refine ⟨fun x hx => ?_, h.streams, h.streamsLt, h.registered,
    fun t ht x hx => hgone (h.closing t ht x hx), fun x hx => hgone (h.closed x hx)⟩
  rcases mem_cons.1 hx with rfl | hx
  · exact Nat.lt_succ_self _
  · exact Nat.lt_succ_of_lt (h.sessions x hx)

/-- A reader starts, on a stream that no other one has. -/
theorem Inv.register (h : Inv ⟨s, pre ++ .registering session :: post⟩) :
    Inv ⟨s.register session, pre ++ .readerLoop session s.nextStream :: post⟩ := by
  have hold : ∀ u ∈ pre ++ .readerLoop session s.nextStream :: post,
      u = .readerLoop session s.nextStream ∨ u ∈ pre ++ .registering session :: post := by
    intro u hu
    rcases mem_append.1 hu with hu | hu
    · exact .inr (mem_append_left _ hu)
    rcases mem_cons.1 hu with rfl | hu
    · exact .inl rfl
    · exact .inr (by simp [hu])
  have hgone : ∀ {x}, Gone ⟨s, pre ++ .registering session :: post⟩ x →
      Gone ⟨s.register session, pre ++ .readerLoop session s.nextStream :: post⟩ x := by
    refine fun hg => hg.mono (Nat.le_refl _) (fun x hx => .inl hx) fun u hu x hx => .inl ?_
    rcases hold u hu with rfl | hu
    · exact ⟨.registering session, by simp, hx⟩
    · exact ⟨u, hu, hx⟩
  refine ⟨h.sessions, ?_, fun u hu k hk => ?_, fun u hu k x hk hx => ?_, fun u hu x hx => ?_,
    fun x hx => hgone (h.closed x hx)⟩
  · have hstreams := h.streams
    have hfresh : s.nextStream ∉ (pre ++ .registering session :: post).filterMap Thread.stream := by
      intro hmem
      obtain ⟨u, hu, hk⟩ := mem_filterMap.1 hmem
      exact Nat.lt_irrefl _ (h.streamsLt u hu _ hk)
    have hnone : (pre ++ .registering session :: post).filterMap Thread.stream =
        (pre ++ post).filterMap Thread.stream := by
      rw [filterMap_append, filterMap_cons_none rfl, filterMap_append]
    rw [hnone] at hfresh
    exact (streams_middle rfl).2 (nodup_cons.2 ⟨hfresh, hnone ▸ hstreams⟩)
  · rcases hold u hu with rfl | hu
    · exact some.inj hk ▸ Nat.lt_succ_self _
    · exact Nat.lt_succ_of_lt (h.streamsLt u hu k hk)
  · rcases hold u hu with rfl | hu
    · cases hk
      cases hx
      exact mem_cons_self
    · exact mem_cons_of_mem _ (h.registered u hu k x hk hx)
  · rcases hold u hu with rfl | hu
    · simp [Thread.closes] at hx
    · exact hgone (h.closing u hu x hx)

theorem Inv.unregister (h : Inv ⟨s, pre ++ .readerClosing session stream :: post⟩) :
    Inv ⟨s.unregister stream, pre ++ .readerExiting stream :: post⟩ := by
  have hdrop : Inv ⟨s, pre ++ post⟩ := h.drop
  have hmiddle : (stream :: (pre ++ post).filterMap Thread.stream).Nodup :=
    (streams_middle rfl).1 h.streams
  have hold : ∀ u ∈ pre ++ .readerExiting stream :: post,
      u = .readerExiting stream ∨ u ∈ pre ++ post := by
    intro u hu
    rcases mem_append.1 hu with hu | hu
    · exact .inr (mem_append_left _ hu)
    rcases mem_cons.1 hu with rfl | hu
    · exact .inl rfl
    · exact .inr (by simp [hu])
  have hgone : ∀ {x}, Gone ⟨s, pre ++ post⟩ x →
      Gone ⟨s.unregister stream, pre ++ .readerExiting stream :: post⟩ x := by
    refine fun hg => hg.mono (Nat.le_refl _) (fun x hx => .inl hx) fun u hu x hx => .inl ?_
    rcases hold u hu with rfl | hu
    · simp [Thread.uses] at hx
    · exact ⟨u, hu, hx⟩
  refine ⟨h.sessions, ?_, fun u hu k hk => ?_, fun u hu k x hk hx => ?_, fun u hu x hx => ?_,
    fun x hx => hgone (hdrop.closed x hx)⟩
  · show ((pre ++ .readerExiting stream :: post).filterMap Thread.stream).Nodup
    rw [filterMap_append, filterMap_cons_none rfl, ← filterMap_append]
    exact hdrop.streams
  · rcases hold u hu with rfl | hu
    · simp [Thread.stream] at hk
    · exact hdrop.streamsLt u hu k hk
  · rcases hold u hu with rfl | hother
    · simp [Thread.stream] at hk
    have hne : k ≠ stream := by
      rintro rfl
      exact (nodup_cons.1 hmiddle).1 (mem_filterMap.2 ⟨u, hother, hk⟩)
    refine mem_filter.2 ⟨hdrop.registered u hother k x hk hx, ?_⟩
    simpa using hne
  · rcases hold u hu with rfl | hu
    · simp [Thread.closes] at hx
    · exact hgone (hdrop.closing u hu x hx)

end Pools

/-- Whoever uses a session is a task that has it, or a reader. -/
theorem uses_cases (h : t.uses = some session) :
    t.task = some session ∨ ∃ stream, t.stream = some stream := by
  cases t with
  | readerLoop _ stream | reading _ stream | readerClosing _ stream => exact .inr ⟨stream, rfl⟩
  | _ => exact .inl h

theorem Inv.uses_of_unused (h : Inv w) (hu : unused w session = true) :
    ∀ t ∈ w.threads, t.uses ≠ some session := by
  rw [unused, Bool.and_eq_true, List.isEmpty_iff, List.all_eq_true] at hu
  intro t ht huse
  rcases uses_cases huse with htask | ⟨stream, hstream⟩
  · exact of_decide_eq_true (hu.2 t ht) htask
  have hmem : stream ∈ w.shared.attached session := by
    refine List.mem_map.2 ⟨(stream, session), List.mem_filter.2 ⟨?_, by simp⟩, rfl⟩
    exact h.registered t ht stream session hstream huse
  rw [hu.1] at hmem
  simp at hmem

/-- The session is taken out of the map while nothing uses it. -/
theorem Inv.remove (h : Inv ⟨s, pre ++ .awaiting session [] :: post⟩)
    (hu : session ∈ s.sessions → ∀ t ∈ pre ++ post, t.uses ≠ some session) :
    Inv ⟨s.removeSession session,
      pre ++ ((if session ∈ s.sessions then [.removed session] else []) ++ post)⟩ := by
  have hdrop : Inv ⟨s, pre ++ post⟩ := h.drop
  have hold : ∀ u ∈ pre ++ ((if session ∈ s.sessions then [.removed session] else []) ++ post),
      (u = .removed session ∧ session ∈ s.sessions) ∨ u ∈ pre ++ post := by
    intro u hu
    rcases mem_append.1 hu with hu | hu
    · exact .inr (mem_append_left _ hu)
    rcases mem_append.1 hu with hu | hu
    · split at hu
      · rename_i hmem
        exact .inl ⟨mem_singleton.1 hu, hmem⟩
      · simp at hu
    · exact .inr (mem_append_right _ hu)
  have hgone : ∀ {x}, Gone ⟨s, pre ++ post⟩ x → Gone ⟨s.removeSession session,
      pre ++ ((if session ∈ s.sessions then [.removed session] else []) ++ post)⟩ x := by
    refine fun hg => hg.mono (Nat.le_refl _) (fun x hx => ?_) fun u hu x hx => .inl ?_
    · exact .inl (mem_filter.1 hx).1
    rcases hold u hu with ⟨rfl, _⟩ | hu
    · simp [Thread.uses] at hx
    · exact ⟨u, hu, hx⟩
  refine ⟨fun x hx => h.sessions x (mem_filter.1 hx).1, ?_, fun u hu k hk => ?_,
    fun u hu k x hk hx => ?_, fun u hu' x hx => ?_, fun x hx => hgone (hdrop.closed x hx)⟩
  · have hstreams := hdrop.streams
    rw [filterMap_append] at hstreams
    rw [filterMap_append]
    split <;> exact hstreams
  · rcases hold u hu with ⟨rfl, _⟩ | hu
    · simp [Thread.stream] at hk
    · exact hdrop.streamsLt u hu k hk
  · rcases hold u hu with ⟨rfl, _⟩ | hu
    · simp [Thread.stream] at hk
    · exact hdrop.registered u hu k x hk hx
  rcases hold u hu' with ⟨rfl, hmem⟩ | hu'
  · cases hx
    refine ⟨h.sessions session hmem, fun hx => ?_, fun t ht huse => ?_⟩
    · exact absurd (mem_filter.1 hx).2 (by simp)
    rcases hold t ht with ⟨rfl, _⟩ | ht
    · simp [Thread.uses] at huse
    · exact hu hmem t ht huse
  · exact hgone (hdrop.closing u hu' x hx)

theorem Inv.close (h : Inv ⟨s, pre ++ .removed session :: post⟩) :
    Inv ⟨{ s with closed := session :: s.closed }, pre ++ .closing session :: post⟩ := by
  have hstay : Inv ⟨s, pre ++ .closing session :: post⟩ := h.replace ⟨rfl, rfl, rfl⟩
  have hgone : ∀ {x}, Gone ⟨s, pre ++ .closing session :: post⟩ x →
      Gone ⟨{ s with closed := session :: s.closed }, pre ++ .closing session :: post⟩ x :=
    fun hg => hg
  refine ⟨hstay.sessions, hstay.streams, hstay.streamsLt, hstay.registered, hstay.closing, ?_⟩
  intro x hx
  rcases mem_cons.1 hx with rfl | hx
  · exact hgone (hstay.closing (.closing x) (by simp) x rfl)
  · exact hgone (hstay.closed x hx)

theorem Inv.step (h : Inv ⟨s, pre ++ t :: post⟩)
    (hc : closesUnused ⟨s, pre ++ t :: post⟩ (.step pre.length x) = true)
    (hstep : Outcome s t s' ts) : Inv ⟨s', pre ++ (ts ++ post)⟩ := by
  cases hstep with
  | ends _ _ hsame => exact h.drop.same hsame
  | goesOn _ t' _ hsame hstay => exact (h.replace hstay).same hsame
  | opens => exact h.drop.addSession
  | registers session => exact h.register
  | leaves session stream => exact h.unregister
  | removes session =>
    refine h.remove fun hmem u hu => ?_
    have hunused : unused ⟨s, pre ++ .awaiting session [] :: post⟩ session = true := by
      simpa [closesUnused, hmem] using hc
    exact h.uses_of_unused hunused u (mem_of_mem_others hu)
  | closes session => exact h.close

/-- A call starts a thread that uses at most a session of the map. -/
theorem Inv.start (h : Inv ⟨s, threads⟩) (hts : ∀ t ∈ ts, t.stream = none ∧ t.closes = none ∧
      ∀ x, t.uses = some x → x ∈ s.sessions) : Inv ⟨s, threads ++ ts⟩ := by
  have hgone : ∀ {x}, Gone ⟨s, threads⟩ x → Gone ⟨s, threads ++ ts⟩ x := by
    refine fun hg => hg.mono (Nat.le_refl _) (fun x hx => .inl hx) fun u hu x hx => ?_
    rcases mem_append.1 hu with hu | hu
    · exact .inl ⟨u, hu, hx⟩
    · exact .inr ((hts u hu).2.2 x hx)
  refine ⟨h.sessions, ?_, fun u hu k hk => ?_, fun u hu k x hk hx => ?_, fun u hu x hx => ?_,
    fun x hx => hgone (h.closed x hx)⟩
  · have hnone : ts.filterMap Thread.stream = [] :=
      filterMap_eq_nil_iff.2 fun t ht => (hts t ht).1
    rw [filterMap_append, hnone, append_nil]
    exact h.streams
  · rcases mem_append.1 hu with hu | hu
    · exact h.streamsLt u hu k hk
    · exact nomatch (hts u hu).1.symm.trans hk
  · rcases mem_append.1 hu with hu | hu
    · exact h.registered u hu k x hk hx
    · exact nomatch (hts u hu).1.symm.trans hk
  · rcases mem_append.1 hu with hu | hu
    · exact hgone (h.closing u hu x hx)
    · exact nomatch (hts u hu).2.1.symm.trans hx

/-- A lookup that succeeds starts a task. -/
theorem Inv.startTask (h : Inv ⟨s, threads⟩) (hstream : t.stream = none) (hcloses : t.closes = none)
    (huses : t.uses = some session) :
    Inv ⟨s, threads ++ if session ∈ s.sessions then [t] else []⟩ := by
  refine h.start fun u hu => ?_
  split at hu
  · rename_i hmem
    rw [mem_singleton.1 hu]
    exact ⟨hstream, hcloses, fun x hx => some.inj (huses.symm.trans hx) ▸ hmem⟩
  · simp at hu

theorem Inv.call (h : Inv w) (c : Call) : Inv (w.call program c) := by
  obtain ⟨s, threads⟩ := w
  cases c with
  | openSession =>
    have hts : ∀ t ∈ [Thread.openingSession], t.stream = none ∧ t.closes = none ∧
        ∀ x, t.uses = some x → x ∈ s.sessions := by simp [Thread.stream, Thread.closes, Thread.uses]
    exact h.start hts
  | rpc | openInbound => exact h.startTask rfl rfl rfl
  | closeInbound stream =>
    have hsame : Same s (NativeSessions.call (.closeInbound stream) s).1 := by
      unfold NativeSessions.call
      dsimp only
      split
      · exact ⟨rfl, rfl, rfl, rfl, rfl⟩
      · exact .refl s
    exact (h.same hsame).start (by simp [program, NativeSessions.call])
  | closeSession session =>
    have hts : ∀ t ∈ [Thread.closeSession session], t.stream = none ∧ t.closes = none ∧
        ∀ x, t.uses = some x → x ∈ s.sessions := by simp [Thread.stream, Thread.closes, Thread.uses]
    exact h.start hts

theorem inv_initial : Inv ⟨State.initial, []⟩ where
  sessions _ h := absurd h (by simp [State.initial])
  streams := nodup_nil
  streamsLt _ h := nomatch h
  registered _ h := nomatch h
  closing _ h := nomatch h
  closed _ h := absurd h (by simp [State.initial])

/-- **No session is closed while in use.** In every run in which, whenever `closeSession` takes a session
    out of the map, no reader of it is left in `inboundStreams` and no call of `rpc` or `openInbound`
    that has it is queued or running. -/
theorem noneInUse_of_closesUnused {w : Pool State Thread}
    (h : Reach program closesUnused init w) : NoneInUse w := by
  have hinv : Inv w := by
    refine h.invariant ?_ (fun _ c _ ih _ => ih.call c) fun s pre t post x s' ts _ ih hc hstep =>
      ih.step hc (step_outcome hstep)
    rintro s rfl
    exact inv_initial
  exact hinv.noneInUse

/-- A session with a reader is closed; the reader is cancelled in its read, and is waited for. -/
def closeAfterReader : List (Move Call Input) :=
  [.call .openSession, .step 0 (.opened true), .call (.openInbound 0), .step 0 .go,
    .step 0 (.opened true), .step 0 .go, .step 0 .go, .call (.closeSession 0), .step 1 .go,
    .step 1 .go, .step 0 (.read (.frame [])), .step 0 .go, .step 0 .go, .step 0 .go, .step 0 .go,
    .step 0 .go, .step 0 .go]

theorem noneInUse_closeAfterReader : ∃ w, Reach program closesUnused init w ∧
    w.shared.closed = [0] ∧ w.shared.exited = [0] ∧ NoneInUse w := by
  have hrun : (Pool.run program closesUnused ⟨State.initial, []⟩ closeAfterReader).map
      (fun w => (w.shared.closed, w.shared.exited)) = some ([0], [0]) := by decide
  obtain ⟨w, hw, hsum⟩ := map_eq_some_iff.1 hrun
  obtain ⟨hclosed, hexited⟩ := Prod.mk.inj hsum
  have hreach : Reach program closesUnused init w := .of_run rfl hw
  exact ⟨w, hreach, hclosed, hexited, noneInUse_of_closesUnused hreach⟩

/-- An `rpc` is in the native call when the session is closed. -/
def closeDuringRpc : List (Move Call Input) :=
  [.call .openSession, .step 0 (.opened true), .call (.rpc 0), .step 0 .go, .call (.closeSession 0),
    .step 1 .go, .step 1 .go, .step 1 .go, .step 1 .go]

/-- A reader is in the native read when the wait for it ends, and the session is closed. -/
def closeDuringRead : List (Move Call Input) :=
  [.call .openSession, .step 0 (.opened true), .call (.openInbound 0), .step 0 .go,
    .step 0 (.opened true), .step 0 .go, .step 0 .go, .call (.closeSession 0), .step 1 .go,
    .step 1 .go, .step 1 .timeout, .step 1 .go, .step 1 .go]

theorem not_noneInUse :
    (∃ w, Reach program Cond.any init w ∧ ¬ NoneInUse w) ∧
    ∃ w, Reach program .any init w ∧ w.threads = [.reading 0 0, .closing 0] := by
  constructor
  · have hrun : (Pool.run program Cond.any ⟨State.initial, []⟩ closeDuringRpc).map
        (fun w => (w.threads, w.shared.closed)) = some ([.rpc 0, .closing 0], [0]) := by
      decide
    obtain ⟨w, hw, hsum⟩ := map_eq_some_iff.1 hrun
    obtain ⟨hthreads, hclosed⟩ := Prod.mk.inj hsum
    refine ⟨w, .of_run rfl hw, fun h => ?_⟩
    exact h 0 (by simp [hclosed]) (.rpc 0) (by simp [hthreads]) rfl
  · have hrun : (Pool.run program Cond.any ⟨State.initial, []⟩ closeDuringRead).map
        (fun w => w.threads) = some [.reading 0 0, .closing 0] := by decide
    obtain ⟨w, hw, hthreads⟩ := map_eq_some_iff.1 hrun
    exact ⟨w, .of_run rfl hw, hthreads⟩

end NativeSessions
