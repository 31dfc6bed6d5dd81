import SovereignMobile.Messaging.Runs

/-! # Sessions the peer has been told about

`initSendSession` puts a new session into `sendSessionByDid` before it ships the `KeyExchange`, and
leaves it there when the relay does not take it. So every first contact passes through a state in
which the cache offers a session that nobody has been told about. What is restored from a blob has
been announced: a blob is written after the `KeyExchange` was accepted. -/

namespace Messaging

open EventLoop List

/-- The relay has accepted the `KeyExchange` of the generation. -/
def State.Announced (s : State) (g : Gen) : Prop :=
  ∃ e ∈ s.accepted, e.contentType = .keyExchange ∧ e.gen = g

/-- Only announced sessions are cached, and only such sessions were sealed with. -/
structure OnlyAnnounced (s : State) : Prop where
  cached : ∀ me did sid, (s.client me).send.sendSessionByDid did = some sid →
    ∃ ses, (s.client me).send.native sid = some ses ∧ s.Announced ses.gen
  sealed : ∀ e ∈ s.sealed, s.Announced e.gen

/-- No handshake gets as far as a new session. -/
def restoresOnly : Cond machine where
  op _ _ _ := true
  call _ _ c o :=
    match c, o with
    | .initiateSession _ _ _, .ok _ => false
    | _, _ => true

/-! ## What holds at every moment -/

/-- Everything that a session can be made of is announced. -/
structure AllAnnounced (s : State) : Prop where
  client : ∀ me, (s.client me).send.EverySession fun g _ => s.Announced g
  sealed : ∀ e ∈ s.sealed, s.Announced e.gen

variable {s : State} {me : Did}

theorem AllAnnounced.modifySend {f : SendSide → SendSide} (h : AllAnnounced s)
    (hf : (f (s.client me).send).EverySession fun g _ => s.Announced g) :
    AllAnnounced (s.modifySend me f) :=
  ⟨State.forall_modify (P := fun _ c => c.send.EverySession fun g _ => s.Announced g) h.client hf, h.sealed⟩

theorem AllAnnounced.modifyRecv {f : RecvSide → RecvSide} (h : AllAnnounced s) :
    AllAnnounced (s.modifyRecv me f) :=
  ⟨State.forall_modify (P := fun _ c => c.send.EverySession fun g _ => s.Announced g) h.client (h.client me),
    h.sealed⟩

theorem Call.Effect.allAnnounced {i : Nat} {s' : State} {c : Call} {v : Ret c} (h : AllAnnounced s)
    (hp : c.Pre i s) (he : Call.Effect i s c s') (hc : restoresOnly.call i s c (.ok v) = true) :
    AllAnnounced s' := by
  cases he with
  | none => exact h
  | relayed e =>
    have hA : ∀ g, s.Announced g → State.Announced { s with accepted := s.accepted ++ [e] } g :=
      fun g ⟨e', he', hk⟩ => ⟨e', mem_append_left _ he', hk⟩
    exact ⟨fun me => (h.client me).mono fun g _ => hA g, fun e' he' => hA _ (h.sealed e' he')⟩
  | initiated me did remote => simp [restoresOnly] at hc
  | keyExchange me remote gen => exact ⟨h.client, h.sealed⟩
  | text me sid body ses t hses =>
    refine ⟨(h.modifySend ((h.client me).seal hses)).client, fun e he => ?_⟩
    rcases mem_append.1 he with he | he
    · exact h.sealed e he
    rw [mem_singleton] at he
    subst he
    exact (h.client me).native sid ses hses
  | restored me blob => exact h.modifySend ((h.client me).deserialize hp)
  | position me sid e ses _ => exact h.modifySend ⟨(h.client me).1, (h.client me).2, (h.client me).3⟩
  | accepted | rekeyed | opened => exact h.modifyRecv

/-! ## Runs -/

/-- The app was launched with blobs of announced sessions, after sealing with such sessions only. -/
structure AnnouncedInit (s : State) : Prop where
  launched : Launched s
  blobs : ∀ me did blob, (s.client me).send.blobs did = some blob → s.Announced blob.gen
  sealed : ∀ e ∈ s.sealed, s.Announced e.gen

theorem AnnouncedInit.allAnnounced (h : AnnouncedInit s) : AllAnnounced s where
  client me := (h.launched me).everySession (h.blobs me)
  sealed := h.sealed

theorem AllAnnounced.onlyAnnounced (hi : s.Inv) (h : AllAnnounced s) : OnlyAnnounced s where
  cached me did sid hd := by
    obtain ⟨ses, hses, -⟩ := (hi me).send.cached did sid hd
    exact ⟨ses, hses, (h.client me).native sid ses hses⟩
  sealed := h.sealed

/-- **Only announced sessions are used.** In every run in which no handshake gets as far as a new
    session, every cached session is one whose `KeyExchange` the relay has accepted, and so is the
    session of every sealed `Text`. -/
theorem onlyAnnounced_of_restoresOnly {w : Sys machine}
    (h : Reach restoresOnly prog AnnouncedInit w) : OnlyAnnounced w.state := by
  obtain ⟨hi, hj, -⟩ := invariant_of_reach
    (fun s hs => ⟨hs.launched, hs.allAnnounced⟩)
    (fun i s me o _ hj _ hp =>
      ⟨State.forall_modify (P := fun _ c => c.send.EverySession fun g _ => s.Announced g) hj.client
        (ClientOp.everySession_apply (hj.client me) hp), hj.sealed⟩)
    (fun s ms hj => ⟨hj.client, hj.sealed⟩)
    (fun i s c s' v _ hj hp he hc => he.allAnnounced hj hp hc) h
  exact hj.onlyAnnounced hi

/-! ## A handshake that the relay does not take -/

theorem announcedInit_fresh (now : Nat) : AnnouncedInit (State.fresh now) where
  launched := launched_fresh now
  blobs me did blob hb := absurd hb (by simp [State.fresh, Client.fresh])
  sealed e he := absurd he (by simp [State.fresh])

/-- The `KeyExchange` of the first message does not get through; the second message is sealed with
    the session all the same. -/
def lostKeyExchange : List (Move machine Cmd) :=
  [.start (.sendTextMessage alice bob "one" 1), .perform 1 .ok, .resume 1,
   .perform 1 (.response ⟨bob, "bob", "pk"⟩), .resume 1, .perform 1 .ok, .resume 1,
   .perform 1 .ok, .resume 1, .perform 1 (.stamped 1), .resume 1,
   .perform 1 (.fail (.http none)), .resume 1, .perform 0 .ok, .resume 0, .perform 0 .ok, .resume 0,
   .start (.sendTextMessage alice bob "two" 2), .perform 2 .ok, .resume 2,
   .perform 2 (.stamped 2), .resume 2]

theorem not_onlyAnnounced :
    ¬ ∀ w : Sys machine, Reach Cond.any prog AnnouncedInit w → OnlyAnnounced w.state := by
  intro hall
  have hw : ((Sys.idle (State.fresh 1000000)).run Cond.any prog lostKeyExchange).map
      (fun w => (State.accepted w.state, (State.sealed w.state).map Envelope.contentType))
      = some ([], [.text]) := by decide
  rw [Option.map_eq_some_iff] at hw
  obtain ⟨w, hrun, hobs⟩ := hw
  simp only [Prod.mk.injEq] at hobs
  obtain ⟨hacc, hsealed⟩ := hobs
  obtain ⟨e, he, -⟩ := map_eq_singleton_iff.1 hsealed
  obtain ⟨a, ha, -⟩ := (hall w (.of_run (announcedInit_fresh _) hrun)).sealed e (by rw [he]; simp)
  rw [hacc] at ha
  simp at ha

theorem announcedInit_paired : AnnouncedInit State.paired where
  launched := launched_paired
  blobs me did blob hb := by
    rcases sendBlobs_paired hb with ⟨-, -, rfl⟩ | ⟨-, -, rfl⟩
    · exact ⟨pairedKeyExchange alice bob 0, by simp [State.paired], rfl, rfl⟩
    · exact ⟨pairedKeyExchange bob alice 1, by simp [State.paired], rfl, rfl⟩
  sealed e he := absurd he (by simp [State.paired])

/-- A message over the session that was persisted at an earlier launch. -/
def restoredSend : List (Move machine Cmd) :=
  [.start (.sendTextMessage alice bob "one" 1), .perform 1 .ok, .resume 1, .perform 1 .ok, .resume 1,
   .perform 0 .ok, .resume 0, .perform 0 .ok, .resume 0, .perform 0 (.stamped 1), .resume 0]

theorem onlyAnnounced_restoredSend :
    ∃ w : Sys machine,
      (Sys.idle (M := machine) State.paired).run restoresOnly prog restoredSend = some w ∧
      (State.client w.state alice).send.sendSessionByDid bob = some 0 ∧
      (State.sealed w.state).map Envelope.sequence = [0] ∧ OnlyAnnounced w.state := by
  have hw : ((Sys.idle State.paired).run restoresOnly prog restoredSend).map
      (fun w => ((State.client w.state alice).send.sendSessionByDid bob,
        (State.sealed w.state).map Envelope.sequence)) = some (some 0, [0]) := by decide
  rw [Option.map_eq_some_iff] at hw
  obtain ⟨w, hrun, hobs⟩ := hw
  simp only [Prod.mk.injEq] at hobs
  exact ⟨w, hrun, hobs.1, hobs.2,
    onlyAnnounced_of_restoresOnly (.of_run announcedInit_paired hrun)⟩

end Messaging
