import SovereignMobile.Messaging.ClientInv
import SovereignMobile.Messaging.SessionOrigins

/-! # The module variables of the service

What one operation does to the maps that hold sessions, promises, cooldowns, desync marks and pending
buffers, and that the calls of the native library do nothing to them: a call at most adds a native session
with a new number. -/

namespace Identities

open Messaging EventLoop Option
open Function (update_of_ne)

/-! ## The client under operations -/

section Client
variable {n : Floor} {c c' : Client} {i known : Nat}

/-- The module variables of the service are the same. -/
structure SameMaps (c c' : Client) : Prop where
  sendSession : c'.send.sendSessionByDid = c.send.sendSessionByDid
  inFlight : c'.send.sendSessionInitInFlight = c.send.sendSessionInitInFlight
  promises : c'.send.promises = c.send.promises
  nextPromise : c'.send.nextPromise = c.send.nextPromise
  recvSession : c'.recv.recvSessionByDid = c.recv.recvSessionByDid
  recovery : c'.health.recoveryAttemptAt = c.health.recoveryAttemptAt
  desynced : c'.health.desyncedDids = c.health.desyncedDids
  pending : c'.pending.pendingDecryptByDid = c.pending.pendingDecryptByDid

theorem SameMaps.refl (c : Client) : SameMaps c c := ⟨rfl, rfl, rfl, rfl, rfl, rfl, rfl, rfl⟩

theorem SameMaps.from (h : SameMaps c c') (hc : From n c) : From n c' where
  send did sid hd := hc.send did sid (h.sendSession ▸ hd)
  recv did sid hd := hc.recv did sid (h.recvSession ▸ hd)
  inFlight did p hd := hc.inFlight did p (h.inFlight ▸ hd)
  nextPromise := h.nextPromise ▸ hc.nextPromise

/-- The entries of one peer are the same. -/
structure SameAt (did : Did) (c c' : Client) : Prop where
  sendSession : c'.send.sendSessionByDid did = c.send.sendSessionByDid did
  inFlight : c'.send.sendSessionInitInFlight did = c.send.sendSessionInitInFlight did
  recvSession : c'.recv.recvSessionByDid did = c.recv.recvSessionByDid did
  recovery : c'.health.recoveryAttemptAt did = c.health.recoveryAttemptAt did
  desynced : c'.health.desyncedDids did = c.health.desyncedDids did
  pending : c'.pending.pendingDecryptByDid did = c.pending.pendingDecryptByDid did

theorem SameMaps.at (h : SameMaps c c') (did : Did) : SameAt did c c' :=
  ⟨congrFun h.sendSession did, congrFun h.inFlight did, congrFun h.recvSession did,
    congrFun h.recovery did, congrFun h.desynced did, congrFun h.pending did⟩

variable {did : Did} {o : ClientOp}

theorem SameAt.quiet (h : SameAt did c c') : quiet c' did = quiet c did := by
  unfold Identities.quiet unmarked
  rw [h.sendSession, h.inFlight, h.recvSession, h.recovery, h.desynced, h.pending]

theorem sameMaps_clearAll (c : Client) : SameMaps c (clearAll c) :=
  ⟨rfl, rfl, rfl, rfl, rfl, rfl, rfl, rfl⟩

theorem sameMaps_hydrateFromBlob (blob : Blob) (c : Client) : SameMaps c (hydrateFromBlob blob c) :=
  ⟨rfl, rfl, rfl, rfl, rfl, rfl, rfl, rfl⟩

/-- What `beginRestore` changes is history. -/
theorem apply_beginRestore (i : Nat) (did : Did) (c : Client) : ∃ restoring,
    (ClientOp.send (.beginRestore did)).apply i c =
      { c with send := { c.send with restoring := restoring } } := by
  cases hb : c.send.blobs did with
  | none =>
    have hsame : c.send.beginRestore i did = c.send := by simp only [SendSide.beginRestore, hb]
    exact ⟨c.send.restoring, congrArg (fun send => { c with send := send }) hsame⟩
  | some blob =>
    have hbegun : c.send.beginRestore i did =
        { c.send with restoring := c.send.restoring ++ [⟨i, did, blob, none⟩] } := by
      simp only [SendSide.beginRestore, hb]
    exact ⟨_, congrArg (fun send => { c with send := send }) hbegun⟩

theorem nextNative_apply (o : ClientOp) (dir : SessionDir) :
    nextNative (o.apply i c) dir = nextNative c dir := by
  cases dir with
  | send =>
    cases o with
    | send o =>
      cases o with
      | beginRestore did =>
        obtain ⟨restoring, he⟩ := apply_beginRestore i did c
        rw [he]
        rfl
      | _ => rfl
    | _ => rfl
  | recv =>
    cases o with
    | recv o => cases o <;> rfl
    | _ => rfl

/-- A promise is settled by the operation that says so only. -/
theorem promises_apply {p : PromiseId} {r : Except Err Nat}
    (h : (o.apply i c).send.promises p = some r) :
    c.send.promises p = some r ∨ o = .send (.settle p r) := by
  cases o with
  | send o =>
    cases o with
    | settle p' r' =>
      rcases update_some h with hold | ⟨rfl, hr⟩
      · exact .inl hold
      · exact .inr (by rw [some.inj hr])
    | beginRestore did =>
      obtain ⟨restoring, he⟩ := apply_beginRestore i did c
      rw [he] at h
      exact .inl h
    | _ => exact .inl h
  | _ => exact .inl h

theorem nextPromise_apply (o : ClientOp) : c.send.nextPromise ≤ (o.apply i c).send.nextPromise := by
  cases o with
  | send o =>
    cases o with
    | newPromise => exact Nat.le_succ _
    | beginRestore did =>
      obtain ⟨restoring, he⟩ := apply_beginRestore i did c
      exact he ▸ le_rfl
    | _ => exact le_rfl
  | _ => exact le_rfl

theorem From.of_send {o : SendOp} (h : From n c) (ho : OpFrom n known (.send o)) :
    From n ((ClientOp.send o).apply i c) := by
  have hnext := Nat.le_trans h.nextPromise (nextPromise_apply (i := i) (.send o))
  -- an entry is an old one, the one that was written, or gone
  cases o with
  | setSession did sid | restored did sid =>
    refine ⟨fun did' sid' hd => ?_, h.recv, h.inFlight, hnext⟩
    rcases update_some hd with hold | ⟨-, hnew⟩
    · exact h.send did' sid' hold
    · exact some.inj hnew ▸ ho
  | resetSendSession did =>
    refine ⟨fun did' sid' hd => ?_, h.recv, h.inFlight, hnext⟩
    rcases update_some hd with hold | ⟨-, hnew⟩
    · exact h.send did' sid' hold
    · simp at hnew
  | setInFlight did p =>
    refine ⟨h.send, h.recv, fun did' p' hd => ?_, hnext⟩
    rcases update_some hd with hold | ⟨-, hnew⟩
    · exact h.inFlight did' p' hold
    · exact some.inj hnew ▸ ho
  | deleteInFlight did =>
    refine ⟨h.send, h.recv, fun did' p' hd => ?_, hnext⟩
    rcases update_some hd with hold | ⟨-, hnew⟩
    · exact h.inFlight did' p' hold
    · simp at hnew
  | beginRestore did =>
    obtain ⟨restoring, he⟩ := apply_beginRestore i did c
    rw [he]
    exact ⟨h.send, h.recv, h.inFlight, h.nextPromise⟩
  | restoreFailed | setSerializedSession | newPromise | settle =>
    exact ⟨h.send, h.recv, h.inFlight, hnext⟩

theorem From.apply (h : From n c) (ho : OpFrom n known o) : From n (o.apply i c) := by
  cases o with
  | send o => exact h.of_send ho
  | recv o =>
    cases o with
    | setSession did sid =>
      refine ⟨h.send, fun did' sid' hd => ?_, h.inFlight, h.nextPromise⟩
      rcases update_some hd with hold | ⟨-, hnew⟩
      · exact h.recv did' sid' hold
      · exact some.inj hnew ▸ ho
    | _ => exact ⟨h.send, h.recv, h.inFlight, h.nextPromise⟩
  | deleteConversation did =>
    refine ⟨fun did' sid' hd => ?_, fun did' sid' hd => ?_, h.inFlight, h.nextPromise⟩
    · rcases update_some hd with hold | ⟨-, hnew⟩
      · exact h.send did' sid' hold
      · simp at hnew
    · rcases update_some hd with hold | ⟨-, hnew⟩
      · exact h.recv did' sid' hold
      · simp at hnew
  | _ => exact ⟨h.send, h.recv, h.inFlight, h.nextPromise⟩

theorem pendingByDid_apply {o : PendingOp} (h : did ∉ peerOf (.pending o)) (c : PendingSide) :
    (o.apply i c).pendingDecryptByDid did = c.pendingDecryptByDid did := by
  cases o with
  | bufferUndecryptable e =>
    have hne : did ≠ e.senderDid := fun he => h (he ▸ rfl)
    show (c.bufferUndecryptable e).pendingDecryptByDid did = _
    unfold PendingSide.bufferUndecryptable
    dsimp only
    split
    · rfl
    · exact update_of_ne hne _ _
  | setPending did' remaining =>
    have hne : did ≠ did' := fun he => h (he ▸ rfl)
    show ((c.endDrain i).setPending did' remaining).pendingDecryptByDid did = _
    unfold PendingSide.setPending
    split
    · exact update_of_ne hne _ _
    · exact update_of_ne hne _ _
  | _ => rfl

theorem healthAt_apply {o : HealthOp} (h : did ∉ peerOf (.health o)) (c : Health) :
    (o.apply c).recoveryAttemptAt did = c.recoveryAttemptAt did ∧
      (o.apply c).desyncedDids did = c.desyncedDids did := by
  have hne : ∀ {did' : Did}, peerOf (.health o) = some did' → did ≠ did' := by
    rintro did' ho rfl
    exact h ho
  cases o with
  | attemptRecovery did' now repeated =>
    unfold HealthOp.apply
    dsimp only
    split
    · exact ⟨rfl, rfl⟩
    · exact ⟨update_of_ne (hne rfl) _ _, rfl⟩
  | setRecoveryAttempt did' now => exact ⟨update_of_ne (hne rfl) _ _, rfl⟩
  | setDesynced did' desynced => exact ⟨rfl, update_of_ne (hne rfl) _ _⟩
  | see e => exact ⟨rfl, rfl⟩

/-- The operation leaves the entries of every other peer alone. -/
theorem sameAt_apply (h : did ∉ peerOf o) : SameAt did c (o.apply i c) := by
  have hne : ∀ {did' : Did}, peerOf o = some did' → did ≠ did' := by
    rintro did' ho rfl
    exact h ho
  have hsame : SameAt did c c := (SameMaps.refl c).at did
  cases o with
  | send o =>
    cases o with
    | setSession did' sid | restored did' sid | resetSendSession did' =>
      exact { hsame with sendSession := update_of_ne (hne rfl) _ _ }
    | setInFlight did' p | deleteInFlight did' =>
      exact { hsame with inFlight := update_of_ne (hne rfl) _ _ }
    | beginRestore did' =>
      obtain ⟨restoring, he⟩ := apply_beginRestore i did' c
      rw [he]
      exact { hsame with }
    | _ => exact { hsame with }
  | recv o =>
    cases o with
    | setSession did' sid =>
      exact { hsame with recvSession := update_of_ne (hne rfl) _ _ }
    | _ => exact { hsame with }
  | store o => exact { hsame with }
  | pending o => exact { hsame with pending := pendingByDid_apply h c.pending }
  | health o =>
    obtain ⟨hrecovery, hdesynced⟩ := healthAt_apply h c.health
    exact { hsame with recovery := hrecovery, desynced := hdesynced }
  | deliver | recover => exact { hsame with }
  | deleteConversation did' =>
    have hne' := hne rfl
    exact ⟨update_of_ne hne' _ _, rfl, update_of_ne hne' _ _,
      update_of_ne hne' _ _, update_of_ne hne' _ _,
      update_of_ne hne' _ _⟩

end Client

/-! ## The client under calls -/

section Calls
variable {n : Floor} {i : Nat} {c : Messaging.Call} {r : Reply} {s s' : Messaging.State}

/-- The module variables are the same, and if there are new native sessions, they have new numbers. -/
structure Beyond (c c' : Client) : Prop extends SameMaps c c' where
  le : ∀ dir, nextNative c dir ≤ nextNative c' dir

theorem Beyond.refl (c : Client) : Beyond c c := ⟨SameMaps.refl c, fun _ => le_rfl⟩

variable {me : Did}

theorem Beyond.of_modify {f : Client → Client} (h : Beyond (s.client me) (f (s.client me)))
    (d : Did) :
    Beyond (s.client d) ((s.modify me f).client d) := by
  by_cases hd : d = me
  · subst hd
    have hself : (s.modify d f).client d = f (s.client d) := Function.update_self ..
    exact hself ▸ h
  · have hother : (s.modify me f).client d = s.client d := update_of_ne hd _ _
    exact hother ▸ Beyond.refl _

theorem beyond_modifySend {f : SendSide → SendSide} (hle : ∀ c, c.nextNative ≤ (f c).nextNative)
    (hf : ∀ c : Client, SameMaps c { c with send := f c.send }) (d : Did) :
    Beyond (s.client d) ((s.modifySend me f).client d) := by
  refine .of_modify ⟨hf _, fun dir => ?_⟩ d
  cases dir with
  | send => exact hle _
  | recv => exact le_rfl

theorem beyond_modifyRecv {f : RecvSide → RecvSide} (hle : ∀ c, c.nextNative ≤ (f c).nextNative)
    (hf : ∀ c : Client, SameMaps c { c with recv := f c.recv }) (d : Did) :
    Beyond (s.client d) ((s.modifyRecv me f).client d) := by
  refine .of_modify ⟨hf _, fun dir => ?_⟩ d
  cases dir with
  | send => exact le_rfl
  | recv => exact hle _

/-- What the native library does to the devices. -/
theorem beyond_effect (h : Messaging.Call.Effect i s c s') (d : Did) :
    Beyond (s.client d) (s'.client d) := by
  cases h with
  | none | relayed => exact Beyond.refl _
  | initiated me did remote | restored me blob =>
    exact beyond_modifySend (fun _ => Nat.le_succ _) (fun c => { SameMaps.refl c with }) d
  | keyExchange me remote gen => exact Beyond.refl _
  | text me sid body ses t hses =>
    exact beyond_modifySend (f := .seal sid ses _) (fun _ => le_rfl)
      (fun c => { SameMaps.refl c with }) d
  | position me sid e ses hses =>
    exact beyond_modifySend (f := .recordPosition e _) (fun _ => le_rfl)
      (fun c => { SameMaps.refl c with }) d
  | accepted c me ses =>
    exact beyond_modifyRecv (fun _ => Nat.le_succ _) (fun c => { SameMaps.refl c with }) d
  | rekeyed c me sid ses =>
    exact beyond_modifyRecv (f := .setNative sid ses) (fun _ => le_rfl)
      (fun c => { SameMaps.refl c with }) d
  | opened me sid e pk ses hses hopen =>
    exact beyond_modifyRecv (f := .openEnvelope i sid ses e) (fun _ => le_rfl)
      (fun c => { SameMaps.refl c with }) d

/-- The sessions that a call answers with are new, or what a promise was settled with. -/
theorem answerFrom_of_perform {o : Except Err (Messaging.Ret c)} (hc : CallFrom n c)
    (hnative : ∀ d dir, n.of dir ≤ nextNative (s.client d) dir)
    (hpromises : ∀ d p sid, n.promise ≤ p.n → (s.client d).send.promises p = some (.ok sid) →
      n.send ≤ sid)
    (h : Messaging.Call.perform i c r s = some (s', o)) : AnswerFrom n c o := by
  cases o with
  | error e => cases c <;> trivial
  | ok v =>
    cases c with
    | promise me p => exact hpromises me p v hc (Messaging.Call.perform_promise h).2
    | initiateSession me did remote =>
      have hs := Messaging.Call.succeed_of_ok rfl h
      simp only [Messaging.Call.succeed, some.injEq, Prod.mk.injEq] at hs
      rw [← hs.2]
      exact hnative me .send
    | deserializeSession me dir blob =>
      have hs := Messaging.Call.succeed_of_ok rfl h
      cases dir with
      | send =>
        simp only [Messaging.Call.succeed, some.injEq, Prod.mk.injEq] at hs
        rw [← hs.2]
        exact hnative me .send
      | recv =>
        simp only [Messaging.Call.succeed, some.injEq, Prod.mk.injEq] at hs
        rw [← hs.2]
        exact hnative me .recv
    | acceptEnvelopeWithIdentity me e =>
      have hs := Messaging.Call.succeed_of_ok rfl h
      simp only [Messaging.Call.succeed] at hs
      split at hs
      · simp only [some.injEq, Prod.mk.injEq] at hs
        rw [← hs.2]
        exact hnative me .recv
      · simp at hs
    | _ => trivial

theorem callFrom_callAs (self : Did) (h : CallFrom n c) : CallFrom n (callAs self c) := by
  cases c <;> exact h

theorem AnswerFrom.uncast {self : Did} {o : Except Err (Messaging.Ret (callAs self c))}
    (h : AnswerFrom n (callAs self c) o) :
    AnswerFrom n c (Except.map (cast (ret_callAs self c)) o) := by
  cases o with
  | error e => cases c <;> trivial
  | ok v => cases c <;> exact h

/-- The sessions that are used are among those that the caller may use. -/
theorem CallFrom.of_used {dir : SessionDir} {sid : Nat} (h : CallFrom n c)
    (hused : usedSession c = some (dir, sid)) : n.of dir ≤ sid := by
  cases c with
  | sealTextSigned me sid' body | envelopeOpenVerifiedWithSession me sid' e pk =>
    cases hused
    exact h
  | _ => simp [usedSession] at hused

end Calls

end Identities
