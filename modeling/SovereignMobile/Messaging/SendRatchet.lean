import SovereignMobile.Messaging.Runs

/-! # One ratchet per generation

A native session advances its own counter, so a sequence can only be sealed twice when two session
objects are made of one blob. `tryRestoreSession` is called inside the single-flight
`initSendSession` and outside of it, and a late `persistSession` can bring back a blob that
`resetSendSession` has cleared. In the runs without either, every blob is restored at most once. -/

namespace Messaging

open EventLoop List Option
open Function (update update_of_ne update_self)

/-- The position of an envelope in the key stream of its session. -/
def Envelope.streamPosition (e : Envelope) : Gen × Nat × Nat := (e.gen, e.epoch, e.sequence)

/-- A device has at most one session object of a generation, and no position is sealed twice. -/
structure OneRatchet (s : State) : Prop where
  sessions : ∀ me sid sid' ses ses', (s.client me).send.native sid = some ses →
    (s.client me).send.native sid' = some ses' → ses.gen = ses'.gen → sid = sid'
  sealed : (s.sealed.map Envelope.streamPosition).Nodup

/-- Two restores of one peer never overlap, and no blob is written for a peer without a cached
    session (because the session was reset meanwhile). -/
def restoresAlone : Cond machine where
  op _ s o :=
    match o with
    | .client me (.send (.beginRestore did)) =>
      (State.client s me).send.restoring.all fun r => r.did ≠ did
    | .client me (.send (.setSerializedSession did _ _)) =>
      ((State.client s me).send.sendSessionByDid did).isSome
    | _ => true
  call _ _ _ _ := true

/-! ## What holds at every moment -/

/-- The generation was started by `me`. -/
def Gen.Known (me : Did) (nextGen : Nat) (g : Gen) : Prop := g.owner = me ∧ g.n < nextGen

/-- Nothing was sealed at or after the position of the session. -/
def Session.Ahead (sealed : List Envelope) (ses : Session) : Prop :=
  ∀ e ∈ sealed, e.gen = ses.gen → e.epoch = ses.epoch → e.sequence < ses.counter

/-- The blob may be restored: it is up to date, and no session object has its generation. -/
structure SendSide.Unused (c : SendSide) (sealed : List Envelope) (blob : Session) : Prop where
  native : ∀ sid ses, c.native sid = some ses → ses.gen ≠ blob.gen
  ahead : blob.Ahead sealed

structure SendSide.RatchetInv (me : Did) (nextGen : Nat) (sealed : List Envelope)
    (c : SendSide) : Prop where
  native : ∀ sid ses, c.native sid = some ses → ses.gen.Known me nextGen ∧ ses.Ahead sealed
  unique : ∀ sid sid' ses ses', c.native sid = some ses → c.native sid' = some ses' →
    ses.gen = ses'.gen → sid = sid'
  blobs : ∀ did blob, c.blobs did = some blob → blob.gen.Known me nextGen
  restorable : ∀ did blob, c.blobs did = some blob → c.sendSessionByDid did = none →
    (∀ r ∈ c.restoring, r.did ≠ did) → c.Unused sealed blob
  restoring : ∀ r ∈ c.restoring, r.blob.gen.Known me nextGen ∧
    (r.sid = none → c.Unused sealed r.blob)
  alone : ∀ r ∈ c.restoring, ∀ r' ∈ c.restoring, r.did = r'.did → r = r'
  current : ∀ r ∈ c.restoring, ∀ blob, c.blobs r.did = some blob →
    c.sendSessionByDid r.did = none → blob = r.blob

structure RatchetInv (s : State) : Prop where
  client : ∀ me, (s.client me).send.RatchetInv me s.nextGen s.sealed
  known : ∀ e ∈ s.sealed, e.gen.n < s.nextGen
  nodup : (s.sealed.map Envelope.streamPosition).Nodup

variable {me : Did} {n n' i : Nat} {s : State}

theorem Gen.Known.mono {g : Gen} (h : g.Known me n) (hn : n ≤ n') : g.Known me n' :=
  ⟨h.1, Nat.lt_of_lt_of_le h.2 hn⟩

/-! ## Operations -/

section
variable {me : Did} {nextGen : Nat} {sealed : List Envelope} {c c' : SendSide}

variable {blob : Session} {i : Nat} {did : Did}

theorem SendSide.Unused.of_native (h : c.Unused sealed blob) (hn : c'.native = c.native) :
    c'.Unused sealed blob :=
  ⟨fun sid ses hs => h.native sid ses (hn ▸ hs), h.ahead⟩

/-- What an operation that leaves the session objects alone has to say about the blobs. -/
theorem SendSide.RatchetInv.of_frame (h : c.RatchetInv me nextGen sealed)
    (hn : c'.native = c.native)
    (hblobs : ∀ did blob, c'.blobs did = some blob → blob.gen.Known me nextGen)
    (hrestorable : ∀ did blob, c'.blobs did = some blob → c'.sendSessionByDid did = none →
      (∀ r ∈ c'.restoring, r.did ≠ did) → c.Unused sealed blob)
    (hrestoring : ∀ r ∈ c'.restoring, r.blob.gen.Known me nextGen ∧
      (r.sid = none → c.Unused sealed r.blob))
    (halone : ∀ r ∈ c'.restoring, ∀ r' ∈ c'.restoring, r.did = r'.did → r = r')
    (hcurrent : ∀ r ∈ c'.restoring, ∀ blob, c'.blobs r.did = some blob →
      c'.sendSessionByDid r.did = none → blob = r.blob) : c'.RatchetInv me nextGen sealed where
  native sid ses hs := h.native sid ses (hn ▸ hs)
  unique sid sid' ses ses' hs hs' := h.unique sid sid' ses ses' (hn ▸ hs) (hn ▸ hs')
  blobs := hblobs
  restorable did blob hb hc hr := (hrestorable did blob hb hc hr).of_native hn
  restoring r hr := ⟨(hrestoring r hr).1, fun hs => ((hrestoring r hr).2 hs).of_native hn⟩
  alone := halone
  current := hcurrent

/-- A session is cached: its blob cannot be restored. -/
theorem SendSide.RatchetInv.setSession (h : c.RatchetInv me nextGen sealed) (did : Did)
    (sid : Nat) : (c.setSession did sid).RatchetInv me nextGen sealed := by
  have hcache : ∀ did', (c.setSession did sid).sendSessionByDid did' = none →
      c.sendSessionByDid did' = none := by
    intro did' hd
    simp only [SendSide.setSession] at hd
    by_cases he : did' = did
    · rw [he] at hd
      simp at hd
    · rwa [update_of_ne he] at hd
  exact h.of_frame rfl h.blobs (fun did' blob hb hd => h.restorable did' blob hb (hcache did' hd))
    h.restoring h.alone fun r hr blob hb hd => h.current r hr blob hb (hcache r.did hd)

theorem SendSide.RatchetInv.resetSendSession (h : c.RatchetInv me nextGen sealed) (did : Did) :
    (c.resetSendSession did).RatchetInv me nextGen sealed := by
  have hblob : ∀ did' blob, (c.resetSendSession did).blobs did' = some blob →
      c.blobs did' = some blob ∧ did' ≠ did := by
    intro did' blob hb
    simp only [SendSide.resetSendSession] at hb
    by_cases he : did' = did
    · rw [he] at hb
      simp at hb
    · rw [update_of_ne he] at hb
      exact ⟨hb, he⟩
  have hcache : ∀ did', did' ≠ did → (c.resetSendSession did).sendSessionByDid did' = none →
      c.sendSessionByDid did' = none := by
    intro did' he hd
    simp only [SendSide.resetSendSession] at hd
    rwa [update_of_ne he] at hd
  refine h.of_frame rfl (fun did' blob hb => h.blobs did' blob (hblob did' blob hb).1)
    (fun did' blob hb hd => ?_) h.restoring h.alone fun r hr blob hb hd => ?_
  · obtain ⟨hb, he⟩ := hblob did' blob hb
    exact h.restorable did' blob hb (hcache did' he hd)
  · obtain ⟨hb, he⟩ := hblob r.did blob hb
    exact h.current r hr blob hb (hcache r.did he hd)

theorem SendSide.RatchetInv.beginRestore (h : c.RatchetInv me nextGen sealed)
    (hd : c.sendSessionByDid did = none) (halone : ∀ r ∈ c.restoring, r.did ≠ did) :
    (c.beginRestore i did).RatchetInv me nextGen sealed := by
  unfold SendSide.beginRestore
  split
  · exact h
  rename_i blob hb
  have hunused := h.restorable did blob hb hd halone
  refine h.of_frame rfl h.blobs (fun did' blob' hb' hd' hr => ?_) (fun r hr => ?_)
    (fun r hr r' hr' he => ?_) fun r hr blob' hb' hd' => ?_
  · exact h.restorable did' blob' hb' hd' fun r hr' => hr r (mem_append_left _ hr')
  · rcases mem_append.1 hr with hr | hr
    · exact h.restoring r hr
    rw [mem_singleton] at hr
    subst hr
    exact ⟨h.blobs did blob hb, fun _ => hunused⟩
  · rcases mem_append.1 hr with hr | hr
    · rcases mem_append.1 hr' with hr' | hr'
      · exact h.alone r hr r' hr' he
      rw [mem_singleton] at hr'
      subst hr'
      exact absurd he (halone r hr)
    · rw [mem_singleton] at hr
      subst hr
      rcases mem_append.1 hr' with hr' | hr'
      · exact absurd he.symm (halone r' hr')
      · exact (mem_singleton.1 hr').symm
  · rcases mem_append.1 hr with hr | hr
    · exact h.current r hr blob' hb' hd'
    rw [mem_singleton] at hr
    subst hr
    rw [hb, some.injEq] at hb'
    exact hb'.symm

/-- The restore of task `i` has ended without a session. -/
theorem SendSide.RatchetInv.endRestore (h : c.RatchetInv me nextGen sealed)
    (hown : ownBy Restore.task i c.restoring = [⟨i, did, blob, none⟩]) :
    (c.endRestore i).RatchetInv me nextGen sealed := by
  have hmem := mem_of_ownBy hown
  refine h.of_frame rfl h.blobs (fun did' blob' hb hd hr => ?_)
    (fun r hr => h.restoring r (mem_filter.1 hr).1)
    (fun r hr r' hr' => h.alone r (mem_filter.1 hr).1 r' (mem_filter.1 hr').1)
    fun r hr => h.current r (mem_filter.1 hr).1
  by_cases he : did' = did
  · -- the blob is the one that could not be restored
    subst he
    have := h.current _ hmem blob' hb hd
    exact this ▸ (h.restoring _ hmem).2 rfl
  refine h.restorable did' blob' hb hd fun r hr' hrd => ?_
  refine hr r (mem_filter.2 ⟨hr', ?_⟩) hrd
  simp only [decide_eq_true_eq]
  intro ht
  have := eq_of_ownBy hown hr' ht
  rw [this] at hrd
  exact he hrd.symm

theorem SendSide.RatchetInv.restored (h : c.RatchetInv me nextGen sealed) {sid : Nat}
    (hown : ownBy Restore.task i c.restoring = [⟨i, did, blob, some sid⟩]) :
    ((c.endRestore i).setSession did sid).RatchetInv me nextGen sealed := by
  have hset := h.setSession did sid
  refine hset.of_frame rfl hset.blobs (fun did' blob' hb hd hr => ?_)
    (fun r hr => hset.restoring r (mem_filter.1 hr).1)
    (fun r hr r' hr' => hset.alone r (mem_filter.1 hr).1 r' (mem_filter.1 hr').1)
    fun r hr => hset.current r (mem_filter.1 hr).1
  refine hset.restorable did' blob' hb hd fun r hr' hrd => ?_
  refine hr r (mem_filter.2 ⟨hr', ?_⟩) hrd
  simp only [decide_eq_true_eq]
  intro ht
  have := eq_of_ownBy hown hr' ht
  rw [this] at hrd
  subst hrd
  simp [SendSide.setSession] at hd

theorem SendSide.RatchetInv.setSerializedSession (h : c.RatchetInv me nextGen sealed)
    (hcached : (c.sendSessionByDid did).isSome = true) (hknown : blob.gen.Known me nextGen) :
    SendSide.RatchetInv me nextGen sealed { c with blobs := update c.blobs did (some blob) } := by
  have hblob : ∀ did' blob', update c.blobs did (some blob) did' = some blob' →
      c.sendSessionByDid did' = none → c.blobs did' = some blob' := by
    intro did' blob' hb hd
    rcases update_some hb with hb | ⟨rfl, -⟩
    · exact hb
    · rw [hd] at hcached
      simp at hcached
  refine h.of_frame rfl (fun did' blob' hb => ?_)
    (fun did' blob' hb hd => h.restorable did' blob' (hblob did' blob' hb hd) hd) h.restoring h.alone
    fun r hr blob' hb hd => h.current r hr blob' (hblob r.did blob' hb hd) hd
  rcases update_some hb with hb | ⟨_, hb⟩
  · exact h.blobs did' blob' hb
  · rw [some.injEq] at hb
    exact hb ▸ hknown

end

theorem SendOp.ratchetInv_apply {o : SendOp}
    (h : (s.client me).send.RatchetInv me s.nextGen s.sealed)
    (hc : restoresAlone.op i s (.client me (.send o)) = true) (hp : o.Pre i (s.client me).send) :
    (o.apply i (s.client me).send).RatchetInv me s.nextGen s.sealed := by
  cases o with
  | setSession did sid => exact h.setSession did sid
  | beginRestore did =>
    refine h.beginRestore hp.1 fun r hr => ?_
    have := all_eq_true.1 hc r hr
    simpa using this
  | restored did sid =>
    obtain ⟨blob, hown⟩ := hp
    exact h.restored hown
  | restoreFailed =>
    obtain ⟨did, blob, hown⟩ := hp
    exact h.endRestore hown
  | setSerializedSession did sid blob =>
    obtain ⟨ses, hses, hgen, -, -⟩ := hp
    exact h.setSerializedSession hc (hgen ▸ (h.native sid ses hses).1)
  | resetSendSession did => exact h.resetSendSession did
  | _ => exact h.of_frame rfl h.blobs h.restorable h.restoring h.alone h.current

theorem ClientOp.ratchetInv_apply {o : ClientOp}
    (h : (s.client me).send.RatchetInv me s.nextGen s.sealed)
    (hc : restoresAlone.op i s (.client me o) = true) (hp : o.Pre i s me) :
    (o.apply i (s.client me)).send.RatchetInv me s.nextGen s.sealed := by
  cases o with
  | send o => exact SendOp.ratchetInv_apply h hc hp
  | deleteConversation did => exact h.resetSendSession did
  | _ => exact h

/-! ## Native calls -/

section
variable {me : Did} {nextGen : Nat} {sealed : List Envelope} {c c' : SendSide}

variable {ses ses' blob : Session} {sid : Nat} {e : Envelope}

/-- A new session object: it is `ses` or an old one. -/
theorem SendSide.native_addNative_cases (h : (c.addNative ses).native sid = some ses') :
    c.native sid = some ses' ∨ (sid = c.nextNative ∧ ses' = ses) := by
  rcases update_some h with h | ⟨hs, h⟩
  · exact .inl h
  · exact .inr ⟨hs, (some.inj h).symm⟩

theorem SendSide.Unused.addNative (h : c.Unused sealed blob) (hne : ses.gen ≠ blob.gen) :
    (c.addNative ses).Unused sealed blob := by
  refine ⟨fun sid ses' hs => ?_, h.ahead⟩
  rcases native_addNative_cases hs with hs | ⟨_, rfl⟩
  · exact h.native sid ses' hs
  · exact hne

theorem SendSide.RatchetInv.native_addNative (h : c.RatchetInv me nextGen sealed)
    (hknown : ses.gen.Known me nextGen) (hunused : c.Unused sealed ses) :
    ∀ sid ses', (c.addNative ses).native sid = some ses' →
      ses'.gen.Known me nextGen ∧ ses'.Ahead sealed := by
  intro sid ses' hs
  rcases native_addNative_cases hs with hs | ⟨_, rfl⟩
  · exact h.native sid ses' hs
  · exact ⟨hknown, hunused.ahead⟩

theorem SendSide.RatchetInv.unique_addNative (h : c.RatchetInv me nextGen sealed)
    (hunused : c.Unused sealed ses) :
    ∀ sid sid' ses1 ses2, (c.addNative ses).native sid = some ses1 →
      (c.addNative ses).native sid' = some ses2 → ses1.gen = ses2.gen → sid = sid' := by
  intro sid sid' ses1 ses2 hs hs' hg
  rcases native_addNative_cases hs with hs | ⟨rfl, hses⟩
  · rcases native_addNative_cases hs' with hs' | ⟨_, he'⟩
    · exact h.unique sid sid' ses1 ses2 hs hs' hg
    · exact absurd (he' ▸ hg) (hunused.native sid ses1 hs)
  · rcases native_addNative_cases hs' with hs' | ⟨he, _⟩
    · exact absurd (hses ▸ hg.symm) (hunused.native sid' ses2 hs')
    · exact he.symm

/-- `initiateSession` starts a generation that nothing has been sealed with. -/
theorem SendSide.RatchetInv.initiate (h : c.RatchetInv me nextGen sealed)
    (hsealed : ∀ e ∈ sealed, e.gen.n < nextGen) (did remote : Did) :
    (c.addNative ⟨remote, ⟨me, did, nextGen⟩, 0, 0, []⟩).RatchetInv me (nextGen + 1) sealed := by
  have hle : nextGen ≤ nextGen + 1 := Nat.le_succ _
  have hfresh : ∀ g : Gen, g.Known me nextGen → (⟨me, did, nextGen⟩) ≠ g := by
    intro g hg he
    have := hg.2
    rw [← he] at this
    exact absurd this (Nat.lt_irrefl _)
  have hunused : c.Unused sealed ⟨remote, ⟨me, did, nextGen⟩, 0, 0, []⟩ := by
    refine ⟨fun sid ses hs => (hfresh _ (h.native sid ses hs).1).symm, fun e he hg _ => ?_⟩
    have := hsealed e he
    rw [hg] at this
    exact absurd this (Nat.lt_irrefl _)
  constructor
  · intro sid ses' hs
    rcases native_addNative_cases hs with hs | ⟨_, rfl⟩
    · exact ⟨(h.native sid ses' hs).1.mono hle, (h.native sid ses' hs).2⟩
    · exact ⟨⟨rfl, Nat.lt_succ_self _⟩, hunused.ahead⟩
  · exact h.unique_addNative hunused
  · exact fun did' blob hb => (h.blobs did' blob hb).mono hle
  · intro did' blob hb hd hr
    exact (h.restorable did' blob hb hd hr).addNative (hfresh _ (h.blobs did' blob hb))
  · intro r hr
    obtain ⟨hknown, hun⟩ := h.restoring r hr
    exact ⟨hknown.mono hle, fun hs => (hun hs).addNative (hfresh _ hknown)⟩
  · exact h.alone
  · exact h.current

/-- Task `i` makes the session object of the blob that it is alone in restoring. -/
theorem SendSide.RatchetInv.deserialize (hi : c.Inv) (h : c.RatchetInv me nextGen sealed) {i : Nat}
    (hr : c.Restoring i blob) :
    (c.deserialize i blob).RatchetInv me nextGen sealed := by
  obtain ⟨did, hown⟩ := hr
  have hmem := mem_of_ownBy hown
  obtain ⟨hknown, hunused⟩ := h.restoring _ hmem
  have hpeer : blob.gen.peer = did := (hi.restoring _ hmem).1
  -- blobs of other peers have other generations
  have hother : ∀ (blob' : Session) did', blob'.gen.peer = did' → did' ≠ did → blob.gen ≠ blob'.gen := by
    intro blob' did' hp hd hg
    rw [← hp, ← hg, hpeer] at hd
    exact hd rfl
  have hback : ∀ r ∈ (c.deserialize i blob).restoring, ∃ r0 ∈ c.restoring, r.did = r0.did ∧
      r.blob = r0.blob ∧ ((r0.task = i ∧ r.sid ≠ none) ∨ (r0.task ≠ i ∧ r = r0)) := by
    intro r hr
    obtain ⟨r0, hr0, rfl⟩ := mem_map.1 hr
    refine ⟨r0, hr0, ?_⟩
    split
    · rename_i ht
      exact ⟨rfl, rfl, .inl ⟨ht, by simp⟩⟩
    · rename_i ht
      exact ⟨rfl, rfl, .inr ⟨ht, rfl⟩⟩
  constructor
  · exact h.native_addNative hknown (hunused rfl)
  · exact h.unique_addNative (hunused rfl)
  · exact h.blobs
  · intro did' blob' hb hd hr
    have hdids : ∀ r ∈ c.restoring, r.did ≠ did' := by
      intro r hr' hrd
      refine hr _ (mem_map_of_mem hr') ?_
      split <;> exact hrd
    have hne : did' ≠ did := (hdids _ hmem).symm
    have hun := (h.restorable did' blob' hb hd hdids).addNative
      (hother blob' did' (hi.blobs _ _ hb) hne)
    exact hun.of_native rfl
  · intro r hr
    obtain ⟨r0, hr0, -, hblob, ⟨-, hsid⟩ | ⟨ht, rfl⟩⟩ := hback r hr
    · exact ⟨hblob ▸ (h.restoring r0 hr0).1, fun hs => absurd hs hsid⟩
    refine ⟨(h.restoring r hr0).1, fun hs => ?_⟩
    have hne : r.did ≠ did := by
      intro hd
      have := h.alone r hr0 _ hmem hd
      exact ht (by rw [this])
    have hun := ((h.restoring r hr0).2 hs).addNative
      (hother r.blob r.did (hi.restoring r hr0).1 hne)
    exact hun.of_native rfl
  · intro r hr r' hr' hd
    obtain ⟨r0, hr0, rfl⟩ := mem_map.1 hr
    obtain ⟨r1, hr1, rfl⟩ := mem_map.1 hr'
    have hd' : r0.did = r1.did := by
      split at hd <;> split at hd <;> exact hd
    rw [h.alone r0 hr0 r1 hr1 hd']
  · intro r hr blob' hb hd
    obtain ⟨r0, hr0, hdid, hblob, -⟩ := hback r hr
    rw [hblob]
    rw [hdid] at hb hd
    exact h.current r0 hr0 blob' hb hd

/-- Something was sealed with another generation. -/
theorem Session.Ahead.append (h : ses.Ahead sealed) (hne : e.gen ≠ ses.gen) :
    ses.Ahead (sealed ++ [e]) := by
  intro e' he' hg hepoch
  rcases mem_append.1 he' with he' | he'
  · exact h e' he' hg hepoch
  · rw [mem_singleton] at he'
    exact absurd (he' ▸ hg) hne

theorem SendSide.RatchetInv.append (h : c.RatchetInv me nextGen sealed) (hne : e.gen.owner ≠ me) :
    c.RatchetInv me nextGen (sealed ++ [e]) := by
  have hgen : ∀ g : Gen, g.Known me nextGen → e.gen ≠ g := by
    intro g hg he
    exact hne (he ▸ hg.1)
  constructor
  · intro sid ses hs
    obtain ⟨hknown, hahead⟩ := h.native sid ses hs
    exact ⟨hknown, hahead.append (hgen _ hknown)⟩
  · exact h.unique
  · exact h.blobs
  · intro did blob hb hd hr
    obtain ⟨hnat, hahead⟩ := h.restorable did blob hb hd hr
    exact ⟨hnat, hahead.append (hgen _ (h.blobs did blob hb))⟩
  · intro r hr
    obtain ⟨hknown, hun⟩ := h.restoring r hr
    exact ⟨hknown, fun hs => ⟨(hun hs).native, (hun hs).ahead.append (hgen _ hknown)⟩⟩
  · exact h.alone
  · exact h.current

/-- The session objects after a seal: the sealing one has moved on. -/
theorem SendSide.native_seal_cases {sid' : Nat} (h : (c.seal sid ses e).native sid' = some ses') :
    (sid' ≠ sid ∧ c.native sid' = some ses') ∨
      (sid' = sid ∧ ses' = { ses with counter := ses.counter + 1 }) := by
  simp only [SendSide.seal] at h
  by_cases hs : sid' = sid
  · rw [hs, update_self, some.injEq] at h
    exact .inr ⟨hs, h.symm⟩
  · rw [update_of_ne hs] at h
    exact .inl ⟨hs, h⟩

theorem SendSide.RatchetInv.seal (h : c.RatchetInv me nextGen sealed)
    (hses : c.native sid = some ses) (hgen : e.gen = ses.gen) (hseq : e.sequence = ses.counter) :
    (c.seal sid ses e).RatchetInv me nextGen (sealed ++ [e]) := by
  have hgens : ∀ sid' ses', (c.seal sid ses e).native sid' = some ses' →
      ∃ ses0, c.native sid' = some ses0 ∧ ses0.gen = ses'.gen := by
    intro sid' ses' hs
    rcases native_seal_cases hs with ⟨-, hs⟩ | ⟨rfl, rfl⟩
    · exact ⟨ses', hs, rfl⟩
    · exact ⟨ses, hses, rfl⟩
  have hunused : ∀ blob, c.Unused sealed blob → (c.seal sid ses e).Unused (sealed ++ [e]) blob := by
    intro blob hun
    refine ⟨fun sid' ses' hs => ?_, hun.ahead.append (hgen ▸ hun.native sid ses hses)⟩
    obtain ⟨ses0, hs0, hg⟩ := hgens sid' ses' hs
    exact hg ▸ hun.native sid' ses0 hs0
  constructor
  · intro sid' ses' hs
    rcases native_seal_cases hs with ⟨hne, hs⟩ | ⟨rfl, rfl⟩
    · obtain ⟨hknown, hahead⟩ := h.native sid' ses' hs
      refine ⟨hknown, hahead.append fun hg => ?_⟩
      exact hne (h.unique sid' sid ses' ses hs hses (hg.symm.trans hgen))
    obtain ⟨hknown, hahead⟩ := h.native sid' ses hses
    refine ⟨hknown, fun e' he' hg hepoch => ?_⟩
    rcases mem_append.1 he' with he' | he'
    · exact Nat.lt_succ_of_lt (hahead e' he' hg hepoch)
    rw [mem_singleton] at he'
    rw [he', hseq]
    exact Nat.lt_succ_self _
  · intro sid1 sid2 ses1 ses2 hs1 hs2 hg
    obtain ⟨ses1', hs1', hg1⟩ := hgens sid1 ses1 hs1
    obtain ⟨ses2', hs2', hg2⟩ := hgens sid2 ses2 hs2
    exact h.unique sid1 sid2 ses1' ses2' hs1' hs2' (by rw [hg1, hg2, hg])
  · exact h.blobs
  · exact fun did blob hb hd hr => hunused blob (h.restorable did blob hb hd hr)
  · exact fun r hr => ⟨(h.restoring r hr).1, fun hs => hunused _ ((h.restoring r hr).2 hs)⟩
  · exact h.alone
  · exact h.current

end

theorem RatchetInv.modifySend {f : SendSide → SendSide} (h : RatchetInv s)
    (hf : (f (s.client me).send).RatchetInv me s.nextGen s.sealed) :
    RatchetInv (s.modifySend me f) :=
  ⟨State.forall_modify (P := fun me c => c.send.RatchetInv me s.nextGen s.sealed) h.client hf,
    h.known, h.nodup⟩

theorem RatchetInv.modifyRecv {f : RecvSide → RecvSide} (h : RatchetInv s) :
    RatchetInv (s.modifyRecv me f) :=
  ⟨State.forall_modify (P := fun me c => c.send.RatchetInv me s.nextGen s.sealed) h.client
    (h.client me), h.known, h.nodup⟩

theorem SendSide.RatchetInv.mono {sealed : List Envelope} {c : SendSide}
    (h : c.RatchetInv me n sealed) (hn : n ≤ n') : c.RatchetInv me n' sealed where
  native sid ses hs := ⟨(h.native sid ses hs).1.mono hn, (h.native sid ses hs).2⟩
  unique := h.unique
  blobs did blob hb := (h.blobs did blob hb).mono hn
  restorable := h.restorable
  restoring r hr := ⟨(h.restoring r hr).1.mono hn, (h.restoring r hr).2⟩
  alone := h.alone
  current := h.current

theorem RatchetInv.initiateSession (h : RatchetInv s) (me did remote : Did) :
    RatchetInv (s.initiateSession me did remote) where
  client := by
    simp only [State.initiateSession]
    refine State.forall_modify (P := fun me c => c.send.RatchetInv me (s.nextGen + 1) s.sealed)
      (fun me' => (h.client me').mono (Nat.le_succ _)) ?_
    exact (h.client me).initiate h.known did remote
  known e he := Nat.lt_succ_of_lt (h.known e he)
  nodup := h.nodup

theorem RatchetInv.sealText {sid : Nat} {ses : Session} {e : Envelope} (h : RatchetInv s)
    (hses : (s.client me).send.native sid = some ses) (hgen : e.gen = ses.gen)
    (hepoch : e.epoch = ses.epoch) (hseq : e.sequence = ses.counter) :
    RatchetInv (s.sealText me sid ses e) := by
  obtain ⟨hknown, hahead⟩ := (h.client me).native sid ses hses
  refine ⟨fun me' => ?_, fun e' he' => ?_, ?_⟩
  · simp only [State.sealText, State.modifySend]
    by_cases hm : me' = me
    · subst hm
      rw [State.modify_client_self]
      exact (h.client me').seal hses hgen hseq
    · rw [State.modify_client_ne s hm]
      refine (h.client me').append fun ho => hm ?_
      rw [← ho, hgen, hknown.1]
  · rcases mem_append.1 he' with he' | he'
    · exact h.known e' he'
    rw [mem_singleton] at he'
    rw [he', hgen]
    exact hknown.2
  · simp only [State.sealText, map_append, map_cons, map_nil]
    rw [nodup_append]
    refine ⟨h.nodup, by simp, fun x hx y hy hxy => ?_⟩
    rw [mem_singleton] at hy
    obtain ⟨e', he', rfl⟩ := mem_map.1 hx
    subst hy
    simp only [Envelope.streamPosition, Prod.mk.injEq] at hxy
    obtain ⟨hg, hep, hsq⟩ := hxy
    have := hahead e' he' (hg.trans hgen) (hep.trans hepoch)
    omega

theorem Call.Effect.ratchetInv {s' : State} {c : Call} (hi : s.Inv) (h : RatchetInv s)
    (hp : c.Pre i s) (he : Call.Effect i s c s') : RatchetInv s' := by
  cases he with
  | none => exact h
  | relayed e | keyExchange me remote gen => exact ⟨h.client, h.known, h.nodup⟩
  | initiated me did remote => exact h.initiateSession me did remote
  | text me sid body ses t hses => exact h.sealText hses rfl rfl rfl
  | restored me blob =>
    exact h.modifySend (.deserialize (hi me).send (h.client me) hp)
  | position me sid e ses _ =>
    have h' := h.client me
    exact h.modifySend (h'.of_frame rfl h'.blobs h'.restorable h'.restoring h'.alone h'.current)
  | accepted | rekeyed | opened => exact h.modifyRecv

/-! ## Runs -/

/-- The app was launched with blobs of its own generations, each of them up to date, after sealing no
    position twice. -/
structure RatchetInit (s : State) : Prop where
  launched : Launched s
  blobs : ∀ me did blob, (s.client me).send.blobs did = some blob →
    blob.gen.Known me s.nextGen ∧ blob.Ahead s.sealed
  known : ∀ e ∈ s.sealed, e.gen.n < s.nextGen
  nodup : (s.sealed.map Envelope.streamPosition).Nodup

theorem RatchetInit.ratchetInv (h : RatchetInit s) : RatchetInv s where
  client me := by
    have hnative : ∀ sid ses, (s.client me).send.native sid ≠ some ses := by
      intro sid ses hs
      rw [(h.launched me).sendNative] at hs
      simp at hs
    have hrestoring : ∀ r, r ∉ (s.client me).send.restoring := by
      intro r hr
      rw [(h.launched me).restoring] at hr
      simp at hr
    exact {
      native := fun sid ses hs => absurd hs (hnative sid ses)
      unique := fun sid _ ses _ hs => absurd hs (hnative sid ses)
      blobs := fun did blob hb => (h.blobs me did blob hb).1
      restorable := fun did blob hb _ _ =>
        ⟨fun sid ses hs => absurd hs (hnative sid ses), (h.blobs me did blob hb).2⟩
      restoring := fun r hr => absurd hr (hrestoring r)
      alone := fun r hr => absurd hr (hrestoring r)
      current := fun r hr => absurd hr (hrestoring r) }
  known := h.known
  nodup := h.nodup

/-- **One ratchet per generation.** In every run in which restores of one peer do not overlap and no
    blob is written for a peer whose session has been reset, no device ever has two session objects
    of one generation, and no position of a session is sealed twice. -/
theorem oneRatchet_of_restoresAlone {w : Sys machine}
    (h : Reach restoresAlone prog RatchetInit w) : OneRatchet w.state := by
  obtain ⟨-, hj, -⟩ := invariant_of_reach
    (fun s hs => ⟨hs.launched, hs.ratchetInv⟩)
    (fun i s me o _ hj hc hp =>
      ⟨State.forall_modify (P := fun me c => c.send.RatchetInv me s.nextGen s.sealed) hj.client
        (ClientOp.ratchetInv_apply (hj.client me) hc hp), hj.known, hj.nodup⟩)
    (fun s ms hj => ⟨hj.client, hj.known, hj.nodup⟩)
    (fun i s c s' v hi hj hp he _ => he.ratchetInv hi hj hp) h
  exact ⟨fun me => (hj.client me).unique, hj.nodup⟩

/-! ## Two restores that overlap -/

/-- The paired devices, when the session that Bob initiated has not reached Alice yet. -/
def State.pairedOneWay : State :=
  State.paired.modify alice fun c => { c with recv := Client.fresh.recv }

theorem ratchetInit_pairedOneWay : RatchetInit State.pairedOneWay where
  launched := State.forall_modify launched_paired { launched_paired alice with unsettled := rfl }
  blobs := by
    refine State.forall_modify (P := fun me c => ∀ did blob, c.send.blobs did = some blob →
      blob.gen.Known me 2 ∧ blob.Ahead []) (fun me did blob hb => ?_) fun did blob hb => ?_
    · rcases sendBlobs_paired hb with ⟨rfl, -, rfl⟩ | ⟨rfl, -, rfl⟩
      iterate 2
        · exact ⟨⟨rfl, by decide⟩, fun e he => nomatch he⟩
    · rcases sendBlobs_paired hb with ⟨-, -, rfl⟩ | ⟨h, -, -⟩
      · exact ⟨⟨rfl, by decide⟩, fun e he => nomatch he⟩
      · exact nomatch h
  known e he := absurd he (by simp [State.pairedOneWay, State.modify, State.paired])
  nodup := by simp [State.pairedOneWay, State.modify, State.paired]

/-- Bob's `KeyExchange` is accepted, and `completeHandshake` starts to restore the blob. -/
def handshakeRestores : List (Move machine Cmd) :=
  [.start (.ingestEnvelopes alice [pairedKeyExchange bob alice 1]), .perform 0 .ok, .resume 0,
   .perform 0 .ok, .resume 0, .perform 0 .ok, .resume 0, .perform 0 .ok, .resume 0,
   .perform 0 .ok, .resume 0, .perform 0 .ok, .resume 0]

/-- A message to Bob starts to restore it too, and each session seals one message. -/
def overlappingRestores : List (Move machine Cmd) :=
  handshakeRestores ++
  [.start (.sendTextMessage alice bob "one" 1), .perform 4 .ok, .resume 4, .perform 2 .ok, .resume 2,
   .perform 4 .ok, .resume 4, .perform 3 .ok, .resume 3, .perform 3 .ok, .resume 3,
   .perform 3 (.stamped 1), .resume 3, .start (.sendTextMessage alice bob "two" 2),
   .perform 5 .ok, .resume 5, .perform 5 (.stamped 2), .resume 5]

theorem not_oneRatchet :
    ¬ ∀ w : Sys machine, Reach Cond.any prog RatchetInit w → OneRatchet w.state := by
  intro hall
  have hw : ((Sys.idle State.pairedOneWay).run Cond.any prog overlappingRestores).map
      (fun w => (State.sealed w.state).map Envelope.streamPosition)
      = some [(⟨alice, bob, 0⟩, 0, 0), (⟨alice, bob, 0⟩, 0, 0)] := by decide
  rw [map_eq_some_iff] at hw
  obtain ⟨w, hrun, hobs⟩ := hw
  have hnodup := (hall w (.of_run ratchetInit_pairedOneWay hrun)).sealed
  rw [hobs] at hnodup
  exact nomatch hnodup

/-- The messages are sent when the restore is over. -/
def restoreThenSends : List (Move machine Cmd) :=
  handshakeRestores ++
  [.perform 2 .ok, .resume 2, .start (.sendTextMessage alice bob "one" 1), .perform 3 .ok, .resume 3,
   .perform 3 (.stamped 1), .resume 3, .start (.sendTextMessage alice bob "two" 2),
   .perform 4 .ok, .resume 4, .perform 4 (.stamped 2), .resume 4]

theorem oneRatchet_restoreThenSends :
    ∃ w : Sys machine,
      (Sys.idle (M := machine) State.pairedOneWay).run restoresAlone prog restoreThenSends = some w ∧
      (State.sealed w.state).map Envelope.streamPosition =
        [(⟨alice, bob, 0⟩, 0, 0), (⟨alice, bob, 0⟩, 0, 1)] ∧ OneRatchet w.state := by
  have hw : ((Sys.idle State.pairedOneWay).run restoresAlone prog
      restoreThenSends).map (fun w => (State.sealed w.state).map Envelope.streamPosition)
      = some [(⟨alice, bob, 0⟩, 0, 0), (⟨alice, bob, 0⟩, 0, 1)] := by decide
  rw [map_eq_some_iff] at hw
  obtain ⟨w, hrun, hobs⟩ := hw
  exact ⟨w, hrun, hobs, oneRatchet_of_restoresAlone (.of_run ratchetInit_pairedOneWay hrun)⟩

end Messaging
