import SovereignMobile.EventLoop.Wp
import SovereignMobile.Messaging.ClientMaps

/-! # Isolation of the identities

What belongs to one identity is not used by or stored for another one, if each switch finds the module
variables of the service empty and no operation suspended: then the new identity starts with nothing of
the former one, and its operations run while it is live. -/

namespace Identities

open Messaging EventLoop List Option
open MessagingMockData (serviceFor nextDid)

/-- No session is used for one DID and comes from another one; the store and the blobs hold nothing that
    an operation of another DID has written, and no cooldown, desync mark or pending envelope of another
    DID's operations is left. -/
structure Isolated (s : State) : Prop where
  sessions : ∀ u ∈ s.uses, ∀ a ∈ u.obtained, ∀ b ∈ u.during, a = b
  store : ∀ m ∈ s.contents, m = s.liveSelfDid
  saved : ∀ x ∈ s.saved, ∀ m ∈ x.2, m = some x.1
  marks : ∀ m ∈ s.markers, m = s.liveSelfDid

/-- No operation of the service is suspended, its module variables are empty, and no other DID that was
    live has the new one's keychain service. -/
def cleanSwitch (did : Option Did) (s : State) : Bool :=
  s.running.isEmpty && s.peers.all (quiet s.client) &&
    (nextDid did).all fun next => s.signedIn.all fun d => d = next || serviceFor d ≠ serviceFor next

def cleanSwitches : Cond machine where
  op _ s o := match o with
    | .setSelfDid did => cleanSwitch did s
    | _ => true
  call _ _ _ _ := true

/-! ## The invariant -/

structure Inv (s : State) : Prop where
  running : ∀ x ∈ s.running, x.2 = s.liveSelfDid
  client : From s.floor s.client
  natives : ∀ dir, s.floor.of dir ≤ nextNative s.client dir
  promises : ∀ p sid, s.floor.promise ≤ p.n → s.client.send.promises p = some (.ok sid) →
    s.floor.send ≤ sid
  promised : ∀ p r, s.client.send.promises p = some r → p.n < s.client.send.nextPromise
  untouched : ∀ did, did ∉ s.peers → quiet s.client did = true
  obtained : ∀ dir sid, s.floor.of dir ≤ sid → ∀ a ∈ s.obtained dir sid, a = s.liveSelfDid
  unborn : ∀ dir sid, nextNative s.client dir ≤ sid → s.obtained dir sid = []
  keychain : ∀ service blob, s.keychain service = some blob →
    service = serviceFor blob.did ∧ blob.did ∈ s.signedIn ∧ ∀ m ∈ blob.makers, m = some blob.did
  live : ∀ did, s.liveSelfDid = some did → did ∈ s.signedIn
  apart : ∀ d ∈ s.signedIn, ∀ d' ∈ s.signedIn, serviceFor d = serviceFor d' → d = d'
  timer : ∀ did, s.saveTimer = some did → s.liveSelfDid = some did
  isolated : Isolated s

theorem inv_fresh (now : Nat) : Inv (State.fresh now) where
  running := by simp [State.fresh]
  client := ⟨by simp [State.fresh], by simp [State.fresh], by simp [State.fresh], le_rfl⟩
  natives dir := by cases dir <;> exact le_rfl
  promises := by simp [State.fresh]
  promised := by simp [State.fresh, Client.fresh]
  untouched did _ := rfl
  obtained := by simp [State.fresh]
  unborn := by simp [State.fresh]
  keychain := by simp [State.fresh]
  live := by simp [State.fresh]
  apart := by simp [State.fresh]
  timer := by simp [State.fresh]
  isolated := ⟨by simp [State.fresh], by simp [State.fresh], by simp [State.fresh],
    by simp [State.fresh]⟩

section Invariant
variable {s : State} {i : Nat} {owner : Option Did}

theorem Inv.scheduleSave (h : Inv s) : Inv s.scheduleSave := by
  unfold State.scheduleSave
  split
  · split
    · exact h
    rename_i did hlive
    exact { h with
      timer := fun did' hd => some.inj hd ▸ hlive
      isolated := { h.isolated with } }
  · exact h

theorem Inv.exec {o : ClientOp} (h : Inv s) (hlive : owner = s.liveSelfDid)
    (ho : OpFrom s.floor s.client.send.nextPromise o) : Inv (s.exec i owner o) := by
  have hmem : ∀ {b : Bool} {l : List (Option Did)}, (∀ m ∈ l, m = s.liveSelfDid) →
      ∀ m ∈ (if b then l ++ [owner] else l), m = s.liveSelfDid := by
    intro b l hl m hm
    split at hm
    · rcases mem_append.1 hm with hm | hm
      · exact hl m hm
      · exact (mem_singleton.1 hm).trans hlive
    · exact hl m hm
  have hs' : Inv { s with
      client := o.apply i s.client,
      peers := s.peers ++ (peerOf o).toList,
      contents := if notifies s.client o && produces o then s.contents ++ [owner] else s.contents,
      markers := if marks o then s.markers ++ [owner] else s.markers } :=
    { h with
      client := h.client.apply ho
      natives := fun dir => nextNative_apply (c := s.client) o dir ▸ h.natives dir
      promises := fun p sid hp hr => by
        rcases promises_apply hr with hold | rfl
        · exact h.promises p sid hp hold
        · exact ho.2 sid rfl
      promised := fun p r hr => by
        refine Nat.lt_of_lt_of_le ?_ (nextPromise_apply o)
        rcases promises_apply hr with hold | rfl
        · exact h.promised p r hold
        · exact ho.1
      untouched := fun did hd => by
        rw [mem_append, not_or, mem_toList] at hd
        rw [(sameAt_apply hd.2).quiet]
        exact h.untouched did hd.1
      unborn := fun dir sid hsid => h.unborn dir sid (nextNative_apply o dir ▸ hsid)
      isolated := { h.isolated with
        store := hmem h.isolated.store
        marks := hmem h.isolated.marks } }
  unfold State.exec
  dsimp only
  split
  · exact hs'.scheduleSave
  · exact hs'

/-- Where no peer has an entry, every session and promise is yet to come. -/
theorem from_floor (c : Client) (hquiet : ∀ did, quiet c did = true) :
    From (Client.floor c) (clearAll c) := by
  simp only [quiet, Bool.and_eq_true, decide_eq_true_eq] at hquiet
  refine ⟨fun did sid hd => ?_, fun did sid hd => ?_, fun did p hd => ?_, le_rfl⟩
  · exact nomatch hd.symm.trans (hquiet did).1.1.1
  · exact nomatch hd.symm.trans (hquiet did).1.2
  · exact nomatch hd.symm.trans (hquiet did).1.1.2

theorem Inv.setSelfDid {did : Option Did} (h : Inv s) (hclean : cleanSwitch did s = true) :
    Inv (s.setSelfDid did) := by
  simp only [cleanSwitch, Bool.and_eq_true, List.isEmpty_iff] at hclean
  obtain ⟨⟨hrunning, hpeers⟩, hnext⟩ := hclean
  have hquiet : ∀ d, quiet s.client d = true := by
    intro d
    by_cases hd : d ∈ s.peers
    · exact List.all_eq_true.1 hpeers d hd
    · exact h.untouched d hd
  have hunmarked : s.peers.all (unmarked s.client) = true := by
    refine List.all_eq_true.2 fun d _ => ?_
    have hd := hquiet d
    simp only [quiet, Bool.and_eq_true] at hd
    exact hd.2
  have hservice : ∀ next, nextDid did = some next → ∀ d ∈ s.signedIn,
      serviceFor d = serviceFor next → d = next := by
    intro next hn d hd heq
    rw [hn, all_some, List.all_eq_true] at hnext
    simpa [heq] using hnext d hd
  exact {
    running := by simp [State.setSelfDid, hrunning]
    client := from_floor s.client hquiet
    natives := fun dir => by cases dir <;> exact le_rfl
    -- nobody has settled a promise that is not made yet
    promises := fun p sid hp hr => absurd (h.promised p _ hr) (Nat.not_lt.2 hp)
    promised := h.promised
    untouched := fun d hd => ((sameMaps_clearAll s.client).at d).quiet ▸ h.untouched d hd
    -- above the new floor there is no session yet
    obtained := fun dir sid hsid a ha => by
      have hborn : s.obtained dir sid = [] := h.unborn dir sid (by cases dir <;> exact hsid)
      exact absurd (hborn ▸ ha) (by simp)
    unborn := fun dir sid hsid => h.unborn dir sid (by cases dir <;> exact hsid)
    keychain := fun service blob hk => by
      obtain ⟨hfor, hin, hmakers⟩ := h.keychain service blob hk
      exact ⟨hfor, List.mem_append_left _ hin, hmakers⟩
    live := fun d hd => List.mem_append_right _ (mem_toList.2 hd)
    apart := fun d hd d' hd' heq => by
      rcases List.mem_append.1 hd with hd | hd <;> rcases List.mem_append.1 hd' with hd' | hd'
      · exact h.apart d hd d' hd' heq
      · exact hservice d' (mem_toList.1 hd') d hd heq
      · exact (hservice d (mem_toList.1 hd) d' hd' heq.symm).symm
      · exact some.inj ((mem_toList.1 hd).symm.trans (mem_toList.1 hd'))
    timer := by simp [State.setSelfDid]
    isolated := { h.isolated with
      store := by simp [State.setSelfDid]
      marks := by simp [State.setSelfDid, hunmarked] } }

theorem Inv.hydrate {next : Did} {blob : Option Blob} (h : Inv s)
    (hmakers : ∀ b, blob = some b → ∀ m ∈ b.makers, m = some next) :
    Inv (s.hydrate next blob) := by
  unfold State.hydrate
  split
  · rename_i hlive
    cases blob with
    | none => exact { h with isolated := { h.isolated with } }
    | some blob =>
      have hs' : Inv { s with
          client := hydrateFromBlob blob s.client, contents := s.contents ++ blob.makers } :=
        { h with
          client := (sameMaps_hydrateFromBlob blob s.client).from h.client
          natives := fun dir => by cases dir <;> exact h.natives _
          untouched := fun d hd =>
            ((sameMaps_hydrateFromBlob blob s.client).at d).quiet ▸ h.untouched d hd
          unborn := fun dir sid hsid => h.unborn dir sid (by cases dir <;> exact hsid)
          isolated := { h.isolated with
            store := fun m hm => by
              rcases mem_append.1 hm with hm | hm
              · exact h.isolated.store m hm
              · exact (hmakers blob rfl m hm).trans hlive.symm } }
      have hsaved := hs'.scheduleSave
      exact { hsaved with isolated := { hsaved.isolated with } }
  · exact h

/-- A call of the service by the identity that is live. -/
theorem Inv.afterCall {c : Messaging.Call} {r : Reply} {s' : Messaging.State}
    {issued : Option Did} {o : Except Err (Messaging.Ret (callAs (selfDid issued) c))} (h : Inv s)
    (hissued : issued = s.liveSelfDid) (hc : CallFrom s.floor c)
    (hp : Messaging.Call.perform i (callAs (selfDid issued) c) r s.view = some (s', o)) :
    Inv (s.afterCall issued c s') := by
  have hbeyond : Beyond s.client (s'.client (selfDid issued)) :=
    beyond_effect (Messaging.Call.effect hp) (selfDid issued)
  have hsame := hbeyond.toSameMaps
  exact { h with
    client := hsame.from h.client
    natives := fun dir => Nat.le_trans (h.natives dir) (hbeyond.le dir)
    promises := fun p sid hn hr => h.promises p sid hn (hsame.promises ▸ hr)
    promised := fun p r hr => hsame.nextPromise ▸ h.promised p r (hsame.promises ▸ hr)
    untouched := fun d hd => (hsame.at d).quiet ▸ h.untouched d hd
    obtained := fun dir sid hsid a ha => by
      simp only [State.afterCall] at ha
      split at ha
      · simp only [mem_cons, not_mem_nil, or_false] at ha
        rcases ha with rfl | rfl
        · exact hissued
        · rfl
      · exact h.obtained dir sid hsid a ha
    unborn := fun dir sid hsid => by
      have hnot : ¬ sid < nextNative (s'.client (selfDid issued)) dir := Nat.not_lt.2 hsid
      have hborn := h.unborn dir sid (Nat.le_trans (hbeyond.le dir) hsid)
      simp [State.afterCall, hnot, hborn]
    isolated := { h.isolated with
      sessions := fun u hu a ha b hb => by
        rcases mem_append.1 hu with hu | hu
        · exact h.isolated.sessions u hu a ha b hb
        rw [List.mem_map] at hu
        obtain ⟨⟨dir, sid⟩, hused, rfl⟩ := hu
        have hfrom := hc.of_used (mem_toList.1 hused)
        have hb' : b = s.liveSelfDid := by
          simp only [mem_cons, not_mem_nil, or_false] at hb
          rcases hb with rfl | rfl
          · exact hissued
          · rfl
        exact (h.obtained dir sid hfrom a ha).trans hb'.symm } }

/-- A snapshot that holds only what its own identity has written. -/
theorem Inv.save {did : Did} {blob : Blob} (h : Inv s) (hdid : blob.did = did)
    (hin : did ∈ s.signedIn) (hmakers : ∀ m ∈ blob.makers, m = some did) :
    Inv { s with
      keychain := Function.update s.keychain (serviceFor did) (some blob),
      saved := s.saved ++ [(did, blob.makers)] } := by
  exact { h with
    keychain := fun service b hk => by
      rcases update_some hk with hold | ⟨rfl, hb⟩
      · exact h.keychain service b hold
      cases hb
      subst hdid
      exact ⟨rfl, hin, hmakers⟩
    isolated := { h.isolated with
      saved := fun x hx => by
        rcases mem_append.1 hx with hx | hx
        · exact h.isolated.saved x hx
        · obtain rfl := mem_singleton.1 hx
          exact hmakers } }

end Invariant

/-! ## The obligations -/

/-- While a task of the service runs, it keeps its entry, and with it the identity and the floor. -/
structure Rely (i : Nat) (s s' : State) : Prop where
  running : ∀ owner, (i, owner) ∈ s.running →
    (i, owner) ∈ s'.running ∧ s'.liveSelfDid = s.liveSelfDid ∧ s'.floor = s.floor
  nextPromise : s.client.send.nextPromise ≤ s'.client.send.nextPromise
  signedIn : ∀ did ∈ s.signedIn, did ∈ s'.signedIn

def OpPre (i : Nat) (s : State) : Op → Prop
  | .enter owner => owner = s.liveSelfDid
  | .service owner (.client _ o) =>
    (i, owner) ∈ s.running ∧ OpFrom s.floor s.client.send.nextPromise o
  | .hydrate next blob => ∀ b, blob = some b → ∀ m ∈ b.makers, m = some next
  | _ => True

def CallPre (i : Nat) (s : State) : Call → Prop
  | .service owner issued c => (i, owner) ∈ s.running ∧ issued = owner ∧ CallFrom s.floor c
  | .loadMessagingState did => did ∈ s.signedIn
  | .saveMessagingState did blob =>
    blob.did = did ∧ did ∈ s.signedIn ∧ ∀ m ∈ blob.makers, m = some did

def isolation : Spec machine where
  Inv := Inv
  Rely := Rely
  OpPre := OpPre
  CallPre := CallPre
  Fin _ _ := True

section Steps
variable {s s' : State} {i j : Nat}

theorem Rely.refl (i : Nat) (s : State) : Rely i s s :=
  ⟨fun _ h => ⟨h, rfl, rfl⟩, le_rfl, fun _ h => h⟩

variable {s1 s2 s3 : State} {r : Reply}

theorem Rely.trans (h : Rely i s1 s2) (h' : Rely i s2 s3) : Rely i s1 s3 where
  running owner ho := by
    obtain ⟨ho2, hlive, hfloor⟩ := h.running owner ho
    obtain ⟨ho3, hlive', hfloor'⟩ := h'.running owner ho2
    exact ⟨ho3, hlive'.trans hlive, hfloor'.trans hfloor⟩
  nextPromise := Nat.le_trans h.nextPromise h'.nextPromise
  signedIn did hd := h'.signedIn did (h.signedIn did hd)

/-- Nothing that the tasks rely on changes, promises apart. -/
structure Steady (s s' : State) : Prop where
  running : s'.running = s.running
  live : s'.liveSelfDid = s.liveSelfDid
  floor : s'.floor = s.floor
  signedIn : s'.signedIn = s.signedIn
  nextPromise : s.client.send.nextPromise ≤ s'.client.send.nextPromise

theorem Steady.rely (h : Steady s s') (i : Nat) : Rely i s s' where
  running _ ho := ⟨h.running ▸ ho, h.live, h.floor⟩
  nextPromise := h.nextPromise
  signedIn _ hd := h.signedIn ▸ hd

theorem Steady.trans (h : Steady s1 s2) (h' : Steady s2 s3) : Steady s1 s3 :=
  ⟨h'.running.trans h.running, h'.live.trans h.live, h'.floor.trans h.floor,
    h'.signedIn.trans h.signedIn, Nat.le_trans h.nextPromise h'.nextPromise⟩

theorem steady_scheduleSave (s : State) : Steady s s.scheduleSave := by
  unfold State.scheduleSave
  split
  · split
    · exact ⟨rfl, rfl, rfl, rfl, le_rfl⟩
    · exact ⟨rfl, rfl, rfl, rfl, le_rfl⟩
  · exact ⟨rfl, rfl, rfl, rfl, le_rfl⟩

theorem client_scheduleSave (s : State) : s.scheduleSave.client = s.client := by
  unfold State.scheduleSave
  split
  · split <;> rfl
  · rfl

theorem client_exec (i : Nat) (owner : Option Did) (o : ClientOp) (s : State) :
    (s.exec i owner o).client = o.apply i s.client := by
  unfold State.exec
  dsimp only
  split
  · exact client_scheduleSave _
  · rfl

theorem steady_exec (i : Nat) (owner : Option Did) (o : ClientOp) (s : State) :
    Steady s (s.exec i owner o) := by
  have hnext := nextPromise_apply (c := s.client) (i := i) o
  unfold State.exec
  dsimp only
  split
  · refine Steady.trans ?_ (steady_scheduleSave _)
    exact ⟨rfl, rfl, rfl, rfl, hnext⟩
  · exact ⟨rfl, rfl, rfl, rfl, hnext⟩

theorem steady_hydrate (next : Did) (blob : Option Blob) (s : State) :
    Steady s (s.hydrate next blob) := by
  unfold State.hydrate
  split
  · cases blob with
    | none => exact ⟨rfl, rfl, rfl, rfl, le_rfl⟩
    | some blob =>
      have hs := steady_scheduleSave { s with
        client := hydrateFromBlob blob s.client, contents := s.contents ++ blob.makers }
      exact ⟨hs.running, hs.live, hs.floor, hs.signedIn, hs.nextPromise⟩
  · exact ⟨rfl, rfl, rfl, rfl, le_rfl⟩

theorem op_isolation {o : Op} (h : Inv s) (hc : cleanSwitches.op i s o = true) (hp : OpPre i s o) :
    Inv (o.apply i s) ∧ ∀ j, j ≠ i → Rely j s (o.apply i s) := by
  cases o with
  | enter owner =>
    refine ⟨{ h with running := fun x hx => ?_, isolated := { h.isolated with } }, fun j _ => ?_⟩
    · rcases List.mem_append.1 hx with hx | hx
      · exact h.running x hx
      · exact List.mem_singleton.1 hx ▸ hp
    · have hkept : ∀ x ∈ s.running, x ∈ s.running ++ [(i, owner)] := fun _ hx =>
        List.mem_append_left _ hx
      exact ⟨fun owner' ho => ⟨hkept _ ho, rfl, rfl⟩, le_rfl, fun _ hd => hd⟩
  | leave =>
    refine ⟨{ h with running := fun x hx => ?_, isolated := { h.isolated with } }, fun j hj => ?_⟩
    · exact h.running x (List.mem_of_mem_filter hx)
    have hkept : ∀ x ∈ s.running, x.1 = j → x ∈ s.running.filter fun x => x.1 ≠ i :=
      fun x hx hxj => List.mem_filter.2 ⟨hx, by simpa [hxj] using hj⟩
    exact ⟨fun owner' ho => ⟨hkept _ ho rfl, rfl, rfl⟩, le_rfl, fun _ hd => hd⟩
  | service owner o =>
    cases o with
    | client me o =>
      exact ⟨h.exec (h.running _ hp.1) hp.2, fun j _ => (steady_exec i owner o s).rely j⟩
    | advance ms =>
      have hsteady : Steady s ((Op.service owner (.advance ms)).apply i s) :=
        ⟨rfl, rfl, rfl, rfl, le_rfl⟩
      exact ⟨{ h with isolated := { h.isolated with } }, fun j _ => hsteady.rely j⟩
  | setSelfDid did =>
    -- no task runs, so none has to rely on what changes
    refine ⟨h.setSelfDid hc, fun j _ => ⟨fun owner ho => ?_, le_rfl, fun d hd => ?_⟩⟩
    · have hc' : cleanSwitch did s = true := hc
      simp only [cleanSwitch, Bool.and_eq_true, List.isEmpty_iff] at hc'
      exact nomatch hc'.1.1 ▸ ho
    · exact List.mem_append_left _ hd
  | hydrate next blob => exact ⟨h.hydrate hp, fun j _ => (steady_hydrate next blob s).rely j⟩
  | clearTimer =>
    have hsteady : Steady s (Op.clearTimer.apply i s) := ⟨rfl, rfl, rfl, rfl, le_rfl⟩
    have htimer : ∀ did, none = some did → s.liveSelfDid = some did :=
      fun _ hd => nomatch hd
    exact ⟨{ h with timer := htimer, isolated := { h.isolated with } }, fun j _ => hsteady.rely j⟩
  | sealedElsewhere e =>
    have hsteady : Steady s ((Op.sealedElsewhere e).apply i s) :=
      ⟨rfl, rfl, rfl, rfl, le_rfl⟩
    exact ⟨{ h with isolated := { h.isolated with } }, fun j _ => hsteady.rely j⟩

/-- What a performed call has led to, and what it has answered. -/
theorem call_service {owner issued : Option Did} {c : Messaging.Call}
    {o : Except Err (Messaging.Ret c)} (h : Inv s) (hp : CallPre i s (.service owner issued c))
    (hperf : Call.perform i (.service owner issued c) r s = some (s', o)) :
    Inv s' ∧ Steady s s' ∧ AnswerFrom s.floor c o := by
  obtain ⟨hown, rfl, hc⟩ := hp
  simp only [Call.perform, map_eq_some_iff] at hperf
  obtain ⟨⟨s1, o1⟩, hs1, rfl, rfl⟩ := hperf
  have hnext := (beyond_effect (Messaging.Call.effect hs1) (selfDid issued)).nextPromise
  refine ⟨h.afterCall (h.running _ hown) hc hs1, ⟨rfl, rfl, rfl, rfl, le_of_eq hnext.symm⟩, ?_⟩
  refine .uncast (answerFrom_of_perform (callFrom_callAs _ hc) ?_ ?_ hs1)
  · exact fun _ dir => h.natives dir
  · exact fun _ p sid hn hr => h.promises p sid hn hr

theorem call_isolation {c : Call} {o : Except Err (Ret c)} (h : Inv s) (hp : CallPre i s c)
    (hperf : Call.perform i c r s = some (s', o)) :
    Inv s' ∧ Steady s s' := by
  cases c with
  | service owner issued c =>
    obtain ⟨hinv, hsteady, -⟩ := call_service h hp hperf
    exact ⟨hinv, hsteady⟩
  | loadMessagingState did =>
    have hs : s' = s := by
      simp only [Call.perform] at hperf
      split at hperf
      · exact (Prod.mk.inj (some.inj hperf)).1.symm
      · exact (Prod.mk.inj (some.inj hperf)).1.symm
    subst hs
    exact ⟨h, rfl, rfl, rfl, rfl, le_rfl⟩
  | saveMessagingState did blob =>
    obtain ⟨hdid, hin, hmakers⟩ := hp
    simp only [Call.perform] at hperf
    split at hperf
    · rw [← (Prod.mk.inj (some.inj hperf)).1]
      exact ⟨h, rfl, rfl, rfl, rfl, le_rfl⟩
    · rw [← (Prod.mk.inj (some.inj hperf)).1]
      exact ⟨h.save hdid hin hmakers, rfl, rfl, rfl, rfl, le_rfl⟩

end Steps

theorem isolation_sound : isolation.Sound cleanSwitches where
  refl := Rely.refl
  trans _ _ _ _ h h' := h.trans h'
  op _ _ _ h hc hp := op_isolation h hc hp
  call _ _ _ _ _ _ h hp hperf _ := by
    obtain ⟨hinv, hsteady⟩ := call_isolation h hp hperf
    exact ⟨hinv, fun j _ => hsteady.rely j⟩
  fin _ _ _ _ _ _ := trivial

/-! ## The programs -/

/-- Task `i` runs for `owner`, with the sessions and promises from `n` on; `w` of them are known. -/
structure Runs (n : Floor) (owner : Option Did) (w : Known) (i : Nat) (s : State) : Prop where
  running : (i, owner) ∈ s.running
  floor : s.floor = n
  known : ∀ me, w me ≤ s.client.send.nextPromise

section Programs
variable {n : Floor} {owner : Option Did} {w : Known} {i : Nat} {s s' : State}

theorem Runs.rely (h : Runs n owner w i s) (hr : Rely i s s') : Runs n owner w i s' where
  running := (hr.running owner h.running).1
  floor := (hr.running owner h.running).2.2.trans h.floor
  known me := Nat.le_trans (h.known me) hr.nextPromise

theorem Runs.seen (h : Runs n owner w i s) : Runs n owner ((sessionKind n).seen w s.view) i s where
  running := h.running
  floor := h.floor
  known me := Nat.max_le.2 ⟨h.known me, le_rfl⟩

theorem known_done {c : Client} (h : ∀ me, w me ≤ c.send.nextPromise) (o : ClientOp)
    (me me' : Did) :
    w.done (.client me o) me' ≤ (o.apply i c).send.nextPromise := by
  have hle : w me' ≤ (o.apply i c).send.nextPromise :=
    Nat.le_trans (h me') (nextPromise_apply o)
  cases o with
  | send o =>
    cases o with
    | newPromise =>
      show Function.update w me (w me + 1) me' ≤ c.send.nextPromise + 1
      by_cases hme : me' = me
      · subst hme
        rw [Function.update_self]
        exact Nat.succ_le_succ (h me')
      · rw [Function.update_of_ne hme]
        exact hle
    | _ => exact hle
  | _ => exact hle

theorem Runs.service {o : Messaging.Op} (h : Runs n owner w i s) :
    Runs n owner (w.done o) i ((Op.service owner o).apply i s) := by
  cases o with
  | advance ms => exact ⟨h.running, h.floor, h.known⟩
  | client me o =>
    have hsteady := steady_exec i owner o s
    refine ⟨hsteady.running ▸ h.running, hsteady.floor.trans h.floor, fun me' => ?_⟩
    exact client_exec i owner o s ▸ known_done h.known o me me'

/-- A program of the service, wherever the identity it runs for stays live. -/
theorem safe_lift (t : Task Messaging.machine) : ∀ (w : Known) (i : Nat) (s : State),
    t.Only (sessionKind n) w → Inv s → Runs n owner w i s →
      isolation.Safe cleanSwitches i (lift owner t) s := by
  induction t with
  | done => exact fun w i s _ _ _ _ => ⟨trivial, fun _ => trivial⟩
  | read k ih =>
    intro w i s ht hi hr
    exact ih s.view _ i s (ht s.view fun _ => hr.floor ▸ hi.client) hi hr.seen
  | op o k ih =>
    intro w i s ht hi hr _
    refine ⟨?_, fun hi' => ih _ i _ ht.2 hi' hr.service⟩
    cases o with
    | client me o => exact ⟨hr.running, hr.floor ▸ .mono ht.1 (hr.known me)⟩
    | advance ms => trivial
  | await c k ih =>
    -- the DID that the call is made for was read before the suspension, and is still live
    intro w i s ht hi hr s1 hr1 hi1
    have hruns1 := hr.rely hr1
    have hissued : s.liveSelfDid = owner := (hi.running _ hr.running).symm
    have hpre : CallPre i s1 (.service owner s.liveSelfDid c) :=
      ⟨hruns1.running, hissued, hruns1.floor ▸ ht.1⟩
    refine ⟨hpre, fun r s2 o hperf _ hi2 s3 hr3 hi3 => ?_⟩
    obtain ⟨-, hsteady, hanswer⟩ := call_service hi1 hpre hperf
    have hruns3 := (hruns1.rely (hsteady.rely i)).rely hr3
    exact ih o w i s3 (ht.2 o (hruns1.floor ▸ hanswer)) hi3 hruns3
  | fork child k ihc ihk =>
    intro w i s ht hi hr
    refine ⟨fun c _ _ _ => ⟨hi.running _ hr.running, fun hi' => ?_⟩, fun s1 hr1 hi1 => ?_⟩
    · have hin : (c, owner) ∈ s.running ++ [(c, owner)] := by simp
      exact ihc w c _ ht.1 hi' ⟨hin, hr.floor, hr.known⟩
    · exact ihk w i s1 ht.2 hi1 (hr.rely hr1)

theorem safe_service (c : Messaging.Cmd) (i : Nat) (s : State) :
    isolation.Safe cleanSwitches i (prog (.service c)) s := by
  refine fun _ => ⟨rfl, fun hi' => ?_⟩
  have hin : (i, s.liveSelfDid) ∈ s.running ++ [(i, s.liveSelfDid)] := by simp
  exact safe_lift _ (fun _ => 0) i _ (prog_from s.floor c _) hi' ⟨hin, rfl, fun _ => Nat.zero_le _⟩

variable {next : Did}

/-- The blob that is loaded belongs to the DID that it was asked for. -/
theorem load_makers {r : Reply} {o : Except Err (Option Blob)} (h : Inv s) (hin : next ∈ s.signedIn)
    (hperf : Call.perform i (.loadMessagingState next) r s = some (s', o)) :
    ∀ b, o = .ok (some b) → ∀ m ∈ b.makers, m = some next := by
  rintro b rfl
  simp only [Call.perform] at hperf
  split at hperf
  · exact absurd (Prod.mk.inj (some.inj hperf)).2 (by simp)
  have hb : s.keychain (serviceFor next) = some b :=
    Except.ok.inj (Prod.mk.inj (some.inj hperf)).2
  obtain ⟨hfor, hown, hmakers⟩ := h.keychain _ b hb
  exact (h.apart next hin b.did hown hfor) ▸ hmakers

/-- The obligations are met; nothing is asked of the outcome. -/
abbrev Meets {α : Type} (i : Nat) (m : Prog α) (s : State) : Prop :=
  isolation.Wp cleanSwitches i m (fun _ _ => True) s

theorem Meets.toTask {α : Type} {m : Prog α} (h : Meets i m s) :
    isolation.Safe cleanSwitches i m.toTask s :=
  Spec.Wp.toTask h fun _ _ _ _ => trivial

theorem meets_pure (i : Nat) (h : Inv s) : Meets i (pure ()) s := .pure h trivial

theorem meets_hydrateWhenLoaded (i : Nat) (hin : next ∈ s.signedIn) :
    Meets i (hydrateWhenLoaded next) s := by
  have hload : isolation.Wp cleanSwitches i (loadMessagingState next)
      (fun o _ => ∀ b, o = .ok (some b) → ∀ m ∈ b.makers, m = some next) s := by
    refine .await fun s1 hr1 hi1 => ?_
    have hin1 : next ∈ s1.signedIn := hr1.signedIn next hin
    exact ⟨hin1, fun r s2 o hperf _ _ s3 _ _ => load_makers (i := i) hi1 hin1 hperf⟩
  refine hload.bind (fun blob s' _ hmakers => ?_) fun _ _ _ _ => trivial
  exact .op fun _ => ⟨fun b hb => hmakers b (hb ▸ rfl), fun _ => trivial⟩

theorem meets_setSelfDid (did : Option Did) (i : Nat) (h : Inv s) : Meets i (setSelfDid did) s := by
  refine .getThen ?_
  split
  · exact meets_pure i h
  have hswitch : isolation.Wp cleanSwitches i (exec (.setSelfDid did))
      (fun _ s' => ∀ next, nextDid did = some next → next ∈ s'.signedIn) s := by
    refine .op fun _ => ⟨trivial, fun _ next hnext => ?_⟩
    exact mem_append_right _ (mem_toList.2 hnext)
  refine hswitch.bind (fun _ s' hi' hin => ?_) fun _ _ _ _ => trivial
  split
  · exact meets_pure i hi'
  rename_i next hnext
  refine .spawn (fun j _ => ?_) fun _ _ _ => trivial
  exact (meets_hydrateWhenLoaded j (hin next hnext)).toTask

/-- What the timer saves is what the identity that is live has written. -/
theorem meets_timerFires (i : Nat) (h : Inv s) : Meets i timerFires s := by
  refine .getThen ?_
  split
  · exact meets_pure i h
  rename_i did htimer
  have hlive : s.liveSelfDid = some did := h.timer did htimer
  have hclear : isolation.Wp cleanSwitches i (exec .clearTimer)
      (fun _ s' => s'.signedIn = s.signedIn) s := .op fun _ => ⟨trivial, fun _ => rfl⟩
  refine hclear.bind (fun _ s' _ hsame => ?_) fun _ _ _ _ => trivial
  have hmakers : ∀ m ∈ s.contents, m = some did := fun m hm =>
    (h.isolated.store m hm).trans hlive
  refine .await fun s1 hr1 _ => ?_
  have hin : did ∈ s1.signedIn := hr1.signedIn did (hsame ▸ h.live did hlive)
  exact ⟨⟨rfl, hin, hmakers⟩, fun _ _ _ _ _ _ _ _ _ => trivial⟩

theorem safe_prog (c : Cmd) (i : Nat) (s : State) (h : Inv s) :
    isolation.Safe cleanSwitches i (prog c) s := by
  cases c with
  | service c => exact safe_service c i s
  | setSelfDid did => exact (meets_setSelfDid did i h).toTask
  | timerFires => exact (meets_timerFires i h).toTask
  | sealedElsewhere e => exact fun _ => ⟨trivial, fun _ => trivial⟩

end Programs

/-- A new phone. -/
def NewPhone (s : State) : Prop := ∃ now, s = State.fresh now

/-- **Isolation.** Whatever the identities do on one phone, and however their operations interleave:
    if every switch finds nothing of the former identity, then what belongs to one of them is not used
    by another one, not shown to it and not saved for it. -/
theorem isolated_of_cleanSwitches {w : Sys machine} (h : Reach cleanSwitches prog NewPhone w) :
    Isolated w.state := by
  have hinit : ∀ s, NewPhone s → Inv s := by
    rintro s ⟨now, rfl⟩
    exact inv_fresh now
  have hprog : ∀ c i s, Inv s → isolation.Fin i s → isolation.Safe cleanSwitches i (prog c) s :=
    fun c i s hi _ => safe_prog c i s hi
  exact (isolation_sound.reach hinit (fun _ _ _ => trivial) hprog h).inv.isolated

/-! ## Two identities that write to the same peer -/

def homeDid : Did := "did:zhtp:home"

def workDid : Did := "did:zhtp:work"

def peerDid : Did := "did:zhtp:peer"

/-- Task `i` waits `n` times, and each time the call succeeds. -/
def turns (i n : Nat) : List (Move machine Cmd) :=
  (List.replicate n [.perform i .ok, .resume i]).flatten

def answered (i : Nat) (r : Reply) : List (Move machine Cmd) := [.perform i r, .resume i]

/-- `self` becomes live; the load is task `i + 1`. -/
def switchTo (self : Did) (i : Nat) : List (Move machine Cmd) :=
  .start (.setSelfDid (some self)) :: turns (i + 1) 1

/-- The first text of `self`, as task `i`; task `i + 1` sets up the session. -/
def firstText (self : Did) (i : Nat) : List (Move machine Cmd) :=
  List.flatten
    [[.start (.service (.sendTextMessage self peerDid "hi" i))], turns (i + 1) 1,
     answered (i + 1) (.response ⟨peerDid, "peer", "pk"⟩), turns (i + 1) 2,
     answered (i + 1) (.stamped 1), answered (i + 1) (.relayed .delivered), turns (i + 1) 2,
     turns i 2, answered i (.stamped 2), answered i (.relayed .delivered), turns i 3]

/-- The first identity saves its store and deletes the conversation before the second one signs in. -/
def afterDeletion : List (Move machine Cmd) :=
  List.flatten
    [switchTo homeDid 0, firstText homeDid 2, [.start .timerFires], turns 4 1,
     [.start (.service (.deleteConversation homeDid peerDid))], switchTo workDid 6,
     firstText workDid 8, [.start .timerFires], turns 10 1]

theorem isolated_afterDeletion :
    ∃ w : Sys machine,
      (Sys.idle (M := machine) (State.fresh 1000000)).run cleanSwitches prog afterDeletion = some w ∧
      (State.uses w.state = [⟨[some homeDid, some homeDid], [some homeDid, some homeDid]⟩,
        ⟨[some workDid, some workDid], [some workDid, some workDid]⟩]) ∧
      Isolated w.state := by
  have hw : ((Sys.idle (State.fresh 1000000)).run cleanSwitches prog
      afterDeletion).map (fun w => State.uses w.state) =
        some [⟨[some homeDid, some homeDid], [some homeDid, some homeDid]⟩,
          ⟨[some workDid, some workDid], [some workDid, some workDid]⟩] := by decide
  obtain ⟨w, hrun, huses⟩ := map_eq_some_iff.1 hw
  exact ⟨w, hrun, huses, isolated_of_cleanSwitches (.of_run ⟨1000000, rfl⟩ hrun)⟩

/-- The second identity writes to a peer with whom the first one has a session. -/
def samePeer : List (Move machine Cmd) :=
  List.flatten
    [switchTo homeDid 0, firstText homeDid 2, switchTo workDid 4,
     [.start (.service (.sendTextMessage workDid peerDid "hi" 6))], turns 6 1,
     answered 6 (.stamped 3)]

theorem not_isolated :
    ¬ ∀ w : Sys machine, Reach Cond.any prog NewPhone w → Isolated w.state := by
  intro hall
  have hw : ((Sys.idle (State.fresh 1000000)).run Cond.any prog samePeer).map
      (fun w => State.uses w.state) =
        some [⟨[some homeDid, some homeDid], [some homeDid, some homeDid]⟩,
          ⟨[some workDid, some workDid], [some homeDid, some homeDid]⟩] := by decide
  obtain ⟨w, hrun, huses⟩ := map_eq_some_iff.1 hw
  have hsessions := (hall w (.of_run ⟨1000000, rfl⟩ hrun)).sessions
  rw [huses] at hsessions
  have hsame : some homeDid = some workDid :=
    hsessions ⟨[some workDid, some workDid], [some homeDid, some homeDid]⟩ (by simp) _
      (mem_cons_self ..) _ (mem_cons_self ..)
  exact nomatch hsame

end Identities
