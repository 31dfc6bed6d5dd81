import SovereignMobile.Messaging.Runs
import Mathlib.Data.List.Nodup
import Mathlib.Data.List.Count

/-! # The pending-decrypt buffer

`drainPendingDecrypt` iterates over the array that it found, across suspensions, and writes its own
list back at the end. While it runs, `bufferUndecryptable` may push to the array, or shift entries out
at its front, and other drains of the same peer may write lists of their own. Nothing is lost in the
runs in which a peer has one drain at a time and no entry is shifted out below a drain. -/

namespace Messaging

open EventLoop
open List (mem_append_left mem_append_right mem_of_getElem? mem_singleton)
open PendingSide (buffer)

/-- Every entry that was pushed for `did` and not evicted has had its placeholder row replaced or
    removed exactly once, after it was opened, or it is in the buffer; unless a drain is in
    progress. -/
structure Client.BufferKept (c : Client) : Prop where
  short : ∀ did, (c.pending.buffer did).length ≤ PENDING_DECRYPT_LIMIT_PER_PEER
  nodup : ∀ did, ((c.pending.buffer did).map PendingDecrypt.placeholderId).Nodup
  tickets : (c.pending.pushed.map fun x => x.2.ticket).Nodup
  settled : ∀ did, (∀ d ∈ c.pending.drains, d.did ≠ did) → ∀ p, (did, p) ∈ c.pending.pushed →
    p.ticket ∉ c.pending.evicted →
    (c.pending.recovered.count p.ticket = 1 ∧ p.envelope ∈ c.recv.opened ∧
      p ∉ c.pending.buffer did) ∨
    (c.pending.recovered.count p.ticket = 0 ∧ p ∈ c.pending.buffer did)

/-- A peer has one drain at a time, an entry is shifted out only while no drain has begun to take
    entries, and a conversation is deleted only when nothing of it is buffered. -/
def drainsAlone : Cond machine where
  op _ s o :=
    match o with
    | .client me (.pending (.startDrain did _)) =>
      (State.client s me).pending.drains.all fun d => d.did ≠ did
    | .client me (.pending (.bufferUndecryptable e)) =>
      let c := (State.client s me).pending
      (c.buffer e.senderDid).any (fun p => p.placeholderId == e.placeholderId) ||
        decide ((c.buffer e.senderDid).length < PENDING_DECRYPT_LIMIT_PER_PEER) ||
        c.drains.all fun d => d.did ≠ e.senderDid || (d.taken == 0 && d.current.isNone)
    | .client me (.deleteConversation did) =>
      let c := (State.client s me).pending
      (c.buffer did).isEmpty && c.drains.all fun d => d.did ≠ did
    | _ => true
  call _ _ _ _ := true

/-! ## One buffer and its drain -/

/-- The drain has kept what it has passed and not recovered, and nothing else was recovered. -/
structure QueueRight (recovered : List Nat) (buf : List PendingDecrypt) (drains : List Drain) :
    Prop where
  nodup : (buf.map PendingDecrypt.placeholderId).Nodup
  tickets : (buf.map PendingDecrypt.ticket).Nodup
  alone : drains.length ≤ 1
  taken : ∀ d ∈ drains, d.taken ≤ buf.length
  remaining : ∀ d ∈ drains, d.remaining = (buf.take d.taken).filter fun p => p.ticket ∉ recovered
  current : ∀ d ∈ drains, ∀ item, d.current = some item → buf[d.taken]? = some item
  passed : ∀ p ∈ buf, p.ticket ∈ recovered → ∃ d ∈ drains, p ∈ buf.take d.taken

theorem not_mem_take {α : Type} {l : List α} {k : Nat} {a : α} (hn : l.Nodup)
    (h : l[k]? = some a) : a ∉ l.take k := by
  have hdrop : a ∈ l.drop k := mem_of_getElem? (i := 0) (by simpa using h)
  exact fun htake => List.disjoint_take_drop hn (Nat.le_refl k) htake hdrop

namespace QueueRight

variable {recovered : List Nat} {buf : List PendingDecrypt} {d : Drain} {item : PendingDecrypt}

theorem buf_nodup {drains : List Drain} (h : QueueRight recovered buf drains) : buf.Nodup :=
  h.tickets.of_map _

theorem single (hnodup : (buf.map PendingDecrypt.placeholderId).Nodup)
    (htickets : (buf.map PendingDecrypt.ticket).Nodup) (htaken : d.taken ≤ buf.length)
    (hremaining : d.remaining = (buf.take d.taken).filter fun p => p.ticket ∉ recovered)
    (hcurrent : ∀ item, d.current = some item → buf[d.taken]? = some item)
    (hpassed : ∀ p ∈ buf, p.ticket ∈ recovered → p ∈ buf.take d.taken) :
    QueueRight recovered buf [d] where
  nodup := hnodup
  tickets := htickets
  alone := Nat.le_refl 1
  taken := List.forall_mem_singleton.2 htaken
  remaining := List.forall_mem_singleton.2 hremaining
  current := List.forall_mem_singleton.2 hcurrent
  passed p hp hrec := ⟨d, List.mem_singleton.2 rfl, hpassed p hp hrec⟩

theorem mem_take (h : QueueRight recovered buf [d]) {p : PendingDecrypt} (hp : p ∈ buf)
    (hrec : p.ticket ∈ recovered) : p ∈ buf.take d.taken := by
  obtain ⟨d', hd', htake⟩ := h.passed p hp hrec
  rw [List.mem_singleton.1 hd'] at htake
  exact htake

/-- What the drain works on has not been recovered. -/
theorem current_unrecovered (h : QueueRight recovered buf [d]) (hc : d.current = some item) :
    item.ticket ∉ recovered := by
  intro hrec
  have hget := h.current d (by simp) item hc
  exact not_mem_take h.buf_nodup hget (h.mem_take (mem_of_getElem? hget) hrec)

theorem start (h : QueueRight recovered buf []) (i : Nat) (did : Did) (ref : ArrayRef) :
    QueueRight recovered buf [⟨i, did, ref, 0, [], none⟩] := by
  refine single h.nodup h.tickets (Nat.zero_le _) (by simp) (by simp) fun p hp hrec => ?_
  obtain ⟨d, hd, -⟩ := h.passed p hp hrec
  simp at hd

/-- A drain that has taken nothing yet is given up. -/
theorem abandon (h : QueueRight recovered buf [d]) (ht : d.taken = 0) :
    QueueRight recovered buf [] where
  nodup := h.nodup
  tickets := h.tickets
  alone := by simp
  taken d hd := nomatch hd
  remaining d hd := nomatch hd
  current d hd := nomatch hd
  passed p hp hrec := by
    have htake := h.mem_take hp hrec
    rw [ht] at htake
    simp at htake

theorem takeNext (h : QueueRight recovered buf [d]) :
    QueueRight recovered buf [{ d with current := buf[d.taken]? }] :=
  single h.nodup h.tickets (h.taken d (by simp)) (h.remaining d (by simp)) (fun _ hc => hc)
    fun _ hp hrec => h.mem_take hp hrec

theorem advance {recovered' : List Nat} {d' : Drain} (h : QueueRight recovered buf [d])
    (hc : d.current = some item) (htaken : d'.taken = d.taken + 1) (hcurrent : d'.current = none)
    (hremaining : d'.remaining = (buf.take (d.taken + 1)).filter fun p => p.ticket ∉ recovered')
    (hrec : ∀ t ∈ recovered', t ∈ recovered ∨ t = item.ticket) :
    QueueRight recovered' buf [d'] := by
  have hget := h.current d (by simp) item hc
  have htake : buf.take (d.taken + 1) = buf.take d.taken ++ [item] := by
    rw [List.take_add_one, hget]
    rfl
  refine single h.nodup h.tickets ?_ (by rw [htaken, hremaining]) ?_ ?_
  · have := (List.getElem?_eq_some_iff.1 hget).1
    omega
  · intro item' hc'
    exact nomatch hcurrent.symm.trans hc'
  intro p hp hprec
  rw [htaken, htake]
  rcases hrec _ hprec with hold | hnew
  · exact mem_append_left _ (h.mem_take hp hold)
  · obtain rfl := List.inj_on_of_nodup_map h.tickets hp (mem_of_getElem? hget) hnew
    exact mem_append_right _ (by simp)

theorem keep (h : QueueRight recovered buf [d]) (hc : d.current = some item) :
    QueueRight recovered buf [d.keep] := by
  refine h.advance hc rfl rfl ?_ fun t ht => .inl ht
  have hget := h.current d (by simp) item hc
  have hun := h.current_unrecovered hc
  simp only [Drain.keep, hc, h.remaining d (by simp)]
  rw [List.take_add_one, hget]
  simp [hun]

theorem recover (h : QueueRight recovered buf [d]) (hc : d.current = some item) :
    QueueRight (recovered ++ [item.ticket]) buf [d.drop] := by
  refine h.advance hc rfl rfl ?_ fun t ht => ?_
  · have hget := h.current d (by simp) item hc
    simp only [Drain.drop, h.remaining d (by simp)]
    rw [List.take_add_one, hget, List.filter_append]
    have hlast : (Option.some item).toList.filter
        (fun p => decide (p.ticket ∉ recovered ++ [item.ticket])) = [] := by simp
    rw [hlast, List.append_nil]
    refine List.filter_congr fun p hp => ?_
    -- the entries before `item` have other tickets
    have hne : p.ticket ≠ item.ticket := by
      intro heq
      have hpi := List.inj_on_of_nodup_map h.tickets (List.mem_of_mem_take hp)
        (mem_of_getElem? hget) heq
      exact not_mem_take h.buf_nodup hget (hpi ▸ hp)
    simp [hne]
  · rcases List.mem_append.1 ht with ht | ht
    · exact .inl ht
    · exact .inr (List.mem_singleton.1 ht)

/-- At the end of the array, what remains is what has not been recovered. -/
theorem finish (h : QueueRight recovered buf [d]) (hend : buf.length ≤ d.taken) :
    QueueRight recovered d.remaining [] ∧ ∀ p ∈ buf, p ∈ d.remaining ∨ p.ticket ∈ recovered := by
  have hremaining : d.remaining = buf.filter fun p => p.ticket ∉ recovered := by
    rw [h.remaining d (by simp), List.take_of_length_le hend]
  have hsub : d.remaining.Sublist buf := hremaining ▸ List.filter_sublist
  refine ⟨⟨h.nodup.sublist (hsub.map _), h.tickets.sublist (hsub.map _), by simp, ?_, ?_, ?_, ?_⟩,
    fun p hp => ?_⟩
  iterate 3
    · exact fun d hd => nomatch hd
  · intro p hp hrec
    rw [hremaining] at hp
    exact absurd hrec (of_decide_eq_true (List.mem_filter.1 hp).2)
  by_cases hrec : p.ticket ∈ recovered
  · exact .inr hrec
  · rw [hremaining]
    exact .inl (List.mem_filter.2 ⟨hp, decide_eq_true hrec⟩)

variable {drains : List Drain}

theorem push (h : QueueRight recovered buf drains)
    (hid : ∀ p ∈ buf, p.placeholderId ≠ item.placeholderId)
    (hticket : ∀ p ∈ buf, p.ticket ≠ item.ticket) (hrec : item.ticket ∉ recovered) :
    QueueRight recovered (buf ++ [item]) drains where
  nodup := by
    rw [List.map_append]
    refine h.nodup.append (List.nodup_singleton _) fun x hx hx' => ?_
    obtain ⟨p, hp, rfl⟩ := List.mem_map.1 hx
    exact hid p hp (List.mem_singleton.1 hx')
  tickets := by
    rw [List.map_append]
    refine h.tickets.append (List.nodup_singleton _) fun x hx hx' => ?_
    obtain ⟨p, hp, rfl⟩ := List.mem_map.1 hx
    exact hticket p hp (List.mem_singleton.1 hx')
  alone := h.alone
  taken d hd := by
    rw [List.length_append]
    exact Nat.le_add_right_of_le (h.taken d hd)
  remaining d hd := by
    rw [List.take_append_of_le_length (h.taken d hd)]
    exact h.remaining d hd
  current d hd item' hc := by
    have hget := h.current d hd item' hc
    rw [List.getElem?_append_left (List.getElem?_eq_some_iff.1 hget).1, hget]
  passed p hp hprec := by
    rcases List.mem_append.1 hp with hp | hp
    · obtain ⟨d, hd, htake⟩ := h.passed p hp hprec
      refine ⟨d, hd, ?_⟩
      rwa [List.take_append_of_le_length (h.taken d hd)]
    · rw [mem_singleton] at hp
      exact absurd (hp ▸ hprec) hrec

/-- Entries are shifted out while no drain has begun to take entries. -/
theorem shift (h : QueueRight recovered buf drains)
    (hidle : ∀ d ∈ drains, d.taken = 0 ∧ d.current = none) (k : Nat) :
    QueueRight recovered (buf.drop k) drains where
  nodup := h.nodup.sublist ((List.drop_sublist k buf).map _)
  tickets := h.tickets.sublist ((List.drop_sublist k buf).map _)
  alone := h.alone
  taken d hd := by
    rw [(hidle d hd).1]
    exact Nat.zero_le _
  remaining d hd := by
    have hremaining := h.remaining d hd
    rw [(hidle d hd).1] at hremaining ⊢
    simpa using hremaining
  current d hd item hc := nomatch (hidle d hd).2.symm.trans hc
  passed p hp hprec := by
    obtain ⟨d, hd, htake⟩ := h.passed p (List.mem_of_mem_drop hp) hprec
    rw [(hidle d hd).1] at htake
    simp at htake

/-- An entry of another buffer is recovered. -/
theorem recoverOther (h : QueueRight recovered buf drains) {t : Nat}
    (ht : ∀ p ∈ buf, p.ticket ≠ t) : QueueRight (recovered ++ [t]) buf drains where
  nodup := h.nodup
  tickets := h.tickets
  alone := h.alone
  taken := h.taken
  remaining d hd := by
    rw [h.remaining d hd]
    refine List.filter_congr fun p hp => ?_
    simp [ht p (List.mem_of_mem_take hp)]
  current := h.current
  passed p hp hprec := by
    rcases List.mem_append.1 hprec with hprec | hprec
    · exact h.passed p hp hprec
    · exact absurd (List.mem_singleton.1 hprec) (ht p hp)

end QueueRight

/-! ## All buffers of a device -/

def PendingSide.drainsOf (c : PendingSide) (did : Did) : List Drain :=
  c.drains.filter fun d => d.did = did

structure PendingSide.Right (c : PendingSide) : Prop where
  queue : ∀ did, QueueRight c.recovered (c.buffer did) (c.drainsOf did)
  refs : ∀ d ∈ c.drains, c.pendingDecryptByDid d.did = some d.ref
  tickets : ∀ (k : Nat) (x : Did × PendingDecrypt), c.pushed[k]? = some x → x.2.ticket = k
  buffered : ∀ did, ∀ p ∈ c.buffer did, (did, p) ∈ c.pushed
  kept : ∀ x ∈ c.pushed, x.2.ticket ∈ c.evicted ∨ x.2 ∈ c.buffer x.1 ∨ x.2.ticket ∈ c.recovered
  once : c.recovered.Nodup
  known : ∀ t ∈ c.recovered, t < c.pushed.length

variable {x : Did × PendingDecrypt} {e : Envelope} {p : LocalMessage → Bool}
    {f : LocalMessage → LocalMessage} {l : List LocalMessage} {m : LocalMessage} {did did' : Did}
    {id : MessageId} {c : Client} {i : Nat} {s : State}

theorem PendingSide.Right.ticket_lt {c : PendingSide} (h : c.Right) (hx : x ∈ c.pushed) :
    x.2.ticket < c.pushed.length := by
  obtain ⟨k, hk, hget⟩ := List.getElem_of_mem hx
  rw [h.tickets k x (by rw [List.getElem?_eq_getElem hk, hget])]
  exact hk

theorem PendingSide.Right.eq_of_ticket {c : PendingSide} (h : c.Right) {y : Did × PendingDecrypt}
    (hx : x ∈ c.pushed) (hy : y ∈ c.pushed) (ht : x.2.ticket = y.2.ticket) : x = y := by
  obtain ⟨j, hj, hgetx⟩ := List.getElem_of_mem hx
  obtain ⟨k, hk, hgety⟩ := List.getElem_of_mem hy
  have hxj := h.tickets j x (by rw [List.getElem?_eq_getElem hj, hgetx])
  have hyk := h.tickets k y (by rw [List.getElem?_eq_getElem hk, hgety])
  obtain rfl : j = k := by omega
  exact hgetx.symm.trans hgety

/-! ### Buffers -/

section Buffer
variable {c : PendingSide} {did did' : Did}

theorem PendingSide.buffer_setArray_self (ref : ArrayRef) (buf : List PendingDecrypt) :
    (c.setArray did ref buf).buffer did = buf := by
  simp [buffer, PendingSide.setArray]

theorem PendingSide.Inv.buffer_setArray_other (h : c.Inv) (ref : ArrayRef) (href : ref.did = did)
    (buf : List PendingDecrypt) (hne : did' ≠ did) :
    (c.setArray did ref buf).buffer did' = c.buffer did' := by
  simp only [PendingSide.buffer, PendingSide.setArray, Function.update_of_ne hne]
  split
  · rfl
  rename_i ref' href'
  have hne' : ref' ≠ ref := by
    rintro rfl
    exact hne ((h.refs did' ref' href').symm.trans href)
  rw [Function.update_of_ne hne']

theorem PendingSide.buffer_setPending_self (remaining : List PendingDecrypt) :
    (c.setPending did remaining).buffer did = remaining := by
  unfold PendingSide.setPending
  split
  · rename_i hempty
    rw [List.isEmpty_iff] at hempty
    simp [buffer, hempty]
  · exact PendingSide.buffer_setArray_self _ _

theorem PendingSide.Inv.buffer_setPending_other (h : c.Inv) (remaining : List PendingDecrypt)
    (hne : did' ≠ did) : (c.setPending did remaining).buffer did' = c.buffer did' := by
  unfold PendingSide.setPending
  split
  · simp only [PendingSide.buffer, Function.update_of_ne hne]
  · exact h.buffer_setArray_other ⟨did, c.nextRef⟩ rfl _ hne

end Buffer

/-! ### Drains -/

section Drains
variable {c : PendingSide} {i : Nat} {d : Drain}

theorem PendingSide.Right.drainsOf_eq (h : c.Right) (hd : d ∈ c.drains) :
    c.drainsOf d.did = [d] := by
  have hmem : d ∈ c.drainsOf d.did := List.mem_filter.2 ⟨hd, by simp⟩
  obtain ⟨d', hd'⟩ := List.length_eq_one_iff.1
    (Nat.le_antisymm (h.queue d.did).alone (List.length_pos_of_mem hmem))
  rw [hd', mem_singleton] at hmem
  rw [hd', hmem]

theorem PendingSide.Right.buffer_eq (h : c.Right) (hd : d ∈ c.drains) :
    c.buffer d.did = c.heap d.ref := by
  simp [buffer, h.refs d hd]

variable {f : Drain → Drain}

/-- The drain of task `i` is changed by `f`, and entries may be recovered. -/
theorem PendingSide.Right.modifyDrain (h : c.Right) {recovered : List Nat}
    (hown : ownBy Drain.task i c.drains = [d]) (hdid : ∀ d, (f d).did = d.did)
    (href : ∀ d, (f d).ref = d.ref) (hself : QueueRight recovered (c.buffer d.did) [f d])
    (hother : ∀ did, did ≠ d.did → QueueRight recovered (c.buffer did) (c.drainsOf did))
    (hsub : c.recovered ⊆ recovered) (honce : recovered.Nodup)
    (hknown : ∀ t ∈ recovered, t < c.pushed.length) :
    ({ c.modifyDrain i f with recovered := recovered } : PendingSide).Right where
  queue did := by
    have hfilter : ({ c.modifyDrain i f with recovered := recovered } : PendingSide).drainsOf did =
        (c.drainsOf did).map fun d => if d.task = i then f d else d := by
      simp only [PendingSide.drainsOf, PendingSide.modifyDrain, List.filter_map]
      congr 1
      refine List.filter_congr fun d' _ => ?_
      simp only [Function.comp_apply]
      split <;> simp [hdid]
    rw [hfilter]
    by_cases hd : did = d.did
    · subst hd
      rw [h.drainsOf_eq (mem_of_ownBy hown), List.map_singleton, if_pos (key_of_ownBy hown)]
      exact hself
    have hid : ∀ d' ∈ c.drainsOf did, (if d'.task = i then f d' else d') = d' := by
      intro d' hd'
      obtain ⟨hmem, hdid'⟩ := List.mem_filter.1 hd'
      refine if_neg fun htask => hd ?_
      rw [← eq_of_ownBy hown hmem htask]
      exact (of_decide_eq_true hdid').symm
    rw [List.map_congr_left hid, List.map_id']
    exact hother did hd
  refs d' hd' := by
    obtain ⟨d0, hd0, rfl⟩ := List.mem_map.1 hd'
    split
    · rw [hdid, href]
      exact h.refs d0 hd0
    · exact h.refs d0 hd0
  tickets := h.tickets
  buffered := h.buffered
  kept x hx := by
    rcases h.kept x hx with he | hb | hr
    · exact .inl he
    · exact .inr (.inl hb)
    · exact .inr (.inr (hsub hr))
  once := honce
  known := hknown

/-- The drain of task `i` ends and leaves `buf` behind. -/
theorem PendingSide.Right.endDrain (h : c.Right) {c' : PendingSide} {buf : List PendingDecrypt}
    (hown : ownBy Drain.task i c.drains = [d]) (hdrains : c'.drains = (c.endDrain i).drains)
    (hmap : ∀ did, did ≠ d.did → c'.pendingDecryptByDid did = c.pendingDecryptByDid did)
    (hself : c'.buffer d.did = buf) (hother : ∀ did, did ≠ d.did → c'.buffer did = c.buffer did)
    (hhistory : c'.pushed = c.pushed ∧ c'.evicted = c.evicted ∧ c'.recovered = c.recovered)
    (hqueue : QueueRight c.recovered buf [])
    (hbuf : ∀ p ∈ buf, p ∈ c.buffer d.did)
    (hkept : ∀ p ∈ c.buffer d.did, p ∈ buf ∨ p.ticket ∈ c.recovered) : c'.Right := by
  obtain ⟨hpushed, hevicted, hrecovered⟩ := hhistory
  -- the drains of the other peers are those of other tasks
  have hmem : ∀ d' ∈ c'.drains, d' ∈ c.drains ∧ d'.did ≠ d.did := by
    intro d' hd'
    rw [hdrains] at hd'
    obtain ⟨hd', hne⟩ := List.mem_filter.1 hd'
    refine ⟨hd', fun hdid => ?_⟩
    have hsingle := h.drainsOf_eq (mem_of_ownBy hown)
    have hd'' : d' ∈ c.drainsOf d.did := List.mem_filter.2 ⟨hd', by simpa using hdid⟩
    rw [hsingle, mem_singleton] at hd''
    exact of_decide_eq_true hne (hd'' ▸ key_of_ownBy hown)
  have hof : ∀ did, did ≠ d.did → c'.drainsOf did = c.drainsOf did := by
    intro did hne
    simp only [PendingSide.drainsOf, hdrains, PendingSide.endDrain]
    rw [List.filter_filter]
    refine List.filter_congr fun d' hd' => ?_
    by_cases hdid : d'.did = did
    · have hne' : d'.task ≠ i := fun ht => hne (hdid ▸ eq_of_ownBy hown hd' ht ▸ rfl)
      simp [hne']
    · simp [hdid]
  have hnone : c'.drainsOf d.did = [] := by
    refine List.filter_eq_nil_iff.2 fun d' hd' => ?_
    simpa using (hmem d' hd').2
  refine ⟨fun did => ?_, fun d' hd' => ?_, by rw [hpushed]; exact h.tickets, fun did p hp => ?_,
    fun x hx => ?_, hrecovered ▸ h.once, by rw [hrecovered, hpushed]; exact h.known⟩
  · by_cases hd : did = d.did
    · rw [hd, hself, hnone, hrecovered]
      exact hqueue
    · rw [hother did hd, hof did hd, hrecovered]
      exact h.queue did
  · rw [hmap _ (hmem d' hd').2]
    exact h.refs d' (hmem d' hd').1
  · rw [hpushed]
    by_cases hd : did = d.did
    · rw [hd, hself] at hp
      exact h.buffered did p (hd ▸ hbuf p hp)
    · rw [hother did hd] at hp
      exact h.buffered did p hp
  · rw [hpushed] at hx
    rw [hevicted, hrecovered]
    rcases h.kept x hx with he | hb | hr
    · exact .inl he
    · by_cases hd : x.1 = d.did
      · rw [hd] at hb ⊢
        rw [hself]
        exact .inr (hkept _ hb)
      · rw [hother _ hd]
        exact .inr (.inl hb)
    · exact .inr (.inr hr)

theorem PendingSide.Right.startDrain (h : c.Right) {did : Did} {ref : ArrayRef}
    (href : c.pendingDecryptByDid did = some ref) (halone : ∀ d ∈ c.drains, d.did ≠ did) :
    ({ c with drains := c.drains ++ [⟨i, did, ref, 0, [], none⟩] } : PendingSide).Right := by
  refine ⟨fun did' => ?_, fun d hd => ?_, h.tickets, h.buffered, h.kept, h.once, h.known⟩
  · have hqueue := h.queue did'
    change QueueRight c.recovered (c.buffer did') _
    simp only [PendingSide.drainsOf, List.filter_append] at hqueue ⊢
    by_cases hd : did' = did
    · have hnone : c.drains.filter (fun d => d.did = did') = [] :=
        List.filter_eq_nil_iff.2 fun d hd' => by simpa [hd] using halone d hd'
      rw [hnone] at hqueue ⊢
      simpa [hd] using hqueue.start i did ref
    · simpa [Ne.symm hd] using hqueue
  · rcases List.mem_append.1 hd with hd | hd
    · exact h.refs d hd
    rw [mem_singleton] at hd
    subst hd
    exact href

/-- The drain of task `i` moves on without recovering anything. -/
theorem PendingSide.Right.moveDrain (h : c.Right) (hown : ownBy Drain.task i c.drains = [d])
    (hdid : ∀ d, (f d).did = d.did) (href : ∀ d, (f d).ref = d.ref)
    (hself : QueueRight c.recovered (c.buffer d.did) [f d]) :
    (c.modifyDrain i f).Right :=
  h.modifyDrain hown hdid href hself (fun did _ => h.queue did) (fun _ ht => ht) h.once h.known

theorem PendingSide.Right.queue_of_own (h : c.Right) (hown : ownBy Drain.task i c.drains = [d]) :
    QueueRight c.recovered (c.buffer d.did) [d] :=
  h.drainsOf_eq (mem_of_ownBy hown) ▸ h.queue d.did

theorem PendingSide.Right.takeNext (h : c.Right) (hown : ownBy Drain.task i c.drains = [d]) :
    (c.modifyDrain i (.takeNext c.heap)).Right := by
  refine h.moveDrain hown (fun _ => rfl) (fun _ => rfl) ?_
  rw [Drain.takeNext, ← h.buffer_eq (mem_of_ownBy hown)]
  exact (h.queue_of_own hown).takeNext

theorem PendingSide.Right.setPending (hi : c.Inv) (h : c.Right)
    (hown : ownBy Drain.task i c.drains = [d]) (hend : (c.heap d.ref).length ≤ d.taken) :
    ((c.endDrain i).setPending d.did d.remaining).Right := by
  have hqueue := h.queue_of_own hown
  rw [h.buffer_eq (mem_of_ownBy hown)] at hqueue
  obtain ⟨hright, hkept⟩ := hqueue.finish hend
  have hi' : (c.endDrain i).Inv := hi.of_eq rfl rfl
  have hframe : ∀ remaining : List PendingDecrypt,
      (((c.endDrain i).setPending d.did remaining).pushed = c.pushed ∧
        ((c.endDrain i).setPending d.did remaining).evicted = c.evicted ∧
        ((c.endDrain i).setPending d.did remaining).recovered = c.recovered) ∧
      ∀ did, did ≠ d.did → ((c.endDrain i).setPending d.did remaining).pendingDecryptByDid did =
        c.pendingDecryptByDid did := by
    intro remaining
    unfold PendingSide.setPending
    split
    iterate 2
      · exact ⟨⟨rfl, rfl, rfl⟩, fun did hne => Function.update_of_ne hne _ _⟩
  refine h.endDrain hown (PendingSide.setPending_drains _ _ _) (hframe _).2
    (PendingSide.buffer_setPending_self _) (fun did hne => hi'.buffer_setPending_other _ hne)
    (hframe _).1 hright ?_ ?_
  · intro p hp
    rw [hqueue.remaining d (by simp)] at hp
    rw [h.buffer_eq (mem_of_ownBy hown)]
    exact List.mem_of_mem_take (List.mem_filter.1 hp).1
  · rw [h.buffer_eq (mem_of_ownBy hown)]
    exact hkept

theorem PendingSide.Right.giveUp (h : c.Right) (hown : ownBy Drain.task i c.drains = [d])
    (ht : d.taken = 0) : (c.endDrain i).Right :=
  h.endDrain hown rfl (fun _ _ => rfl) rfl (fun _ _ => rfl) ⟨rfl, rfl, rfl⟩
    ((h.queue_of_own hown).abandon ht) (fun _ hp => hp) fun _ hp => .inl hp

end Drains

/-! ### Pushes -/

/-- The entry is a duplicate, or it is pushed and the oldest entries fall off. -/
theorem PendingSide.bufferUndecryptable_cases (c : PendingSide) (e : Envelope) :
    c.bufferUndecryptable e = c ∨
      ∃ k, k = (c.buffer e.senderDid ++ [c.newItem e]).length - PENDING_DECRYPT_LIMIT_PER_PEER ∧
        (∀ p ∈ c.buffer e.senderDid, p.placeholderId ≠ e.placeholderId) ∧
        c.bufferUndecryptable e = { c.setArray e.senderDid (c.pushRef e.senderDid)
              ((c.buffer e.senderDid ++ [c.newItem e]).drop k) with
            pushed := c.pushed ++ [(e.senderDid, c.newItem e)],
            evicted := c.evicted ++
              ((c.buffer e.senderDid ++ [c.newItem e]).take k).map PendingDecrypt.ticket } := by
  by_cases hdup : (c.buffer e.senderDid).any fun p => p.placeholderId == e.placeholderId
  · exact .inl (if_pos hdup)
  · refine .inr ⟨_, rfl, fun p hp heq => hdup ?_, if_neg hdup⟩
    exact List.any_eq_true.2 ⟨p, hp, by simpa using heq⟩

theorem PendingSide.Right.bufferUndecryptable {c : PendingSide} (hi : c.Inv) (h : c.Right)
    (hroom : (c.buffer e.senderDid).any (fun p => p.placeholderId == e.placeholderId) = true ∨
      (c.buffer e.senderDid).length < PENDING_DECRYPT_LIMIT_PER_PEER ∨
      ∀ d ∈ c.drains, d.did = e.senderDid → d.taken = 0 ∧ d.current = none) :
    (c.bufferUndecryptable e).Right := by
  rcases c.bufferUndecryptable_cases e with heq | ⟨k, hk, hnew, heq⟩
  · rw [heq]
    exact h
  have hlt : ∀ p ∈ c.buffer e.senderDid, p.ticket < c.pushed.length :=
    fun p hp => h.ticket_lt (h.buffered _ p hp)
  have hfresh : (c.newItem e).ticket ∉ c.recovered :=
    fun hrec => absurd (h.known _ hrec) (Nat.lt_irrefl _)
  have hpush : QueueRight c.recovered (c.buffer e.senderDid ++ [c.newItem e])
      (c.drainsOf e.senderDid) :=
    (h.queue e.senderDid).push hnew (fun p hp => Nat.ne_of_lt (hlt p hp)) hfresh
  have hqueue : QueueRight c.recovered ((c.buffer e.senderDid ++ [c.newItem e]).drop k)
      (c.drainsOf e.senderDid) := by
    rcases hroom with hdup | hshort | hidle
    · obtain ⟨p, hp, heq⟩ := List.any_eq_true.1 hdup
      exact absurd (by simpa using heq) (hnew p hp)
    · have hzero : k = 0 := by
        rw [List.length_append, List.length_singleton] at hk
        omega
      rw [hzero]
      exact hpush
    · refine hpush.shift (fun d hd => ?_) k
      obtain ⟨hmem, hdid⟩ := List.mem_filter.1 hd
      exact hidle d hmem (of_decide_eq_true hdid)
  have hself : ((c.setArray e.senderDid (c.pushRef e.senderDid)
      ((c.buffer e.senderDid ++ [c.newItem e]).drop k)).buffer e.senderDid) =
        (c.buffer e.senderDid ++ [c.newItem e]).drop k := PendingSide.buffer_setArray_self _ _
  have hother : ∀ did, did ≠ e.senderDid → (c.setArray e.senderDid (c.pushRef e.senderDid)
      ((c.buffer e.senderDid ++ [c.newItem e]).drop k)).buffer did = c.buffer did :=
    fun did hne => hi.buffer_setArray_other _ (hi.pushRef_did e.senderDid) _ hne
  rw [heq]
  refine ⟨fun did => ?_, fun d hd => ?_, fun j x hx => ?_, fun did p hp => ?_, fun x hx => ?_,
    h.once, fun t ht => ?_⟩
  · change QueueRight c.recovered (buffer (c.setArray _ _ _) did) (c.drainsOf did)
    by_cases hd : did = e.senderDid
    · rw [hd, hself]
      exact hqueue
    · rw [hother did hd]
      exact h.queue did
  · change Function.update _ _ _ _ = _
    by_cases hdid : d.did = e.senderDid
    · have href := h.refs d hd
      rw [hdid] at href
      rw [hdid, Function.update_self, PendingSide.pushRef, href, Option.getD_some]
    · rw [Function.update_of_ne hdid]
      exact h.refs d hd
  · rcases Nat.lt_or_ge j c.pushed.length with hj | hj
    · rw [List.getElem?_append_left hj] at hx
      exact h.tickets j x hx
    rw [List.getElem?_append_right hj] at hx
    obtain ⟨hj', hget⟩ := List.getElem?_eq_some_iff.1 hx
    rw [List.length_singleton] at hj'
    rw [← hget, List.getElem_singleton]
    change c.pushed.length = j
    omega
  · change p ∈ buffer (c.setArray _ _ _) did at hp
    by_cases hd : did = e.senderDid
    · rw [hd, hself] at hp
      rcases List.mem_append.1 (List.mem_of_mem_drop hp) with hp | hp
      · exact mem_append_left _ (hd ▸ h.buffered _ p hp)
      · rw [mem_singleton] at hp
        exact mem_append_right _ (by simp [hp, hd])
    · rw [hother did hd] at hp
      exact mem_append_left _ (h.buffered did p hp)
  · -- an entry of the longer array is evicted or still there
    have hcut : ∀ p ∈ c.buffer e.senderDid ++ [c.newItem e],
        p.ticket ∈ ((c.buffer e.senderDid ++ [c.newItem e]).take k).map PendingDecrypt.ticket ∨
          p ∈ (c.buffer e.senderDid ++ [c.newItem e]).drop k := by
      intro p hp
      rw [← List.take_append_drop k (c.buffer e.senderDid ++ [c.newItem e])] at hp
      rcases List.mem_append.1 hp with hp | hp
      · exact .inl (List.mem_map_of_mem hp)
      · exact .inr hp
    have hhere : x.1 = e.senderDid → x.2 ∈ c.buffer e.senderDid ++ [c.newItem e] →
        x.2.ticket ∈ c.evicted ++
          ((c.buffer e.senderDid ++ [c.newItem e]).take k).map PendingDecrypt.ticket ∨
        x.2 ∈ (c.setArray e.senderDid (c.pushRef e.senderDid)
          ((c.buffer e.senderDid ++ [c.newItem e]).drop k)).buffer x.1 ∨
        x.2.ticket ∈ c.recovered := by
      intro hdid hp
      rw [hdid, hself]
      rcases hcut x.2 hp with hcut | hcut
      · exact .inl (mem_append_right _ hcut)
      · exact .inr (.inl hcut)
    rcases List.mem_append.1 hx with hx | hx
    · rcases h.kept x hx with he | hb | hr
      · exact .inl (mem_append_left _ he)
      · by_cases hdid : x.1 = e.senderDid
        · exact hhere hdid (mem_append_left _ (hdid ▸ hb))
        · exact .inr (.inl (hother x.1 hdid ▸ hb))
      · exact .inr (.inr hr)
    · rw [mem_singleton] at hx
      exact hhere (by rw [hx]) (mem_append_right _ (by simp [hx]))
  · exact Nat.lt_of_lt_of_le (h.known t ht) (by simp)

/-! ## Rows -/

theorem exists_updateFirst (hf : ∀ m, (f m).id = m.id) (hm : m ∈ l) :
    ∃ m' ∈ updateFirst p f l, m'.id = m.id := by
  induction l with
  | nil => simp at hm
  | cons a l ih =>
    rw [updateFirst]
    rcases List.mem_cons.1 hm with rfl | hm
    · split
      · exact ⟨f m, List.mem_cons_self, hf m⟩
      · exact ⟨m, List.mem_cons_self, rfl⟩
    split
    · exact ⟨m, List.mem_cons_of_mem _ hm, rfl⟩
    · obtain ⟨m', hm', hid⟩ := ih hm
      exact ⟨m', List.mem_cons_of_mem _ hm', hid⟩

theorem mem_updateFirst_of_not (hm : m ∈ l) (hp : p m = false) : m ∈ updateFirst p f l := by
  induction l with
  | nil => simp at hm
  | cons a l ih =>
    rw [updateFirst]
    rcases List.mem_cons.1 hm with rfl | hm
    · rw [if_neg (by simp [hp])]
      exact List.mem_cons_self
    · split
      · exact List.mem_cons_of_mem _ hm
      · exact List.mem_cons_of_mem _ (ih hm)

/-- The conversation has a row with this identifier. -/
def Store.HasRow (c : Store) (did : Did) (id : MessageId) : Prop :=
  ∃ m ∈ c.messagesByConversation did, m.id = id

theorem Store.HasRow.setMessages {c : Store} {rows : List LocalMessage} (h : c.HasRow did id)
    (hrows : ∀ m ∈ c.messagesByConversation did', m.id = id → ∃ m' ∈ rows, m'.id = id) :
    (c.setMessages did' rows).HasRow did id := by
  obtain ⟨m, hm, hid⟩ := h
  by_cases hd : did = did'
  · subst hd
    obtain ⟨m', hm', hid'⟩ := hrows m hm hid
    exact ⟨m', by simpa [Store.setMessages] using hm', hid'⟩
  · exact ⟨m, by simpa [Store.setMessages, hd] using hm, hid⟩

theorem Store.HasRow.appendMessage {c : Store} (h : c.HasRow did id) (msg : LocalMessage) :
    (c.appendMessage did' msg).HasRow did id := by
  have h' : (c.setMessages did' (c.messagesByConversation did' ++ [msg])).HasRow did id :=
    h.setMessages fun m hm hid => ⟨m, mem_append_left _ hm, hid⟩
  obtain ⟨m, hm, hid⟩ := h'
  exact ⟨m, by rwa [Store.appendMessage_messages], hid⟩

theorem LocalMessage.update_id (status : MessageStatus) (patch : Option RatchetPatch)
    (m : LocalMessage) : (m.update status patch).id = m.id := by
  unfold LocalMessage.update
  split <;> rfl

/-- No operation of the store removes a row. -/
theorem StoreOp.hasRow_apply {c : Store} (o : StoreOp) (h : c.HasRow did id) :
    (o.apply c).HasRow did id := by
  cases o with
  | upsertContact did' contact => exact h
  | appendMessage did' msg => exact h.appendMessage msg
  | appendUndecryptablePlaceholder e =>
    simp only [StoreOp.apply, Store.appendUndecryptablePlaceholder]
    split
    · exact h
    · exact h.appendMessage _
  | updateMessageStatus did' id' status patch =>
    refine h.setMessages fun m hm hid => ?_
    obtain ⟨m', hm', hid'⟩ := exists_updateFirst (LocalMessage.update_id status patch) hm
    exact ⟨m', hm', hid'.trans hid⟩
  | confirmSentMessage did' seq epoch acked =>
    simp only [StoreOp.apply, Store.confirmSentMessage]
    split
    · exact h
    refine h.setMessages fun m hm hid => ?_
    obtain ⟨m', hm', hid'⟩ := exists_updateFirst (LocalMessage.update_id .read none) hm
    exact ⟨m', hm', hid'.trans hid⟩

/-- A drained entry takes its own placeholder only. -/
theorem Store.HasRow.replaceMessage {c : Store} {oldId : MessageId} (h : c.HasRow did id)
    (next : Option LocalMessage) (hne : did = did' → id ≠ oldId) :
    (c.replaceMessage did' oldId next).HasRow did id := by
  obtain ⟨m, hm, hid⟩ := h
  by_cases hd : did = did'
  · subst hd
    have hmid : m.id ≠ oldId := hid ▸ hne rfl
    cases next with
    | none =>
      refine ⟨m, ?_, hid⟩
      simpa [Store.replaceMessage, Store.setMessages, hmid] using hm
    | some next =>
      refine ⟨m, ?_, hid⟩
      simp only [Store.replaceMessage, Store.setMessages, Function.update_self]
      exact mem_updateFirst_of_not hm (by simpa using hmid)
  · refine ⟨m, ?_, hid⟩
    cases next <;> simpa [Store.replaceMessage, Store.setMessages, hd] using hm

/-! ## Steps -/

/-- The buffers are right, what is still to be recovered has a placeholder row, and what has been
    recovered was opened. -/
structure Client.BufferRight (c : Client) : Prop where
  pending : c.pending.Right
  rows : ∀ did, ∀ p ∈ c.pending.buffer did, p.ticket ∉ c.pending.recovered →
    c.store.HasRow did p.placeholderId
  opened : ∀ x ∈ c.pending.pushed, x.2.ticket ∈ c.pending.recovered →
    x.2.envelope ∈ c.recv.opened
  unsettled : ∀ x ∈ c.recv.unsettled, x.2 ∈ c.recv.opened

/-- Operations on the buffers that recover nothing. -/
theorem Client.BufferRight.of_pending {pending : PendingSide} (h : c.BufferRight)
    (hright : pending.Right) (hrecovered : pending.recovered = c.pending.recovered)
    (hpushed : ∀ x ∈ pending.pushed, x ∈ c.pending.pushed ∨ x.2.ticket ∉ c.pending.recovered)
    (hbuffer : ∀ did, ∀ p ∈ pending.buffer did, p ∈ c.pending.buffer did ∨
      c.store.HasRow did p.placeholderId) :
    ({ c with pending := pending } : Client).BufferRight where
  pending := hright
  rows did p hp hun := by
    rcases hbuffer did p hp with hp | hrow
    · exact h.rows did p hp (hrecovered ▸ hun)
    · exact hrow
  opened x hx hrec := by
    rw [hrecovered] at hrec
    rcases hpushed x hx with hx | hnot
    · exact h.opened x hx hrec
    · exact absurd hrec hnot
  unsettled := h.unsettled

theorem Client.BufferRight.bufferUndecryptable (h : c.BufferRight)
    (hright : (c.pending.bufferUndecryptable e).Right)
    (hrow : c.store.HasRow e.senderDid e.placeholderId) (hi : c.pending.Inv) :
    ({ c with pending := c.pending.bufferUndecryptable e } : Client).BufferRight := by
  rcases c.pending.bufferUndecryptable_cases e with heq | ⟨k, -, -, heq⟩
  · rw [heq]
    exact h
  rw [heq] at hright ⊢
  refine h.of_pending hright rfl (fun x hx => ?_) fun did p hp => ?_
  · rcases List.mem_append.1 hx with hx | hx
    · exact .inl hx
    rw [List.mem_singleton] at hx
    subst hx
    exact .inr fun hrec => absurd (h.pending.known _ hrec) (Nat.lt_irrefl _)
  change p ∈ PendingSide.buffer (c.pending.setArray _ _ _) did at hp
  by_cases hd : did = e.senderDid
  · rw [hd, PendingSide.buffer_setArray_self] at hp
    rcases List.mem_append.1 (List.mem_of_mem_drop hp) with hp | hp
    · exact .inl (hd ▸ hp)
    rw [List.mem_singleton] at hp
    subst hp hd
    exact .inr hrow
  · rw [hi.buffer_setArray_other _ (hi.pushRef_did e.senderDid) _ hd] at hp
    exact .inl hp

theorem Client.BufferRight.pendingOp {o : PendingOp} (hi : c.pending.Inv) (h : c.BufferRight)
    (hp : o.Pre i c.pending)
    (hrow : ∀ e, o = .bufferUndecryptable e → c.store.HasRow e.senderDid e.placeholderId)
    (hstart : ∀ did ref, o = .startDrain did ref → ∀ d ∈ c.pending.drains, d.did ≠ did)
    (hroom : ∀ e, o = .bufferUndecryptable e →
      (c.pending.buffer e.senderDid).any (fun p => p.placeholderId == e.placeholderId) = true ∨
      (c.pending.buffer e.senderDid).length < PENDING_DECRYPT_LIMIT_PER_PEER ∨
      ∀ d ∈ c.pending.drains, d.did = e.senderDid → d.taken = 0 ∧ d.current = none) :
    ({ c with pending := o.apply i c.pending } : Client).BufferRight := by
  cases o with
  | bufferUndecryptable e =>
    exact h.bufferUndecryptable (h.pending.bufferUndecryptable hi (hroom e rfl)) (hrow e rfl) hi
  | startDrain did ref =>
    exact h.of_pending (h.pending.startDrain hp.1 (hstart did ref rfl)) rfl
      (fun x hx => .inl hx) fun did p hp => .inl hp
  | takeNext =>
    obtain ⟨d, hown, -⟩ := hp
    exact h.of_pending (h.pending.takeNext hown) rfl (fun x hx => .inl hx) fun did p hp => .inl hp
  | keep =>
    obtain ⟨d, item, hown, hcurrent⟩ := hp
    have hqueue := (h.pending.queue_of_own hown).keep hcurrent
    exact h.of_pending (h.pending.moveDrain hown (fun _ => rfl) (fun _ => rfl) hqueue) rfl
      (fun x hx => .inl hx) fun did p hp => .inl hp
  | endDrain =>
    obtain ⟨did, ref, hown⟩ := hp
    exact h.of_pending (h.pending.giveUp hown rfl) rfl (fun x hx => .inl hx) fun did p hp => .inl hp
  | setPending did remaining =>
    obtain ⟨ref, taken, hown, hend, -, -⟩ := hp
    have hright := h.pending.setPending hi hown hend
    have hi' : (c.pending.endDrain i).Inv := hi.of_eq rfl rfl
    have hremaining := (h.pending.queue_of_own hown).remaining _ (List.mem_singleton.2 rfl)
    have hsame : ∀ c' : PendingSide, (c'.setPending did remaining).recovered = c'.recovered ∧
        (c'.setPending did remaining).pushed = c'.pushed := by
      intro c'
      unfold PendingSide.setPending
      split <;> exact ⟨rfl, rfl⟩
    simp only [PendingOp.apply]
    refine h.of_pending hright (hsame _).1 (fun x hx => ?_) fun did' p hp => ?_
    · rw [(hsame _).2] at hx
      exact .inl hx
    by_cases hd : did' = did
    · subst hd
      rw [PendingSide.buffer_setPending_self] at hp
      change remaining = _ at hremaining
      rw [hremaining] at hp
      exact .inl (List.mem_of_mem_take (List.mem_filter.1 hp).1)
    · rw [hi'.buffer_setPending_other _ hd] at hp
      exact .inl hp

/-- The entry that a drain works on is recovered, and its placeholder was there. -/
theorem Client.BufferRight.recover {item : PendingDecrypt} {d : Drain} (h : c.BufferRight)
    (hown : ownBy Drain.task i c.pending.drains = [d]) (hcurrent : d.current = some item)
    (hopened : item.envelope ∈ c.recv.opened) (next : Option LocalMessage) :
    (c.recover i d.did item next).BufferRight := by
  have hqueue := h.pending.queue_of_own hown
  have hmem : item ∈ c.pending.buffer d.did :=
    mem_of_getElem? (hqueue.current d (by simp) item hcurrent)
  have hun := hqueue.current_unrecovered hcurrent
  have hpushed := h.pending.buffered d.did item hmem
  obtain ⟨m, hm, hid⟩ := h.rows d.did item hmem hun
  have hany : ((c.store.messagesByConversation d.did).any fun m => m.id == item.placeholderId) =
      true := List.any_eq_true.2 ⟨m, hm, by simp [hid]⟩
  -- tickets tell the entries of all buffers apart
  have hticket : ∀ did, ∀ p ∈ c.pending.buffer did, p.ticket = item.ticket →
      did = d.did ∧ p = item := by
    intro did p hp ht
    have heq := h.pending.eq_of_ticket (h.pending.buffered did p hp) hpushed ht
    simpa using heq
  have hknown : ∀ t ∈ c.pending.recovered ++ [item.ticket], t < c.pending.pushed.length := by
    intro t ht
    rcases List.mem_append.1 ht with ht | ht
    · exact h.pending.known t ht
    · rw [List.mem_singleton.1 ht]
      exact h.pending.ticket_lt hpushed
  have hright : ({ c.pending.modifyDrain i .drop with
      recovered := c.pending.recovered ++ [item.ticket] } : PendingSide).Right :=
    h.pending.modifyDrain hown (fun _ => rfl) (fun _ => rfl) (hqueue.recover hcurrent)
      (fun did hne => (h.pending.queue did).recoverOther fun p hp ht => hne (hticket did p hp ht).1)
      (fun _ ht => mem_append_left _ ht)
      (h.pending.once.append (List.nodup_singleton _) (by simpa using hun)) hknown
  simp only [Client.recover, hany]
  refine ⟨hright, fun did p hp hnot => ?_, fun x hx hrec => ?_, fun x hx => ?_⟩
  · have hnot' : p.ticket ∉ c.pending.recovered ∧ p.ticket ≠ item.ticket := by simpa using hnot
    refine (h.rows did p hp hnot'.1).replaceMessage next fun hd hpid => hnot'.2 ?_
    subst hd
    rw [List.inj_on_of_nodup_map hqueue.nodup hp hmem hpid]
  · rcases List.mem_append.1 hrec with hrec | hrec
    · exact h.opened x hx hrec
    · rw [h.pending.eq_of_ticket hx hpushed (List.mem_singleton.1 hrec)]
      exact hopened
  · exact h.unsettled x (List.mem_filter.1 hx).1

theorem Client.BufferRight.deleteConversation (h : c.BufferRight)
    (hempty : c.pending.buffer did = []) (hnone : ∀ d ∈ c.pending.drains, d.did ≠ did) :
    (c.deleteConversation did).BufferRight := by
  have hbuffer : ∀ did', (c.deleteConversation did).pending.buffer did' =
      c.pending.buffer did' := by
    intro did'
    by_cases hd : did' = did
    · rw [hd, hempty]
      simp [Client.deleteConversation, PendingSide.buffer]
    · simp [Client.deleteConversation, PendingSide.buffer, hd]
  refine ⟨⟨fun did' => ?_, fun d hd => ?_, h.pending.tickets, fun did' p hp => ?_, fun x hx => ?_,
    h.pending.once, h.pending.known⟩, fun did' p hp hnot => ?_, h.opened, h.unsettled⟩
  · rw [hbuffer]
    exact h.pending.queue did'
  · change Function.update _ _ _ _ = _
    rw [Function.update_of_ne (hnone d hd)]
    exact h.pending.refs d hd
  · rw [hbuffer] at hp
    exact h.pending.buffered did' p hp
  · rw [hbuffer]
    exact h.pending.kept x hx
  rw [hbuffer] at hp
  have hd : did' ≠ did := by
    rintro rfl
    rw [hempty] at hp
    simp at hp
  obtain ⟨m, hm, hid⟩ := h.rows did' p hp hnot
  exact ⟨m, by simpa [Client.deleteConversation, Store.setMessages, hd] using hm, hid⟩

theorem ClientOp.bufferRight_apply {me : Did} {o : ClientOp} (hi : s.Inv)
    (h : (s.client me).BufferRight) (hp : o.Pre i s me)
    (hc : drainsAlone.op i s (.client me o) = true) :
    (o.apply i (s.client me)).BufferRight := by
  cases o with
  | send o | health o => exact ⟨h.pending, h.rows, h.opened, h.unsettled⟩
  | recv o =>
    refine ⟨h.pending, h.rows, fun x hx hrec => ?_, fun x hx => ?_⟩
    · rw [ClientOp.apply, RecvOp.opened_apply]
      exact h.opened x hx hrec
    rw [ClientOp.apply]
    cases o with
    | dismiss e => exact h.unsettled x (List.mem_filter.1 hx).1
    | _ => exact h.unsettled x hx
  | store o =>
    exact ⟨h.pending, fun did p hp hnot => o.hasRow_apply (h.rows did p hp hnot), h.opened,
      h.unsettled⟩
  | pending o =>
    refine h.pendingOp (hi me).pending hp.1 hp.2 (fun did ref ho => ?_) fun e ho => ?_
    · subst ho
      simpa [drainsAlone] using hc
    subst ho
    simp only [drainsAlone, Bool.or_eq_true, decide_eq_true_iff, or_assoc] at hc
    rcases hc with hdup | hshort | hidle
    · exact .inl hdup
    · exact .inr (.inl hshort)
    refine .inr (.inr fun d hd hdid => ?_)
    have := List.all_eq_true.1 hidle d hd
    simpa [hdid] using this
  | deliver did msg =>
    exact ⟨h.pending, fun did' p hp hnot => (h.rows did' p hp hnot).appendMessage msg, h.opened,
      fun x hx => h.unsettled x (List.mem_filter.1 hx).1⟩
  | recover did item next =>
    obtain ⟨d, hown, rfl, hcurrent, hunsettled, -, -⟩ := hp
    have hmem : (i, item.envelope) ∈ (s.client me).recv.unsettled := mem_of_ownBy hunsettled
    exact h.recover hown hcurrent (h.unsettled _ hmem) next
  | deleteConversation did =>
    simp only [drainsAlone, Bool.and_eq_true, List.isEmpty_iff] at hc
    exact h.deleteConversation hc.1 (by simpa using hc.2)

theorem Call.Effect.bufferRight {s' : State} {c : Call} (he : Call.Effect i s c s')
    (h : ∀ me, (s.client me).BufferRight) : ∀ me, (s'.client me).BufferRight := by
  have hsend : ∀ me f, ∀ me', ((s.modifySend me f).client me').BufferRight := fun me f =>
    State.forall_modify h ⟨(h me).pending, (h me).rows, (h me).opened, (h me).unsettled⟩
  have hrecv : ∀ me f, (∀ e ∈ (s.client me).recv.opened, e ∈ (f (s.client me).recv).opened) →
      (∀ x ∈ (f (s.client me).recv).unsettled, x ∈ (s.client me).recv.unsettled ∨
        x.2 ∈ (f (s.client me).recv).opened) →
      ∀ me', ((s.modifyRecv me f).client me').BufferRight := fun me f hopened hunsettled =>
    State.forall_modify h
      ⟨(h me).pending, (h me).rows, fun x hx hrec => hopened _ ((h me).opened x hx hrec),
        fun x hx => (hunsettled x hx).elim (fun hx => hopened _ ((h me).unsettled x hx)) id⟩
  cases he with
  | none | relayed => exact h
  | initiated me did remote => exact hsend me _
  | keyExchange me remote gen => exact h
  | text me | restored me | position me => exact hsend me _
  | accepted | rekeyed => exact hrecv _ _ (fun _ he => he) fun _ hx => .inl hx
  | opened me sid e pk ses _ _ =>
    refine hrecv me _ (fun _ he => mem_append_left _ he) fun x hx => ?_
    rcases List.mem_append.1 hx with hx | hx
    · exact .inl hx
    · rw [mem_singleton] at hx
      exact .inr (mem_append_right _ (by simp [hx]))

/-! ## Runs -/

theorem Client.Launched.bufferRight (h : c.Launched) : c.BufferRight := by
  have hbuffer : ∀ did, c.pending.buffer did = [] := by
    intro did
    simp [PendingSide.buffer, h.pending]
  refine ⟨⟨fun did => ?_, ?_, ?_, ?_, ?_, ?_, ?_⟩, ?_, ?_, ?_⟩
  · rw [hbuffer, PendingSide.drainsOf, h.drains]
    constructor <;> simp
  · simp [h.drains]
  · simp [h.pushed]
  · simp [hbuffer]
  · simp [h.pushed]
  · simp [h.recovered]
  · simp [h.recovered]
  · simp [hbuffer]
  · simp [h.pushed]
  · simp [h.unsettled]

/-- What the invariant says once the drains of a peer have ended. -/
theorem Client.BufferRight.kept (hi : c.pending.Inv) (h : c.BufferRight) : c.BufferKept where
  short did := by
    unfold PendingSide.buffer
    split
    · simp
    · exact hi.short _
  nodup did := (h.pending.queue did).nodup
  tickets := by
    refine List.nodup_iff_getElem?_ne_getElem?.2 fun j k hjk hk heq => ?_
    simp only [List.length_map] at hk
    simp only [List.getElem?_map, List.getElem?_eq_getElem hk,
      List.getElem?_eq_getElem (Nat.lt_trans hjk hk), Option.map_some, Option.some.injEq] at heq
    rw [h.pending.tickets j _ (List.getElem?_eq_getElem (Nat.lt_trans hjk hk)),
      h.pending.tickets k _ (List.getElem?_eq_getElem hk)] at heq
    omega
  settled did hnone p hp hevicted := by
    have hbuffered : ∀ p ∈ c.pending.buffer did, p.ticket ∉ c.pending.recovered := by
      intro p hp hrec
      obtain ⟨d, hd, -⟩ := (h.pending.queue did).passed p hp hrec
      obtain ⟨hmem, hdid⟩ := List.mem_filter.1 hd
      exact hnone d hmem (of_decide_eq_true hdid)
    rcases h.pending.kept _ hp with he | hb | hr
    · exact absurd he hevicted
    · exact .inr ⟨List.count_eq_zero.2 (hbuffered p hb), hb⟩
    · exact .inl ⟨List.count_eq_one_of_mem h.pending.once hr, h.opened _ hp hr,
        fun hb => hbuffered p hb hr⟩

/-- **The buffer neither loses nor duplicates.** In every run in which a peer has one drain at a time
    and no entry is shifted out below a drain: at every moment the buffers have at most 64 entries
    with different placeholders, and whenever no drain of a peer is in progress, every entry pushed
    for it and not evicted was recovered exactly once or is still buffered. When no task is suspended,
    no drain is in progress. -/
theorem bufferKept_of_drainsAlone {w : Sys machine} (h : Reach drainsAlone prog Launched w) :
    (∀ me, (State.client w.state me).BufferKept) ∧
      (w.tasks = [] → ∀ me, (State.client w.state me).pending.drains = []) := by
  obtain ⟨hi, hj, hidle⟩ := invariant_of_reach
    (fun s hs => ⟨hs, fun me => (hs me).bufferRight⟩)
    (fun i s me o hi hj hc hp => State.forall_modify hj
      (ClientOp.bufferRight_apply hi (hj me) hp hc))
    (fun s ms hj => hj) (fun i s c s' v _ hj _ he _ => he.bufferRight hj) h
  refine ⟨fun me => (hj me).kept (hi me).pending, fun ht me => ?_⟩
  refine eq_nil_of_ownBy Drain.task fun i => ?_
  exact congrArg Local.drains (hidle ht i me)

/-! ## Two drains at a time -/

/-- A text from Alice that Bob cannot open. -/
def unreadable (sequence : Nat) : Envelope :=
  ⟨10 + sequence, alice, bob, .text, 1, 0, sequence, ⟨alice, bob, 7⟩, ⟨false, .text ""⟩⟩

/-- A text is buffered, and the `KeyExchange` comes in twice, so that two drains try to open it. The
    second drain ends, another text is buffered, and the first drain writes its own list back. -/
def overlappingDrains : List (Move machine Cmd) :=
  List.flatten
    [[.start (.ingestEnvelopes bob [unreadable 0])], okTurns 0 5, failedTurn 0,
     [.start (.ingestEnvelopes bob [pairedKeyExchange alice bob 0])], okTurns 3 6,
     [.start (.ingestEnvelopes bob [pairedKeyExchange alice bob 0])], okTurns 7 6, failedTurn 8,
     [.start (.ingestEnvelopes bob [unreadable 1])], okTurns 11 3, failedTurn 11, failedTurn 4,
     okTurns 2 1, failedTurn 2, okTurns 2 1, okTurns 1 2]

theorem not_bufferKept : ¬ ∀ w : Sys machine, Reach Cond.any prog Launched w → w.tasks = [] →
    ∀ me, (State.client w.state me).BufferKept := by
  intro hall
  have hw : ((Sys.idle State.paired).run Cond.any prog overlappingDrains).map
      (fun w => ((w.tasks.length, (State.client w.state bob).pending.drains.length),
        (State.client w.state bob).pending.pushed.map (fun x => (x.1, x.2.ticket)),
        (State.client w.state bob).pending.evicted ++ (State.client w.state bob).pending.recovered,
        ((State.client w.state bob).pending.buffer alice).map PendingDecrypt.ticket)) =
      some ((0, 0), [(alice, 0), (alice, 1)], [], [0]) := by decide
  rw [Option.map_eq_some_iff] at hw
  obtain ⟨w, hrun, hobs⟩ := hw
  simp only [Prod.mk.injEq, List.length_eq_zero_iff, List.append_eq_nil_iff] at hobs
  obtain ⟨⟨htasks, hdrains⟩, hpushed, ⟨hevicted, hrecovered⟩, hbuffer⟩ := hobs
  have hkept := hall w (.of_run launched_paired hrun) htasks bob
  -- the second entry was pushed, and it is neither recovered nor buffered
  have hmem : (alice, 1) ∈ (State.client w.state bob).pending.pushed.map
      fun x => (x.1, x.2.ticket) := by rw [hpushed]; simp
  obtain ⟨⟨did, p⟩, hp, hx⟩ := List.mem_map.1 hmem
  simp only [Prod.mk.injEq] at hx
  obtain ⟨rfl, hticket⟩ := hx
  rcases hkept.settled _ (by simp [hdrains]) p hp (by simp [hevicted]) with ⟨hcount, -⟩ | ⟨-, hb⟩
  · rw [hrecovered] at hcount
    simp at hcount
  · have hb' := List.mem_map_of_mem (f := PendingDecrypt.ticket) hb
    rw [hbuffer, hticket] at hb'
    simp at hb'

/-- The `KeyExchange` comes in, and the drain opens the text. -/
def lateKeyExchange : List (Move machine Cmd) :=
  textBeforeKeyExchange ++ [.start (.ingestEnvelopes bob [secondSessionKeyExchange])] ++
  okTurns 6 6 ++ okTurns 7 3

theorem bufferKept_lateKeyExchange :
    ∃ w : Sys machine,
      (Sys.idle (M := machine) State.paired).run drainsAlone prog lateKeyExchange = some w ∧
      (State.client w.state bob).pending.drains = [] ∧
      (State.client w.state bob).pending.recovered = [0] ∧
      (State.client w.state bob).BufferKept := by
  have hw : ((Sys.idle State.paired).run drainsAlone prog lateKeyExchange).map
      (fun w => ((State.client w.state bob).pending.drains,
        (State.client w.state bob).pending.recovered)) = some ([], [0]) := by decide
  rw [Option.map_eq_some_iff] at hw
  obtain ⟨w, hrun, hobs⟩ := hw
  simp only [Prod.mk.injEq] at hobs
  exact ⟨w, hrun, hobs.1, hobs.2,
    (bufferKept_of_drainsAlone (.of_run launched_paired hrun)).1 bob⟩

end Messaging
