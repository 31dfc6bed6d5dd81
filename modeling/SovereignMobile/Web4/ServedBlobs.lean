import Mathlib.Data.List.Perm.Basic
import SovereignMobile.Web4.BlobCache

/-! # What the blob cache serves

On both platforms, in the runs in which no write is cut short or read half-way, and no file is evicted that
a call is about to return, every file that is returned is there and holds a whole blob of its cid, the cache
is within its limit after each `put`, and the oldest files are evicted first. -/

namespace Web4BlobCache

open EventLoop KeyedTable

section
variable {p : Platform} {sha1 : String → String} {maxBytes : Int} {S : String → Prop} {s : State}

/-! ## The invariant -/

/-- The blob is stored, and its file is there. -/
def Putting.Stored (sha1 : String → String) (s : State) (q : Putting) : Prop :=
  (q.cid, q.bytes) ∈ s.stored ∧ content (fileName sha1 q.cid) s.files = some q.bytes

/-- What holds of a `put` where it stands. -/
def Putting.Ok (sha1 : String → String) (maxBytes : Int) (s : State) (q : Putting) : Prop :=
  match q.stage with
  | .writing rest => ∃ done, q.bytes = done ++ rest ∧ content (fileName sha1 q.cid) s.files = some done
  | .written | .stamped => q.Stored sha1 s
  | .sorting total listed disturbed => q.Stored sha1 s ∧ total = totalSize s.files ∧
      listed = s.files.map File.name ∧ disturbed = false
  | .evicting remaining names => q.Stored sha1 s ∧ remaining = totalSize s.files ∧
      names.Perm (s.files.map File.name) ∧
      names.Pairwise fun a b => sortKey [] s.files a ≤ sortKey [] s.files b
  | .finished => q.Stored sha1 s ∧ (totalSize s.files : Int) ≤ maxBytes

/-- Every file is a stored blob, but for the one that is written; a file that was found is there. `S` are
    the cids of the run. -/
structure Inv (sha1 : String → String) (maxBytes : Int) (S : String → Prop) (s : State) : Prop where
  keyed : Keyed File.name s.files
  whole : ∀ name bytes, content name s.files = some bytes → s.isWriting sha1 name = false →
    ∃ cid, (cid, bytes) ∈ s.stored ∧ fileName sha1 cid = name
  found : ∀ g ∈ s.gets, S g.cid ∧ (content (fileName sha1 g.cid) s.files).isSome = true
  stored : ∀ e ∈ s.stored, S e.1
  putting : ∀ q, s.putting = some q → S q.cid ∧ q.Ok sha1 maxBytes s
  serves : Serves maxBytes s

theorem Inv.empty : Inv sha1 maxBytes S {} where
  keyed := List.nodup_nil
  whole _ _ h := absurd h (by simp [content, lookup])
  found _ h := nomatch h
  stored _ h := nomatch h
  putting _ h := nomatch h
  serves _ h := nomatch h

theorem fileName_inj {c c' : String} : fileName sha1 c = fileName sha1 c' ↔ sha1 c = sha1 c' :=
  String.append_left_inj _

theorem Entry.Right.mono {stored stored' : List (String × Bytes)} {e : Entry} (h : e.Right maxBytes stored)
    (hsub : ∀ x ∈ stored, x ∈ stored') : e.Right maxBytes stored' := by
  cases e with
  | returned cid content =>
    obtain ⟨bytes, hcontent, hmem⟩ := h
    exact ⟨bytes, hcontent, hsub _ hmem⟩
  | putEnded | evicted => exact h

variable {s' : State} {cid name : String} {q : Putting} {bytes : Bytes} {files : List File}

theorem Serves.logged (h : Serves maxBytes s) {es : List Entry} (hlog : s'.log = s.log ++ es)
    (hstored : s'.stored = s.stored) (hes : ∀ e ∈ es, e.Right maxBytes s.stored) :
    Serves maxBytes s' := by
  intro e he
  rw [hlog] at he
  rw [hstored]
  rcases List.mem_append.1 he with he | he
  · exact h e he
  · exact hes e he

/-! ## get -/

theorem Inv.get (h : Inv sha1 maxBytes S s) (hcid : S cid) :
    Inv sha1 maxBytes S (s.get sha1 cid) := by
  unfold State.get
  split
  · rename_i hfound
    refine { h with found := fun g hg => ?_ }
    rcases List.mem_append.1 hg with hg | hg
    · exact h.found g hg
    · rw [List.mem_singleton.1 hg]
      exact ⟨hcid, hfound⟩
  · exact h

/-- Where nothing is evicted, only the contents matter. -/
theorem Putting.Ok.retimed (h : q.Ok sha1 maxBytes s) (hidle : q.stage.isEvicting = false)
    (hcontent : ∀ name, content name s'.files = content name s.files)
    (htotal : totalSize s'.files = totalSize s.files) (hstored : s'.stored = s.stored) :
    q.Ok sha1 maxBytes s' := by
  obtain ⟨cid, bytes, stage⟩ := q
  unfold Putting.Ok Putting.Stored at *
  cases stage with
  | writing rest => simpa [hcontent] using h
  | written | stamped => simpa [hcontent, hstored] using h
  | sorting | evicting => simp [Stage.isEvicting] at hidle
  | finished => simpa [hcontent, hstored, htotal] using h

theorem Stage.disturb_eq {stage : Stage} (h : stage.isEvicting = false) : stage.disturb = stage := by
  cases stage with
  | sorting total listed disturbed => simp [Stage.isEvicting] at h
  | _ => rfl

theorem Inv.getStamps (h : Inv sha1 maxBytes S s) (i : Nat) (ok : Bool) (now : Nat)
    (hallows : s.isEvicting = false) : Inv sha1 maxBytes S (s.getStamps sha1 i ok now) := by
  unfold State.getStamps
  split
  · rename_i cid hget
    have hfound : ∀ g ∈ s.gets.set i ⟨cid, true⟩,
        S g.cid ∧ (content (fileName sha1 g.cid) s.files).isSome = true := by
      intro g hg
      rcases List.mem_or_eq_of_mem_set hg with hg | rfl
      · exact h.found g hg
      · exact h.found ⟨cid, false⟩ (List.mem_of_getElem? hget)
    have hidle : ∀ q, s.putting = some q → q.stage.isEvicting = false := by
      intro q hq
      simpa [State.isEvicting, hq] using hallows
    have hsame : (s.putting.map fun q => { q with stage := q.stage.disturb }) = s.putting := by
      cases hq : s.putting with
      | none => rfl
      | some q => rw [Option.map_some, Stage.disturb_eq (hidle q hq)]
    dsimp only
    split
    · rw [hsame]
      exact
        { keyed := h.keyed.updateWhere _ fun _ => rfl
          whole := fun name bytes hc hw => h.whole name bytes (content_setLastModified now ▸ hc) hw
          found := fun g hg => by
            rw [content_setLastModified]
            exact hfound g hg
          stored := h.stored
          putting := fun q hq => ⟨(h.putting q hq).1, (h.putting q hq).2.retimed (hidle q hq)
            (fun _ => content_setLastModified now) (totalSize_setLastModified now) rfl⟩
          serves := h.serves }
    · exact { h with found := hfound }
  · exact h

theorem Inv.getReturns (h : Inv sha1 maxBytes S s) (i : Nat)
    (hinj : ∀ c c', S c → S c' → sha1 c = sha1 c' → c = c')
    (hallows : ∀ g, s.gets[i]? = some g → s.isWriting sha1 (fileName sha1 g.cid) = false) :
    Inv sha1 maxBytes S (s.getReturns sha1 i) := by
  unfold State.getReturns
  split
  · rename_i cid hget
    obtain ⟨hcid, hsome⟩ := h.found _ (List.mem_of_getElem? hget)
    obtain ⟨bytes, hbytes⟩ := Option.isSome_iff_exists.1 hsome
    obtain ⟨cid', hmem, hname⟩ := h.whole _ _ hbytes (hallows _ hget)
    obtain rfl : cid' = cid := hinj _ _ (h.stored _ hmem) hcid (fileName_inj.1 hname)
    have hright : ∀ e ∈ [Entry.returned cid' (content (fileName sha1 cid') s.files)],
        e.Right maxBytes s.stored := by
      intro e he
      rw [List.mem_singleton.1 he]
      exact ⟨bytes, hbytes, hmem⟩
    have hserves : Serves maxBytes { s with
        gets := s.gets.eraseIdx i
        log := s.log ++ [.returned cid' (content (fileName sha1 cid') s.files)] } :=
      h.serves.logged rfl rfl hright
    exact { h with
      found := fun g hg => h.found g (List.mem_of_mem_eraseIdx hg)
      serves := hserves }
  · exact h

/-! ## put -/

theorem isWriting_eq_false (h : s.putting = none) : s.isWriting sha1 name = false := by
  simp [State.isWriting, h]

theorem Inv.failPut (h : Inv sha1 maxBytes S s) (hwriting : ∀ name, s.isWriting sha1 name = false)
    (htotal : (totalSize s.files : Int) ≤ maxBytes) : Inv sha1 maxBytes S s.failPut where
  keyed := h.keyed
  whole name bytes hc _ := h.whole name bytes hc (hwriting name)
  found := h.found
  stored := h.stored
  putting _ hq := absurd hq (by simp [State.failPut])
  serves := h.serves.logged rfl rfl (by
    intro e he
    rw [List.mem_singleton.1 he]
    exact htotal)

theorem isSome_replace {other : String} {now : Nat} (h : (content name files).isSome = true) :
    (content name (replace File.name ⟨other, bytes, now⟩ files)).isSome = true := by
  by_cases hname : other = name
  · subst hname
    rw [content_replace_self]
    rfl
  · rwa [content_replace_other hname]

theorem Inv.openFile (h : Inv sha1 maxBytes S s) (hcid : S cid) (bytes : Bytes) (now : Nat)
    (hfree : s.putting = none) : Inv sha1 maxBytes S (s.openFile sha1 cid bytes now) where
  keyed := h.keyed.replace _
  whole name found hc hw := by
    have hname : fileName sha1 cid ≠ name := by
      simpa [State.isWriting, State.openFile, Stage.isWriting] using hw
    rw [State.openFile, content_replace_other hname] at hc
    exact h.whole name found hc (isWriting_eq_false hfree)
  found g hg := ⟨(h.found g hg).1, isSome_replace (h.found g hg).2⟩
  stored := h.stored
  putting q hq := by
    cases hq
    exact ⟨hcid, [], rfl, content_replace_self [] now⟩
  serves := h.serves

/-- A blob is there from the moment it is stored. -/
theorem Inv.stores (h : Inv sha1 maxBytes S s) (hcid : S cid) (hkeyed : Keyed File.name files)
    (hown : content (fileName sha1 cid) files = some bytes)
    (hothers : ∀ name, fileName sha1 cid ≠ name → content name files = content name s.files ∧
      s.isWriting sha1 name = false) :
    Inv sha1 maxBytes S { s with
      files := files
      putting := some ⟨cid, bytes, .written⟩
      stored := s.stored ++ [(cid, bytes)] } where
  keyed := hkeyed
  whole name found hc _ := by
    by_cases hname : fileName sha1 cid = name
    · subst hname
      obtain rfl := Option.some.inj (hown.symm.trans hc)
      exact ⟨cid, List.mem_append_right _ List.mem_cons_self, rfl⟩
    · obtain ⟨hsame, hwriting⟩ := hothers name hname
      obtain ⟨cid', hmem, hname'⟩ := h.whole name found (hsame ▸ hc) hwriting
      exact ⟨cid', List.mem_append_left _ hmem, hname'⟩
  found g hg := by
    refine ⟨(h.found g hg).1, ?_⟩
    by_cases hname : fileName sha1 cid = fileName sha1 g.cid
    · rw [← hname]
      exact Option.isSome_iff_exists.2 ⟨bytes, hown⟩
    · rw [(hothers _ hname).1]
      exact (h.found g hg).2
  stored e he := by
    rcases List.mem_append.1 he with he | he
    · exact h.stored e he
    · rw [List.mem_singleton.1 he]
      exact hcid
  putting q hq := by
    cases hq
    exact ⟨hcid, List.mem_append_right _ List.mem_cons_self, hown⟩
  serves := fun e he => (h.serves e he).mono fun _ hx => List.mem_append_left _ hx

theorem Inv.put (h : Inv sha1 maxBytes S s) (hcid : S cid) (bytes : Bytes) (ok : Bool) (now : Nat)
    (hallows : s.isPutting = true ∨ ok = true ∨ (totalSize s.files : Int) ≤ maxBytes) :
    Inv sha1 maxBytes S (s.put p sha1 cid bytes ok now) := by
  unfold State.put
  split
  · exact h
  rename_i hlock
  have hfree : s.putting = none := by simpa [State.isPutting] using hlock
  cases ok with
  | false =>
    have htotal : (totalSize s.files) ≤ maxBytes :=
      (hallows.resolve_left hlock).resolve_left Bool.false_ne_true
    exact h.failPut (fun _ => isWriting_eq_false hfree) htotal
  | true =>
    cases p with
    | android => exact h.openFile hcid bytes now hfree
    | ios =>
      exact h.stores hcid (h.keyed.replace _) (content_replace_self bytes now) fun name hname =>
        ⟨content_replace_other hname, isWriting_eq_false hfree⟩

theorem isWriting_other (hq : s.putting = some q) (h : fileName sha1 q.cid ≠ name) :
    s.isWriting sha1 name = false := by
  simp [State.isWriting, hq, h]

theorem Inv.write (h : Inv sha1 maxBytes S s) (n : Nat) (now : Nat) :
    Inv sha1 maxBytes S (s.write sha1 n true now) := by
  unfold State.write
  split
  · rename_i cid bytes rest hq
    obtain ⟨hcid, done, hbytes, hcontent⟩ := h.putting _ hq
    have hown : content (fileName sha1 cid) (append (fileName sha1 cid) (rest.take n) now s.files) =
        some (done ++ rest.take n) := content_append_self hcontent
    have hkeyed : Keyed File.name (append (fileName sha1 cid) (rest.take n) now s.files) :=
      h.keyed.updateWhere _ fun _ => rfl
    dsimp only at hbytes
    rw [if_neg (by simp)]
    split
    · rename_i hrest
      -- the last part
      have hall : done ++ rest.take n = bytes := by
        rw [hbytes]
        conv_rhs => rw [← List.take_append_drop n rest, hrest, List.append_nil]
      refine h.stores hcid hkeyed (hall ▸ hown) fun name hname => ⟨content_append_other hname, ?_⟩
      exact isWriting_other hq hname
    · refine
        { keyed := hkeyed
          whole := fun name found hc hw => ?_
          found := fun g hg => ⟨(h.found g hg).1, ?_⟩
          stored := h.stored
          putting := fun q hq' => ?_
          serves := h.serves }
      · have hname : fileName sha1 cid ≠ name := by
          simpa [State.isWriting, Stage.isWriting] using hw
        rw [content_append_other hname] at hc
        exact h.whole name found hc (isWriting_other hq hname)
      · by_cases hname : fileName sha1 cid = fileName sha1 g.cid
        · rw [← hname]
          exact Option.isSome_iff_exists.2 ⟨_, hown⟩
        · rw [content_append_other hname]
          exact (h.found g hg).2
      · cases hq'
        refine ⟨hcid, done ++ rest.take n, ?_, hown⟩
        rw [List.append_assoc, List.take_append_drop]
        exact hbytes
  · exact h

theorem Inv.putStamps (h : Inv sha1 maxBytes S s) (ok : Bool) (now : Nat) :
    Inv sha1 maxBytes S (s.putStamps sha1 ok now) := by
  unfold State.putStamps
  split
  · rename_i cid bytes hq
    obtain ⟨hcid, hmem, hcontent⟩ := h.putting _ hq
    have hsame : ∀ name, content name
        (if ok then setLastModified (fileName sha1 cid) now s.files else s.files) = content name s.files := by
      intro name
      split
      · exact content_setLastModified now
      · rfl
    refine
      { keyed := ?_
        whole := fun name found hc _ => h.whole name found (hsame name ▸ hc) ?_
        found := fun g hg => ⟨(h.found g hg).1, ?_⟩
        stored := h.stored
        putting := fun q hq' => ?_
        serves := h.serves }
    · dsimp only
      split
      · exact h.keyed.updateWhere _ fun _ => rfl
      · exact h.keyed
    · simp [State.isWriting, hq, Stage.isWriting]
    · rw [hsame]
      exact (h.found g hg).2
    · cases hq'
      exact ⟨hcid, hmem, (hsame _).trans hcontent⟩
  · exact h

/-! ## enforceLimit -/

theorem Inv.staged (h : Inv sha1 maxBytes S s) {before after : Stage}
    (hq : s.putting = some ⟨cid, bytes, before⟩) (hwriting : before.isWriting = false)
    (hok : Putting.Ok sha1 maxBytes s ⟨cid, bytes, after⟩) :
    Inv sha1 maxBytes S { s with putting := some ⟨cid, bytes, after⟩ } where
  keyed := h.keyed
  whole name found hc _ := h.whole name found hc (by simp [State.isWriting, hq, hwriting])
  found := h.found
  stored := h.stored
  putting q hq' := by
    cases hq'
    exact ⟨(h.putting _ hq).1, hok⟩
  serves := h.serves

/-- Where there is no file left to evict, the `put` has evicted its own. -/
theorem loop_ok {remaining : Int} {names : List String}
    (hstored : (⟨cid, bytes, .stamped⟩ : Putting).Stored sha1 s)
    (hremaining : remaining = totalSize s.files) (hperm : names.Perm (s.files.map File.name))
    (hsorted : names.Pairwise fun a b => sortKey [] s.files a ≤ sortKey [] s.files b) :
    Putting.Ok sha1 maxBytes s ⟨cid, bytes, State.loop maxBytes remaining names⟩ := by
  unfold State.loop
  split
  · rename_i hover
    refine ⟨hstored, ?_⟩
    rcases hover with hle | rfl
    · rwa [← hremaining]
    have hnone : s.files = [] := List.map_eq_nil_iff.1 hperm.nil_eq.symm
    have hown : content (fileName sha1 cid) s.files = some bytes := hstored.2
    rw [hnone] at hown
    simp [content, lookup] at hown
  · exact ⟨hstored, hremaining, hperm, hsorted⟩

theorem Inv.sizes (h : Inv sha1 maxBytes S s) : Inv sha1 maxBytes S (s.sizes maxBytes true []) := by
  unfold State.sizes
  split
  · rename_i cid bytes hq
    have hstored : (⟨cid, bytes, .stamped⟩ : Putting).Stored sha1 s := (h.putting _ hq).2
    have hall : (s.files.filter fun f => f.name ∉ ([])) = s.files := by simp
    simp only [if_true, hall]
    split
    · rename_i hle
      exact h.staged hq rfl ⟨hstored, hle⟩
    · exact h.staged hq rfl ⟨hstored, rfl, rfl, rfl⟩
  · exact h

theorem Inv.sort (h : Inv sha1 maxBytes S s) (sorted : List String) :
    Inv sha1 maxBytes S (s.sort p maxBytes true [] sorted) := by
  unfold State.sort
  split
  · rename_i cid bytes total listed disturbed hq
    obtain ⟨_, hstored, htotal, hlisted, hdisturbed⟩ := h.putting _ hq
    split
    · rename_i hsorted
      have hlist : s.toSort p true listed = s.files.map File.name := by
        cases p with
        | android => rfl
        | ios => exact hlisted
      refine h.staged hq rfl (loop_ok hstored htotal (hlist ▸ hsorted.1) ?_)
      exact hsorted.2.resolve_left (by simp [hdisturbed])
    · exact h
  · exact h

/-- No access time has changed, so that the order is one. -/
theorem Inv.sortThrows (h : Inv sha1 maxBytes S s) : Inv sha1 maxBytes S (s.sortThrows p) := by
  unfold State.sortThrows
  split
  · rename_i cid bytes total listed hq
    obtain ⟨_, _, _, _, hdisturbed⟩ := h.putting _ hq
    simp at hdisturbed
  · exact h

/-- The oldest file is deleted, which nobody has in hand. -/
theorem Inv.evict (h : Inv sha1 maxBytes S s) (hunused : s.evictsUsed sha1 = false) :
    Inv sha1 maxBytes S (s.evict p maxBytes true true) := by
  unfold State.evict
  split
  · rename_i cid bytes remaining name names hq
    obtain ⟨hcid, ⟨hmem, hown⟩, hremaining, hperm, hsorted⟩ := h.putting _ hq
    simp only [State.evictsUsed, hq, Bool.or_eq_false_iff, decide_eq_false_iff_not, List.any_eq_false,
      decide_eq_true_eq] at hunused
    obtain ⟨howner, hgets⟩ := hunused
    have hnodup : (name :: names).Nodup := hperm.nodup_iff.2 h.keyed
    have hne : ∀ m ∈ names, m ≠ name := fun m hm heq => (List.nodup_cons.1 hnodup).1 (heq ▸ hm)
    have hkeyed : Keyed File.name (delete name s.files) := h.keyed.filter _
    -- what is left to evict
    have hleft : names.Perm ((delete name s.files).map File.name) := by
      rw [map_name_delete]
      have hfilter : (name :: names).filter (· ≠ name) = names := by
        rw [List.filter_cons_of_neg (by simp), List.filter_eq_self]
        intro m hm
        simpa using hne m hm
      exact hfilter ▸ hperm.filter _
    have hlater : names.Pairwise fun a b =>
        sortKey [] (delete name s.files) a ≤ sortKey [] (delete name s.files) b := by
      refine (List.pairwise_cons.1 hsorted).2.imp_of_mem fun {a b} ha hb hab => ?_
      rw [sortKey_delete_other h.keyed (hne a ha), sortKey_delete_other h.keyed (hne b hb)]
      exact hab
    have hrest : State.subtract p remaining (size name s.files) true = totalSize (delete name s.files) := by
      have htotal := totalSize_delete h.keyed name
      have hsub : State.subtract p remaining (size name s.files) true = remaining - size name s.files := by
        cases p <;> rfl
      omega
    have holdest : ∀ t ∈ (delete name s.files).map File.lastModified, sortKey [] s.files name ≤ t := by
      intro t ht
      obtain ⟨f, hf, rfl⟩ := List.mem_map.1 ht
      have hf' := List.mem_filter.1 hf
      rw [← sortKey_of_mem h.keyed hf'.1]
      exact (List.pairwise_cons.1 hsorted).1 f.name (hleft.mem_iff.2 (List.mem_map_of_mem hf))
    have hkept : ∀ other, name ≠ other → content other (delete name s.files) = content other s.files :=
      fun other hother => content_delete_other h.keyed (Ne.symm hother)
    simp only [if_true]
    refine
      { keyed := hkeyed
        whole := fun other found hc _ => ?_
        found := fun g hg => ⟨(h.found g hg).1, ?_⟩
        stored := h.stored
        putting := fun q hq' => ?_
        serves := h.serves.logged rfl rfl ?_ }
    · have hother : name ≠ other := by
        rintro rfl
        exact nomatch content_delete_self.symm.trans hc
      exact h.whole other found (hkept other hother ▸ hc) (by simp [State.isWriting, hq, Stage.isWriting])
    · rw [hkept _ (Ne.symm (hgets g hg))]
      exact (h.found g hg).2
    · cases hq'
      exact ⟨hcid, loop_ok ⟨hmem, (hkept _ (Ne.symm howner)).trans hown⟩ hrest hleft hlater⟩
    · intro e he
      rw [List.mem_singleton.1 he]
      exact holdest
  · exact h

theorem Inv.putReturns (h : Inv sha1 maxBytes S s) : Inv sha1 maxBytes S (s.putReturns sha1) := by
  unfold State.putReturns
  split
  · rename_i cid bytes hq
    obtain ⟨_, ⟨hmem, hown⟩, htotal⟩ := h.putting _ hq
    refine
      { keyed := h.keyed
        whole := fun name found hc _ => h.whole name found hc (by simp [State.isWriting, hq, Stage.isWriting])
        found := h.found
        stored := h.stored
        putting := fun _ hq' => nomatch hq'
        serves := h.serves.logged rfl rfl ?_ }
    intro e he
    rcases List.mem_cons.1 he with rfl | he
    · exact ⟨bytes, hown, hmem⟩
    · rw [List.mem_singleton.1 he]
      exact htotal
  · exact h

theorem Inv.killed (h : Inv sha1 maxBytes S s) (hwriting : ∀ name, s.isWriting sha1 name = false) :
    Inv sha1 maxBytes S s.killed where
  keyed := h.keyed
  whole name bytes hc _ := h.whole name bytes hc (hwriting name)
  found _ hg := absurd hg (by simp [State.killed])
  stored := h.stored
  putting _ hq := absurd hq (by simp [State.killed])
  serves := h.serves

/-! ## Every run -/

theorem Inv.step (h : Inv sha1 maxBytes S s) (hinj : ∀ c c', S c → S c' → sha1 c = sha1 c' → c = c')
    {e : Event} (hcids : ∀ c ∈ e.cids, S c) (hallows : s.allows sha1 maxBytes e = true) :
    Inv sha1 maxBytes S (s.step p sha1 maxBytes e) := by
  cases e with
  | get cid => exact h.get (hcids cid List.mem_cons_self)
  | getStamps i ok now => exact h.getStamps i ok now (by simpa [State.allows] using hallows)
  | getReturns i =>
    refine h.getReturns i hinj fun g hg => ?_
    simpa [State.allows, hg] using hallows
  | put cid bytes ok now =>
    refine h.put (hcids cid List.mem_cons_self) bytes ok now ?_
    simpa [State.allows, or_assoc] using hallows
  | write n ok now =>
    obtain rfl : ok = true := hallows
    exact h.write n now
  | putStamps ok now => exact h.putStamps ok now
  | sizes ok unread =>
    obtain ⟨rfl, rfl⟩ : ok = true ∧ unread = [] := by simpa [State.allows] using hallows
    exact h.sizes
  | sort ok undated sorted =>
    obtain ⟨rfl, rfl⟩ : ok = true ∧ undated = [] := by simpa [State.allows] using hallows
    exact h.sort sorted
  | sortThrows => exact h.sortThrows
  | evict ok read =>
    obtain ⟨⟨rfl, rfl⟩, hunused⟩ : (ok = true ∧ read = true) ∧ s.evictsUsed sha1 = false := by
      simpa [State.allows] using hallows
    exact h.evict hunused
  | putReturns => exact h.putReturns
  | killed =>
    refine h.killed fun name => ?_
    unfold State.isWriting
    cases hq : s.putting with
    | none => rfl
    | some q =>
      have hstage : q.stage.isWriting = false := by simpa [State.allows, hq] using hallows
      simp [hstage]

/-- In the runs whose events are as `allows` has them, and whose cids differ in their SHA-1, the cache serves
    whole blobs, keeps within its limit and evicts the oldest files first. -/
theorem serves_of_allows (p : Platform) (sha1 : String → String) (maxBytes : Int) (events : List Event)
    (hsha1 : ∀ c ∈ events.flatMap Event.cids, ∀ c' ∈ events.flatMap Event.cids, sha1 c = sha1 c' → c = c')
    (hallows : StepsMeet (State.step p sha1 maxBytes)
      (fun s e => s.allows sha1 maxBytes e = true) {} events) :
    HoldsThroughout (State.step p sha1 maxBytes) (Serves maxBytes) {} events := by
  have hcids : StepsMeet (State.step p sha1 maxBytes)
      (fun _ e => ∀ c ∈ e.cids, c ∈ events.flatMap Event.cids) {} events :=
    stepsMeet_of_forall (fun e he c hc => List.mem_flatMap.2 ⟨e, he, hc⟩) _
  exact StepsMeet.holdsThroughout
    (fun s e hs hm => hs.step (fun c c' hc hc' => hsha1 c hc c' hc') hm.2 hm.1)
    (fun _ hs => hs.serves) Inv.empty ((stepsMeet_and events _).2 ⟨hallows, hcids⟩)

end

/-- The digests of two cids. -/
def sha1Of (cid : String) : String :=
  if cid = "a" then "86f7e437faa5a7fce15d1ddcb9eaeaea377667b8"
  else if cid = "b" then "e9d71f5ee7c92d6dc9e92ffdad17b8bd49418f98"
  else ""

/-- A `put` that finds room; iOS has written the blob when it takes the lock. -/
def puts (cid : String) (bytes : Bytes) (now : Nat) : List Event :=
  [.put cid bytes true now, .write bytes.length true now, .putStamps true now, .sizes true []]

def gets (cid : String) (now : Nat) : List Event := [.get cid, .getStamps 0 true now, .getReturns 0]

/-- `a` has to go for `b`. -/
def aForB (deleted : Bool) : List Event :=
  puts "a" [1, 2, 3] 1 ++ [.putReturns] ++ gets "a" 2 ++ puts "b" [4, 5] 3 ++
    [.sort true [] [fileName sha1Of "a", fileName sha1Of "b"], .evict deleted true, .putReturns]

theorem serves_aForB :
    HoldsThroughout (State.step .android sha1Of 4) (Serves 4) {} (aForB true) ∧
    HoldsThroughout (State.step .ios sha1Of 4) (Serves 4) {} (aForB true) :=
  ⟨serves_of_allows .android sha1Of 4 (aForB true) (by decide) (by decide),
    serves_of_allows .ios sha1Of 4 (aForB true) (by decide) (by decide)⟩

/-! ## Where it serves badly -/

/-- A blob that is larger than the limit is evicted at once. -/
def tooLarge : List Event :=
  puts "a" [1, 2] 1 ++ [.sort true [] [fileName sha1Of "a"], .evict true true, .putReturns]

/-- A write fails after the first byte. -/
def cutShort : List Event :=
  [.put "a" [1, 2] true 1, .write 1 true 1, .write 0 false 1] ++ gets "a" 2

/-- A file that is returned is not there, on either platform; Android returns half a blob; iOS exceeds its
    limit where a file cannot be deleted. -/
theorem not_serves :
    (∀ p, ¬HoldsThroughout (State.step p sha1Of 1) (Serves 1) {} tooLarge) ∧
    ¬HoldsThroughout (State.step .android sha1Of 4) (Serves 4) {} cutShort ∧
    ¬HoldsThroughout (State.step .ios sha1Of 4) (Serves 4) {} (aForB false) := by
  refine ⟨?_, ?_, ?_⟩
  · intro p h
    have hmem : Entry.returned "a" none ∈ (tooLarge.foldl (State.step p sha1Of 1) {}).log := by
      cases p <;> decide
    obtain ⟨bytes, hnone, _⟩ := h.last _ hmem
    simp at hnone
  · intro h
    have hmem : Entry.returned "a" (some [1]) ∈
        (cutShort.foldl (State.step .android sha1Of 4) {}).log := by decide
    have hstored : (cutShort.foldl (State.step .android sha1Of 4) {}).stored = [] := by decide
    obtain ⟨bytes, _, hin⟩ := h.last _ hmem
    rw [hstored] at hin
    simp at hin
  · intro h
    have hmem : Entry.putEnded 5 ∈
        ((aForB false).foldl (State.step .ios sha1Of 4) {}).log := by decide
    have hle : (5 : Int) ≤ 4 := h.last _ hmem
    omega

end Web4BlobCache
