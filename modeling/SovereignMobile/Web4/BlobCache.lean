import Mathlib.Algebra.Ring.Nat
import SovereignMobile.Collections.KeyedTable
import SovereignMobile.EventLoop.Sequential

/-! # The blob cache of Web4

`Web4BlobCache.swift` and `Web4BlobCache.kt`: a directory of files that are named after their cid. A `put`
has the lock for all of its steps, a `get` has none; between two steps of a call the others go on. What
the file system does when it is asked, and when the app is killed, is part of the event. -/

namespace Web4BlobCache

open EventLoop KeyedTable Option Function

inductive Platform where
  | android | ios
  deriving DecidableEq

abbrev Bytes := List UInt8

structure File where
  name : String
  bytes : Bytes
  lastModified : Nat

/-- A `get` that has found its file; `stamped` after it has updated the access time. -/
structure Getting where
  cid : String
  stamped : Bool := false

/-- Where the `put` stands that has the lock. `enforceLimit` goes from `stamped` to `finished`. -/
inductive Stage where
  /-- The file is open, and `rest` not written yet. -/
  | writing (rest : Bytes)
  | written
  | stamped
  /-- `listed` is more than fits; `disturbed` if a `get` has changed an access time since. -/
  | sorting (total : Int) (listed : List String) (disturbed : Bool)
  /-- The next file is deleted. -/
  | evicting (remaining : Int) (files : List String)
  | finished

def Stage.disturb : Stage → Stage
  | .sorting total listed _ => .sorting total listed true
  | stage => stage

def Stage.isWriting : Stage → Bool
  | .writing _ => true
  | _ => false

def Stage.isEvicting : Stage → Bool
  | .sorting _ _ _ | .evicting _ _ => true
  | _ => false

structure Putting where
  cid : String
  bytes : Bytes
  stage : Stage

/-- A file that was returned for `cid`, with its content at that time; the size of all files when a `put`
    was over; the access time of a file that was evicted, and those of the files that were left. -/
inductive Entry where
  | returned (cid : String) (content : Option Bytes)
  | putEnded (total : Nat)
  | evicted (lastModified : Nat) (left : List Nat)
  deriving DecidableEq

/-- History: the blobs that were written to their end, and what came of the calls. -/
structure State where
  files : List File := []
  gets : List Getting := []
  putting : Option Putting := none
  -- history
  stored : List (String × Bytes) := []
  log : List Entry := []

/-- `ok`, `unread`, `undated` and `read` say what the file system does: whether a call succeeds, and which
    sizes and times cannot be had. -/
inductive Event where
  | get (cid : String)
  | getStamps (i : Nat) (ok : Bool) (now : Nat)
  | getReturns (i : Nat)
  | put (cid : String) (bytes : Bytes) (ok : Bool) (now : Nat)
  | write (n : Nat) (ok : Bool) (now : Nat)
  | putStamps (ok : Bool) (now : Nat)
  | sizes (ok : Bool) (unread : List String)
  | sort (ok : Bool) (undated sorted : List String)
  | sortThrows
  | evict (ok read : Bool)
  | putReturns
  | killed

/-! ## The directory -/

def totalSize (files : List File) : Nat := (files.map fun f => f.bytes.length).sum

def setLastModified (name : String) (now : Nat) (files : List File) : List File :=
  updateWhere (fun f => f.name = name) (fun f => { f with lastModified := now }) files

/-- A write to the end of the file. -/
def append (name : String) (bytes : Bytes) (now : Nat) (files : List File) : List File :=
  updateWhere (fun f => f.name = name)
    (fun f => { f with bytes := f.bytes ++ bytes, lastModified := now }) files

def delete (name : String) (files : List File) : List File := files.filter fun f => f.name ≠ name

def content (name : String) (files : List File) : Option Bytes := (lookup File.name name files).map File.bytes

def size (name : String) (files : List File) : Nat := ((content name files).map List.length).getD 0

/-- The time that the sort sees: the distant past, if there is none to be had. -/
def sortKey (undated : List String) (files : List File) (name : String) : Nat :=
  if name ∈ undated then 0
  else ((lookup File.name name files).map File.lastModified).getD 0

section
variable (p : Platform) (sha1 : String → String) (maxBytes : Int)

def fileName (cid : String) : String := sha1 cid ++ ".blob"

namespace State

/-- The `put` is over by an exception, or returns nothing. -/
def failPut (s : State) : State :=
  { s with putting := none, log := s.log ++ [.putEnded (totalSize s.files)] }

def isPutting (s : State) : Bool := s.putting.isSome

/-! ## get -/

def get (s : State) (cid : String) : State :=
  if (content (fileName sha1 cid) s.files).isSome then { s with gets := s.gets ++ [{ cid := cid }] } else s

def getStamps (s : State) (i : Nat) (ok : Bool) (now : Nat) : State :=
  match s.gets[i]? with
  | some ⟨cid, false⟩ =>
    let s := { s with gets := s.gets.set i ⟨cid, true⟩ }
    if ok then
      { s with
        files := setLastModified (fileName sha1 cid) now s.files
        putting := s.putting.map fun q => { q with stage := q.stage.disturb } }
    else s
  | _ => s

def getReturns (s : State) (i : Nat) : State :=
  match s.gets[i]? with
  | some ⟨cid, true⟩ =>
    { s with
      gets := s.gets.eraseIdx i
      log := s.log ++ [.returned cid (content (fileName sha1 cid) s.files)] }
  | _ => s

/-! ## put -/

/-- Android: `FileOutputStream` truncates the file. -/
def openFile (s : State) (cid : String) (bytes : Bytes) (now : Nat) : State :=
  { s with
    files := replace File.name ⟨fileName sha1 cid, [], now⟩ s.files
    putting := some ⟨cid, bytes, .writing bytes⟩ }

/-- iOS: `data.write(to: url, options: .atomic)` -/
def writeAtomically (s : State) (cid : String) (bytes : Bytes) (now : Nat) : State :=
  { s with
    files := replace File.name ⟨fileName sha1 cid, bytes, now⟩ s.files
    putting := some ⟨cid, bytes, .written⟩
    stored := s.stored ++ [(cid, bytes)] }

/-- The lock is taken. -/
def put (s : State) (cid : String) (bytes : Bytes) (ok : Bool) (now : Nat) : State :=
  if s.isPutting then s
  else if !ok then s.failPut
  else
    match p with
    | .android => s.openFile sha1 cid bytes now
    | .ios => s.writeAtomically sha1 cid bytes now

/-- The next `n` bytes are written. -/
def write (s : State) (n : Nat) (ok : Bool) (now : Nat) : State :=
  match s.putting with
  | some ⟨cid, bytes, .writing rest⟩ =>
    if !ok then s.failPut
    else
      let s := { s with files := append (fileName sha1 cid) (rest.take n) now s.files }
      if rest.drop n = [] then
        { s with putting := some ⟨cid, bytes, .written⟩, stored := s.stored ++ [(cid, bytes)] }
      else { s with putting := some ⟨cid, bytes, .writing (rest.drop n)⟩ }
  | _ => s

def putStamps (s : State) (ok : Bool) (now : Nat) : State :=
  match s.putting with
  | some ⟨cid, bytes, .written⟩ =>
    { s with
      files := if ok then setLastModified (fileName sha1 cid) now s.files else s.files
      putting := some ⟨cid, bytes, .stamped⟩ }
  | _ => s

/-! ## enforceLimit -/

/-- The sum of the sizes, and whether it is too much. -/
def sizes (s : State) (ok : Bool) (unread : List String) : State :=
  match s.putting with
  | some ⟨cid, bytes, .stamped⟩ =>
    let listed := if ok then s.files else []
    let total : Nat := totalSize (listed.filter fun f => f.name ∉ unread)
    if (total : Int) ≤ maxBytes then { s with putting := some ⟨cid, bytes, .finished⟩ }
    else { s with putting := some ⟨cid, bytes, .sorting total (listed.map File.name) false⟩ }
  | _ => s

/-- The head of the loop. -/
def loop (remaining : Int) (files : List String) : Stage :=
  if remaining ≤ maxBytes ∨ files = [] then .finished else .evicting remaining files

/-- What is sorted: Android lists the files again. -/
def toSort (s : State) (ok : Bool) (listed : List String) : List String :=
  match p with
  | .android => if ok then s.files.map File.name else []
  | .ios => listed

/-- The files by access time, or in any order if the times change meanwhile. -/
def sort (s : State) (ok : Bool) (undated sorted : List String) : State :=
  match s.putting with
  | some ⟨cid, bytes, .sorting total listed disturbed⟩ =>
    if sorted.Perm (s.toSort p ok listed) ∧
        (disturbed = true ∨ sorted.Pairwise fun a b => sortKey undated s.files a ≤ sortKey undated s.files b)
    then { s with putting := some ⟨cid, bytes, loop maxBytes total sorted⟩ }
    else s
  | _ => s

/-- `Comparison method violates its general contract!` -/
def sortThrows (s : State) : State :=
  match p, s.putting with
  | .android, some ⟨_, _, .sorting _ _ true⟩ => s.failPut
  | _, _ => s

/-- iOS subtracts the size in any case. -/
def subtract (remaining : Int) (size : Nat) (deleted : Bool) : Int :=
  match p with
  | .android => if deleted then remaining - size else remaining
  | .ios => remaining - size

def evict (s : State) (ok read : Bool) : State :=
  match s.putting with
  | some ⟨cid, bytes, .evicting remaining (name :: names)⟩ =>
    let size := if read then size name s.files else 0
    let s := { s with
      putting := some ⟨cid, bytes, loop maxBytes (subtract p remaining size ok) names⟩ }
    if ok then
      { s with
        files := delete name s.files
        log := s.log ++ [.evicted (sortKey [] s.files name) ((delete name s.files).map File.lastModified)] }
    else s
  | _ => s

def putReturns (s : State) : State :=
  match s.putting with
  | some ⟨cid, _, .finished⟩ =>
    { s with
      putting := none
      log := s.log ++
        [.returned cid (content (fileName sha1 cid) s.files), .putEnded (totalSize s.files)] }
  | _ => s

/-- The app is killed, and started again: the directory is what is left. -/
def killed (s : State) : State := { s with gets := [], putting := none }

def step (s : State) : Event → State
  | .get cid => s.get sha1 cid
  | .getStamps i ok now => s.getStamps sha1 i ok now
  | .getReturns i => s.getReturns sha1 i
  | .put cid bytes ok now => s.put p sha1 cid bytes ok now
  | .write n ok now => s.write sha1 n ok now
  | .putStamps ok now => s.putStamps sha1 ok now
  | .sizes ok unread => s.sizes maxBytes ok unread
  | .sort ok undated sorted => s.sort p maxBytes ok undated sorted
  | .sortThrows => s.sortThrows p
  | .evict ok read => s.evict p maxBytes ok read
  | .putReturns => s.putReturns sha1
  | .killed => s.killed

end State

/-! ## What is claimed, and when it holds -/

/-- The entry is as the cache promises. -/
def Entry.Right (stored : List (String × Bytes)) : Entry → Prop
  | .returned cid content => ∃ bytes, content = some bytes ∧ (cid, bytes) ∈ stored
  | .putEnded total => (total : Int) ≤ maxBytes
  | .evicted lastModified left => ∀ t ∈ left, lastModified ≤ t

/-- Whole blobs were returned, the limit was kept, and the oldest files were evicted first. -/
def Serves (s : State) : Prop := ∀ e ∈ s.log, e.Right maxBytes s.stored

namespace State

/-- Android: a `put` is about to write this file. -/
def isWriting (s : State) (name : String) : Bool :=
  s.putting.any fun q => q.stage.isWriting && fileName sha1 q.cid = name

/-- A `put` has listed more than fits, and is not through with it. -/
def isEvicting (s : State) : Bool := s.putting.any fun q => q.stage.isEvicting

/-- The next file to be deleted is one that is about to be returned. -/
def evictsUsed (s : State) : Bool :=
  match s.putting with
  | some ⟨cid, _, .evicting _ (name :: _)⟩ =>
    fileName sha1 cid = name || s.gets.any fun g => fileName sha1 g.cid = name
  | _ => false

/-- No write is cut short, and no `get` returns a file while it is written. No file is evicted that a
    call is about to return, and no access time changes while files are evicted. The file system lists
    and deletes what it is asked to. A `put` that fails finds the cache within its limit. -/
def allows (s : State) : Event → Bool
  | .getStamps _ _ _ => !s.isEvicting
  | .getReturns i => (s.gets[i]?).all fun g => !s.isWriting sha1 (fileName sha1 g.cid)
  | .put _ _ ok _ => s.isPutting || ok || (totalSize s.files : Int) ≤ maxBytes
  | .write _ ok _ => ok
  | .sizes ok unread => ok && unread.isEmpty
  | .sort ok undated _ => ok && undated.isEmpty
  | .evict ok read => ok && read && !s.evictsUsed sha1
  | .killed => !s.putting.any fun q => q.stage.isWriting
  | _ => true

end State

def Event.cids : Event → List String
  | .get cid | .put cid _ _ _ => [cid]
  | _ => []

end

/-! ## What the file operations change -/

section
variable {files : List File} {name other : String}

theorem content_setLastModified (now : Nat) :
    content name (setLastModified other now files) = content name files := by
  unfold content setLastModified
  rw [lookup_updateWhere (f := fun f : File => { f with lastModified := now }) fun _ => rfl,
    map_map]
  congr 1
  funext f
  simp only [comp]
  split <;> rfl

theorem totalSize_setLastModified (now : Nat) :
    totalSize (setLastModified other now files) = totalSize files := by
  unfold totalSize setLastModified updateWhere
  rw [List.map_map]
  congr 1
  refine List.map_congr_left fun f _ => ?_
  simp only [comp]
  split <;> rfl

theorem content_replace_self (bytes : Bytes) (now : Nat) :
    content name (replace File.name ⟨name, bytes, now⟩ files) = some bytes := by
  unfold content
  rw [lookup_replace_self ⟨name, bytes, now⟩ files]
  rfl

variable {bytes more : Bytes} {now : Nat}

theorem content_replace_other (h : other ≠ name) :
    content name (replace File.name ⟨other, bytes, now⟩ files) = content name files := by
  unfold content
  rw [lookup_replace_other h]

theorem content_append_self (h : content name files = some bytes) :
    content name (append name more now files) = some (bytes ++ more) := by
  obtain ⟨f, hf, rfl⟩ := map_eq_some_iff.1 h
  unfold content append
  rw [lookup_updateWhere
    (f := fun f : File => { f with bytes := f.bytes ++ more, lastModified := now }) fun _ => rfl, hf]
  simp [(lookup_eq_some hf).2]

theorem content_append_other (h : other ≠ name) :
    content name (append other more now files) = content name files := by
  unfold content append
  rw [lookup_updateWhere_other
    (f := fun f : File => { f with bytes := f.bytes ++ more, lastModified := now }) fun _ => rfl]
  intro f hf
  simpa [hf] using Ne.symm h

theorem content_delete_other (hk : Keyed File.name files) (h : name ≠ other) :
    content name (delete other files) = content name files := by
  unfold content delete
  rw [lookup_filter _ hk]
  intro f hf
  simpa [(lookup_eq_some hf).2] using h

theorem content_delete_self : content name (delete name files) = none := by
  unfold content delete
  rw [map_eq_none_iff, lookup_eq_none]
  intro f hf
  simpa using (List.mem_filter.1 hf).2

theorem map_name_delete : (delete name files).map File.name = (files.map File.name).filter (· ≠ name) := by
  rw [List.filter_map]
  rfl

/-- What is deleted is taken off the total. -/
theorem totalSize_delete (hk : Keyed File.name files) (name : String) :
    totalSize files = totalSize (delete name files) + size name files := by
  induction files with
  | nil => rfl
  | cons f files ih =>
    have hk' : Keyed File.name files := (List.nodup_cons.1 hk).2
    by_cases hf : f.name = name
    · have hrest : delete name files = files := by
        rw [delete, List.filter_eq_self]
        intro g hg
        have hne : g.name ≠ f.name := fun h =>
          (List.nodup_cons.1 hk).1 (h ▸ List.mem_map_of_mem hg)
        simpa [hf] using hne
      have hsize : size name (f :: files) = f.bytes.length := by
        simp [size, content, lookup, hf]
      have hdelete : delete name (f :: files) = delete name files := by simp [delete, hf]
      rw [hsize, hdelete, hrest, Nat.add_comm]
      rfl
    · have hsize : size name (f :: files) = size name files := by
        simp [size, content, lookup, hf]
      have hdelete : delete name (f :: files) = f :: delete name files := by simp [delete, hf]
      have htotal : ∀ gs, totalSize (f :: gs) = f.bytes.length + totalSize gs := fun _ => rfl
      rw [hsize, hdelete, htotal, htotal, ih hk', Nat.add_assoc]

theorem sortKey_of_mem (hk : Keyed File.name files) {f : File} (hf : f ∈ files) :
    sortKey [] files f.name = f.lastModified := by
  have hl := hk.lookup_iff.2 ⟨hf, rfl⟩
  simp [sortKey, hl]

theorem sortKey_delete_other (hk : Keyed File.name files) (h : name ≠ other) :
    sortKey [] (delete other files) name = sortKey [] files name := by
  unfold sortKey delete
  rw [lookup_filter _ hk]
  intro f hf
  simpa [(lookup_eq_some hf).2] using h

end

end Web4BlobCache
