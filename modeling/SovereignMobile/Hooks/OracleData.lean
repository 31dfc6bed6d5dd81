import Mathlib.Data.List.Basic
import Mathlib.Logic.Function.Basic
import SovereignMobile.EventLoop.Sequential

/-! # Oracle data

`useOracleData.ts` shows the value of a key: what was stored under it, until the key's fetcher has
answered, and what the fetcher answers then, once in each interval. Callbacks capture the key of a render;
the fetcher is in a ref, so that they call the fetcher of the last one. -/

namespace OracleData

open EventLoop List Option Function

/-- A value, and the key whose fetcher has produced it. -/
structure Produced (K T : Type) where
  key : K
  value : T
  deriving DecidableEq

/-! ## The cache -/

/-- What `JSON.parse` makes of a stored text; `fetchedAt` may be no number. -/
structure CacheEnvelope (T : Type) where
  v : Nat
  fetchedAt : Option Nat
  data : T
  deriving DecidableEq

/-- The entry with the time at which it was stored. -/
def readCache {T : Type} : Option (CacheEnvelope T) → Option (Nat × T)
  | some ⟨1, some fetchedAt, data⟩ => some (fetchedAt, data)
  | _ => none

def writeCache {T : Type} (now : Nat) (data : T) : CacheEnvelope T :=
  ⟨1, some now, data⟩

theorem readCache_mem {T : Type} {raw : Option (CacheEnvelope T)} {entry : Nat × T}
    (h : readCache raw = some entry) : ∃ envelope, raw = some envelope ∧ envelope.data = entry.2 := by
  unfold readCache at h
  split at h
  · cases h
    exact ⟨_, rfl, rfl⟩
  · simp at h

/-! ## Callbacks -/

/-- `useCallback(.., [intervalMs])`. Its `runFetch` is the one of the render that has made it. -/
structure ScheduleNext (K : Type) where
  intervalMs : Nat
  cacheKey : K
  deriving DecidableEq

/-- `useCallback(.., [cacheKey, scheduleNext])` -/
structure RunFetch (K : Type) where
  cacheKey : K
  scheduleNext : ScheduleNext K
  deriving DecidableEq

def ScheduleNext.runFetch {K : Type} (scheduleNext : ScheduleNext K) : RunFetch K :=
  ⟨scheduleNext.cacheKey, scheduleNext⟩

structure Render (K D : Type) where
  cacheKey : K
  deps : D
  runFetch : RunFetch K

def Render.first {K D : Type} (cacheKey : K) (intervalMs : Nat) (deps : D) : Render K D :=
  ⟨cacheKey, deps, (ScheduleNext.mk intervalMs cacheKey).runFetch⟩

def Render.next {K D : Type} (last : Render K D) (cacheKey : K) (intervalMs : Nat) (deps : D) : Render K D :=
  ⟨cacheKey, deps, cacheKey,
    if intervalMs = last.runFetch.scheduleNext.intervalMs then last.runFetch.scheduleNext
    else ⟨intervalMs, cacheKey⟩⟩

/-! ## The component -/

/-- A `runFetch` that is waiting for the fetcher of a key. -/
structure Fetch (K : Type) where
  fetcher : K
  runFetch : RunFetch K
  deriving DecidableEq

/-- A `readCache` that is waiting, and what it returns once `getItem` has answered. -/
structure Read (K T : Type) where
  key : K
  cancelled : Bool
  entry : Option (Option (Nat × Produced K T))
  deriving DecidableEq

structure Timer (K : Type) where
  id : Nat
  due : Nat
  runFetch : RunFetch K
  deriving DecidableEq

/-- `data`, and when it was fetched; none where it was read from disk. -/
structure Shown (K T : Type) where
  produced : Produced K T
  fetchedAt : Option Nat
  deriving DecidableEq

inductive Caught where
  | error (message : String)
  | other

def Caught.normalized : Caught → String
  | .error message => message
  | .other => "Oracle fetch failed"

/-- `current` is the last of the `renders`, `writes` the `setItem` calls that have not been performed.
    `replaced` is the history of what a value from disk has replaced: when that was fetched, and when the
    value was stored. -/
structure State (K T D : Type) where
  current : Render K D
  renders : List (Render K D)
  fetcherRef : K
  mountedRef : Bool
  intervalRef : Option Nat
  timers : List (Timer K)
  nextTimer : Nat
  now : Nat
  fetches : List (Fetch K)
  reads : List (Read K T)
  writes : List (K × CacheEnvelope (Produced K T))
  storage : K → Option (CacheEnvelope (Produced K T))
  data : Option (Shown K T)
  loading : Bool
  error : Option String
  stale : Bool
  lastFetchedAt : Option Nat
  nextRefetchAt : Option Nat
  replaced : List (Nat × Nat)

inductive Event (K T D : Type) where
  | render (cacheKey : K) (intervalMs : Nat) (deps : D)
  | unmount
  | time (ms : Nat)
  | timer (i : Nat)
  | retry (render : Nat)
  | fetched (i : Nat) (result : Except Caught T)
  | getItem (i : Nat) (ok : Bool)
  | hydrate (i : Nat)
  | setItem (ok : Bool)

section
variable {K T D : Type}

namespace State

def clearTimer (s : State K T D) : State K T D :=
  { s with timers := s.timers.filter fun t => some t.id ≠ s.intervalRef, intervalRef := none }

def scheduleNext (s : State K T D) (scheduleNext : ScheduleNext K) : State K T D :=
  let s := s.clearTimer
  let due := s.now + scheduleNext.intervalMs
  { s with
    nextRefetchAt := some due
    intervalRef := some s.nextTimer
    nextTimer := s.nextTimer + 1
    timers := s.timers ++ [⟨s.nextTimer, due, scheduleNext.runFetch⟩] }

def runFetch (s : State K T D) (runFetch : RunFetch K) : State K T D :=
  { s with loading := true, fetches := s.fetches ++ [⟨s.fetcherRef, runFetch⟩] }

/-- Nothing is shown, and the cache is read. -/
def reset (s : State K T D) : State K T D :=
  { s with
    data := none
    loading := true
    error := none
    stale := true
    lastFetchedAt := none
    reads := s.reads ++ [⟨s.current.cacheKey, false, none⟩] }

/-- The effect for `[cacheKey, ...deps]`. -/
def effect (s : State K T D) : State K T D :=
  s.reset.runFetch s.current.runFetch

/-- What the effect returns. -/
def cleanup (s : State K T D) : State K T D :=
  let s : State K T D := { s with reads := s.reads.map fun read => { read with cancelled := true } }
  s.clearTimer

/-- A render is followed by its effects, which set the state anew, before anything else happens. -/
def render [DecidableEq K] [DecidableEq D] (s : State K T D) (cacheKey : K) (intervalMs : Nat) (deps : D) : State K T D :=
  if s.mountedRef then
    let render := s.current.next cacheKey intervalMs deps
    let rendered := { s with current := render, renders := s.renders ++ [render], fetcherRef := cacheKey }
    if cacheKey = s.current.cacheKey ∧ deps = s.current.deps then rendered else rendered.cleanup.effect
  else s

def unmount (s : State K T D) : State K T D :=
  { s with mountedRef := false }.cleanup

def timer (s : State K T D) (i : Nat) : State K T D :=
  match s.timers[i]? with
  | none => s
  | some t => if t.due ≤ s.now then { s with timers := s.timers.eraseIdx i }.runFetch t.runFetch else s

def retry (s : State K T D) (i : Nat) : State K T D :=
  match s.renders[i]? with
  | none => s
  | some render => s.runFetch render.runFetch

def succeeded (s : State K T D) (fetch : Fetch K) (result : T) : State K T D :=
  { s with
    data := some ⟨⟨fetch.fetcher, result⟩, some s.now⟩
    error := none
    stale := false
    lastFetchedAt := some s.now
    writes := s.writes ++ [(fetch.runFetch.cacheKey, writeCache s.now ⟨fetch.fetcher, result⟩)] }

def failed (s : State K T D) (caught : Caught) : State K T D :=
  { s with error := some caught.normalized, stale := true }

/-- `runFetch` after its `await`. -/
def fetched (s : State K T D) (i : Nat) (result : Except Caught T) : State K T D :=
  match s.fetches[i]? with
  | none => s
  | some fetch =>
    let s := { s with fetches := s.fetches.eraseIdx i }
    if s.mountedRef then
      let s := match result with
        | .ok result => s.succeeded fetch result
        | .error caught => s.failed caught
      { s with loading := false }.scheduleNext fetch.runFetch.scheduleNext
    else s

def getItem (s : State K T D) (i : Nat) (ok : Bool) : State K T D :=
  match s.reads[i]? with
  | some ⟨key, cancelled, none⟩ =>
    { s with reads :=
        s.reads.set i ⟨key, cancelled, some (if ok then readCache (s.storage key) else none)⟩ }
  | _ => s

/-- What `readCache` is followed by. -/
def hydrate (s : State K T D) (i : Nat) : State K T D :=
  match s.reads[i]? with
  | some ⟨_, cancelled, some entry⟩ =>
    let s := { s with reads := s.reads.eraseIdx i }
    if cancelled || !s.mountedRef then s
    else match entry with
      | none => s
      | some (fetchedAt, data) =>
        { s with
          data := some ⟨data, none⟩
          lastFetchedAt := some fetchedAt
          replaced := match s.data with
            | some ⟨_, some at'⟩ => s.replaced ++ [(at', fetchedAt)]
            | _ => s.replaced }
  | _ => s

/-- Writes are performed in the order of the calls; an error is ignored. -/
def setItem [DecidableEq K] (s : State K T D) (ok : Bool) : State K T D :=
  match s.writes with
  | [] => s
  | (key, envelope) :: writes =>
    { s with
      writes := writes
      storage := if ok then Function.update s.storage key (some envelope) else s.storage }

def step [DecidableEq K] [DecidableEq D] (s : State K T D) : Event K T D → State K T D
  | .render cacheKey intervalMs deps => s.render cacheKey intervalMs deps
  | .unmount => s.unmount
  | .time ms => { s with now := s.now + ms }
  | .timer i => s.timer i
  | .retry i => s.retry i
  | .fetched i result => s.fetched i result
  | .getItem i ok => s.getItem i ok
  | .hydrate i => s.hydrate i
  | .setItem ok => s.setItem ok

end State

/-- What is stored when the component is mounted counts as produced by the fetcher of its key. -/
def mounted (storage : K → Option (CacheEnvelope T)) (now : Nat) (cacheKey : K) (intervalMs : Nat)
    (deps : D) : State K T D :=
  let render := Render.first cacheKey intervalMs deps
  State.effect
    { current := render
      renders := [render]
      fetcherRef := cacheKey
      mountedRef := true
      intervalRef := none
      timers := []
      nextTimer := 0
      now := now
      fetches := []
      reads := []
      writes := []
      storage key := (storage key).map fun e => ⟨e.v, e.fetchedAt, key, e.data⟩
      data := none
      loading := true
      error := none
      stale := true
      lastFetchedAt := none
      nextRefetchAt := none
      replaced := [] }

/-! ## Data belongs to its key -/

structure BelongsToKey (s : State K T D) : Prop where
  shown : ∀ d, s.data = some d → d.produced.key = s.current.cacheKey
  written : ∀ w ∈ s.writes, w.2.data.key = w.1
  stored : ∀ key envelope, s.storage key = some envelope → envelope.data.key = key
  newest : ∀ p ∈ s.replaced, p.1 ≤ p.2
  stale : s.stale = false → ∃ d, s.data = some d ∧ d.fetchedAt.isSome ∧
    d.produced.key = s.current.cacheKey
  timer : s.timers.length ≤ 1

/-- A fetch of a mounted component succeeds under the key of its fetcher, in a `runFetch` of this key. An
    entry is shown where `stale` is set, and not in place of what was fetched after it was stored. -/
def Condition (s : State K T D) : Event K T D → Prop
  | .fetched i (.ok _) => s.mountedRef = true → ∀ fetch, s.fetches[i]? = some fetch →
      fetch.fetcher = s.current.cacheKey ∧ fetch.fetcher = fetch.runFetch.cacheKey
  | .hydrate i => s.mountedRef = true → ∀ key fetchedAt data,
      s.reads[i]? = some ⟨key, false, some (some (fetchedAt, data))⟩ →
      s.stale = true ∧ ∀ produced at', s.data = some ⟨produced, some at'⟩ → at' ≤ fetchedAt
  | _ => True

/-! ## What each event keeps -/

/-- What depends neither on the key nor on what is shown. -/
structure Stored (writes : List (K × CacheEnvelope (Produced K T)))
    (storage : K → Option (CacheEnvelope (Produced K T))) (reads : List (Read K T))
    (replaced : List (Nat × Nat)) : Prop where
  written : ∀ w ∈ writes, w.2.data.key = w.1
  stored : ∀ key envelope, storage key = some envelope → envelope.data.key = key
  read : ∀ read ∈ reads, ∀ entry, read.entry = some (some entry) → entry.2.key = read.key
  newest : ∀ p ∈ replaced, p.1 ≤ p.2

/-- The pending timer is the one in `intervalRef`. -/
structure Scheduled (timers : List (Timer K)) (intervalRef : Option Nat) : Prop where
  one : timers.length ≤ 1
  pending : ∀ t ∈ timers, intervalRef = some t.id

structure Inv (s : State K T D) : Prop where
  stored : Stored s.writes s.storage s.reads s.replaced
  scheduled : Scheduled s.timers s.intervalRef
  shown : ∀ d, s.data = some d → d.produced.key = s.current.cacheKey
  stale : s.stale = false → ∃ d, s.data = some d ∧ d.fetchedAt.isSome
  current : ∀ read ∈ s.reads, s.mountedRef = true → read.cancelled = false → read.key = s.current.cacheKey

variable {s : State K T D}

theorem Inv.belongsToKey (h : Inv s) : BelongsToKey s where
  shown := h.shown
  written := h.stored.written
  stored := h.stored.stored
  newest := h.stored.newest
  stale hstale := by
    obtain ⟨d, hdata, hfetched⟩ := h.stale hstale
    exact ⟨d, hdata, hfetched, h.shown d hdata⟩
  timer := h.scheduled.one

theorem Scheduled.nil (intervalRef : Option Nat) : Scheduled ([] : List (Timer K)) intervalRef :=
  ⟨Nat.zero_le 1, fun _ ht => absurd ht not_mem_nil⟩

theorem clearTimer_timers (h : Scheduled s.timers s.intervalRef) : s.clearTimer.timers = [] := by
  refine filter_eq_nil_iff.2 fun t ht => ?_
  simp [h.pending t ht]

theorem Inv.runFetch (h : Inv s) (runFetch : RunFetch K) : Inv (s.runFetch runFetch) :=
  ⟨h.stored, h.scheduled, h.shown, h.stale, h.current⟩

theorem Inv.scheduleNext (h : Inv s) (scheduleNext : ScheduleNext K) :
    Inv (s.scheduleNext scheduleNext) := by
  refine ⟨h.stored, ⟨?_, fun t ht => ?_⟩, h.shown, h.stale, h.current⟩
  · simp [State.scheduleNext, clearTimer_timers h.scheduled]
  simp only [State.scheduleNext, clearTimer_timers h.scheduled, nil_append, mem_singleton] at ht
  rw [ht]
  rfl

/-- All reads of earlier effects are cancelled, so the one that goes on is the one of the current key. -/
theorem Stored.effect (h : Stored s.writes s.storage s.reads s.replaced)
    (hscheduled : Scheduled s.timers s.intervalRef) (hreads : ∀ read ∈ s.reads, read.cancelled = true) :
    Inv s.effect := by
  have hreset : Inv s.reset := by
    refine ⟨⟨h.written, h.stored, ?_, h.newest⟩, hscheduled, ?_, ?_, ?_⟩
    · intro read hread entry hentry
      rcases mem_append.1 hread with hread | hread
      · exact h.read read hread entry hentry
      · rw [mem_singleton.1 hread] at hentry
        cases hentry
    · intro d hd
      cases hd
    · intro hs
      cases hs
    intro read hread _ hcancelled
    rcases mem_append.1 hread with hread | hread
    · rw [hreads read hread] at hcancelled
      cases hcancelled
    · rw [mem_singleton.1 hread]
      rfl
  exact hreset.runFetch s.current.runFetch

theorem Stored.cleanup (h : Stored s.writes s.storage s.reads s.replaced) :
    Stored s.cleanup.writes s.cleanup.storage s.cleanup.reads s.cleanup.replaced := by
  refine ⟨h.written, h.stored, fun read hread entry hentry => ?_, h.newest⟩
  obtain ⟨before, hbefore, rfl⟩ := mem_map.1 hread
  exact h.read before hbefore entry hentry

theorem Scheduled.cleanup (h : Scheduled s.timers s.intervalRef) :
    Scheduled s.cleanup.timers s.cleanup.intervalRef := by
  have htimers : s.cleanup.timers = [] := clearTimer_timers h
  rw [htimers]
  exact Scheduled.nil _

theorem Inv.unmount (h : Inv s) : Inv s.unmount := by
  have hstored : Stored s.unmount.writes s.unmount.storage s.unmount.reads s.unmount.replaced :=
    h.stored.cleanup
  have hscheduled : Scheduled s.unmount.timers s.unmount.intervalRef := h.scheduled.cleanup
  refine ⟨hstored, hscheduled, h.shown, h.stale, fun _ _ hmounted => ?_⟩
  cases hmounted

theorem Inv.timer (h : Inv s) (i : Nat) : Inv (s.timer i) := by
  unfold State.timer
  split
  · exact h
  split
  · have hs : Inv { s with timers := s.timers.eraseIdx i } := by
      refine ⟨h.stored, ⟨?_, fun t ht => ?_⟩, h.shown, h.stale, h.current⟩
      · exact Nat.le_trans (length_eraseIdx_le s.timers i) h.scheduled.one
      · exact h.scheduled.pending t (mem_of_mem_eraseIdx ht)
    exact hs.runFetch _
  · exact h

theorem Inv.retry (h : Inv s) (i : Nat) : Inv (s.retry i) := by
  unfold State.retry
  split
  · exact h
  · exact h.runFetch _

theorem Inv.failed (h : Inv s) (caught : Caught) : Inv (s.failed caught) := by
  refine ⟨h.stored, h.scheduled, h.shown, fun hstale => ?_, h.current⟩
  cases hstale

theorem Inv.succeeded (h : Inv s) {fetch : Fetch K} (hcurrent : fetch.fetcher = s.current.cacheKey)
    (hown : fetch.fetcher = fetch.runFetch.cacheKey) (result : T) : Inv (s.succeeded fetch result) := by
  refine ⟨⟨fun w hw => ?_, h.stored.stored, h.stored.read, h.stored.newest⟩, h.scheduled, fun d hd => ?_,
    fun _ => ⟨_, rfl, rfl⟩, h.current⟩
  · rcases mem_append.1 hw with hw | hw
    · exact h.stored.written w hw
    · rw [mem_singleton.1 hw]
      exact hown
  · rw [← some.inj hd]
    exact hcurrent

variable {i : Nat} {result : Except Caught T} {e : Event K T D}

theorem Inv.fetched (h : Inv s) (hc : Condition s (.fetched i result)) :
    Inv (s.fetched i result) := by
  unfold State.fetched
  split
  · exact h
  rename_i fetch hfetch
  have hs : Inv { s with fetches := s.fetches.eraseIdx i } :=
    ⟨h.stored, h.scheduled, h.shown, h.stale, h.current⟩
  dsimp only
  split
  · rename_i hmounted
    refine .scheduleNext ?_ _
    cases result with
    | ok result =>
      obtain ⟨hcurrent, hown⟩ := hc hmounted fetch hfetch
      have hs' := hs.succeeded hcurrent hown result
      exact ⟨hs'.stored, hs'.scheduled, hs'.shown, hs'.stale, hs'.current⟩
    | error caught =>
      have hs' := hs.failed caught
      exact ⟨hs'.stored, hs'.scheduled, hs'.shown, hs'.stale, hs'.current⟩
  · exact hs

theorem Inv.getItem (h : Inv s) (i : Nat) (ok : Bool) : Inv (s.getItem i ok) := by
  unfold State.getItem
  split
  · rename_i key cancelled hread
    refine ⟨⟨h.stored.written, h.stored.stored, fun read hmem entry hentry => ?_, h.stored.newest⟩,
      h.scheduled, h.shown, h.stale, fun read hmem => ?_⟩
    · rcases mem_or_eq_of_mem_set hmem with hmem | rfl
      · exact h.stored.read read hmem entry hentry
      cases ok with
      | false => cases hentry
      | true =>
        obtain ⟨envelope, hstored, hdata⟩ := readCache_mem (some.inj hentry)
        exact (congrArg Produced.key hdata).symm.trans (h.stored.stored key envelope hstored)
    · rcases mem_or_eq_of_mem_set hmem with hmem | rfl
      · exact h.current read hmem
      · exact h.current ⟨key, cancelled, none⟩ (mem_of_getElem? hread)
  · exact h

theorem Inv.hydrate (h : Inv s) (hc : Condition s (.hydrate i)) : Inv (s.hydrate i) := by
  unfold State.hydrate
  split
  · rename_i key cancelled entry hread
    have hs : Inv { s with reads := s.reads.eraseIdx i } :=
      ⟨⟨h.stored.written, h.stored.stored,
        fun read hmem => h.stored.read read (mem_of_mem_eraseIdx hmem), h.stored.newest⟩,
        h.scheduled, h.shown, h.stale, fun read hmem => h.current read (mem_of_mem_eraseIdx hmem)⟩
    dsimp only
    split
    · exact hs
    rename_i hgoes
    obtain ⟨rfl, hmounted⟩ : cancelled = false ∧ s.mountedRef = true := by simpa using hgoes
    cases entry with
    | none => exact hs
    | some entry =>
      obtain ⟨fetchedAt, data⟩ := entry
      obtain ⟨hstale, hnewest⟩ := hc hmounted key fetchedAt data hread
      have hkey : key = s.current.cacheKey := h.current _ (mem_of_getElem? hread) hmounted rfl
      refine ⟨⟨hs.stored.written, hs.stored.stored, hs.stored.read, ?_⟩, hs.scheduled, ?_, ?_, hs.current⟩
      · intro p hp
        dsimp only at hp
        split at hp
        · rename_i produced at' hdata
          rcases mem_append.1 hp with hp | hp
          · exact h.stored.newest p hp
          · rw [mem_singleton.1 hp]
            exact hnewest produced at' hdata
        · exact h.stored.newest p hp
      · intro d hd
        rw [← some.inj hd]
        exact (h.stored.read _ (mem_of_getElem? hread) _ rfl).trans hkey
      · intro hfresh
        exact nomatch hstale.symm.trans hfresh
  · exact h

theorem Inv.setItem [DecidableEq K] (h : Inv s) (ok : Bool) : Inv (s.setItem ok) := by
  unfold State.setItem
  split
  · exact h
  rename_i key envelope writes hwrites
  have hwritten : ∀ w ∈ (key, envelope) :: writes, w.2.data.key = w.1 := hwrites ▸ h.stored.written
  refine ⟨⟨fun w hw => hwritten w (mem_cons_of_mem _ hw), fun k e he => ?_, h.stored.read,
    h.stored.newest⟩, h.scheduled, h.shown, h.stale, h.current⟩
  cases ok with
  | false => exact h.stored.stored k e he
  | true =>
    by_cases hk : k = key
    · rw [hk] at he ⊢
      obtain rfl := some.inj ((update_self key _ _).symm.trans he)
      exact hwritten _ mem_cons_self
    · exact h.stored.stored k e ((update_of_ne hk _ _).symm.trans he)

theorem Inv.render [DecidableEq K] [DecidableEq D] (h : Inv s) (cacheKey : K) (intervalMs : Nat) (deps : D) :
    Inv (s.render cacheKey intervalMs deps) := by
  unfold State.render
  split
  · dsimp only
    split
    · rename_i hsame
      refine ⟨h.stored, h.scheduled, fun d hd => ?_, h.stale, fun read hread hmounted hcancelled => ?_⟩
      · exact (h.shown d hd).trans hsame.1.symm
      · exact (h.current read hread hmounted hcancelled).trans hsame.1.symm
    · refine Stored.effect (Stored.cleanup h.stored) (Scheduled.cleanup h.scheduled) fun read hread => ?_
      obtain ⟨before, -, rfl⟩ := mem_map.1 hread
      rfl
  · exact h

theorem Inv.step [DecidableEq K] [DecidableEq D] (h : Inv s) (hc : Condition s e) :
    Inv (s.step e) := by
  cases e with
  | render cacheKey intervalMs deps => exact h.render cacheKey intervalMs deps
  | unmount => exact h.unmount
  | time ms => exact ⟨h.stored, h.scheduled, h.shown, h.stale, h.current⟩
  | timer i => exact h.timer i
  | retry i => exact h.retry i
  | fetched i result => exact h.fetched hc
  | getItem i ok => exact h.getItem i ok
  | hydrate i => exact h.hydrate hc
  | setItem ok => exact h.setItem ok

theorem Inv.mounted (storage : K → Option (CacheEnvelope T)) (now : Nat) (cacheKey : K)
    (intervalMs : Nat) (deps : D) : Inv (mounted storage now cacheKey intervalMs deps) := by
  refine Stored.effect ⟨?_, fun key envelope hstored => ?_, ?_, ?_⟩ (Scheduled.nil none) ?_
  · exact fun w hw => absurd hw not_mem_nil
  · obtain ⟨e, -, rfl⟩ := map_eq_some_iff.1 hstored
    rfl
  · exact fun read hread => absurd hread not_mem_nil
  · exact fun p hp => absurd hp not_mem_nil
  · exact fun read hread => absurd hread not_mem_nil

/-! ## What the condition is needed for -/

theorem condition_of_fetched (h : BelongsToKey (s.fetched i result)) :
    Condition s (.fetched i result) := by
  cases result with
  | error caught => exact trivial
  | ok result =>
    intro hmounted fetch hfetch
    simp only [State.fetched, hfetch, hmounted] at h
    constructor
    · exact h.shown _ rfl
    · exact h.written _ (mem_append_right _ mem_cons_self)

theorem condition_of_hydrate (h : BelongsToKey (s.hydrate i)) : Condition s (.hydrate i) := by
  intro hmounted key fetchedAt data hread
  have hgoes : (false || !s.mountedRef) = false := by rw [hmounted]; rfl
  simp only [State.hydrate, hread, hgoes] at h
  constructor
  · cases hstale : s.stale with
    | true => rfl
    | false =>
      -- what is shown now was not fetched
      obtain ⟨d, hdata, hfetched, -⟩ := h.stale hstale
      cases hdata
      cases hfetched
  · intro produced at' hdata
    have hnewest := h.newest
    simp only [hdata] at hnewest
    exact hnewest _ (mem_append_right _ mem_cons_self)

variable [DecidableEq K] [DecidableEq D]

theorem condition_of_step (h : BelongsToKey (s.step e)) : Condition s e := by
  cases e with
  | fetched i result => exact condition_of_fetched h
  | hydrate i => exact condition_of_hydrate h
  | _ => exact trivial

/-- **Data belongs to its key** throughout a run exactly if its fetches and reads meet the condition. -/
theorem data_belongs_to_key_iff (storage : K → Option (CacheEnvelope T)) (now : Nat) (cacheKey : K)
    (intervalMs : Nat) (deps : D) (events : List (Event K T D)) :
    HoldsThroughout State.step BelongsToKey (mounted storage now cacheKey intervalMs deps) events ↔
      StepsMeet State.step Condition (mounted storage now cacheKey intervalMs deps) events := by
  have hmounted := Inv.mounted storage now cacheKey intervalMs deps
  refine holdsThroughout_iff_of_kept (fun s e hi _ => ?_) events _ hmounted hmounted.belongsToKey
  exact ⟨⟨condition_of_step, fun hc => (hi.step hc).belongsToKey⟩, hi.step⟩

end

/-! ## The prices of two pairs -/

/-- The price of SOV/USD is stored. -/
def start : State String Nat Unit :=
  mounted (fun key => if key = "price:SOV/USD" then some ⟨1, some 0, 3⟩ else none) 10 "price:SOV/USD"
    60000 ()

/-- The price of the first pair arrives when the second one has been chosen. -/
def lateFetch : List (Event String Nat Unit) :=
  [.render "price:CBE/USD" 60000 (), .fetched 0 (.ok 5)]

/-- The timer that is set for the second pair calls the first render's `runFetch`. -/
def firstTimer : List (Event String Nat Unit) :=
  [.fetched 0 (.ok 5), .render "price:CBE/USD" 60000 (), .fetched 0 (.ok 7), .time 60000, .timer 0,
    .fetched 0 (.ok 8)]

/-- The price has been fetched when the stored one is read. -/
def slowRead : List (Event String Nat Unit) :=
  [.getItem 0 true, .fetched 0 (.ok 5), .hydrate 0]

/-- The price of SOV/USD is shown as the one of CBE/USD, the price of CBE/USD is stored as the one of
    SOV/USD, and a stored price replaces a newer one, with `stale` not set. -/
theorem shown_under_other_key :
    ¬HoldsThroughout State.step BelongsToKey start lateFetch ∧
    ¬HoldsThroughout State.step BelongsToKey start firstTimer ∧
    ¬HoldsThroughout State.step BelongsToKey start slowRead := by
  refine ⟨fun h => ?_, fun h => ?_, fun h => ?_⟩
  · exact nomatch h.last.shown _ rfl
  · exact absurd (h.last.written ("price:SOV/USD", ⟨1, some 60010, "price:CBE/USD", 8⟩) (by decide))
      (by decide)
  · exact nomatch h.last.newest (10, 0) (by decide)

end OracleData
