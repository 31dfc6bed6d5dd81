import Mathlib.Data.List.Forall2

/-! # Runs of calls that do not overlap

A component whose calls run one after the other is a `step` function on its state. A property that
is meant to hold between any two calls of a run holds there exactly when each call meets the
condition under which it carries the property over (`holdsThroughout_iff`). Two runs are compared call by
call: the calls are related, and so are the states, before and after. -/

namespace EventLoop

variable {σ κ : Type}

/-- `P` holds before the first call, between any two calls and after the last one. -/
def HoldsThroughout (step : σ → κ → σ) (P : σ → Prop) : σ → List κ → Prop
  | s, [] => P s
  | s, c :: cs => P s ∧ HoldsThroughout step P (step s c) cs

/-- Each call is made in a state in which it meets `A`. -/
def StepsMeet (step : σ → κ → σ) (A : σ → κ → Prop) : σ → List κ → Prop
  | _, [] => True
  | s, c :: cs => A s c ∧ StepsMeet step A (step s c) cs

variable {step : σ → κ → σ} {P I : σ → Prop} {A B : σ → κ → Prop}

instance decidableStepsMeet [∀ s c, Decidable (A s c)] :
    ∀ s cs, Decidable (StepsMeet step A s cs)
  | _, [] => .isTrue trivial
  | s, c :: cs =>
    have := decidableStepsMeet (step s c) cs
    inferInstanceAs (Decidable (A s c ∧ StepsMeet step A (step s c) cs))

variable {s : σ} {cs : List κ}

theorem HoldsThroughout.head (h : HoldsThroughout step P s cs) : P s := by
  cases cs with
  | nil => exact h
  | cons c cs => exact h.1

theorem HoldsThroughout.last (h : HoldsThroughout step P s cs) : P (cs.foldl step s) := by
  induction cs generalizing s with
  | nil => exact h
  | cons c cs ih => exact ih h.2

/-- Where a call that is made as `B` has it carries `P` over exactly if it meets `A`, in all states with
    the invariant `I`, then in a run of such calls `P` holds throughout exactly if all of them meet
    `A`. The invariant may depend on `P`. -/
theorem holdsThroughout_iff_of (hI : ∀ s c, I s → P s → B s c → I (step s c))
    (hA : ∀ s c, I s → P s → B s c → (P (step s c) ↔ A s c)) (cs : List κ) :
    ∀ s, I s → P s → StepsMeet step B s cs →
      (HoldsThroughout step P s cs ↔ StepsMeet step A s cs) := by
  induction cs with
  | nil =>
    intro s _ hp _
    exact ⟨fun _ => trivial, fun _ => hp⟩
  | cons c cs ih =>
    intro s hi hp hb
    constructor
    · rintro ⟨_, h⟩
      exact ⟨(hA s c hi hp hb.1).1 h.head, (ih _ (hI s c hi hp hb.1) h.head hb.2).1 h⟩
    · rintro ⟨ha, h⟩
      have hp' : P (step s c) := (hA s c hi hp hb.1).2 ha
      exact ⟨hp, (ih _ (hI s c hi hp hb.1) hp' hb.2).2 h⟩

theorem stepsMeet_true (cs : List κ) : ∀ s, StepsMeet step (fun _ _ => True) s cs := by
  induction cs with
  | nil => exact fun _ => trivial
  | cons c cs ih => exact fun s => ⟨trivial, ih _⟩

/-- Where a call carries `P` over exactly if it meets `A`, in all states with the invariant `I`,
    `P` holds throughout a run exactly if all its calls meet `A`. -/
theorem holdsThroughout_iff (hI : ∀ s c, I s → I (step s c))
    (hA : ∀ s c, I s → P s → (P (step s c) ↔ A s c)) (cs : List κ) (s : σ) (hi : I s) (hp : P s) :
    HoldsThroughout step P s cs ↔ StepsMeet step A s cs :=
  holdsThroughout_iff_of (fun s c hi _ _ => hI s c hi) (fun s c hi hp _ => hA s c hi hp) cs s hi hp
    (stepsMeet_true cs s)

/-- Where a call carries `P` over exactly if it meets `A`, in all states with the invariant `I`, and the
    invariant is kept by the calls that meet `A`. -/
theorem holdsThroughout_iff_of_kept
    (h : ∀ s c, I s → P s → (P (step s c) ↔ A s c) ∧ (A s c → I (step s c))) (cs : List κ) :
    ∀ s, I s → P s → (HoldsThroughout step P s cs ↔ StepsMeet step A s cs) := by
  induction cs with
  | nil =>
    intro s _ hp
    exact ⟨fun _ => trivial, fun _ => hp⟩
  | cons c cs ih =>
    intro s hi hp
    obtain ⟨hiff, hkeeps⟩ := h s c hi hp
    constructor
    · rintro ⟨_, hrest⟩
      have ha := hiff.1 hrest.head
      exact ⟨ha, (ih _ (hkeeps ha) hrest.head).1 hrest⟩
    · rintro ⟨ha, hrest⟩
      exact ⟨hp, (ih _ (hkeeps ha) (hiff.2 ha)).2 hrest⟩

/-- Where a call carries `P` over and meets `B` exactly if it meets `A`, `P` holds throughout a run whose
    calls meet `B` exactly if they all meet `A`. -/
theorem holdsThroughout_and_stepsMeet_iff (hA : ∀ s c, P s → (P (step s c) ∧ B s c ↔ A s c))
    (cs : List κ) : ∀ s, P s →
      (HoldsThroughout step P s cs ∧ StepsMeet step B s cs ↔ StepsMeet step A s cs) := by
  induction cs with
  | nil =>
    intro s hp
    exact ⟨fun _ => trivial, fun _ => ⟨hp, trivial⟩⟩
  | cons c cs ih =>
    intro s hp
    constructor
    · rintro ⟨⟨_, h⟩, hb, hbs⟩
      exact ⟨(hA s c hp).1 ⟨h.head, hb⟩, (ih _ h.head).1 ⟨h, hbs⟩⟩
    rintro ⟨ha, has⟩
    obtain ⟨hp', hb⟩ := (hA s c hp).2 ha
    obtain ⟨h, hbs⟩ := (ih _ hp').2 has
    exact ⟨⟨hp, h⟩, hb, hbs⟩

/-! ## Conditions on runs -/

theorem stepsMeet_and (cs : List κ) : ∀ s, StepsMeet step (fun s c => A s c ∧ B s c) s cs ↔
      StepsMeet step A s cs ∧ StepsMeet step B s cs := by
  induction cs with
  | nil => exact fun _ => ⟨fun _ => ⟨trivial, trivial⟩, fun _ => trivial⟩
  | cons c cs ih =>
    intro s
    simp only [StepsMeet, ih]
    constructor
    · rintro ⟨⟨ha, hb⟩, hac, hbc⟩
      exact ⟨⟨ha, hac⟩, hb, hbc⟩
    · rintro ⟨⟨ha, hac⟩, hb, hbc⟩
      exact ⟨⟨ha, hb⟩, hac, hbc⟩

theorem stepsMeet_of_forall {A : κ → Prop} (h : ∀ c ∈ cs, A c) :
    ∀ s, StepsMeet step (fun _ c => A c) s cs := by
  induction cs with
  | nil => exact fun _ => trivial
  | cons c cs ih =>
    intro s
    exact ⟨h c List.mem_cons_self, ih (fun c' hc' => h c' (List.mem_cons_of_mem c hc')) _⟩

/-- Two conditions that agree in all states with the invariant `I` are met by the same runs. -/
theorem stepsMeet_congr (hI : ∀ s c, I s → I (step s c)) (h : ∀ s c, I s → (A s c ↔ B s c))
    (cs : List κ) : ∀ s, I s → (StepsMeet step A s cs ↔ StepsMeet step B s cs) := by
  induction cs with
  | nil => exact fun _ _ => .rfl
  | cons c cs ih =>
    intro s hi
    simp only [StepsMeet]
    rw [h s c hi, ih _ (hI s c hi)]

/-- What each step that meets `A` keeps holds throughout a run whose steps all meet `A`. -/
theorem StepsMeet.holdsThroughout (h : ∀ s c, I s → A s c → I (step s c)) (hp : ∀ s, I s → P s) :
    ∀ {s}, I s → StepsMeet step A s cs → HoldsThroughout step P s cs := by
  induction cs with
  | nil => exact fun hi _ => hp _ hi
  | cons c cs ih =>
    intro s hi hm
    exact ⟨hp s hi, ih (h s c hi hm.1) hm.2⟩

/-! ## Two runs -/

variable {R : σ → σ → Prop} {E : κ → κ → Prop}

/-- Related calls that meet `A` keep states related. -/
theorem StepsMeet.related {cs cs' : List κ} (h : List.Forall₂ E cs cs')
    (hstep : ∀ s s' c c', R s s' → E c c' → A s c → A s' c' → R (step s c) (step s' c')) :
    ∀ {s s' : σ}, R s s' → StepsMeet step A s cs → StepsMeet step A s' cs' →
      R (cs.foldl step s) (cs'.foldl step s') := by
  induction h with
  | nil => exact fun hs _ _ => hs
  | cons hc _ ih =>
    intro s s' hs hcs hcs'
    exact ih (hstep _ _ _ _ hs hc hcs.1 hcs'.1) hcs.2 hcs'.2

/-- A run of calls that meet `A`, and the run of what `f` makes of them. -/
theorem StepsMeet.map {f : κ → κ}
    (hstep : ∀ s s' c, R s s' → A s c → A s' (f c) ∧ R (step s c) (step s' (f c))) {cs : List κ} :
    ∀ {s s' : σ}, R s s' → StepsMeet step A s cs →
      StepsMeet step A s' (cs.map f) ∧ R (cs.foldl step s) ((cs.map f).foldl step s') := by
  induction cs with
  | nil => exact fun hs _ => ⟨trivial, hs⟩
  | cons c cs ih =>
    intro s s' hs hcs
    obtain ⟨hc, hs⟩ := hstep s s' c hs hcs.1
    obtain ⟨hcs', hs⟩ := ih hs hcs.2
    exact ⟨⟨hc, hcs'⟩, hs⟩

end EventLoop
