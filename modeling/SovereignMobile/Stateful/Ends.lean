/-! # Programs that throw and keep their state

`Prog ε S` is sequential code over a state `S` that an exception does not roll back. `Ends m s r s'` says
that `m`, started in `s`, ends with the result or exception `r` in `s'`; there is one rule for each way
to put programs together. A function with local variables runs over the state and these
(`withLocals`), and may call code that knows the state only. -/

namespace Stateful

abbrev Prog (ε S : Type) := ExceptT ε (StateM S)

variable {ε S σ α β : Type}

/-- `catch (e) {}` -/
def ignoring (m : Prog ε S Unit) : Prog ε S Unit := tryCatch m fun _ => pure ()

/-- A call that leaves the state alone. -/
def answer (r : Except ε α) : Prog ε S α := fun s => (r, s)

/-! ## Local variables -/

abbrev Local (ε σ S : Type) := Prog ε (σ × S)

instance : MonadLift (Prog ε S) (Local ε σ S) where
  monadLift m := fun s =>
    let (r, s') := m s.2
    (r, (s.1, s'))

def getLocal : Local ε σ S σ := fun s => (.ok s.1, s)

def setLocal (x : σ) : Local ε σ S Unit := fun s => (.ok (), (x, s.2))

/-- A function body with what its local variables start from. -/
def withLocals (x : σ) (m : Local ε σ S α) : Prog ε S α := fun s =>
  let (r, s') := m (x, s)
  (r, s'.2)

/-! ## How a program ends -/

def Ends (m : Prog ε S α) (s : S) (r : Except ε α) (s' : S) : Prop := m s = (r, s')

namespace Ends

variable {m : Prog ε S α} {f : α → Prog ε S β} {h : ε → Prog ε S α} {s s1 s2 : S} {a : α} {e : ε}
  {r : Except ε α} {r' : Except ε β} {x x' : σ}

theorem pure : Ends (.pure a : Prog ε S α) s (.ok a) s := rfl

theorem throw : Ends (MonadExcept.throw e : Prog ε S α) s (.error e) s := rfl

theorem answer {x : Except ε α} (h : x = r) : Ends (Stateful.answer x) s r s := h ▸ rfl

theorem run {m : StateM S α} : Ends (liftM m : Prog ε S α) s (.ok (m s).1) (m s).2 := rfl

theorem bind (hm : Ends m s (.ok a) s1) (hf : Ends (f a) s1 r' s2) : Ends (m >>= f) s r' s2 := by
  have hstep : (m >>= f) s = ExceptT.bindCont f (m s).1 (m s).2 := rfl
  rw [Ends, hstep, hm]
  exact hf

theorem bind_error (hm : Ends m s (.error e) s1) : Ends (m >>= f) s (.error e) s1 := by
  have hstep : (m >>= f) s = ExceptT.bindCont f (m s).1 (m s).2 := rfl
  rw [Ends, hstep, hm]
  rfl

theorem tryCatch (hm : Ends m s (.ok a) s1) : Ends (.tryCatch m h) s (.ok a) s1 := by
  have hstep : (.tryCatch m h : Prog ε S α) s = (match (m s).1 with
        | .ok a => (.pure (.ok a) : StateM S (Except ε α))
        | .error e => h e) (m s).2 := rfl
  rw [Ends, hstep, hm]
  rfl

theorem tryCatch_error (hm : Ends m s (.error e) s1) (hh : Ends (h e) s1 r s2) :
    Ends (.tryCatch m h) s r s2 := by
  have hstep : (.tryCatch m h : Prog ε S α) s = (match (m s).1 with
        | .ok a => (.pure (.ok a) : StateM S (Except ε α))
        | .error e => h e) (m s).2 := rfl
  rw [Ends, hstep, hm]
  exact hh

theorem ignoring {m : Prog ε S Unit} {r : Except ε Unit} (hm : Ends m s r s1) :
    Ends (Stateful.ignoring m) s (.ok ()) s1 := by
  cases r with
  | ok _ => exact tryCatch hm
  | error _ => exact tryCatch_error hm pure

theorem lift (hm : Ends m s r s1) : Ends (liftM m : Local ε σ S α) (x, s) r (x, s1) := by
  have hstep : (liftM m : Local ε σ S α) (x, s) = ((m s).1, (x, (m s).2)) := rfl
  rw [Ends, hstep, hm]

theorem getLocal : Ends (Stateful.getLocal : Local ε σ S σ) (x, s) (.ok x) (x, s) := rfl

theorem setLocal : Ends (Stateful.setLocal x' : Local ε σ S Unit) (x, s) (.ok ()) (x', s) := rfl

theorem withLocals {m : Local ε σ S α} (hm : Ends m (x, s) r (x', s1)) :
    Ends (Stateful.withLocals x m) s r s1 := by
  have hstep : Stateful.withLocals x m s = ((m (x, s)).1, (m (x, s)).2.2) := rfl
  rw [Ends, hstep, hm]

end Ends

end Stateful
