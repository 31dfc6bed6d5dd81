import Mathlib.Order.Basic
import SovereignMobile.EventLoop.Safety

/-! # What a program can do at all

A `Kind` says which operations and calls a program may use, given what it may find when it reads and
what its calls may answer. What a program knows (`W`) grows with what it reads and does. `Task.Only K w`
says of a program that it is of the kind if it knows `w`, the programs it forks included. The rules for
`Async.Only` follow the constructors of `Async`; `φ` is what they know of the value that a fragment
returns. A fact that the operations and calls of a kind keep is then an obligation met by every program
of the kind (`Spec.safe_of_only`). -/

namespace EventLoop

variable {M : Machine} {W : Type} [Preorder W] {α β : Type}

structure Kind (M : Machine) (W : Type) [Preorder W] where
  reads : W → M.State → Prop
  op : W → M.Op → Prop
  call : W → M.Call → Prop
  answers : W → (c : M.Call) → Except M.Err (M.Ret c) → Prop
  seen : W → M.State → W
  done : W → M.Op → W
  le_seen : ∀ w s, w ≤ seen w s
  le_done : ∀ w o, w ≤ done w o

/-- Where nothing need be known. -/
inductive Whatever where
  | whatever

instance : Preorder Whatever where
  le _ _ := True
  le_refl _ := trivial
  le_trans _ _ _ _ _ := trivial

/-- Any call, with any answer, and any read. -/
def Kind.ofOp (P : M.Op → Prop) : Kind M Whatever where
  reads _ _ := True
  op _ := P
  call _ _ := True
  answers _ _ _ := True
  seen _ _ := .whatever
  done _ _ := .whatever
  le_seen _ _ := trivial
  le_done _ _ := trivial

variable {K : Kind M W} {φ : α → Prop} {ψ : β → Prop}

def Task.Only (K : Kind M W) : W → Task M → Prop
  | _, .done => True
  | w, .read k => ∀ s, K.reads w s → (k s).Only K (K.seen w s)
  | w, .op o k => K.op w o ∧ k.Only K (K.done w o)
  | w, .await c k => K.call w c ∧ ∀ r, K.answers w c r → (k r).Only K w
  | w, .fork child k => child.Only K w ∧ k.Only K w

/-- Up to what is done with the outcome, by someone who knows no less. -/
def Async.Only (K : Kind M W) (φ : α → Prop) (m : Async M α) : Prop :=
  ∀ w (k : Except M.Err α → Task M),
    (∀ r w', w ≤ w' → (∀ a, r = .ok a → φ a) → (k r).Only K w') → (m.run k).Only K w

namespace Async.Only

theorem pure {a : α} (h : φ a) : Async.Only K φ (Pure.pure a : Async M α) :=
  fun w _ hk => hk _ w (le_refl w) fun _ he => Except.ok.inj he ▸ h

theorem throw (e : M.Err) : Async.Only K φ (Async.throw e : Async M α) :=
  fun w _ hk => hk _ w (le_refl w) fun _ he => nomatch he

variable {m : Async M α}

theorem mono {φ' : α → Prop} (h : m.Only K φ) (hφ : ∀ a, φ a → φ' a) : m.Only K φ' :=
  fun w k hk => h w k fun r w' hw hr => hk r w' hw fun a ha => hφ a (hr a ha)

theorem settle {f : Except M.Err α → Async M β} (hm : m.Only K φ)
    (hf : ∀ r, (∀ a, r = .ok a → φ a) → (f r).Only K ψ) : (Async.settle m f).Only K ψ := by
  intro w k hk
  refine hm w _ fun r w1 hw1 hr => ?_
  exact hf r hr w1 k fun r' w2 hw2 => hk r' w2 (le_trans hw1 hw2)

theorem bind {f : α → Async M β} (hm : m.Only K φ) (hf : ∀ a, φ a → (f a).Only K ψ) :
    (m >>= f).Only K ψ := by
  intro w k hk
  refine hm w _ fun r w1 hw1 hr => ?_
  cases r with
  | ok a => exact hf a (hr a rfl) w1 k fun r' w2 hw2 => hk r' w2 (le_trans hw1 hw2)
  | error e => exact hk _ w1 hw1 fun _ he => nomatch he

theorem tryCatch {f : M.Err → Async M α} (hm : m.Only K φ) (hf : ∀ e, (f e).Only K φ) :
    (Async.tryCatch m f).Only K φ := by
  intro w k hk
  refine hm w _ fun r w1 hw1 hr => ?_
  cases r with
  | ok a => exact hk _ w1 hw1 hr
  | error e => exact hf e w1 k fun r' w2 hw2 => hk r' w2 (le_trans hw1 hw2)

theorem get {ψ : M.State → Prop} (h : ∀ w s, K.reads w s → ψ s) :
    Async.Only K ψ (Async.get : Async M M.State) :=
  fun w _ hk s hs => hk _ _ (K.le_seen w s) fun _ he => Except.ok.inj he ▸ h w s hs

theorem op {o : M.Op} (h : ∀ w, K.op w o) : Async.Only K (fun _ => True) (Async.op o) :=
  fun w _ hk => ⟨h w, hk _ _ (K.le_done w o) fun _ _ => trivial⟩

theorem await {c : M.Call} (h : ∀ w, K.call w c) {φ : M.Ret c → Prop}
    (hφ : ∀ w a, K.answers w c (.ok a) → φ a) : Async.Only K φ (Async.await c) := by
  refine fun w _ hk => ⟨h w, fun r hr => hk r w (le_refl w) fun a ha => hφ w a ?_⟩
  rwa [ha] at hr

theorem toTask (h : m.Only K φ) (w : W) : m.toTask.Only K w :=
  h w _ fun _ _ _ _ => trivial

theorem spawn (h : m.Only K φ) : Async.Only K (fun _ => True) (Async.spawn m) :=
  fun w _ hk => ⟨h.toTask w, hk _ w (le_refl w) fun _ _ => trivial⟩

end Async.Only

/-- A fact `F` that makes a program read and hear only what its kind expects, that its operations and
    calls keep and no other task takes away, and that is all they and the end of a task ask for. -/
structure Spec.Carries (S : Spec M) (C : Cond M) (K : Kind M W) (F : W → Nat → M.State → Prop) :
    Prop where
  reads : ∀ w i s, S.Inv s → F w i s → K.reads w s ∧ F (K.seen w s) i s
  op : ∀ w i s o, K.op w o → S.Inv s → F w i s → C.op i s o = true →
    S.OpPre i s o ∧ (S.Inv (M.apply i o s) → F (K.done w o) i (M.apply i o s))
  call : ∀ w i s c, K.call w c → S.Inv s → F w i s →
    S.CallPre i s c ∧ ∀ r s' o, M.perform i c r s = some (s', o) → C.call i s c o = true →
      S.Inv s' → F w i s' ∧ K.answers w c o
  rely : ∀ w i s s', F w i s → S.Rely i s s' → S.Inv s' → F w i s'
  fork : ∀ w i j s, F w i s → S.Fin j s → F w j s
  fin : ∀ w i s, F w i s → S.Fin i s

theorem Spec.safe_of_only {S : Spec M} {C : Cond M} {F : W → Nat → M.State → Prop}
    (hF : S.Carries C K F) (t : Task M) :
    ∀ w, t.Only K w → ∀ (i : Nat) (s : M.State), S.Inv s → F w i s → S.Safe C i t s := by
  induction t with
  | done => exact fun w _ i s _ hf => hF.fin w i s hf
  | read k ih =>
    intro w ht i s hi hf
    obtain ⟨hs, hf'⟩ := hF.reads w i s hi hf
    exact ih s _ (ht s hs) i s hi hf'
  | op o k ih =>
    intro w ht i s hi hf hc
    obtain ⟨hpre, hk⟩ := hF.op w i s o ht.1 hi hf hc
    exact ⟨hpre, fun hi' => ih _ ht.2 i _ hi' (hk hi')⟩
  | await c k ih =>
    intro w ht i s _ hf s1 hr1 hi1
    have hf1 := hF.rely w i s s1 hf hr1 hi1
    obtain ⟨hpre, hk⟩ := hF.call w i s1 c ht.1 hi1 hf1
    refine ⟨hpre, fun r s2 o hp hc hi2 s3 hr3 hi3 => ?_⟩
    obtain ⟨hf2, ho⟩ := hk r s2 o hp hc hi2
    exact ih o w (ht.2 o ho) i s3 hi3 (hF.rely w i s2 s3 hf2 hr3 hi3)
  | fork child k ihc ihk =>
    intro w ht i s hi hf
    refine ⟨fun c _ hc => ihc w ht.1 c s hi (hF.fork w i c s hf hc), fun s1 hr hi1 => ?_⟩
    exact ihk w ht.2 i s1 hi1 (hF.rely w i s s1 hf hr hi1)

end EventLoop
