import SovereignMobile.EventLoop.Safety

/-! # Postconditions of program fragments

A weakest-precondition reading of `Spec.Safe`: `S.Wp C i m Q s` says that task `i` meets its
obligations while it runs `m` from `s`, and that `Q` holds of the outcome and the state it leaves.
The rules follow the constructors of `Async`; a suspension point is where the state is only known
up to what the other tasks may do. -/

namespace EventLoop

variable {M : Machine} {α β : Type}

/-- From `s`, `m` is safe for task `i`, and so is whatever is safe after `Q`. -/
def Spec.Wp (S : Spec M) (C : Cond M) (i : Nat) (m : Async M α)
    (Q : Except M.Err α → M.State → Prop) (s : M.State) : Prop :=
  ∀ k : Except M.Err α → Task M,
    (∀ r s', S.Inv s' → Q r s' → S.Safe C i (k r) s') → S.Safe C i (m.run k) s

namespace Spec.Wp

variable {S : Spec M} {C : Cond M} {i : Nat} {s : M.State}

variable {m : Async M α} {Q R : Except M.Err α → M.State → Prop}

theorem mono {Q' : Except M.Err α → M.State → Prop} (h : S.Wp C i m Q s)
    (hQ : ∀ r s', S.Inv s' → Q r s' → Q' r s') : S.Wp C i m Q' s :=
  fun k hk => h k fun r s' hi hq => hk r s' hi (hQ r s' hi hq)

theorem pure {a : α} (hi : S.Inv s) (h : Q (.ok a) s) : S.Wp C i (Pure.pure a) Q s :=
  fun _ hk => hk _ s hi h

theorem throw {e : M.Err} (hi : S.Inv s) (h : Q (.error e) s) : S.Wp C i (Async.throw e) Q s :=
  fun _ hk => hk _ s hi h

theorem bind {f : α → Async M β} {Q : Except M.Err β → M.State → Prop} (hm : S.Wp C i m R s)
    (hf : ∀ a s', S.Inv s' → R (.ok a) s' → S.Wp C i (f a) Q s')
    (he : ∀ e s', S.Inv s' → R (.error e) s' → Q (.error e) s') : S.Wp C i (m >>= f) Q s := by
  intro k hk
  refine hm _ fun r s' hi hq => ?_
  cases r with
  | ok a => exact hf a s' hi hq k hk
  | error e => exact hk _ s' hi (he e s' hi hq)

theorem getThen {f : M.State → Async M β} {Q : Except M.Err β → M.State → Prop}
    (h : S.Wp C i (f s) Q s) : S.Wp C i (Async.get >>= f) Q s :=
  fun k hk => h k hk

theorem settle {f : Except M.Err α → Async M β} {Q : Except M.Err β → M.State → Prop}
    (hm : S.Wp C i m R s) (hf : ∀ r s', S.Inv s' → R r s' → S.Wp C i (f r) Q s') :
    S.Wp C i (Async.settle m f) Q s :=
  fun k hk => hm _ fun r s' hi hq => hf r s' hi hq k hk

theorem tryCatch {f : M.Err → Async M α} (hm : S.Wp C i m R s)
    (hok : ∀ a s', S.Inv s' → R (.ok a) s' → Q (.ok a) s')
    (hf : ∀ e s', S.Inv s' → R (.error e) s' → S.Wp C i (f e) Q s') :
    S.Wp C i (Async.tryCatch m f) Q s := by
  intro k hk
  refine hm _ fun r s' hi hq => ?_
  cases r with
  | ok a => exact hk _ s' hi (hok a s' hi hq)
  | error e => exact hf e s' hi hq k hk

theorem op {o : M.Op} {Q : Except M.Err Unit → M.State → Prop}
    (h : C.op i s o = true → S.OpPre i s o ∧ (S.Inv (M.apply i o s) → Q (.ok ()) (M.apply i o s))) :
    S.Wp C i (Async.op o) Q s := by
  intro k hk hc
  obtain ⟨hpre, hq⟩ := h hc
  exact ⟨hpre, fun hi => hk _ _ hi (hq hi)⟩

theorem await {c : M.Call} {Q : Except M.Err (M.Ret c) → M.State → Prop}
    (h : ∀ s1, S.Rely i s s1 → S.Inv s1 → S.CallPre i s1 c ∧
      ∀ r s2 o, M.perform i c r s1 = some (s2, o) → C.call i s1 c o = true → S.Inv s2 →
        ∀ s3, S.Rely i s2 s3 → S.Inv s3 → Q o s3) :
    S.Wp C i (Async.await c) Q s := by
  intro k hk s1 hr1 hi1
  obtain ⟨hpre, h'⟩ := h s1 hr1 hi1
  exact ⟨hpre, fun r s2 o hp hc hi2 s3 hr3 hi3 => hk o s3 hi3 (h' r s2 o hp hc hi2 s3 hr3 hi3)⟩

theorem spawn {Q : Except M.Err Unit → M.State → Prop} (hm : ∀ j, S.Fin j s → S.Safe C j m.toTask s)
    (hk : ∀ s1, S.Rely i s s1 → S.Inv s1 → Q (.ok ()) s1) : S.Wp C i (Async.spawn m) Q s :=
  fun _ hk' => ⟨fun j _ hf => hm j hf, fun s1 hr hi => hk' _ s1 hi (hk s1 hr hi)⟩

theorem toTask (h : S.Wp C i m Q s) (hfin : ∀ r s', S.Inv s' → Q r s' → S.Fin i s') :
    S.Safe C i m.toTask s :=
  h _ hfin

/-- A loop over `xs`: `J` says what holds before the elements that are left. -/
theorem forEach {f : α → Async M Unit} {J : List α → M.State → Prop} {E : M.Err → M.State → Prop}
    {Q : Except M.Err Unit → M.State → Prop} (xs : List α) (hi : S.Inv s) (hJ : J xs s)
    (hf : ∀ x xs s, S.Inv s → J (x :: xs) s → S.Wp C i (f x) (fun r s' =>
      (∀ a, r = .ok a → J xs s') ∧ ∀ e, r = .error e → E e s') s)
    (hok : ∀ s', S.Inv s' → J [] s' → Q (.ok ()) s')
    (he : ∀ e s', S.Inv s' → E e s' → Q (.error e) s') : S.Wp C i (Async.forEach f xs) Q s := by
  induction xs generalizing s with
  | nil => exact pure hi (hok s hi hJ)
  | cons x xs ih =>
    refine bind (hf x xs s hi hJ) (fun a s' hi' h => ?_) fun e s' hi' h => ?_
    · exact ih hi' (h.1 a rfl)
    · exact he e s' hi' (h.2 e rfl)

end Spec.Wp

/-! ## What a fragment keeps -/

/-- Whatever `m` reads and however it ends, `F` holds afterwards if it held before. -/
def Spec.Keeps (S : Spec M) (C : Cond M) (i : Nat) (F : M.State → Prop) (m : Async M α) : Prop :=
  ∀ s, S.Inv s → F s → S.Wp C i m (fun _ => F) s

namespace Spec.Keeps

variable {S : Spec M} {C : Cond M} {i : Nat} {F : M.State → Prop}

theorem pure (a : α) : S.Keeps C i F (Pure.pure a : Async M α) := fun _ hi h => .pure hi h

theorem throw (e : M.Err) : S.Keeps C i F (Async.throw e : Async M α) := fun _ hi h => .throw hi h

variable {m : Async M α}

theorem bind {f : α → Async M β} (hm : S.Keeps C i F m) (hf : ∀ a, S.Keeps C i F (f a)) :
    S.Keeps C i F (m >>= f) := by
  intro s hi h
  refine .bind (hm s hi h) (fun a s' hi' h' => ?_) fun _ _ _ h' => h'
  exact hf a s' hi' h'

theorem tryCatch {f : M.Err → Async M α} (hm : S.Keeps C i F m) (hf : ∀ e, S.Keeps C i F (f e)) :
    S.Keeps C i F (Async.tryCatch m f) := by
  intro s hi h
  refine .tryCatch (hm s hi h) (fun _ _ _ h' => h') fun e s' hi' h' => ?_
  exact hf e s' hi' h'

theorem settle {f : Except M.Err α → Async M β} (hm : S.Keeps C i F m)
    (hf : ∀ r, S.Keeps C i F (f r)) : S.Keeps C i F (Async.settle m f) := by
  intro s hi h
  refine .settle (hm s hi h) fun r s' hi' h' => ?_
  exact hf r s' hi' h'

theorem getThen {f : M.State → Async M β} (hf : ∀ s, S.Keeps C i F (f s)) :
    S.Keeps C i F (Async.get >>= f) :=
  fun s hi h => .getThen (hf s s hi h)

theorem op {o : M.Op} (h : ∀ s, S.Inv s → F s → C.op i s o = true →
      S.OpPre i s o ∧ F (M.apply i o s)) : S.Keeps C i F (Async.op o) := by
  intro s hi hF
  refine .op fun hc => ?_
  obtain ⟨hpre, hF'⟩ := h s hi hF hc
  exact ⟨hpre, fun _ => hF'⟩

theorem spawn (hrely : ∀ s s', F s → S.Rely i s s' → S.Inv s' → F s')
    (hm : ∀ s j, S.Inv s → F s → S.Fin j s → S.Safe C j m.toTask s) :
    S.Keeps C i F (Async.spawn m) := by
  intro s hi h
  refine .spawn (fun j hfin => hm s j hi h hfin) fun s1 hr hi1 => ?_
  exact hrely s s1 h hr hi1

theorem forEach {f : α → Async M Unit} {xs : List α} (hf : ∀ x ∈ xs, S.Keeps C i F (f x)) :
    S.Keeps C i F (Async.forEach f xs) := by
  induction xs with
  | nil => exact pure ()
  | cons x xs ih =>
    refine bind (hf x List.mem_cons_self) fun _ => ?_
    exact ih fun y hy => hf y (List.mem_cons_of_mem _ hy)

/-- A call that may be made while `F` holds, and that neither it nor the other tasks take away. -/
theorem await {c : M.Call} (hrely : ∀ s s', F s → S.Rely i s s' → S.Inv s' → F s')
    (hpre : ∀ s, S.Inv s → F s → S.CallPre i s c)
    (hcall : ∀ s r s' o, S.Inv s → F s → M.perform i c r s = some (s', o) →
      C.call i s c o = true → F s') : S.Keeps C i F (Async.await c) := by
  intro s _ h
  refine .await fun s1 hr1 hi1 => ?_
  have h1 := hrely s s1 h hr1 hi1
  refine ⟨hpre s1 hi1 h1, fun r s2 o hp hc _ s3 hr3 hi3 => ?_⟩
  exact hrely s2 s3 (hcall s1 r s2 o hi1 h1 hp hc) hr3 hi3

end Spec.Keeps

end EventLoop
