import SovereignMobile.Protobuf.Wire

/-! # The rounds of a loop over fields

`readAll` counts its rounds. `Rounds` does not: it relates the state and the input of a loop head to
those of a later one. As long as every round takes a byte, the two say the same; a round that begins
with a varint does. -/

namespace Protobuf

open List

variable {ε σ : Type} {step : σ → List UInt8 → Except ε (σ × List UInt8)}

/-- Some rounds lead from `s` and the first input to `s'` and the second. -/
inductive Rounds (step : σ → List UInt8 → Except ε (σ × List UInt8)) :
    σ → List UInt8 → σ → List UInt8 → Prop
  | refl (s : σ) (bytes : List UInt8) : Rounds step s bytes s bytes
  | head {s s₁ s' : σ} {b : UInt8} {bs bytes rest : List UInt8}
      (hstep : step s (b :: bs) = .ok (s₁, bytes)) (hrest : Rounds step s₁ bytes s' rest) :
      Rounds step s (b :: bs) s' rest

variable {s s₁ s2 s' : σ} {xs ys zs bytes : List UInt8} {n : Nat}

theorem Rounds.trans (h : Rounds step s xs s₁ ys) (h1 : Rounds step s₁ ys s2 zs) :
    Rounds step s xs s2 zs := by
  induction h with
  | refl => exact h1
  | head hstep _ ih => exact .head hstep (ih h1)

theorem Rounds.tail {bs : List UInt8} {b : UInt8} (h : Rounds step s xs s₁ (b :: bs))
    (hstep : step s₁ (b :: bs) = .ok (s2, zs)) :
    Rounds step s xs s2 zs :=
  h.trans (.head hstep (.refl _ _))

/-- What holds at the first loop head and is kept by every round holds at every head. -/
theorem Rounds.invariant {P : σ → List UInt8 → Prop} (h : Rounds step s xs s' ys) (hinit : P s xs)
    (hkeep : ∀ s b bs s' rest, P s (b :: bs) → step s (b :: bs) = .ok (s', rest) → P s' rest) :
    P s' ys := by
  induction h with
  | refl => exact hinit
  | head hstep _ ih => exact ih (hkeep _ _ _ _ _ hinit hstep)

/-- Every round takes a byte at least. -/
def Shortens (step : σ → List UInt8 → Except ε (σ × List UInt8)) : Prop :=
  ∀ s b bs s' rest, step s (b :: bs) = .ok (s', rest) → rest.length ≤ bs.length

theorem readAll_nil (n : Nat) (s : σ) : readAll step n s [] = .ok s := by
  cases n <;> rfl

/-- After some rounds the loop goes on as from the state and the input that they lead to. -/
theorem Rounds.readAll_eq (h : Rounds step s xs s' ys) (hs : Shortens step) :
    ∀ {n : Nat}, xs.length ≤ n →
      ∃ m, ys.length ≤ m ∧ readAll step n s xs = readAll step m s' ys := by
  induction h with
  | refl => exact fun hn => ⟨_, hn, rfl⟩
  | head hstep _ ih =>
    intro n hn
    cases n with
    | zero => cases hn
    | succ n =>
      obtain ⟨m, hm, he⟩ := ih ((hs _ _ _ _ _ hstep).trans (Nat.le_of_succ_le_succ hn))
      refine ⟨m, hm, ?_⟩
      rw [readAll, hstep]
      exact he

/-- The rounds of a loop lead to the end of the input, or to the round that fails. -/
theorem rounds_of_readAll (h : Shortens step) (hn : bytes.length ≤ n) :
    ∃ s' rest, Rounds step s bytes s' rest ∧ ((rest = [] ∧ readAll step n s bytes = .ok s') ∨
        ∃ b bs e, rest = b :: bs ∧ step s' (b :: bs) = .error e ∧
          readAll step n s bytes = .error e) := by
  induction n generalizing s bytes with
  | zero =>
    obtain rfl := length_eq_zero_iff.1 (Nat.le_zero.1 hn)
    exact ⟨s, [], .refl _ _, .inl ⟨rfl, readAll_nil 0 s⟩⟩
  | succ n ih =>
    cases bytes with
    | nil => exact ⟨s, [], .refl _ _, .inl ⟨rfl, readAll_nil _ s⟩⟩
    | cons b bs =>
      rw [readAll]
      cases hstep : step s (b :: bs) with
      | error e => exact ⟨s, b :: bs, .refl _ _, .inr ⟨b, bs, e, rfl, hstep, rfl⟩⟩
      | ok next =>
        have hlen := (h s b bs _ _ hstep).trans (Nat.le_of_succ_le_succ hn)
        obtain ⟨s', rest, hrounds, hend⟩ := ih hlen
        exact ⟨s', rest, .head hstep hrounds, hend⟩

/-- A loop ends normally at the end of the input only. -/
theorem readAll_ok_iff (h : Shortens step) (hn : bytes.length ≤ n) :
    readAll step n s bytes = .ok s' ↔ Rounds step s bytes s' [] := by
  constructor
  · intro he
    obtain ⟨s₁, rest, hr, ⟨rfl, hok⟩ | ⟨_, _, _, _, _, herror⟩⟩ := rounds_of_readAll h hn
    · cases hok.symm.trans he
      exact hr
    · cases herror.symm.trans he
  · intro hr
    obtain ⟨m, _, he⟩ := hr.readAll_eq h hn
    exact he.trans (readAll_nil m s')

/-- A loop fails in the round that fails. -/
theorem readAll_error_iff (h : Shortens step) {e : ε} (hn : bytes.length ≤ n) :
    readAll step n s bytes = .error e ↔
      ∃ s' b bs, Rounds step s bytes s' (b :: bs) ∧ step s' (b :: bs) = .error e := by
  constructor
  · intro he
    obtain ⟨s₁, rest, hr, ⟨_, hok⟩ | ⟨b, bs, e', rfl, hstep, herror⟩⟩ :=
      rounds_of_readAll h hn
    · cases hok.symm.trans he
    · cases herror.symm.trans he
      exact ⟨s₁, b, bs, hr, hstep⟩
  · rintro ⟨s', b, bs, hr, hstep⟩
    obtain ⟨m, hm, he⟩ := hr.readAll_eq h hn
    cases m with
    | zero => cases hm
    | succ m => rw [he, readAll, hstep]

/-- A varint takes one byte at least, and leaves the end of its input. -/
theorem suffix_readVarintLoop {w : Nat} {within : Nat → Bool} {input rest : List UInt8}
    {value result : BitVec w} {shift : Nat}
    (h : readVarintLoop w within input value shift = some (result, rest)) :
    ∃ b bytes, input = b :: bytes ∧ rest <:+ bytes := by
  induction input generalizing value shift with
  | nil => cases h
  | cons b input ih =>
    refine ⟨b, input, rfl, ?_⟩
    rw [readVarintLoop] at h
    split at h
    · dsimp only at h
      split at h
      · cases h
        exact suffix_refl _
      · obtain ⟨c, bytes, rfl, hrest⟩ := ih h
        exact hrest.trans (suffix_cons c bytes)
    · cases h

end Protobuf
