import SovereignMobile.Quic.AuthSession
import SovereignMobile.Codec.CborHeader
import Mathlib.Tactic.Ring

/-! # Big-endian numbers of a fixed width

`toBeBytes` writes, `beNat` reads: they are inverse to each other on the numbers that fit. The
formats built from them guard their lengths first; two lemmas say what a passed guard means. -/

namespace Quic

open List
open ZhtpCodec (beNat)

@[simp] theorem length_toBeBytes (width n : Nat) : (toBeBytes width n).length = width := by
  induction width with
  | zero => rfl
  | succ width ih => simp [toBeBytes, ih]

theorem beNat_cons (b : UInt8) (bs : List UInt8) :
    beNat (b :: bs) = b.toNat * 256 ^ bs.length + beNat bs := by
  -- the last byte is what `beNat_append` peels off, so the induction runs from the end
  induction bs using reverseRecOn with
  | nil => simp [beNat]
  | append_singleton bs b' ih =>
    rw [← cons_append, ZhtpCodec.beNat_append, ZhtpCodec.beNat_append, ih, length_append,
      length_singleton]
    ring

theorem toBeBytes_mod (width n : Nat) : toBeBytes width (n % 256 ^ width) = toBeBytes width n := by
  induction width generalizing n with
  | zero => rfl
  | succ width ih =>
    simp only [toBeBytes, cons.injEq]
    constructor
    · rw [Nat.pow_succ, Nat.mod_mul_right_div_self]
      apply UInt8.toNat_inj.1
      simp
    · rw [← ih (n % 256 ^ (width + 1)), Nat.mod_mod_of_dvd n (Nat.pow_dvd_pow 256 (Nat.le_succ _)),
        ih n]

theorem beNat_toBeBytes_mod (width n : Nat) : beNat (toBeBytes width n) = n % 256 ^ width := by
  induction width with
  | zero => simp [toBeBytes, beNat, Nat.mod_one]
  | succ width ih =>
    rw [toBeBytes, beNat_cons, ih, length_toBeBytes, Nat.pow_succ, Nat.mod_mul]
    simp only [UInt8.toNat_ofNat']
    ring

variable {width n : Nat} {α : Type} {c : Prop} {y : α}

theorem beNat_toBeBytes (h : n < 256 ^ width) : beNat (toBeBytes width n) = n := by
  rw [beNat_toBeBytes_mod, Nat.mod_eq_of_lt h]

theorem toBeBytes_beNat {bs : List UInt8} (h : bs.length = width) :
    toBeBytes width (beNat bs) = bs := by
  induction bs generalizing width with
  | nil =>
    subst h
    rfl
  | cons b bs ih =>
    subst h
    have hlt := ZhtpCodec.beNat_lt bs
    rw [length_cons, toBeBytes, beNat_cons, cons.injEq]
    constructor
    · rw [Nat.add_comm, Nat.add_mul_div_right _ _ (Nat.pow_pos (by decide)), Nat.div_eq_of_lt hlt]
      simp
    · rw [← toBeBytes_mod, Nat.mul_comm, Nat.mul_add_mod, Nat.mod_eq_of_lt hlt]
      exact ih rfl

theorem toBeBytes_inj {m : Nat} (hn : n < 256 ^ width) (hm : m < 256 ^ width)
    (h : toBeBytes width n = toBeBytes width m) : n = m := by
  rw [← beNat_toBeBytes hn, ← beNat_toBeBytes hm, h]

/-! ## Guards -/

theorem guard_eq_ok {ε : Type} [Decidable c] {e : ε} {x : Except ε α} :
    (if c then .error e else x) = .ok y ↔ ¬ c ∧ x = .ok y := by
  by_cases hc : c
  · simp [hc]
  · simp [hc]

end Quic
