import Mathlib.Data.List.Basic
import Mathlib.Data.List.Flatten
import Mathlib.Tactic.SplitIfs

/-! # Base64

Three bytes are four numbers of six bits, each of which has a symbol. -/

namespace Base64

open List

/-- The standard alphabet. -/
def symbol (n : Nat) : Char :=
  if n < 26 then Char.ofNat (65 + n)
  else if n < 52 then Char.ofNat (71 + n)
  else if n < 62 then Char.ofNat (n - 4)
  else if n = 62 then '+'
  else '/'

/-- The alphabet for URLs and file names. -/
def urlSymbol (n : Nat) : Char :=
  if n = 62 then '-' else if n = 63 then '_' else symbol n

def value (c : Char) : Option Nat :=
  if 65 ≤ c.toNat ∧ c.toNat ≤ 90 then some (c.toNat - 65)
  else if 97 ≤ c.toNat ∧ c.toNat ≤ 122 then some (c.toNat - 71)
  else if 48 ≤ c.toNat ∧ c.toNat ≤ 57 then some (c.toNat + 4)
  else if c = '+' then some 62
  else if c = '/' then some 63
  else none

/-- The numbers that the bytes are. -/
def sextets : List UInt8 → List Nat
  | [] => []
  | [a] => [a.toNat / 4, a.toNat % 4 * 16]
  | [a, b] => [a.toNat / 4, a.toNat % 4 * 16 + b.toNat / 16, b.toNat % 16 * 4]
  | a :: b :: c :: rest =>
    [a.toNat / 4, a.toNat % 4 * 16 + b.toNat / 16, b.toNat % 16 * 4 + c.toNat / 64, c.toNat % 64] ++
      sextets rest

/-- The bytes that the numbers are; bits that make no byte are dropped. -/
def octets : List Nat → List UInt8
  | a :: b :: c :: d :: rest =>
    [UInt8.ofNat (a * 4 + b / 16), UInt8.ofNat (b % 16 * 16 + c / 4), UInt8.ofNat (c % 4 * 64 + d)] ++
      octets rest
  | [a, b, c] => [UInt8.ofNat (a * 4 + b / 16), UInt8.ofNat (b % 16 * 16 + c / 4)]
  | [a, b] => [UInt8.ofNat (a * 4 + b / 16)]
  | _ => []

/-- How many symbols the last group lacks. -/
def padLength (n : Nat) : Nat := (3 - n % 3) % 3

/-- With `pad` for each symbol that the last group lacks. -/
def encode {α : Type} (symbol : Nat → α) (pad : List α) (bytes : List UInt8) : List α :=
  (sextets bytes).map symbol ++ (List.replicate (padLength bytes.length) pad).flatten

theorem value_symbol {n : Nat} (h : n < 64) : value (symbol n) = some n := by
  have hall : ∀ i < 64, value (symbol i) = some i := by decide
  exact hall n h

theorem sextets_lt (bytes : List UInt8) : ∀ n ∈ sextets bytes, n < 64 := by
  have hfirst : ∀ a : UInt8, a.toNat / 4 < 64 := fun a => by have := a.toNat_lt; omega
  have hsecond : ∀ a b : UInt8, a.toNat % 4 * 16 + b.toNat / 16 < 64 := fun a b => by
    have := b.toNat_lt
    omega
  have hthird : ∀ b c : UInt8, b.toNat % 16 * 4 + c.toNat / 64 < 64 := fun b c => by
    have := c.toNat_lt
    omega
  have hlast : ∀ c : UInt8, c.toNat % 64 < 64 := fun c => Nat.mod_lt _ (by decide)
  induction bytes using sextets.induct with
  | case1 => exact fun n hn => absurd hn (by simp [sextets])
  | case2 a =>
    simp only [sextets, forall_mem_cons]
    exact ⟨hfirst a, by omega, fun n hn => nomatch hn⟩
  | case3 a b =>
    simp only [sextets, forall_mem_cons]
    exact ⟨hfirst a, hsecond a b, by omega, fun n hn => nomatch hn⟩
  | case4 a b c rest ih =>
    simp only [sextets, cons_append, forall_mem_cons]
    exact ⟨hfirst a, hsecond a b, hthird b c, hlast c, ih⟩

/-- Nothing but symbols and padding. -/
theorem forall_mem_encode {α : Type} {symbol : Nat → α} {pad : List α} {P : α → Prop}
    (hsymbol : ∀ n < 64, P (symbol n)) (hpad : ∀ c ∈ pad, P c) (bytes : List UInt8) :
    ∀ c ∈ encode symbol pad bytes, P c := by
  intro c hc
  rcases mem_append.1 hc with hc | hc
  · obtain ⟨n, hn, rfl⟩ := mem_map.1 hc
    exact hsymbol n (sextets_lt bytes n hn)
  · obtain ⟨l, hl, hmem⟩ := mem_flatten.1 hc
    rw [eq_of_mem_replicate hl] at hmem
    exact hpad c hmem

theorem length_sextets (bytes : List UInt8) :
    (sextets bytes).length + padLength bytes.length = 4 * ((bytes.length + 2) / 3) := by
  unfold padLength
  induction bytes using sextets.induct with
  | case1 => rfl
  | case2 | case3 => simp [sextets]
  | case4 a b c rest ih =>
    simp only [sextets, length_append, length_cons, length_nil] at ih ⊢
    omega

theorem octets_sextets (bytes : List UInt8) : octets (sextets bytes) = bytes := by
  have hbyte : ∀ a n, n = a.toNat → UInt8.ofNat n = a := by
    rintro a _ rfl
    exact UInt8.ofNat_toNat
  induction bytes using sextets.induct with
  | case1 => rfl
  | case2 a =>
    have ha := hbyte a (a.toNat / 4 * 4 + a.toNat % 4 * 16 / 16) (by omega)
    simp only [sextets, octets, ha]
  | case3 a b =>
    have hb := b.toNat_lt
    have h1 := hbyte a (a.toNat / 4 * 4 + (a.toNat % 4 * 16 + b.toNat / 16) / 16) (by omega)
    have h2 := hbyte b ((a.toNat % 4 * 16 + b.toNat / 16) % 16 * 16 + b.toNat % 16 * 4 / 4) (by omega)
    simp only [sextets, octets, h1, h2]
  | case4 a b c rest ih =>
    have hb := b.toNat_lt
    have hc := c.toNat_lt
    have h1 := hbyte a (a.toNat / 4 * 4 + (a.toNat % 4 * 16 + b.toNat / 16) / 16) (by omega)
    have h2 := hbyte b ((a.toNat % 4 * 16 + b.toNat / 16) % 16 * 16 +
      (b.toNat % 16 * 4 + c.toNat / 64) / 4) (by omega)
    have h3 := hbyte c ((b.toNat % 16 * 4 + c.toNat / 64) % 4 * 64 + c.toNat % 64) (by omega)
    simp only [sextets, cons_append, nil_append, octets, h1, h2, h3, ih]

end Base64
