import SovereignMobile.Codec.Cbor
import Mathlib.Data.List.Induction

/-! # Item headers

What the header of an item announces, in unbounded arithmetic: the major type, the argument and
where the header ends. `decodeCborUInt_eq` says that the decoder reads exactly this, unless the
position of the last argument byte leaves the range of `Int`. -/

namespace ZhtpCodec

open List

/-! ## The argument -/

/-- The number written most significant byte first. -/
def beNat (bs : List UInt8) : Nat := bs.foldl (fun n b => n * 256 + b.toNat) 0

/-- The byte at `i`. -/
def Data.at (data : Data) (i : Nat) : UInt8 := data.bytes.getD i 0

def Data.majorAt (data : Data) (o : Nat) : Nat := (data.at o).toNat / 32

def Data.infoAt (data : Data) (o : Nat) : Nat := (data.at o).toNat % 32

/-- How many bytes hold the argument, by the low five bits of the header byte; `none` for the
    values that CBOR reserves. -/
def argumentWidth (info : Nat) : Option Nat :=
  if info < 24 then some 0
  else if info = 24 then some 1
  else if info = 25 then some 2
  else if info = 26 then some 4
  else if info = 27 then some 8
  else none

/-- The argument of the header at `o` and the position after it. -/
def Data.argument (data : Data) (o : Nat) : Option (Nat × Nat) :=
  match argumentWidth (data.infoAt o) with
  | none => none
  | some 0 => some (data.infoAt o, o + 1)
  | some w =>
    if o + w < data.count then
      some (beNat ((List.range w).map fun k => data.at (o + 1 + k)), o + 1 + w)
    else none

/-- The bound check of an argument of several bytes adds `reach` to the position of the header. -/
def argumentReach (info : Nat) : Nat :=
  if info = 25 then 2 else if info = 26 then 4 else if info = 27 then 8 else 0

variable {data : Data} {o : Nat}

theorem Data.byte_eq {i : Nat} (h : i < data.count) : data.byte i = .ok (data.at i) := by
  have h' : i < data.bytes.length := h
  simp [Data.byte, Data.at, getElem?_eq_getElem h']

theorem Data.byte_within {w k : Nat} (h : o + w < data.count) (hk : k < w) :
    data.byte (o + 1 + k) = .ok (data.at (o + 1 + k)) :=
  Data.byte_eq (by omega)

theorem addInt_eq {a b : Nat} (h : a + b < 2 ^ 63) : addInt a b = .ok (a + b) := if_pos h

theorem majorType_toNat (b : UInt8) : ((b &&& 0xE0) >>> 5).toNat = b.toNat / 32 := by
  have h : ∀ x : BitVec 8, ((x &&& 0xE0#8) >>> (5#8 % 8)).toNat = x.toNat / 32 := by decide
  exact h b.toBitVec

theorem additionalInfo_toNat (b : UInt8) : (b &&& 0x1F).toNat = b.toNat % 32 := by
  have h : ∀ x : BitVec 8, (x &&& 0x1F#8).toNat = x.toNat % 32 := by decide
  exact h b.toBitVec

/-! ## Bytes and words -/

theorem shiftOr_toNat {v : UInt64} (b : UInt8) (h : v.toNat < 2 ^ 56) :
    ((v <<< 8) ||| b.toUInt64).toNat = v.toNat * 256 + b.toNat := by
  have hb := b.toNat_lt
  have hs : v.toNat <<< 8 % 2 ^ 64 = v.toNat <<< 8 := by
    exact Nat.mod_eq_of_lt (by omega)
  rw [UInt64.toNat_or, UInt64.toNat_shiftLeft, UInt8.toNat_toUInt64]
  rw [show (8 : UInt64).toNat % 64 = 8 by decide, hs]
  rw [← Nat.shiftLeft_add_eq_or_of_lt (by simpa using hb), Nat.shiftLeft_eq]

theorem beNat_append (bs : List UInt8) (b : UInt8) :
    beNat (bs ++ [b]) = beNat bs * 256 + b.toNat := by
  simp [beNat]

theorem beNat_lt (bs : List UInt8) : beNat bs < 256 ^ bs.length := by
  induction bs using reverseRecOn with
  | nil => simp [beNat]
  | append_singleton bs b ih =>
    have hb := b.toNat_lt
    rw [beNat_append, length_append, length_singleton]
    omega

theorem bigEndian_append (bs : List UInt8) (b : UInt8) :
    bigEndian (bs ++ [b]) = (bigEndian bs <<< 8) ||| b.toUInt64 := by
  simp [bigEndian]

theorem bigEndian_toNat (bs : List UInt8) (h : bs.length ≤ 8) :
    (bigEndian bs).toNat = beNat bs := by
  induction bs using reverseRecOn with
  | nil => rfl
  | append_singleton bs b ih =>
    rw [length_append, length_singleton] at h
    have hlt : beNat bs < 2 ^ 56 := by
      calc beNat bs < 256 ^ bs.length := beNat_lt bs
        _ ≤ 256 ^ 7 := Nat.pow_le_pow_right (by decide) (by omega)
        _ = 2 ^ 56 := by decide
    rw [bigEndian_append, beNat_append, shiftOr_toNat b (by rw [ih (by omega)]; exact hlt),
      ih (by omega)]

theorem bigEndian_one (b0 : UInt8) : b0.toUInt64 = bigEndian [b0] := by
  simp [bigEndian]

theorem bigEndian_two (b0 b1 : UInt8) :
    (b0.toUInt64 <<< 8) ||| b1.toUInt64 = bigEndian [b0, b1] := by
  simp [bigEndian]

theorem bigEndian_four (b0 b1 b2 b3 : UInt8) :
    (b0.toUInt64 <<< 24) ||| (b1.toUInt64 <<< 16) ||| (b2.toUInt64 <<< 8) ||| b3.toUInt64
      = bigEndian [b0, b1, b2, b3] := by
  have h2 : ∀ v : UInt64, v <<< 8 <<< 8 = v <<< 16 := fun v =>
    (UInt64.shiftLeft_add (by decide) (by decide) (by decide)).symm
  have h3 : ∀ v : UInt64, v <<< 16 <<< 8 = v <<< 24 := fun v =>
    (UInt64.shiftLeft_add (by decide) (by decide) (by decide)).symm
  simp [bigEndian, UInt64.shiftLeft_or, h2, h3]

/-! ## The decoder reads the argument -/

theorem infoAt_toNat (data : Data) (o : Nat) : (data.at o &&& 0x1F).toNat = data.infoAt o :=
  additionalInfo_toNat _

theorem infoAt_eq_iff {c : UInt8} : data.at o &&& 0x1F = c ↔ data.infoAt o = c.toNat := by
  rw [← infoAt_toNat, UInt8.toNat_inj]

/-- What `decodeCborUInt` throws. -/
def argumentError {α : Type} (info : Nat) : Swift α :=
  if info < 28 then throwNSError 5 none else throwNSError 6 (some "Invalid CBOR uint encoding")

theorem bigEndian_eq (bs : List UInt8) (h : bs.length ≤ 8) :
    bigEndian bs = UInt64.ofNat (beNat bs) := by
  rw [← bigEndian_toNat bs h, UInt64.ofNat_toNat]

theorem decodeCborUInt_24 : decodeCborUInt 24 data (o + 1) =
      if o + 1 < data.count then .ok (UInt64.ofNat (beNat [data.at (o + 1)]), o + 2)
      else throwNSError 5 none := by
  have hc : data.count < 2 ^ 63 := data.count_lt
  have hb := bigEndian_eq [data.at (o + 1)] (by simp)
  rw [← bigEndian_one] at hb
  rw [← hb]
  by_cases hin : o + 1 < data.count
  · simp [decodeCborUInt, Data.byte_eq hin, addInt_eq (show o + 1 + 1 < 2 ^ 63 by omega), bind,
      Except.bind, pure, Except.pure]
  · simp [decodeCborUInt, hin]

theorem decodeCborUInt_25 : decodeCborUInt 25 data (o + 1) = if o + 2 < 2 ^ 63 then
        if o + 2 < data.count then
          .ok (UInt64.ofNat (beNat [data.at (o + 1), data.at (o + 2)]), o + 3)
        else throwNSError 5 none
      else .error .trap := by
  have hc : data.count < 2 ^ 63 := data.count_lt
  rw [← bigEndian_eq _ (by simp), ← bigEndian_two]
  by_cases hr : o + 2 < 2 ^ 63
  · by_cases hin : o + 2 < data.count
    · simp [-Nat.reducePow, decodeCborUInt, hr, Data.byte_eq (show o + 1 < data.count by omega),
        Data.byte_eq (show o + 1 + 1 < data.count from hin),
        addInt_eq (show o + 1 + 1 < 2 ^ 63 from hr), addInt_eq (show o + 1 + 2 < 2 ^ 63 by omega),
        bind, Except.bind, pure, Except.pure]
    · simp [-Nat.reducePow, decodeCborUInt, hin, hr, addInt_eq (show o + 1 + 1 < 2 ^ 63 from hr),
        bind, Except.bind]
  · simp [-Nat.reducePow, decodeCborUInt, addInt, hr, bind, Except.bind]

theorem decodeCborUInt_26 : decodeCborUInt 26 data (o + 1) = if o + 4 < 2 ^ 63 then
        if o + 4 < data.count then
          .ok (UInt64.ofNat (beNat [data.at (o + 1), data.at (o + 2), data.at (o + 3),
            data.at (o + 4)]), o + 5)
        else throwNSError 5 none
      else .error .trap := by
  have hc : data.count < 2 ^ 63 := data.count_lt
  rw [← bigEndian_eq _ (by simp), ← bigEndian_four]
  by_cases hr : o + 4 < 2 ^ 63
  · have ha : addInt (o + 1) 3 = .ok (o + 4) := addInt_eq hr
    by_cases hin : o + 4 < data.count
    · simp [-Nat.reducePow, decodeCborUInt, hr, ha, addInt_eq (show o + 1 + 4 < 2 ^ 63 by omega),
        Data.byte_eq (show o + 1 < data.count by omega), Data.byte_within hin, bind, Except.bind,
        pure, Except.pure]
    · simp [-Nat.reducePow, decodeCborUInt, hin, hr, ha, bind, Except.bind]
  · simp [-Nat.reducePow, decodeCborUInt, addInt, hr, bind, Except.bind]

theorem decodeCborUInt_27 : decodeCborUInt 27 data (o + 1) = if o + 8 < 2 ^ 63 then
        if o + 8 < data.count then
          .ok (UInt64.ofNat (beNat [data.at (o + 1), data.at (o + 2), data.at (o + 3),
            data.at (o + 4), data.at (o + 5), data.at (o + 6), data.at (o + 7),
            data.at (o + 8)]), o + 9)
        else throwNSError 5 none
      else .error .trap := by
  have hc : data.count < 2 ^ 63 := data.count_lt
  rw [← bigEndian_eq _ (by simp)]
  by_cases hr : o + 8 < 2 ^ 63
  · have ha : addInt (o + 1) 7 = .ok (o + 8) := addInt_eq hr
    by_cases hin : o + 8 < data.count
    · simp [-Nat.reducePow, decodeCborUInt, hr, ha, addInt_eq (show o + 1 + 8 < 2 ^ 63 by omega),
        Data.byte_eq (show o + 1 < data.count by omega), Data.byte_within hin, bind, Except.bind,
        pure, Except.pure]
    · simp [-Nat.reducePow, decodeCborUInt, hin, hr, ha, bind, Except.bind]
  · simp [-Nat.reducePow, decodeCborUInt, addInt, hr, bind, Except.bind]

/-- The decoder reads the argument of the header at `o`, throws where there is none, and traps
    where the bound check overflows. -/
theorem decodeCborUInt_eq (ho : o < data.count) : decodeCborUInt (data.at o &&& 0x1F) data (o + 1) =
      if o + argumentReach (data.infoAt o) < 2 ^ 63 then
        match data.argument o with
        | some (n, next) => .ok (UInt64.ofNat n, next)
        | none => argumentError (data.infoAt o)
      else .error .trap := by
  have hc : data.count < 2 ^ 63 := data.count_lt
  have h63 : o < 2 ^ 63 := by omega
  have hcase : data.infoAt o < 24 ∨ data.infoAt o = 24 ∨ data.infoAt o = 25 ∨
      data.infoAt o = 26 ∨ data.infoAt o = 27 ∨ 27 < data.infoAt o := by omega
  unfold Data.argument argumentWidth argumentReach argumentError
  rcases hcase with h | h | h | h | h | h
  · have hlt : data.at o &&& 0x1F < 24 := by
      rw [UInt8.lt_iff_toNat_lt, infoAt_toNat]
      exact h
    have hword : (data.at o &&& 0x1F).toUInt64 = UInt64.ofNat (data.infoAt o) := by
      rw [← infoAt_toNat]
      simp
    have hne : ∀ n, 24 ≤ n → data.infoAt o ≠ n := fun n hn => by omega
    simp [-Nat.reducePow, decodeCborUInt, hlt, hword, h, hne, h63, pure, Except.pure]
  · rw [infoAt_eq_iff (c := 24) |>.2 h, decodeCborUInt_24]
    by_cases hin : o + 1 < data.count <;> simp [-Nat.reducePow, h, hin, h63]
  · rw [infoAt_eq_iff (c := 25) |>.2 h, decodeCborUInt_25]
    by_cases hin : o + 2 < data.count <;> simp [h, hin, range_succ]
  · rw [infoAt_eq_iff (c := 26) |>.2 h, decodeCborUInt_26]
    by_cases hin : o + 4 < data.count <;> simp [h, hin, range_succ]
  · rw [infoAt_eq_iff (c := 27) |>.2 h, decodeCborUInt_27]
    by_cases hin : o + 8 < data.count <;> simp [h, hin, range_succ]
  · have hge : ¬ data.at o &&& 0x1F < 24 := by
      rw [UInt8.lt_iff_toNat_lt, infoAt_toNat, show (24 : UInt8).toNat = 24 by decide]
      omega
    have hne : ∀ c : UInt8, c.toNat ≤ 27 → data.at o &&& 0x1F ≠ c := by
      intro c hc' heq
      rw [infoAt_eq_iff] at heq
      omega
    have hne' : ∀ n, n ≤ 27 → data.infoAt o ≠ n := fun n hn => by omega
    simp [-Nat.reducePow, decodeCborUInt, hge, hne, hne', h63, show ¬ data.infoAt o < 24 by omega,
      show ¬ data.infoAt o < 28 by omega]

end ZhtpCodec
