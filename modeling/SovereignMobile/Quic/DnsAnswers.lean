import Mathlib.Algebra.Group.Int.Defs
import SovereignMobile.Codec.CborHeader
import SovereignMobile.Dns.Messages

/-! # The two readers of DNS answers

`DnsUdp.parseAnswers` of `NativeQuicModule.swift` and of `NativeQuicModule.kt`. They keep an index into
the message; iOS has a message of its own, Android the buffer that it was received into and its length.
Their bounds checks stand in different places. -/

namespace DnsUdp

open List
open Dns (byteAt isPointer)

/-- `(Int(hi) << 8) | Int(lo)` -/
def u16 (hi lo : UInt8) : Nat := (hi.toNat <<< 8) ||| lo.toNat

theorem u16_eq (hi lo : UInt8) : u16 hi lo = Dns.number hi lo := by
  rw [u16, Dns.number, Nat.shiftLeft_eq, Nat.mul_comm]
  exact (Nat.two_pow_add_eq_or_of_lt lo.toNat_lt hi.toNat).symm

/-! ## iOS -/

namespace Ios

open ZhtpCodec

/-- The `while` loop over the labels. -/
def skipLabels (data : Data) : Nat → Nat → Swift Nat
  | 0, _ => .error .fuel
  | fuel + 1, idx =>
    if idx < data.count then do
      let len := (← data.byte idx).toNat
      if len = 0 then addInt idx 1
      else if isPointer len then addInt idx 2
      else skipLabels data fuel (← addInt idx (1 + len))
    else pure idx

def skipName (data : Data) (idx : Nat) : Swift Nat := do
  if isPointer (← data.byte idx).toNat then addInt idx 2
  else skipLabels data (data.count + 1) idx

def answers (data : Data) : Nat → Nat → List String → Swift (List String)
  | 0, _, ips => pure ips
  | n + 1, idx, ips =>
    if data.count ≤ idx then pure ips
    else do
      let idx ← skipName data idx
      if ¬ (← addInt idx 10) ≤ data.count then pure ips
      else do
        let rtype := u16 (← data.byte idx) (← data.byte (idx + 1))
        let rdlen := u16 (← data.byte (idx + 8)) (← data.byte (idx + 9))
        let idx := idx + 10
        if ¬ (← addInt idx rdlen) ≤ data.count then pure ips
        else if rtype = 1 ∧ rdlen = 4 then do
          let ip := Dns.dotted (← data.byte idx) (← data.byte (idx + 1)) (← data.byte (idx + 2))
            (← data.byte (idx + 3))
          answers data n (idx + rdlen) (ips ++ [ip])
        else answers data n (idx + rdlen) ips

def parseAnswers (data : Data) : Swift (List String) :=
  if ¬ 12 < data.count then pure []
  else do
    let ancount := u16 (← data.byte 6) (← data.byte 7)
    if ancount = 0 then pure []
    else do
      let idx ← skipLabels data (data.count + 1) 12
      answers data ancount (← addInt idx 4) []

/-! What is left of the message decides: the index reads it from its place. -/

section
variable {data : Data}

theorem skipLabels_eq (hsize : data.count + 65546 ≤ 2 ^ 31) {fuel : Nat} : ∀ {idx : Nat},
    0 < fuel → data.count < fuel + idx → idx ≤ data.count + 300 →
    ∃ next, skipLabels data fuel idx = .ok next ∧
      data.bytes.drop next = Dns.skipName (data.bytes.drop idx) ∧
      idx ≤ next ∧ next ≤ data.count + 300 := by
  -- a label ends at most 256 bytes behind the one that starts it, so the index stays near the message
  induction fuel with
  | zero =>
    intro idx hpos
    exact absurd hpos (Nat.lt_irrefl _)
  | succ fuel ih =>
    intro idx _ hfuel hidx
    have hlen : data.bytes.length = data.count := rfl
    rw [skipLabels]
    by_cases hin : idx < data.count
    · rw [if_pos hin, Data.byte_eq hin, Dns.skipName_drop hin]
      have hbyte : byteAt data.bytes idx = data.at idx := rfl
      have hlt := (data.at idx).toNat_lt
      simp only [bind, Except.bind, hbyte]
      by_cases hzero : (data.at idx).toNat = 0
      · rw [if_pos hzero, if_pos hzero, addInt_eq (by omega)]
        exact ⟨idx + 1, rfl, rfl, by omega, by omega⟩
      rw [if_neg hzero, if_neg hzero]
      cases isPointer (data.at idx).toNat with
      | true =>
        rw [addInt_eq (by omega)]
        exact ⟨idx + 2, rfl, rfl, by omega, by omega⟩
      | false =>
        rw [if_neg (by simp), addInt_eq (by omega)]
        obtain ⟨next, heq, hdrop, hle, hnext⟩ :=
          ih (show 0 < fuel by omega) (show data.count < fuel + (idx + (1 + _)) by omega)
            (show idx + (1 + (data.at idx).toNat) ≤ data.count + 300 by omega)
        exact ⟨next, heq, hdrop, by omega, hnext⟩
    · rw [if_neg hin, Dns.skipName_drop_end (by omega)]
      exact ⟨idx, rfl, rfl, Nat.le_refl _, hidx⟩

theorem skipName_eq (hsize : data.count + 65546 ≤ 2 ^ 31) {idx : Nat} (hin : idx < data.count) :
    ∃ next, skipName data idx = .ok next ∧
      data.bytes.drop next = Dns.skipName (data.bytes.drop idx) ∧
      idx ≤ next ∧ next ≤ data.count + 300 := by
  rw [skipName, Data.byte_eq hin]
  simp only [bind, Except.bind]
  cases hpointer : isPointer (data.at idx).toNat with
  | true =>
    rw [addInt_eq (by omega)]
    exact ⟨idx + 2, rfl, (Dns.skipName_drop_pointer hin hpointer).symm, by omega, by omega⟩
  | false =>
    rw [if_neg (by simp)]
    exact skipLabels_eq hsize (Nat.succ_pos _) (by omega) (by omega)

theorem answers_eq (hsize : data.count + 65546 ≤ 2 ^ 31) {n : Nat} :
    ∀ {idx : Nat} {ips : List String}, idx ≤ data.count + 304 →
      answers data n idx ips = .ok (ips ++ Dns.readAnswers n (data.bytes.drop idx)) := by
  induction n with
  | zero =>
    intro idx ips _
    rw [Dns.readAnswers, append_nil]
    rfl
  | succ n ih =>
    intro idx ips hidx
    have hlen : data.bytes.length = data.count := rfl
    rw [answers]
    by_cases hend : data.count ≤ idx
    · -- the message ends here, and a reader of the rest finds no name either
      rw [if_pos hend, Dns.readAnswers_drop_few (show data.bytes.length < idx + 10 by omega),
        append_nil]
      rfl
    obtain ⟨next, hskip, hname, hle, hnext⟩ := skipName_eq hsize (show idx < data.count by omega)
    rw [if_neg hend, hskip]
    simp only [bind, Except.bind]
    rw [addInt_eq (show next + 10 < 2 ^ 63 by omega)]
    dsimp only
    by_cases hroom : next + 10 ≤ data.count
    · -- type, class, TTL and length are there
      rw [if_neg (not_not.2 hroom), Data.byte_eq (show next < data.count by omega),
        Data.byte_eq (show next + 1 < data.count by omega),
        Data.byte_eq (show next + 8 < data.count by omega),
        Data.byte_eq (show next + 9 < data.count by omega)]
      dsimp only
      rw [u16_eq, u16_eq]
      have hlt := Dns.number_lt (data.at (next + 8)) (data.at (next + 9))
      generalize htype : Dns.number (data.at next) (data.at (next + 1)) = rtype
      generalize hrdlen : Dns.number (data.at (next + 8)) (data.at (next + 9)) = rdlen at hlt ⊢
      rw [Dns.readAnswers_drop hname hroom htype hrdlen,
        addInt_eq (show next + 10 + rdlen < 2 ^ 63 by omega), hlen]
      dsimp only
      by_cases hdata : next + 10 + rdlen ≤ data.count
      · rw [if_neg (not_not.2 hdata), if_neg (Nat.not_lt.2 hdata)]
        by_cases haddress : rtype = 1 ∧ rdlen = 4
        · have hfour := haddress.2
          rw [if_pos haddress, if_pos haddress,
            Data.byte_eq (show next + 10 < data.count by omega),
            Data.byte_eq (show next + 10 + 1 < data.count by omega),
            Data.byte_eq (show next + 10 + 2 < data.count by omega),
            Data.byte_eq (show next + 10 + 3 < data.count by omega)]
          dsimp only
          rw [ih (by omega), append_assoc]
          rfl
        · rw [if_neg haddress, if_neg haddress]
          exact ih (by omega)
      · rw [if_pos hdata, if_pos (Nat.lt_of_not_le hdata), append_nil]
        rfl
    · rw [if_pos hroom, Dns.readAnswers_drop_short hname (by omega), append_nil]
      rfl

/-- iOS reads the addresses of the message. -/
theorem parseAnswers_eq (hsize : data.count + 65546 ≤ 2 ^ 31) :
    parseAnswers data = .ok (Dns.readResponse data.bytes) := by
  rw [parseAnswers]
  by_cases hlong : 12 < data.count
  · obtain ⟨next, hskip, hname, _, hnext⟩ :=
      skipLabels_eq hsize (Nat.succ_pos _) (show data.count < data.count + 1 + 12 by omega)
        (show 12 ≤ data.count + 300 by omega)
    rw [if_neg (not_not.2 hlong), Data.byte_eq (show 6 < data.count by omega),
      Data.byte_eq (show 7 < data.count by omega), Dns.readResponse_drop (Nat.le_of_lt hlong) hname]
    simp only [bind, Except.bind]
    rw [u16_eq]
    by_cases hzero : Dns.number (data.at 6) (data.at 7) = 0
    · rw [if_pos hzero, show Dns.number (byteAt data.bytes 6) (byteAt data.bytes 7) = 0 from hzero]
      rfl
    rw [if_neg hzero, hskip]
    dsimp only
    rw [addInt_eq (show next + 4 < 2 ^ 63 by omega)]
    exact answers_eq hsize (by omega)
  · rw [if_pos hlong, Dns.readResponse_short (Nat.le_of_not_lt hlong)]
    rfl

end

end Ios

/-! ## Android -/

namespace Android

/-- Why a call does not return: an `ArrayIndexOutOfBoundsException`, or (in the model only) a read in the
    part of the buffer behind the message, or the recursion bound. -/
inductive Stop where
  | outOfBounds
  | beyondMessage
  | fuel
deriving DecidableEq

abbrev Kotlin (α : Type) := Except Stop α

/-- `a + b` on `Int`. -/
@[irreducible] def addInt (a b : Int) : Int := (a + b + 2 ^ 31) % 2 ^ 32 - 2 ^ 31

/-- `data[idx]`, in a message of `length` bytes -/
def read (data : List UInt8) (length idx : Int) : Kotlin UInt8 :=
  if idx < 0 ∨ data.length ≤ idx then .error .outOfBounds
  else if length ≤ idx then .error .beyondMessage
  else .ok (byteAt data idx.toNat)

/-- The `while` loop over the labels. -/
def skipLabels (data : List UInt8) (length : Int) : Nat → Int → Kotlin Int
  | 0, _ => .error .fuel
  | fuel + 1, idx =>
    if idx < length then do
      let len := (← read data length idx).toNat
      if len = 0 then pure (addInt idx 1)
      else if isPointer len then pure (addInt idx 2)
      else skipLabels data length fuel (addInt idx (1 + len))
    else pure idx

def skipName (data : List UInt8) (length idx : Int) : Kotlin Int := do
  if isPointer (← read data length idx).toNat then pure (addInt idx 2)
  else skipLabels data length (length.toNat + 1) idx

def answers (data : List UInt8) (length : Int) : Nat → Int → List String → Kotlin (List String)
  | 0, _, ips => pure ips
  | n + 1, idx, ips =>
    if ¬ addInt idx 10 ≤ length then pure ips
    else do
      let idx ← skipName data length idx
      -- checked once more, behind the name
      if length < addInt idx 10 then pure ips
      else do
        let rtype := u16 (← read data length idx) (← read data length (addInt idx 1))
        let rdlen := u16 (← read data length (addInt idx 8)) (← read data length (addInt idx 9))
        let idx := addInt idx 10
        if length < addInt idx rdlen then pure ips
        else if rtype = 1 ∧ rdlen = 4 then do
          let ip := Dns.dotted (← read data length idx) (← read data length (addInt idx 1))
            (← read data length (addInt idx 2)) (← read data length (addInt idx 3))
          answers data length n (addInt idx rdlen) (ips ++ [ip])
        else answers data length n (addInt idx rdlen) ips

def parseAnswers (data : List UInt8) (length : Int) : Kotlin (List String) :=
  if length < 12 then pure []
  else do
    let ancount := u16 (← read data length 6) (← read data length 7)
    if ancount = 0 then pure []
    else do
      let idx ← skipLabels data length (length.toNat + 1) 12
      answers data length ancount (addInt idx 4) []

section
variable {bytes rest : List UInt8}

theorem addInt_eq {a c : Nat} {b : Int} (h : (a : Int) + b = c) (hc : c < 2 ^ 31) :
    addInt a b = c := by
  rw [addInt]
  omega

variable {idx : Nat} {α : Type}

/-- Within the message the buffer holds the message. -/
theorem read_eq (h : idx < bytes.length) :
    read (bytes ++ rest) bytes.length idx = .ok (byteAt bytes idx) := by
  have hbuffer : ¬ ((idx : Int) < 0 ∨ ((bytes ++ rest).length : Int) ≤ idx) := by
    rw [length_append]
    omega
  rw [read, if_neg hbuffer, if_neg (by omega), Int.toNat_natCast, byteAt, byteAt,
    getD_eq_getElem?_getD, getD_eq_getElem?_getD, getElem?_append_left h]

theorem skipLabels_eq (hsize : bytes.length + 65546 ≤ 2 ^ 31) {fuel : Nat} : ∀ {idx : Nat},
    0 < fuel → bytes.length < fuel + idx → idx ≤ bytes.length + 300 →
    ∃ next : Nat, skipLabels (bytes ++ rest) bytes.length fuel idx = .ok (next : Int) ∧
      bytes.drop next = Dns.skipName (bytes.drop idx) ∧
      idx ≤ next ∧ next ≤ bytes.length + 300 := by
  induction fuel with
  | zero =>
    intro idx hpos
    exact absurd hpos (Nat.lt_irrefl _)
  | succ fuel ih =>
    intro idx _ hfuel hidx
    rw [skipLabels]
    by_cases hin : idx < bytes.length
    · rw [if_pos (Int.ofNat_lt.2 hin), read_eq hin, Dns.skipName_drop hin]
      have hlt := (byteAt bytes idx).toNat_lt
      simp only [bind, Except.bind]
      by_cases hzero : (byteAt bytes idx).toNat = 0
      · have hone : addInt idx 1 = ((idx + 1 : Nat) : Int) := addInt_eq (by omega) (by omega)
        rw [if_pos hzero, if_pos hzero, hone]
        exact ⟨idx + 1, rfl, rfl, by omega, by omega⟩
      rw [if_neg hzero, if_neg hzero]
      cases isPointer (byteAt bytes idx).toNat with
      | true =>
        have htwo : addInt idx 2 = ((idx + 2 : Nat) : Int) := addInt_eq (by omega) (by omega)
        rw [htwo]
        exact ⟨idx + 2, rfl, rfl, by omega, by omega⟩
      | false =>
        have hlabel : addInt idx (1 + (byteAt bytes idx).toNat) =
            ((idx + (1 + (byteAt bytes idx).toNat) : Nat) : Int) :=
          addInt_eq (by omega) (by omega)
        rw [hlabel]
        obtain ⟨next, heq, hdrop, hle, hnext⟩ :=
          ih (show 0 < fuel by omega) (show bytes.length < fuel + (idx + (1 + _)) by omega)
            (show idx + (1 + (byteAt bytes idx).toNat) ≤ bytes.length + 300 by omega)
        exact ⟨next, heq, hdrop, by omega, hnext⟩
    · rw [if_neg (mt Int.ofNat_lt.1 hin), Dns.skipName_drop_end (by omega)]
      exact ⟨idx, rfl, rfl, Nat.le_refl _, hidx⟩

theorem skipName_eq (hsize : bytes.length + 65546 ≤ 2 ^ 31) (hin : idx < bytes.length) :
    ∃ next : Nat, skipName (bytes ++ rest) bytes.length idx = .ok (next : Int) ∧
      bytes.drop next = Dns.skipName (bytes.drop idx) ∧
      idx ≤ next ∧ next ≤ bytes.length + 300 := by
  rw [skipName, read_eq hin]
  simp only [bind, Except.bind]
  cases hpointer : isPointer (byteAt bytes idx).toNat with
  | true =>
    have htwo : addInt idx 2 = ((idx + 2 : Nat) : Int) := addInt_eq (by omega) (by omega)
    rw [htwo]
    exact ⟨idx + 2, rfl, (Dns.skipName_drop_pointer hin hpointer).symm, by omega, by omega⟩
  | false =>
    rw [if_neg (by simp)]
    exact skipLabels_eq hsize (Nat.succ_pos _) (by omega) (by omega)

theorem ok_bind {β : Type} (a : α) (f : α → Kotlin β) : (Except.ok a >>= f) = f a := rfl

theorem pure_eq (a : α) : (pure a : Kotlin α) = .ok a := rfl

/-- The four bytes of an address. -/
theorem dotted_eq (hsize : bytes.length + 65546 ≤ 2 ^ 31) (h : idx + 4 ≤ bytes.length)
    (next : String → Kotlin (List String)) :
    (do
      let ip := Dns.dotted (← read (bytes ++ rest) bytes.length idx)
        (← read (bytes ++ rest) bytes.length (addInt idx 1))
        (← read (bytes ++ rest) bytes.length (addInt idx 2))
        (← read (bytes ++ rest) bytes.length (addInt idx 3))
      next ip) =
    next (Dns.dotted (byteAt bytes idx) (byteAt bytes (idx + 1)) (byteAt bytes (idx + 2))
      (byteAt bytes (idx + 3))) := by
  have hone : addInt idx 1 = ((idx + 1 : Nat) : Int) := addInt_eq (by omega) (by omega)
  have htwo : addInt idx 2 = ((idx + 2 : Nat) : Int) := addInt_eq (by omega) (by omega)
  have hthree : addInt idx 3 = ((idx + 3 : Nat) : Int) := addInt_eq (by omega) (by omega)
  rw [hone, htwo, hthree, read_eq (show idx < bytes.length by omega), ok_bind,
    read_eq (show idx + 1 < bytes.length by omega), ok_bind,
    read_eq (show idx + 2 < bytes.length by omega), ok_bind,
    read_eq (show idx + 3 < bytes.length by omega), ok_bind]

theorem answers_eq (hsize : bytes.length + 65546 ≤ 2 ^ 31) {n : Nat} :
    ∀ {idx : Nat} {ips : List String}, idx ≤ bytes.length + 304 →
      answers (bytes ++ rest) bytes.length n idx ips =
        .ok (ips ++ Dns.readAnswers n (bytes.drop idx)) := by
  induction n with
  | zero =>
    intro idx ips _
    rw [answers, Dns.readAnswers, append_nil, pure_eq]
  | succ n ih =>
    intro idx ips hidx
    have hstart : addInt idx 10 = ((idx + 10 : Nat) : Int) := addInt_eq (by omega) (by omega)
    rw [answers, hstart]
    by_cases hend : idx + 10 ≤ bytes.length
    · obtain ⟨next, hskip, hname, hle, hnext⟩ := skipName_eq hsize (show idx < bytes.length by omega)
      have hten : addInt next 10 = ((next + 10 : Nat) : Int) := addInt_eq (by omega) (by omega)
      have hhas : ¬ ¬ ((idx + 10 : Nat) : Int) ≤ bytes.length := by omega
      rw [if_neg hhas, hskip, ok_bind, hten]
      by_cases hroom : next + 10 ≤ bytes.length
      · have hone : addInt next 1 = ((next + 1 : Nat) : Int) := addInt_eq (by omega) (by omega)
        have height : addInt next 8 = ((next + 8 : Nat) : Int) := addInt_eq (by omega) (by omega)
        have hnine : addInt next 9 = ((next + 9 : Nat) : Int) := addInt_eq (by omega) (by omega)
        have hfits : ¬ bytes.length < ((next + 10 : Nat) : Int) := by omega
        rw [if_neg hfits, hone, height, hnine, read_eq (show next < bytes.length by omega), ok_bind,
          read_eq (show next + 1 < bytes.length by omega), ok_bind,
          read_eq (show next + 8 < bytes.length by omega), ok_bind,
          read_eq (show next + 9 < bytes.length by omega), ok_bind, u16_eq, u16_eq]
        have hlt := Dns.number_lt (byteAt bytes (next + 8)) (byteAt bytes (next + 9))
        rw [Dns.readAnswers_drop hname hroom rfl rfl]
        generalize Dns.number (byteAt bytes next) (byteAt bytes (next + 1)) = rtype
        generalize Dns.number (byteAt bytes (next + 8)) (byteAt bytes (next + 9)) = rdlen at hlt ⊢
        have hafter : addInt ((next + 10 : Nat) : Int) rdlen = ((next + 10 + rdlen : Nat) : Int) :=
          addInt_eq (by omega) (by omega)
        dsimp only
        rw [hafter]
        by_cases hdata : bytes.length < next + 10 + rdlen
        · have hcut : bytes.length < ((next + 10 + rdlen : Nat) : Int) := by omega
          rw [if_pos hcut, if_pos hdata, append_nil, pure_eq]
        have hall : ¬ bytes.length < ((next + 10 + rdlen : Nat) : Int) := by omega
        rw [if_neg hall, if_neg hdata]
        by_cases haddress : rtype = 1 ∧ rdlen = 4
        · have hfour := haddress.2
          rw [if_pos haddress, if_pos haddress]
          refine (dotted_eq hsize (show next + 10 + 4 ≤ bytes.length by omega)
            fun ip => answers (bytes ++ rest) bytes.length n ((next + 10 + rdlen : Nat) : Int)
              (ips ++ [ip])).trans ?_
          rw [ih (by omega), append_assoc, singleton_append]
        · rw [if_neg haddress, if_neg haddress]
          exact ih (by omega)
      · -- the name takes up what the check in front of it has seen
        have hshort : bytes.length < ((next + 10 : Nat) : Int) := by omega
        rw [if_pos hshort, Dns.readAnswers_drop_short hname (Nat.lt_of_not_le hroom), append_nil,
          pure_eq]
    · -- iOS would still skip the name here, and then find no room either
      have hshort : ¬ ((idx + 10 : Nat) : Int) ≤ bytes.length := by omega
      rw [if_pos hshort, Dns.readAnswers_drop_few (Nat.lt_of_not_le hend), append_nil, pure_eq]

/-- Android reads the addresses of the message, whatever stands behind it in the buffer. -/
theorem parseAnswers_eq (hsize : bytes.length + 65546 ≤ 2 ^ 31) :
    parseAnswers (bytes ++ rest) bytes.length = .ok (Dns.readResponse bytes) := by
  rw [parseAnswers]
  by_cases hheader : bytes.length < 12
  · have hshort : (bytes.length : Int) < 12 := by omega
    rw [if_pos hshort, Dns.readResponse_short (Nat.le_of_lt hheader), pure_eq]
  have hlong : ¬ (bytes.length : Int) < 12 := by omega
  have hsix : read (bytes ++ rest) bytes.length 6 = .ok (byteAt bytes 6) :=
    read_eq (show 6 < bytes.length by omega)
  have hseven : read (bytes ++ rest) bytes.length 7 = .ok (byteAt bytes 7) :=
    read_eq (show 7 < bytes.length by omega)
  rw [if_neg hlong, hsix, ok_bind, hseven, ok_bind, u16_eq]
  obtain ⟨next, hskip, hname, _, hnext⟩ :=
    @skipLabels_eq bytes rest hsize _ _ (Nat.succ_pos _)
      (show bytes.length < bytes.length + 1 + 12 by omega)
      (show 12 ≤ bytes.length + 300 by omega)
  have hfour : addInt next 4 = ((next + 4 : Nat) : Int) := addInt_eq (by omega) (by omega)
  have hread : answers (bytes ++ rest) bytes.length
        (Dns.number (byteAt bytes 6) (byteAt bytes 7)) (addInt next 4) [] =
      .ok (Dns.readResponse bytes) := by
    rw [hfour, answers_eq hsize (by omega), nil_append,
      Dns.readResponse_drop (Nat.le_of_not_lt hheader) hname]
  by_cases hzero : Dns.number (byteAt bytes 6) (byteAt bytes 7) = 0
  · rw [Dns.readResponse_drop (Nat.le_of_not_lt hheader) hname, hzero]
    rfl
  · rw [if_neg hzero]
    exact (congrArg (· >>= _) hskip).trans hread

end

end Android

/-! ## Agreement

A UDP message has fewer than 65536 bytes, and Android receives into a buffer of 1500, so that no index
leaves `Int`. -/

theorem readers_agree (data : ZhtpCodec.Data) (rest : List UInt8)
    (hsize : data.count + 65546 ≤ 2 ^ 31) :
    (∃ ips, Ios.parseAnswers data = .ok ips ∧
      Android.parseAnswers (data.bytes ++ rest) data.count = .ok ips) ∧
    ∀ r : Dns.Response, data.bytes = r.encode →
      Ios.parseAnswers data = .ok (r.answers.filterMap Dns.Record.address) ∧
      Android.parseAnswers (data.bytes ++ rest) data.count =
        .ok (r.answers.filterMap Dns.Record.address) := by
  have hios := Ios.parseAnswers_eq hsize
  have handroid := @Android.parseAnswers_eq data.bytes rest hsize
  constructor
  · exact ⟨Dns.readResponse data.bytes, hios, handroid⟩
  · intro r hr
    have hread : Dns.readResponse data.bytes = r.answers.filterMap Dns.Record.address := by
      rw [hr]
      exact Dns.readResponse_encode r
    rw [hread] at hios handroid
    exact ⟨hios, handroid⟩

/-- Two addresses with a text between them; the owners are a pointer, a label, and a label that ends in
    a pointer. -/
def textBetween : Dns.Response where
  id := 0x1234
  flags := 0x8180
  nscount := 0
  arcount := 0
  qname := ⟨[⟨[110], by decide, by decide⟩], .root⟩
  qtype := 1
  qclass := 1
  answers :=
    [⟨⟨[], .pointer 12⟩, 1, 1, 60, [10, 0, 0, 1], by decide⟩,
      ⟨⟨[⟨[110], by decide, by decide⟩], .root⟩, 16, 1, 60, [104, 105], by decide⟩,
      ⟨⟨[⟨[109], by decide, by decide⟩], .pointer 12⟩, 1, 1, 60, [192, 168, 0, 7], by decide⟩]
  answers_lt := by decide
  rest := []

theorem readers_agree_textBetween :
    Ios.parseAnswers ⟨textBetween.encode, by decide⟩ = .ok ["10.0.0.1", "192.168.0.7"] ∧
    Android.parseAnswers (textBetween.encode ++ [1, 2, 3]) textBetween.encode.length =
      .ok ["10.0.0.1", "192.168.0.7"] :=
  (readers_agree ⟨textBetween.encode, by decide⟩ [1, 2, 3] (by decide)).2 textBetween rfl

end DnsUdp
