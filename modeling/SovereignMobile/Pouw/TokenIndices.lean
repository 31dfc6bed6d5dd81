import SovereignMobile.Codec.CborHeader
import SovereignMobile.Protobuf.Rounds
import SovereignMobile.Pouw.ChallengeToken

/-! # The indices of the iOS token reader

`parseChallengeTokenProtobuf` of `RCTPoUW.swift` with its `index` into `data`, and every operation on
which Swift traps where its operands are out of range. `ChallengeToken.lean` has the same reader on the
bytes that are left; `parse_eq` says that the two do the same. -/

namespace Pouw.Ios.Indexed

open Protobuf ZhtpCodec List
open Relation.ReflTransGen (cases_head)

/-- `guard let x = m else { return nil }` -/
def guardLet {α β : Type} (m : Swift (Option α)) (f : α → Swift (Option β)) : Swift (Option β) :=
  m >>= fun x =>
    match x with
    | none => pure none
    | some a => f a

/-- `guard index + n <= data.count else { return nil }`, and `index += n` -/
def skip (data : Data) (index n : Nat) : Swift (Option Nat) := do
  let stop ← addInt index n
  if stop ≤ data.count then
    let index ← addInt index n
    pure (some index)
  else pure none

/-- `a + b` on `UInt64`. -/
def addUInt64 (a b : UInt64) : Swift UInt64 :=
  if a.toNat + b.toNat < 2 ^ 64 then .ok (a + b) else .error .trap

/-- The loop of `readVarint`; `fuel` bounds its rounds. -/
def readVarintFrom (data : Data) : Nat → UInt64 → UInt64 → Nat → Swift (Option (UInt64 × Nat))
  | 0, _, _, _ => .error .fuel
  | fuel + 1, value, shift, index =>
    if index < data.count ∧ shift ≤ 63 then do
      let byte ← data.byte index
      let index ← addInt index 1
      let value := value ||| (byte &&& 0x7F).toUInt64 <<< shift
      if byte &&& 0x80 = 0 then pure (some (value, index))
      else
        let shift ← addUInt64 shift 7
        readVarintFrom data fuel value shift index
    else pure none

def readVarint (data : Data) (index : Nat) : Swift (Option (UInt64 × Nat)) :=
  readVarintFrom data (data.count + 1) 0 0 index

/-- One round of the loop: what is found, and the new `index`. -/
def readField (data : Data) (s : Found) (index : Nat) : Swift (Option (Found × Nat)) :=
  guardLet (readVarint data index) fun (key, index) => do
    let fieldNumber ← toInt (key >>> 3)
    let wireType ← toInt (key &&& 0x07)
    if wireType = 0 then guardLet (readVarint data index) fun (_, index) => pure (some (s, index))
    else if wireType = 1 then guardLet (skip data index 8) fun index => pure (some (s, index))
    else if wireType = 2 then
      guardLet (readVarint data index) fun (length, index) => do
        let len ← toInt length
        let stop ← addInt index len
        if 0 ≤ len ∧ stop ≤ data.count then
          let value ← data.subdata index stop
          let index ← addInt index len
          pure (some (s.record fieldNumber value, index))
        else pure none
    else if wireType = 5 then guardLet (skip data index 4) fun index => pure (some (s, index))
    else pure none

def readFields (data : Data) : Nat → Found → Nat → Swift (Option Found)
  | 0, _, _ => .error .fuel
  | fuel + 1, s, index =>
    if index < data.count then
      guardLet (readField data s index) fun (s, index) => readFields data fuel s index
    else pure (some s)

def parseChallengeTokenProtobuf (data : Data) : Swift (Option ParsedToken) :=
  guardLet (readFields data (data.count + 1) {} 0) fun s => pure s.finish

/-! ## On the bytes that are left -/

/-- What a reader of the bytes that are left comes to, as an index. -/
def indexed {α : Type} (data : Data) (r : Option (α × List UInt8)) : Option (α × Nat) :=
  r.map fun (a, rest) => (a, data.count - rest.length)

variable {data : Data} {index fuel : Nat}

theorem drop_eq_cons (h : index < data.count) :
    data.bytes.drop index = data.at index :: data.bytes.drop (index + 1) := by
  have h' : index < data.bytes.length := h
  rw [drop_eq_getElem_cons h']
  simp [Data.at, getElem?_eq_getElem h']

theorem continued_iff (byte : UInt8) : byte &&& 0x80 = 0 ↔ byte.toNat < 128 := by
  have h : ∀ x : BitVec 8, x &&& 0x80#8 = 0#8 ↔ x.toNat < 128 := by decide
  have hbyte := h byte.toBitVec
  rw [← UInt8.toBitVec_inj]
  exact hbyte

theorem digit_toBitVec (value shift : UInt64) (byte : UInt8) :
    (value ||| (byte &&& 0x7F).toUInt64 <<< shift).toBitVec =
      value.toBitVec ||| BitVec.ofNat 64 (byte.toNat % 128) <<< (shift.toNat % 64) := by
  have hbyte : (byte &&& 0x7F).toUInt64.toBitVec = BitVec.ofNat 64 (byte.toNat % 128) := by
    apply BitVec.eq_of_toNat_eq
    have hand : (byte &&& 0x7F).toNat = byte.toNat % 128 := by
      rw [UInt8.toNat_and]
      exact Nat.and_two_pow_sub_one_eq_mod _ 7
    have hlt : byte.toNat % 128 < 2 ^ 64 := by omega
    rw [BitVec.toNat_ofNat, Nat.mod_eq_of_lt hlt, ← hand]
    simp
  rw [UInt64.toBitVec_or, UInt64.toBitVec_shiftLeft, hbyte]
  rfl

theorem readVarintFrom_eq (data : Data) : ∀ (value shift : UInt64) {index : Nat},
    index ≤ data.count → data.count - index < fuel → shift.toNat ≤ 70 →
    readVarintFrom data fuel value shift index = .ok ((indexed data
      (readVarintLoop 64 (· ≤ 63) (data.bytes.drop index) value.toBitVec shift.toNat)).map
        fun p => (⟨p.1⟩, p.2)) := by
  induction fuel with
  | zero =>
    intro value shift index _ hfuel _
    omega
  | succ fuel ih =>
    intro value shift index hindex hfuel hshift
    by_cases hin : index < data.count
    · rw [drop_eq_cons hin, readVarintFrom, readVarintLoop]
      have hle : shift ≤ 63 ↔ shift.toNat ≤ 63 := UInt64.le_iff_toNat_le
      by_cases hsmall : shift.toNat ≤ 63
      · have hcount : data.count < 2 ^ 63 := data.count_lt
        have hsum : (shift + 7).toNat = shift.toNat + 7 := by
          rw [UInt64.toNat_add]
          exact Nat.mod_eq_of_lt (by simp only [UInt64.reduceToNat]; omega)
        have hin' : index + 1 ≤ data.count := hin
        have hnext := ih (value ||| (data.at index &&& 0x7F).toUInt64 <<< shift) (shift + 7) hin'
          (by omega) (by omega)
        rw [hsum, digit_toBitVec] at hnext
        rw [if_pos ⟨hin, hle.2 hsmall⟩, Data.byte_eq hin, if_pos (decide_eq_true hsmall)]
        simp only [bind, Except.bind, addInt_eq (show index + 1 < 2 ^ 63 by omega), pure, Except.pure]
        by_cases hlast : (data.at index).toNat < 128
        · have hdrop : data.count - (data.bytes.drop (index + 1)).length = index + 1 := by
            have hlen : data.bytes.length = data.count := rfl
            rw [length_drop]
            omega
          rw [if_pos ((continued_iff _).2 hlast), if_pos hlast]
          simp only [indexed, Option.map_some, hdrop, ← digit_toBitVec]
        · rw [if_neg fun h => hlast ((continued_iff _).1 h), if_neg hlast, addUInt64,
            if_pos (by simp only [UInt64.reduceToNat]; omega)]
          exact hnext
      · rw [if_neg fun h => hsmall (hle.1 h.2), if_neg (by simpa using hsmall)]
        rfl
    · have hnil : data.bytes.drop index = [] := drop_eq_nil_of_le (Nat.le_of_not_lt hin)
      rw [hnil, readVarintFrom, if_neg fun h => hin h.1]
      rfl

theorem drop_of_suffix {rest : List UInt8} (h : rest <:+ data.bytes) :
    data.bytes.drop (data.count - rest.length) = rest :=
  (suffix_iff_eq_drop.1 h).symm

/-- `readVarint` reads the varint that stands at `index`, if there is one. -/
theorem readVarint_cases (data : Data) (hindex : index ≤ data.count) :
    (readVarintLoop 64 (· ≤ 63) (data.bytes.drop index) 0 0 = none ∧
        readVarint data index = .ok none) ∨
      ∃ x next, index < next ∧ next ≤ data.count ∧
        readVarintLoop 64 (· ≤ 63) (data.bytes.drop index) 0 0 = some (x, data.bytes.drop next) ∧
        readVarint data index = .ok (some (⟨x⟩, next)) := by
  have hfuel : data.count - index < data.count + 1 := by omega
  have heq := readVarintFrom_eq data 0 0 hindex hfuel (by simp)
  have hzero : (0 : UInt64).toBitVec = 0 := rfl
  have hzero' : (0 : UInt64).toNat = 0 := rfl
  rw [hzero, hzero'] at heq
  cases hloop : readVarintLoop 64 (· ≤ 63) (data.bytes.drop index) 0 0 with
  | none =>
    rw [hloop] at heq
    exact .inl ⟨rfl, heq⟩
  | some p =>
    obtain ⟨x, rest⟩ := p
    rw [hloop] at heq
    obtain ⟨b, bytes, hdrop, hrest⟩ := suffix_readVarintLoop hloop
    have hsuffix : rest <:+ data.bytes := by
      have hcons : b :: bytes <:+ data.bytes := hdrop ▸ drop_suffix index data.bytes
      exact (hrest.trans (suffix_cons b bytes)).trans hcons
    have hlen := hrest.length_le
    have hlen' : data.count - index = bytes.length + 1 := by
      have := congrArg List.length hdrop
      rwa [length_drop] at this
    refine .inr ⟨x, data.count - rest.length, ?_, Nat.sub_le _ _, ?_, heq⟩
    · omega
    · rw [drop_of_suffix hsuffix]

section
variable {α β : Type}

theorem ok_bind (a : α) (f : α → Swift β) : (Except.ok a >>= f) = f a := rfl

theorem guardLet_some (a : α) (f : α → Swift (Option β)) : guardLet (.ok (some a)) f = f a := rfl

theorem guardLet_none (f : α → Swift (Option β)) : guardLet (.ok none) f = .ok none := rfl

end

theorem skip_cases (data : Data) (index n : Nat) :
    (¬ index + n < 2 ^ 63 ∧ skip data index n = .error .trap) ∨
      index + n < 2 ^ 63 ∧ (data.count < index + n ∧ skip data index n = .ok none ∨
        index + n ≤ data.count ∧ skip data index n = .ok (some (index + n))) := by
  unfold skip
  by_cases hfit : index + n < 2 ^ 63
  · rw [addInt_eq hfit, ok_bind]
    by_cases hin : index + n ≤ data.count
    · rw [if_pos hin]
      exact .inr ⟨hfit, .inr ⟨hin, rfl⟩⟩
    · rw [if_neg hin]
      exact .inr ⟨hfit, .inl ⟨Nat.lt_of_not_le hin, rfl⟩⟩
  · rw [addInt, if_neg hfit]
    exact .inl ⟨hfit, rfl⟩

/-- What is done with a length: the position behind the value is computed before it is looked at. -/
theorem value_cases (data : Data) (s : Found) (fieldNumber index : Nat) (length : BitVec 64)
    (read : Swift (Option (Found × Nat)))
    (hread : read = do
      let len ← toInt (UInt64.ofBitVec length)
      let stop ← addInt index len
      if 0 ≤ len ∧ stop ≤ data.count then
        let value ← data.subdata index stop
        let index ← addInt index len
        pure (some (s.record fieldNumber value, index))
      else pure none) :
    (¬ index + length.toNat < 2 ^ 63 ∧ read = .error .trap) ∨
      index + length.toNat < 2 ^ 63 ∧ (data.count < index + length.toNat ∧ read = .ok none ∨
        index + length.toNat ≤ data.count ∧
          read = .ok (some (s.record fieldNumber ((data.bytes.drop index).take length.toNat),
            index + length.toNat))) := by
  rw [hread]
  by_cases hfit : index + length.toNat < 2 ^ 63
  · have hlen : toInt (UInt64.ofBitVec length) = .ok length.toNat :=
      if_pos (show length.toNat < 2 ^ 63 by omega)
    rw [hlen, ok_bind, addInt_eq hfit, ok_bind]
    by_cases hin : index + length.toNat ≤ data.count
    · rw [if_pos ⟨Nat.zero_le _, hin⟩, Data.subdata, if_pos ⟨Nat.le_add_right _ _, hin⟩,
        Nat.add_sub_cancel_left]
      exact .inr ⟨hfit, .inr ⟨hin, rfl⟩⟩
    · rw [if_neg fun h => hin h.2]
      exact .inr ⟨hfit, .inl ⟨Nat.lt_of_not_le hin, rfl⟩⟩
  · refine .inl ⟨hfit, ?_⟩
    by_cases hint : length.toNat < 2 ^ 63
    · have hlen : toInt (UInt64.ofBitVec length) = .ok length.toNat := if_pos hint
      rw [hlen, ok_bind, addInt, if_neg hfit]
      rfl
    · have hlen : toInt (UInt64.ofBitVec length) = .error .trap := if_neg hint
      rw [hlen]
      rfl

/-! ## Traps -/

/-- The position that the bounds check of the field at `index` computes is an `Int`. -/
def Fits (data : Data) (index : Nat) : Prop :=
  ∀ key rest, readVarintLoop 64 (· ≤ 63) (data.bytes.drop index) 0 0 = some (key, rest) →
    (key.toNat % 8 = 1 → data.count - rest.length + 8 < 2 ^ 63) ∧
    (key.toNat % 8 = 5 → data.count - rest.length + 4 < 2 ^ 63) ∧
    (key.toNat % 8 = 2 → ∀ length rest',
      readVarintLoop 64 (· ≤ 63) rest 0 0 = some (length, rest') →
        data.count - rest'.length + length.toNat < 2 ^ 63)

theorem length_drop_count (h : index ≤ data.count) :
    data.count - (data.bytes.drop index).length = index := by
  have hlen : data.bytes.length = data.count := rfl
  rw [length_drop]
  omega

theorem toInt_number (key : BitVec 64) : toInt (UInt64.ofBitVec key >>> 3) = .ok (key.toNat / 8) := by
  have hkey : (UInt64.ofBitVec key >>> 3).toNat = key.toNat / 8 := by
    rw [UInt64.toNat_shiftRight]
    exact Nat.shiftRight_eq_div_pow _ 3
  rw [toInt, hkey, if_pos (by omega)]

theorem toInt_wireType (key : BitVec 64) :
    toInt (UInt64.ofBitVec key &&& 0x07) = .ok (key.toNat % 8) := by
  have hkey : (UInt64.ofBitVec key &&& 0x07).toNat = key.toNat % 8 := by
    rw [UInt64.toNat_and]
    exact Nat.and_two_pow_sub_one_eq_mod _ 3
  rw [toInt, hkey, if_pos (by omega)]

/-- A round traps where the position does not fit, and so does that of the other model unless the
    position is the one behind a fixed field. Otherwise both give up, or both get further. -/
theorem readField_cases (data : Data) (s : Found) (hindex : index ≤ data.count) :
    (¬ Fits data index ∧ readField data s index = .error .trap ∧ (data.count + 8 < 2 ^ 63 →
        Ios.step data.count s (data.bytes.drop index) = .error .trap)) ∨
      Fits data index ∧ ((readField data s index = .ok none ∧
          Ios.step data.count s (data.bytes.drop index) = .error .nil) ∨
        ∃ s' next, index < next ∧ next ≤ data.count ∧
          readField data s index = .ok (some (s', next)) ∧
          Ios.step data.count s (data.bytes.drop index) = .ok (s', data.bytes.drop next)) := by
  have hlen : ∀ i, (data.bytes.drop i).length = data.count - i := fun i => length_drop
  unfold readField Ios.step Pouw.readField
  dsimp only
  rcases readVarint_cases data hindex with ⟨hnone, hread⟩ | ⟨key, next, hlt, hle, hsome, hread⟩
  · rw [hread, hnone]
    refine .inr ⟨fun key rest h => ?_, .inl ⟨rfl, rfl⟩⟩
    rw [hnone] at h
    cases h
  have hfits : Fits data index ↔
      (key.toNat % 8 = 1 → next + 8 < 2 ^ 63) ∧ (key.toNat % 8 = 5 → next + 4 < 2 ^ 63) ∧
      (key.toNat % 8 = 2 → ∀ length rest',
        readVarintLoop 64 (· ≤ 63) (data.bytes.drop next) 0 0 = some (length, rest') →
          data.count - rest'.length + length.toNat < 2 ^ 63) := by
    unfold Fits
    rw [hsome]
    constructor
    · intro h
      have := h key _ rfl
      rwa [length_drop_count hle] at this
    · intro h key' rest he
      cases he
      rwa [length_drop_count hle]
  rw [hread, guardLet_some, hfits, hsome]
  dsimp only
  rw [toInt_number, ok_bind, toInt_wireType, ok_bind]
  by_cases h0 : key.toNat % 8 = 0
  · -- no position is computed for a varint
    rw [if_pos h0, if_pos h0]
    refine .inr ⟨by omega, ?_⟩
    rcases readVarint_cases data hle with
      ⟨hnone, hread'⟩ | ⟨x, next', hlt', hle', hsome', hread'⟩
    · rw [hread', guardLet_none, hnone]
      exact .inl ⟨rfl, rfl⟩
    · rw [hread', guardLet_some, hsome']
      exact .inr ⟨s, next', by omega, hle', rfl, rfl⟩
  rw [if_neg h0, if_neg h0]
  by_cases h1 : key.toNat % 8 = 1
  · rw [if_pos h1, if_pos h1, hlen]
    rcases skip_cases data next 8 with ⟨hfit, hskip⟩ | ⟨hfit, ⟨hin, hskip⟩ | ⟨hin, hskip⟩⟩
    · rw [hskip]
      exact .inl ⟨fun h => hfit (h.1 h1), rfl, fun hcount => absurd hfit (by omega)⟩
    · rw [hskip, if_pos (by omega)]
      exact .inr ⟨by omega, .inl ⟨rfl, rfl⟩⟩
    · rw [hskip, if_neg (by omega), drop_drop]
      exact .inr ⟨by omega, .inr ⟨s, next + 8, by omega, hin, rfl, rfl⟩⟩
  rw [if_neg h1, if_neg h1]
  by_cases h2 : key.toNat % 8 = 2
  · -- the only position that the input can make as large as it likes
    rw [if_pos h2, if_pos h2]
    rcases readVarint_cases data hle with
      ⟨hnone, hread'⟩ | ⟨x, next', hlt', hle', hsome', hread'⟩
    · rw [hread', hnone]
      exact .inr ⟨⟨by omega, by omega, by simp⟩, .inl ⟨rfl, rfl⟩⟩
    -- the condition is about this length
    have hlength : (∀ length rest', some (x, data.bytes.drop next') = some (length, rest') →
        data.count - rest'.length + length.toNat < 2 ^ 63) ↔ next' + x.toNat < 2 ^ 63 := by
      constructor
      · intro h
        have := h x _ rfl
        rwa [length_drop_count hle'] at this
      · intro h length rest' he
        cases he
        rwa [length_drop_count hle']
    have hat : data.count - (data.count - next') = next' := by omega
    rw [hread', hsome', hlength]
    dsimp only
    rw [hlen, hat]
    rcases value_cases data s (key.toNat / 8) next' x _ rfl with
      ⟨hfit, hvalue⟩ | ⟨hfit, ⟨hin, hvalue⟩ | ⟨hin, hvalue⟩⟩
    · rw [if_neg fun h => hfit h.2]
      exact .inl ⟨fun h => hfit (h.2.2 h2), hvalue, fun _ => rfl⟩
    all_goals
      rw [if_pos ⟨by omega, hfit⟩]
      dsimp only
      refine .inr ⟨⟨by omega, by omega, fun _ => hfit⟩, ?_⟩
    · rw [if_pos (by omega)]
      exact .inl ⟨hvalue, rfl⟩
    · rw [if_neg (by omega), drop_drop]
      exact .inr ⟨_, next' + x.toNat, by omega, hin, hvalue, rfl⟩
  rw [if_neg h2, if_neg h2]
  by_cases h5 : key.toNat % 8 = 5
  · rw [if_pos h5, if_pos h5, hlen]
    rcases skip_cases data next 4 with ⟨hfit, hskip⟩ | ⟨hfit, ⟨hin, hskip⟩ | ⟨hin, hskip⟩⟩
    · rw [hskip]
      exact .inl ⟨fun h => hfit (h.2.1 h5), rfl, fun hcount => absurd hfit (by omega)⟩
    · rw [hskip, if_pos (by omega)]
      exact .inr ⟨by omega, .inl ⟨rfl, rfl⟩⟩
    · rw [hskip, if_neg (by omega), drop_drop]
      exact .inr ⟨by omega, .inr ⟨s, next + 4, by omega, hin, rfl, rfl⟩⟩
  -- any other wire type ends the reader
  rw [if_neg h5, if_neg h5]
  exact .inr ⟨by omega, .inl ⟨rfl, rfl⟩⟩

/-! ## The two readers -/

/-- What ends the reader of the bytes that are left, as an end of this one. -/
def ofStop {α : Type} : Except Ios.Stop α → Swift (Option α)
  | .ok a => .ok (some a)
  | .error .nil => .ok none
  | .error .trap => .error .trap

theorem readFields_eq (hcount : data.count + 8 < 2 ^ 63) {n : Nat} :
    ∀ (s : Found) {index : Nat}, index ≤ data.count → data.count - index ≤ n →
      readFields data (n + 1) s index =
        ofStop (readAll (Ios.step data.count) n s (data.bytes.drop index)) := by
  induction n with
  | zero =>
    intro s index hindex hn
    have hnil : data.bytes.drop index = [] := drop_eq_nil_of_le (Nat.le_of_sub_eq_zero
      (Nat.le_zero.1 hn))
    rw [hnil, readFields, if_neg (by omega)]
    rfl
  | succ n ih =>
    intro s index hindex hn
    by_cases hin : index < data.count
    · have hne : data.bytes.drop index ≠ [] := by
        rw [drop_eq_cons hin]
        exact cons_ne_nil _ _
      rw [readFields, if_pos hin, readAll_step hne]
      rcases readField_cases data s hindex with
        ⟨-, hread, hstep⟩ | ⟨-, ⟨hread, hstep⟩ | ⟨s', next, hlt, hle, hread, hstep⟩⟩
      · rw [hread, hstep hcount]
        rfl
      · rw [hread, hstep]
        rfl
      · rw [hread, hstep]
        exact ih s' hle (by omega)
    · have hnil : data.bytes.drop index = [] := drop_eq_nil_of_le (Nat.le_of_not_lt hin)
      rw [hnil, readFields, if_neg hin]
      rfl

/-- The two models of the reader agree on any data that leaves room behind it for a fixed field. -/
theorem parse_eq (hcount : data.count + 8 < 2 ^ 63) :
    parseChallengeTokenProtobuf data = ofStop (Ios.parseChallengeTokenProtobuf data.bytes) := by
  have hread := readFields_eq hcount {} (Nat.zero_le _) (Nat.le_refl (data.count - 0))
  rw [Nat.sub_zero, drop_zero] at hread
  unfold parseChallengeTokenProtobuf Ios.parseChallengeTokenProtobuf
  rw [hread]
  have hlen : data.bytes.length = data.count := rfl
  rw [hlen]
  cases readAll (Ios.step data.count) data.count {} data.bytes with
  | error e => cases e <;> rfl
  | ok s =>
    simp only [guardLet, ofStop, bind, Except.bind]
    cases s.finish <;> rfl

theorem parse_eq_twoFields :
    parseChallengeTokenProtobuf ⟨[0x1A, 1, 7, 0x22, 1, 9], by decide⟩ =
      ofStop (Ios.parseChallengeTokenProtobuf [0x1A, 1, 7, 0x22, 1, 9]) :=
  parse_eq (by decide)

/-! ## Runs -/

/-- One round that goes on. -/
def Round (data : Data) (a b : Found × Nat) : Prop :=
  a.2 < data.count ∧ readField data a.1 a.2 = .ok (some b)

theorem readFields_ok_iff (data : Data) : ∀ (s : Found) {index : Nat},
    index ≤ data.count → data.count - index < fuel →
    ((∃ r, readFields data fuel s index = .ok r) ↔
      ∀ s' at', Relation.ReflTransGen (Round data) (s, index) (s', at') → at' < data.count →
        Fits data at') := by
  induction fuel with
  | zero =>
    intro s index _ hfuel
    omega
  | succ fuel ih =>
    intro s index hindex hfuel
    rw [readFields]
    by_cases hin : index < data.count
    · rw [if_pos hin]
      rcases readField_cases data s hindex with
        ⟨hfits, htrap, -⟩ | ⟨hfits, ⟨hnone, -⟩ | ⟨s', next, hlt, hle, hsome, -⟩⟩
      · rw [htrap]
        refine iff_of_false ?_ fun h => hfits (h s index .refl hin)
        rintro ⟨r, hr⟩
        cases hr
      · rw [hnone]
        refine iff_of_true ⟨none, rfl⟩ fun s' at' hreach hlt => ?_
        rcases cases_head hreach with he | ⟨⟨s1, i1⟩, hround, -⟩
        · cases he
          exact hfits
        · have := hround.2
          rw [hnone] at this
          cases this
      · rw [hsome]
        refine .trans (ih s' hle (by omega)) ?_
        constructor
        · intro h s2 at2 hreach hlt2
          rcases cases_head hreach with he | ⟨⟨s1, i1⟩, hround, hrest⟩
          · cases he
            exact hfits
          have hnext := hround.2
          rw [hsome] at hnext
          cases hnext
          exact h s2 at2 hrest hlt2
        · intro h s2 at2 hreach hlt2
          exact h s2 at2 (.head ⟨hin, hsome⟩ hreach) hlt2
    · rw [if_neg hin]
      refine iff_of_true ⟨some s, rfl⟩ fun s' at' hreach hlt => ?_
      rcases cases_head hreach with he | ⟨⟨s1, i1⟩, hround, -⟩
      · cases he
        exact absurd hlt hin
      · exact absurd hround.1 hin

/-- The reader returns a pair or `nil`, and every round gets further in the data. -/
structure NeverTraps (data : Data) : Prop where
  returns : ∃ r, parseChallengeTokenProtobuf data = .ok r
  advances : ∀ s index s' next, index ≤ data.count →
    readField data s index = .ok (some (s', next)) → index < next ∧ next ≤ data.count

/-- The reader never traps exactly if the position computed for each field that it gets to is an
    `Int`. -/
theorem never_traps_iff (data : Data) :
    NeverTraps data ↔ ∀ s index, Relation.ReflTransGen (Round data) ({}, 0) (s, index) →
      index < data.count → Fits data index := by
  rw [← readFields_ok_iff data {} (Nat.zero_le _) (show data.count - 0 < data.count + 1 by omega)]
  constructor
  · rintro ⟨⟨r, hr⟩, -⟩
    unfold parseChallengeTokenProtobuf at hr
    cases hread : readFields data (data.count + 1) {} 0 with
    | error e =>
      rw [hread] at hr
      cases hr
    | ok s => exact ⟨s, rfl⟩
  · rintro ⟨r, hr⟩
    constructor
    · unfold parseChallengeTokenProtobuf
      rw [hr]
      cases r with
      | none => exact ⟨none, rfl⟩
      | some s => exact ⟨s.finish, rfl⟩
    · intro s index s' next hindex hround
      rcases readField_cases data s hindex with
        ⟨-, htrap, -⟩ | ⟨-, ⟨hnone, -⟩ | ⟨s1, next1, hlt, hle, hsome, -⟩⟩
      · rw [htrap] at hround
        cases hround
      · rw [hnone] at hround
        cases hround
      · rw [hsome] at hround
        cases hround
        exact ⟨hlt, hle⟩

/-- Field 3 of the length `2^64 - 1`. -/
theorem longest_field_traps :
    ¬ NeverTraps ⟨[0x1A, 0xFF, 0xFF, 0xFF, 0xFF, 0xFF, 0xFF, 0xFF, 0xFF, 0xFF, 1], by decide⟩ := by
  intro h
  obtain ⟨r, hr⟩ := h.returns
  have htrap : parseChallengeTokenProtobuf
      ⟨[0x1A, 0xFF, 0xFF, 0xFF, 0xFF, 0xFF, 0xFF, 0xFF, 0xFF, 0xFF, 1], by decide⟩ =
      .error .trap := by decide
  rw [htrap] at hr
  cases hr

end Pouw.Ios.Indexed
