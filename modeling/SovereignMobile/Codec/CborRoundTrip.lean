import SovereignMobile.Codec.CborTotality
import Mathlib.Data.List.Nodup
import Mathlib.Data.List.Perm.Basic

/-! # Decoding what was encoded

The decoder's table of simple values is not the encoder's: `null` comes back as `true`, `true` as
`false` and `false` as `null`. Everything else comes back as it was, so a value survives the round
trip exactly if neither `null` nor a boolean occurs in it (`roundTrips_iff_plain`). -/

namespace ZhtpCodec

open List
open UInt64 (toNat_ofNat' toNat_toUInt8)

/-! ## Values and what comes back -/

section Values
variable (nfc : String → String)

def misreadBool : Bool → Decoded
  | true => .bool false
  | false => .null

def readBackInt (n : Int64) : Decoded := if 0 ≤ n then .uint n.toUInt64 else .int n

mutual
/-- What the decoder makes of the encoding of a value. -/
def readBack : Json → Decoded
  | .null => .bool true
  | .bool b => misreadBool b
  | .int n => readBackInt n
  | .double bits => .double bits
  | .string s => .string s
  | .array items => .array (readBackItems items)
  | .dict entries => .dict ((readBackEntries entries).mergeSort fun a b => keyLe nfc a.1 b.1)

def readBackItems : List Json → List Decoded
  | [] => []
  | v :: vs => readBack v :: readBackItems vs

def readBackEntries : List (String × Json) → List (String × Decoded)
  | [] => []
  | (k, v) :: es => (k, readBack v) :: readBackEntries es
end

mutual
/-- The keys of every dictionary in the value are distinct, as Swift compares them. -/
def Json.Keyed : Json → Prop
  | .array items => KeyedItems items
  | .dict entries => entries.Pairwise (fun a b => sameKey nfc a.1 b.1 = false) ∧
      KeyedEntries entries
  | _ => True

def KeyedItems : List Json → Prop
  | [] => True
  | v :: vs => v.Keyed ∧ KeyedItems vs

def KeyedEntries : List (String × Json) → Prop
  | [] => True
  | (_, v) :: es => v.Keyed ∧ KeyedEntries es
end

end Values

mutual
/-- Neither `null` nor a boolean occurs in the value. -/
def Json.plain : Json → Bool
  | .null => false
  | .bool _ => false
  | .array items => plainItems items
  | .dict entries => plainEntries entries
  | _ => true

def plainItems : List Json → Bool
  | [] => true
  | v :: vs => v.plain && plainItems vs

def plainEntries : List (String × Json) → Bool
  | [] => true
  | (_, v) :: es => v.plain && plainEntries es
end

mutual
/-- The decoded value is `v`: integers as the same number, dictionaries with the same entries in
    whatever order. -/
def Json.Same : Json → Decoded → Prop
  | .null, d => d = .null
  | .bool b, d => d = .bool b
  | .int n, d => d = .int n ∨ ∃ m : UInt64, d = .uint m ∧ (m.toNat : Int) = n.toInt
  | .double bits, d => d = .double bits
  | .string s, d => d = .string s
  | .array items, d => ∃ ds, d = .array ds ∧ SameItems items ds
  | .dict entries, d => ∃ ds es, d = .dict ds ∧ ds.Perm es ∧ SameEntries entries es

def SameItems : List Json → List Decoded → Prop
  | [], ds => ds = []
  | v :: vs, ds => ∃ d rest, ds = d :: rest ∧ v.Same d ∧ SameItems vs rest

def SameEntries : List (String × Json) → List (String × Decoded) → Prop
  | [], ds => ds = []
  | (k, v) :: es, ds => ∃ d rest, ds = (k, d) :: rest ∧ v.Same d ∧ SameEntries es rest
end

/-! ## Induction -/

/-- The cases of an induction over a value, with the hypothesis for every item of an array and
    every entry of a dictionary. -/
structure Json.Cases (P : Json → Prop) : Prop where
  null : P .null
  bool : ∀ b, P (.bool b)
  int : ∀ n, P (.int n)
  double : ∀ bits, P (.double bits)
  string : ∀ s, P (.string s)
  array : ∀ items : List Json, (∀ v ∈ items, P v) → P (.array items)
  dict : ∀ entries : List (String × Json), (∀ e ∈ entries, P e.2) → P (.dict entries)

mutual
theorem Json.Cases.all {P : Json → Prop} (h : Json.Cases P) : ∀ v : Json, P v
  | .null => h.null
  | .bool b => h.bool b
  | .int n => h.int n
  | .double bits => h.double bits
  | .string s => h.string s
  | .array items => h.array items (Json.Cases.items h items)
  | .dict entries => h.dict entries (Json.Cases.entries h entries)

theorem Json.Cases.items {P : Json → Prop} (h : Json.Cases P) :
    ∀ items : List Json, ∀ v ∈ items, P v
  | [] => fun _ hv => nomatch hv
  | v :: vs => forall_mem_cons.2 ⟨Json.Cases.all h v, Json.Cases.items h vs⟩

theorem Json.Cases.entries {P : Json → Prop} (h : Json.Cases P) :
    ∀ entries : List (String × Json), ∀ e ∈ entries, P e.2
  | [] => fun _ he => nomatch he
  | (_, v) :: es => forall_mem_cons.2 ⟨Json.Cases.all h v, Json.Cases.entries h es⟩
end

theorem Json.induct {P : Json → Prop} (null : P .null) (bool : ∀ b, P (.bool b))
    (int : ∀ n, P (.int n)) (double : ∀ bits, P (.double bits)) (string : ∀ s, P (.string s))
    (array : ∀ items : List Json, (∀ v ∈ items, P v) → P (.array items))
    (dict : ∀ entries : List (String × Json), (∀ e ∈ entries, P e.2) → P (.dict entries))
    (v : Json) : P v :=
  Json.Cases.all ⟨null, bool, int, double, string, array, dict⟩ v

/-! ## Lists of values -/

section Lists
variable {nfc : String → String}

theorem appendItems_eq (items : List Json) :
    appendItems nfc items = items.flatMap (encodeCborValue nfc) := by
  induction items with
  | nil => rfl
  | cons v vs ih => rw [appendItems, ih, flatMap_cons]

theorem encodeEntries_eq (entries : List (String × Json)) :
    encodeEntries nfc entries = entries.map fun e => (e.1, encodeCborValue nfc e.2) := by
  induction entries with
  | nil => rfl
  | cons e es ih => rw [encodeEntries, ih, map_cons]

theorem readBackItems_eq (items : List Json) :
    readBackItems nfc items = items.map (readBack nfc) := by
  induction items with
  | nil => rfl
  | cons v vs ih => rw [readBackItems, ih, map_cons]

theorem readBackEntries_eq (entries : List (String × Json)) :
    readBackEntries nfc entries = entries.map fun e => (e.1, readBack nfc e.2) := by
  induction entries with
  | nil => rfl
  | cons e es ih => rw [readBackEntries, ih, map_cons]

theorem keyedItems_iff (items : List Json) : KeyedItems nfc items ↔ ∀ v ∈ items, v.Keyed nfc := by
  induction items with
  | nil => simp [KeyedItems]
  | cons v vs ih => simp [KeyedItems, ih]

theorem keyedEntries_iff (entries : List (String × Json)) :
    KeyedEntries nfc entries ↔ ∀ e ∈ entries, e.2.Keyed nfc := by
  induction entries with
  | nil => simp [KeyedEntries]
  | cons e es ih =>
    rw [KeyedEntries, ih]
    simp

theorem plainItems_iff (items : List Json) :
    plainItems items = true ↔ ∀ v ∈ items, v.plain = true := by
  induction items with
  | nil => simp [plainItems]
  | cons v vs ih => simp [plainItems, ih]

theorem plainEntries_iff (entries : List (String × Json)) :
    plainEntries entries = true ↔ ∀ e ∈ entries, e.2.plain = true := by
  induction entries with
  | nil => simp [plainEntries]
  | cons e es ih =>
    rw [plainEntries, Bool.and_eq_true, ih]
    simp

/-- The entries in the order in which the encoder writes them. -/
def sortedEntries (nfc : String → String) (entries : List (String × Json)) :
    List (String × Json) :=
  entries.mergeSort fun a b => keyLe nfc a.1 b.1

/-- The encoder sorts the entries by key, then writes each key and value. -/
theorem encodeCborValue_dict (entries : List (String × Json)) :
    encodeCborValue nfc (.dict entries) = appendCborUInt (UInt64.ofNat entries.length) 5 ++
        (sortedEntries nfc entries).flatMap fun e =>
          appendCborString e.1 ++ encodeCborValue nfc e.2 := by
  rw [encodeCborValue, encodeEntries_eq, sortedEntries]
  rw [← map_mergeSort (by intros; rfl), flatMap_map]

theorem readBack_dict (entries : List (String × Json)) : readBack nfc (.dict entries) =
      .dict ((sortedEntries nfc entries).map fun e => (e.1, readBack nfc e.2)) := by
  rw [readBack, readBackEntries_eq, sortedEntries]
  rw [← map_mergeSort (by intros; rfl)]

end Lists

/-! ## Bytes in place -/

/-- The bytes `bs` stand at `o`. -/
def Data.Holds (data : Data) (o : Nat) (bs : List UInt8) : Prop := bs <+: data.bytes.drop o

section Holds
variable {data : Data} {o : Nat} {as bs : List UInt8}

theorem holds_append :
    data.Holds o (as ++ bs) ↔ data.Holds o as ∧ data.Holds (o + as.length) bs := by
  unfold Data.Holds
  rw [← drop_drop]
  constructor
  · rintro ⟨t, ht⟩
    refine ⟨⟨bs ++ t, by rw [← ht, append_assoc]⟩, ⟨t, ?_⟩⟩
    rw [← ht, append_assoc, drop_left]
  rintro ⟨⟨t, ht⟩, ⟨t', ht'⟩⟩
  refine ⟨t', ?_⟩
  rw [← ht, drop_left] at ht'
  rw [← ht, ← ht', append_assoc]

theorem Data.Holds.length_le (h : data.Holds o bs) : bs.length ≤ data.count - o := by
  have := List.IsPrefix.length_le h
  rwa [length_drop] at this

theorem Data.Holds.at_eq (h : data.Holds o bs) {i : Nat} (hi : i < bs.length) :
    data.at (o + i) = bs.getD i 0 := by
  obtain ⟨t, ht⟩ := h
  have hget : data.bytes[o + i]? = bs[i]? := by
    rw [← getElem?_drop, ← ht, getElem?_append_left hi]
  simp [Data.at, hget]

theorem Data.Holds.subdata (h : data.Holds o bs) (ho : o ≤ data.count) :
    data.subdata o (o + bs.length) = .ok bs := by
  have hle := h.length_le
  obtain ⟨t, ht⟩ := h
  unfold Data.subdata
  rw [if_pos ⟨by omega, by omega⟩, ← ht]
  simp

end Holds

/-! ## Headers -/

variable {mt : UInt8} {info o : Nat} {data : Data} {n : UInt64}

theorem headerByte_toNat {x : UInt8} (hmt : mt.toNat < 8) (hx : x.toNat < 32) :
    ((mt &&& 0x07) <<< 5 ||| x).toNat = mt.toNat * 32 + x.toNat := by
  have h1 : (mt &&& 0x07).toNat = mt.toNat := by
    rw [UInt8.toNat_and, show (0x07 : UInt8).toNat = 2 ^ 3 - 1 by decide,
      Nat.and_two_pow_sub_one_eq_mod]
    exact Nat.mod_eq_of_lt (by omega)
  rw [UInt8.toNat_or, UInt8.toNat_shiftLeft, h1, show (5 : UInt8).toNat % 8 = 5 by decide]
  rw [Nat.mod_eq_of_lt (by rw [Nat.shiftLeft_eq]; omega)]
  rw [← Nat.shiftLeft_add_eq_or_of_lt (by simpa using hx), Nat.shiftLeft_eq]

theorem byteOf_toNat (n : UInt64) (k : Nat) (hk : k < 64) :
    (n >>> UInt64.ofNat k).toUInt8.toNat = n.toNat / 2 ^ k % 256 := by
  rw [toNat_toUInt8, UInt64.toNat_shiftRight, toNat_ofNat',
    Nat.mod_eq_of_lt (show k < 2 ^ 64 by omega), Nat.mod_eq_of_lt hk, Nat.shiftRight_eq_div_pow]

theorem lowByte_eq (n : UInt64) : (n &&& 0xFF).toUInt8 = n.toUInt8 := by
  rw [← UInt8.toNat_inj, toNat_toUInt8, UInt64.toNat_and,
    show (0xFF : UInt64).toNat = 2 ^ 8 - 1 by decide, Nat.and_two_pow_sub_one_eq_mod,
    toNat_toUInt8, Nat.mod_mod]

theorem beNat_eightBytes (n : UInt64) :
    beNat [(n >>> 56).toUInt8, (n >>> 48).toUInt8, (n >>> 40).toUInt8, (n >>> 32).toUInt8,
      (n >>> 24).toUInt8, (n >>> 16).toUInt8, (n >>> 8).toUInt8, n.toUInt8] = n.toNat := by
  have hn := n.toNat_lt
  have h56 : (n >>> 56).toUInt8.toNat = n.toNat / 2 ^ 56 % 256 := byteOf_toNat n 56 (by decide)
  have h48 : (n >>> 48).toUInt8.toNat = n.toNat / 2 ^ 48 % 256 := byteOf_toNat n 48 (by decide)
  have h40 : (n >>> 40).toUInt8.toNat = n.toNat / 2 ^ 40 % 256 := byteOf_toNat n 40 (by decide)
  have h32 : (n >>> 32).toUInt8.toNat = n.toNat / 2 ^ 32 % 256 := byteOf_toNat n 32 (by decide)
  have h24 : (n >>> 24).toUInt8.toNat = n.toNat / 2 ^ 24 % 256 := byteOf_toNat n 24 (by decide)
  have h16 : (n >>> 16).toUInt8.toNat = n.toNat / 2 ^ 16 % 256 := byteOf_toNat n 16 (by decide)
  have h8 : (n >>> 8).toUInt8.toNat = n.toNat / 2 ^ 8 % 256 := byteOf_toNat n 8 (by decide)
  have htop : n.toNat / 2 ^ 56 % 256 = n.toNat / 2 ^ 56 :=
    Nat.mod_eq_of_lt (Nat.div_lt_of_lt_mul (by omega))
  -- each byte brings in the next eight bits of the quotient
  have hstep : ∀ k, n.toNat / 2 ^ (k + 8) * 256 + n.toNat / 2 ^ k % 256 = n.toNat / 2 ^ k := by
    intro k
    rw [Nat.pow_add, ← Nat.div_div_eq_div_mul]
    exact Nat.div_add_mod' _ 256
  simp only [beNat, foldl_cons, foldl_nil]
  rw [h56, h48, h40, h32, h24, h16, h8, Nat.zero_mul, Nat.zero_add, htop, hstep 48, hstep 40,
    hstep 32, hstep 24, hstep 16, hstep 8]
  exact Nat.div_add_mod' n.toNat 256

/-- A header byte, then the argument in as many bytes as the header byte says. -/
theorem appendCborUInt_cases (n : UInt64) (mt : UInt8) : ∃ (info : UInt8) (tail : List UInt8),
      appendCborUInt n mt = ((mt &&& 0x07) <<< 5 ||| info) :: tail ∧
      argumentWidth info.toNat = some tail.length ∧
      n.toNat = if tail.length = 0 then info.toNat else beNat tail := by
  have h24 : (n >>> 24).toUInt8.toNat = n.toNat / 2 ^ 24 % 256 := byteOf_toNat n 24 (by decide)
  have h16 : (n >>> 16).toUInt8.toNat = n.toNat / 2 ^ 16 % 256 := byteOf_toNat n 16 (by decide)
  have h8 : (n >>> 8).toUInt8.toNat = n.toNat / 2 ^ 8 % 256 := byteOf_toNat n 8 (by decide)
  unfold appendCborUInt
  simp only [lowByte_eq]
  split
  · rename_i h
    have h' : n.toNat < 24 := h
    have hb : n.toUInt8.toNat = n.toNat := by
      rw [toNat_toUInt8]
      omega
    refine ⟨n.toUInt8, [], rfl, ?_, by simp [hb]⟩
    rw [hb]
    simp [argumentWidth, h']
  split
  · rename_i h
    have h' : n.toNat < 256 := h
    refine ⟨24, _, rfl, rfl, ?_⟩
    show n.toNat = beNat _
    simp only [beNat, foldl_cons, foldl_nil, toNat_toUInt8]
    omega
  split
  · rename_i h
    have h' : n.toNat < 65536 := h
    refine ⟨25, _, rfl, rfl, ?_⟩
    show n.toNat = beNat _
    simp only [beNat, foldl_cons, foldl_nil, h8, toNat_toUInt8]
    omega
  split
  · rename_i h
    have h' : n.toNat < 4294967296 := h
    refine ⟨26, _, rfl, rfl, ?_⟩
    show n.toNat = beNat _
    simp only [beNat, foldl_cons, foldl_nil, h24, h16, h8, toNat_toUInt8]
    omega
  · refine ⟨27, _, rfl, rfl, ?_⟩
    show n.toNat = beNat _
    rw [beNat_eightBytes]

theorem argumentReach_le {w : Nat} (h : argumentWidth info = some w) :
    info < 32 ∧ argumentReach info ≤ w := by
  unfold argumentWidth at h
  unfold argumentReach
  grind

/-- What the decoder sees where the encoder has written a header. -/
structure HeaderAt (data : Data) (o : Nat) (mt : Nat) (n : UInt64) (next : Nat) : Prop where
  lt : o < data.count
  major : data.majorAt o = mt
  next_le : next ≤ data.count
  read : decodeCborUInt (data.at o &&& 0x1F) data (o + 1) = .ok (n, next)

/-- A header byte with its argument bytes, read as a header. -/
theorem headerAt_of_parts {mt : Nat} {b : UInt8} {tail : List UInt8}
    (hnat : b.toNat = mt * 32 + info) (hwidth : argumentWidth info = some tail.length)
    (harg : n.toNat = if tail.length = 0 then info else beNat tail) (h : data.Holds o (b :: tail)) :
    HeaderAt data o mt n (o + (tail.length + 1)) := by
  have hc : data.count < 2 ^ 63 := data.count_lt
  obtain ⟨hinfo, hreach⟩ := argumentReach_le hwidth
  have hlen := h.length_le
  rw [length_cons] at hlen
  have hbyte : data.at o = b := h.at_eq (i := 0) (by simp)
  have hmajor : data.majorAt o = mt := by
    rw [Data.majorAt, hbyte]
    omega
  have hi : data.infoAt o = info := by
    rw [Data.infoAt, hbyte]
    omega
  have htail : (range tail.length).map (fun k => data.at (o + 1 + k)) = tail := by
    refine ext_getElem (by simp) fun k hk hk' => ?_
    have := h.at_eq (i := k + 1) (by simpa using hk')
    rw [getElem_map, getElem_range, show o + 1 + k = o + (k + 1) by omega, this]
    simp [hk']
  refine ⟨by omega, hmajor, by omega, ?_⟩
  rw [decodeCborUInt_eq (by omega), hi, if_pos (by omega)]
  have ha : data.argument o = some (n.toNat, o + (tail.length + 1)) := by
    unfold Data.argument
    rw [hi, hwidth]
    cases hw : tail.length with
    | zero => simp [harg, hw]
    | succ w =>
      rw [hw] at htail harg
      show (if o + (w + 1) < data.count then _ else none) = _
      rw [if_pos (by omega), htail, harg, if_neg (by omega)]
      simp only [Option.some.injEq, Prod.mk.injEq, true_and]
      omega
  rw [ha]
  simp

theorem headerAt_of_holds (hmt : mt.toNat < 8) (h : data.Holds o (appendCborUInt n mt)) :
    HeaderAt data o mt.toNat n (o + (appendCborUInt n mt).length) := by
  obtain ⟨info, tail, happ, hwidth, harg⟩ := appendCborUInt_cases n mt
  rw [happ] at h ⊢
  exact headerAt_of_parts (headerByte_toNat hmt (argumentReach_le hwidth).1) hwidth harg h

/-! ## Reading values back -/

/-- Wherever the bytes `bs` stand, the decoder reads `d` from them and stops after them. -/
def Reads (nfc : String → String) (bs : List UInt8) (d : Decoded) : Prop :=
  ∀ (data : Data) (fuel o : Nat), data.Holds o bs → bs.length ≤ fuel →
    decodeCborAt nfc fuel data o = .ok (d, o + bs.length)

section Scalars
variable {nfc : String → String}

theorem appendCborUInt_length_pos (n : UInt64) (mt : UInt8) : 0 < (appendCborUInt n mt).length := by
  obtain ⟨info, tail, happ, _⟩ := appendCborUInt_cases n mt
  simp [happ]

/-- One byte of major type 7 that is not a double. -/
theorem reads_simple {b : UInt8} {d : Decoded} (hmajor : b.toNat / 32 = 7)
    (h : ∀ data o, decodeCborSpecial (b &&& 0x1F) data o = .ok (d, o)) : Reads nfc [b] d := by
  intro data fuel o hb hfuel
  obtain ⟨fuel, rfl⟩ : ∃ f, fuel = f + 1 := ⟨fuel - 1, by simp at hfuel; omega⟩
  have hlen := hb.length_le
  have hat : data.at o = b := hb.at_eq (i := 0) (by simp)
  have hm : data.majorAt o = 7 := by rw [Data.majorAt, hat, hmajor]
  rw [decodeCborAt_succ nfc data (by simp at hlen; omega)]
  simp only [hm, hat, h]
  rfl

theorem reads_null : Reads nfc [0xf6] (.bool true) :=
  reads_simple (by decide) fun _ _ => rfl

theorem reads_bool (b : Bool) : Reads nfc [if b then 0xf5 else 0xf4] (misreadBool b) := by
  cases b with
  | false | true => exact reads_simple (by decide) fun _ _ => rfl

theorem neg_one_sub_nonneg {n : Int64} (h : ¬ 0 ≤ n) : 0 ≤ -1 - n := by
  rw [Int64.le_iff_toInt_le] at h ⊢
  have hlo := n.le_toInt
  rw [Int64.toInt_sub]
  simp at *
  rw [Int.bmod_eq_of_le] <;> omega

/-! The branches of `decodeCborAt` behind a header that the encoder has written. -/

variable {data : Data} {fuel o next : Nat} {n : UInt64}

theorem decodeCborAt_uint (h : HeaderAt data o 0 n next) :
    decodeCborAt nfc (fuel + 1) data o = .ok (.uint n, next) := by
  rw [decodeCborAt_succ nfc data h.lt]
  simp only [h.major, h.read, bind_ok, pure, Except.pure]

theorem decodeCborAt_negative (h : HeaderAt data o 1 n next) (hn : n.toNat < 2 ^ 63) :
    decodeCborAt nfc (fuel + 1) data o = .ok (.int (-1 - n.toInt64), next) := by
  have hint : toInt64 n = .ok n.toInt64 := if_pos hn
  rw [decodeCborAt_succ nfc data h.lt]
  simp only [h.major, h.read, hint, bind_ok, pure, Except.pure]

theorem decodeCborAt_text {s : String} (h : HeaderAt data o 3 n next)
    (hn : n.toNat = (utf8 s).length) (hbody : data.Holds next (utf8 s)) :
    decodeCborAt nfc (fuel + 1) data o = .ok (.string s, next + (utf8 s).length) := by
  have hc : data.count < 2 ^ 63 := data.count_lt
  have hle := h.next_le
  have hlen := hbody.length_le
  have hint : toInt n = .ok (utf8 s).length := by
    rw [toInt, hn, if_pos (by omega)]
  have hmt : (data.at o &&& 0xE0) >>> 5 ≠ 2 := by
    intro heq
    have hmajor := h.major
    rw [Data.majorAt, ← majorType_toNat, heq] at hmajor
    cases hmajor
  have hback : String.fromUTF8? ⟨(utf8 s).toArray⟩ = some s := by
    simp [utf8, String.fromUTF8?, String.fromUTF8, s.isValidUTF8]
  rw [decodeCborAt_succ nfc data h.lt]
  simp only [h.major, decodeCborString, h.read, hint, bind_ok,
    addInt_eq (show next + (utf8 s).length < 2 ^ 63 by omega), hbody.subdata hle]
  rw [if_pos (by omega), if_neg hmt, hback]
  rfl

/-! ## Scalars -/

theorem fuel_succ {bs : List UInt8} (hpos : 0 < bs.length) (h : bs.length ≤ fuel) :
    ∃ f, fuel = f + 1 := ⟨fuel - 1, by omega⟩

theorem reads_int (n : Int64) : Reads nfc (appendCborInteger n) (readBackInt n) := by
  intro data fuel o hb hfuel
  unfold appendCborInteger at hb hfuel ⊢
  unfold readBackInt
  by_cases hn : 0 ≤ n
  · rw [if_pos hn] at hb hfuel ⊢
    rw [if_pos hn]
    obtain ⟨fuel, rfl⟩ := fuel_succ (appendCborUInt_length_pos _ _) hfuel
    exact decodeCborAt_uint (headerAt_of_holds (by decide) hb)
  rw [if_neg hn] at hb hfuel ⊢
  rw [if_neg hn]
  obtain ⟨fuel, rfl⟩ := fuel_succ (appendCborUInt_length_pos _ _) hfuel
  have h63 : (-1 - n).toUInt64.toNat < 2 ^ 63 := by
    rw [Int64.toNat_toUInt64_of_le (neg_one_sub_nonneg hn)]
    exact Int64.toNatClampNeg_lt _
  have hback : -1 - (-1 - n).toUInt64.toInt64 = n := by
    rw [Int64.toInt64_toUInt64]
    grind
  rw [decodeCborAt_negative (headerAt_of_holds (by decide) hb) h63, hback]

/-- Only zeros add up to zero, in either order. -/
theorem beNat_eq_zero_iff (bs : List UInt8) : beNat bs = 0 ↔ ∀ b ∈ bs, b = 0 := by
  induction bs using reverseRecOn with
  | nil => simp [beNat]
  | append_singleton bs b ih =>
    rw [beNat_append]
    constructor
    · intro h c hc
      rcases mem_append.1 hc with hc | hc
      · exact ih.1 (by omega) c hc
      rw [mem_singleton.1 hc, ← UInt8.toNat_inj]
      show b.toNat = 0
      omega
    · intro h
      have hbs := ih.2 fun c hc => h c (mem_append_left _ hc)
      have hb : b = 0 := h b (by simp)
      rw [hbs, hb]
      rfl

/-- The bytes of a double, most significant first. -/
def doubleBytes (bits : UInt64) : List UInt8 := (appendCborFloat bits).tail

theorem bigEndian_doubleBytes (bits : UInt64) : bigEndian (doubleBytes bits) = bits := by
  rw [← UInt64.toNat_inj, bigEndian_toNat _ (by simp [doubleBytes, appendCborFloat])]
  exact beNat_eightBytes bits

/-- The decoder's test for a zero bit pattern loads the bytes in the other order. -/
theorem eq_zero_of_reverse {bits : UInt64} (h : bigEndian (doubleBytes bits).reverse = 0) :
    bits = 0 := by
  have hrev : beNat (doubleBytes bits).reverse = 0 := by
    rw [← bigEndian_toNat _ (by simp [doubleBytes, appendCborFloat]), h]
    rfl
  have hall : beNat (doubleBytes bits) = 0 := by
    rw [beNat_eq_zero_iff] at hrev ⊢
    exact fun b hb => hrev b (mem_reverse.2 hb)
  rw [← UInt64.toNat_inj, ← beNat_eightBytes bits]
  exact hall

theorem reads_double (bits : UInt64) : Reads nfc (appendCborFloat bits) (.double bits) := by
  intro data fuel o hb hfuel
  have hlen9 : (appendCborFloat bits).length = 9 := rfl
  obtain ⟨fuel, rfl⟩ := fuel_succ (by rw [hlen9]; omega) hfuel
  have hc : data.count < 2 ^ 63 := data.count_lt
  have hlen := hb.length_le
  rw [hlen9] at hlen ⊢
  have hat : data.at o = 0xfb := hb.at_eq (i := 0) (by rw [hlen9]; omega)
  have hm : data.majorAt o = 7 := by
    rw [Data.majorAt, hat]
    rfl
  have hsplit : data.Holds o ([0xfb] ++ doubleBytes bits) := hb
  have hbody : data.Holds (o + 1) (doubleBytes bits) := (holds_append.1 hsplit).2
  have hsub : data.subdata (o + 1) (o + 9) = .ok (doubleBytes bits) := hbody.subdata (by omega)
  have ha : addInt (o + 1) 8 = .ok (o + 9) := addInt_eq (by omega)
  rw [decodeCborAt_succ nfc data (by omega)]
  simp only [hm, hat, show (0xfb : UInt8) &&& 0x1F = 27 by decide]
  unfold decodeCborSpecial
  rw [if_neg (by decide), if_neg (by decide), if_neg (by decide), if_pos rfl, ha, bind_ok,
    if_pos (by omega), hsub, bind_ok]
  by_cases h : bigEndian (doubleBytes bits).reverse = 0
  · rw [eq_zero_of_reverse h]
    rfl
  · rw [if_pos h, bigEndian_doubleBytes]
    rfl

theorem reads_string (s : String) : Reads nfc (appendCborString s) (.string s) := by
  intro data fuel o hb hfuel
  have hc : data.count < 2 ^ 63 := data.count_lt
  have hlen := hb.length_le
  unfold appendCborString at hb hfuel hlen ⊢
  obtain ⟨hhead, hbody⟩ := holds_append.1 hb
  have hpos := appendCborUInt_length_pos (UInt64.ofNat (utf8 s).length) 3
  rw [length_append] at hlen hfuel ⊢
  obtain ⟨fuel, rfl⟩ : ∃ f, fuel = f + 1 := ⟨fuel - 1, by omega⟩
  have hn : (UInt64.ofNat (utf8 s).length).toNat = (utf8 s).length := by
    rw [toNat_ofNat']
    exact Nat.mod_eq_of_lt (by omega)
  rw [decodeCborAt_text (headerAt_of_holds (by decide) hhead) hn hbody, Nat.add_assoc]

end Scalars

/-! ## Arrays and dictionaries -/

section Containers
variable {nfc : String → String}

theorem encodeCborValue_length_pos (v : Json) : 0 < (encodeCborValue nfc v).length := by
  cases v with
  | null | bool => simp [encodeCborValue]
  | int n =>
    rw [encodeCborValue, appendCborInteger]
    split <;> exact appendCborUInt_length_pos _ _
  | double bits => simp [encodeCborValue, appendCborFloat]
  | string s =>
    rw [encodeCborValue, appendCborString, length_append]
    exact Nat.add_pos_left (appendCborUInt_length_pos _ _) _
  | array items | dict entries =>
    rw [encodeCborValue, length_append]
    exact Nat.add_pos_left (appendCborUInt_length_pos _ _) _

theorem length_le_flatMap {α : Type} (f : α → List UInt8) (hf : ∀ a, 0 < (f a).length)
    (l : List α) : l.length ≤ (l.flatMap f).length := by
  induction l with
  | nil => simp
  | cons a l ih =>
    have := hf a
    rw [flatMap_cons, length_append, length_cons]
    omega

variable {items : List Json} {data : Data} {fuel o next e : Nat} {dict : List (String × Decoded)}
    {entries : List (String × Json)} {n : UInt64}

theorem decodeItems_of_reads (h : ∀ v ∈ items, Reads nfc (encodeCborValue nfc v) (readBack nfc v))
    (hb : data.Holds o (items.flatMap (encodeCborValue nfc)))
    (hfuel : (items.flatMap (encodeCborValue nfc)).length ≤ fuel) :
    decodeItems (decodeCborAt nfc fuel data) items.length o
      = .ok (items.map (readBack nfc), o + (items.flatMap (encodeCborValue nfc)).length) := by
  induction items generalizing o with
  | nil => rfl
  | cons v vs ih =>
    rw [flatMap_cons] at hb hfuel ⊢
    rw [length_append] at hfuel ⊢
    obtain ⟨hv, hvs⟩ := holds_append.1 hb
    have hfirst := h v (mem_cons_self ..) data fuel o hv (by omega)
    have hrest := ih (fun w hw => h w (mem_cons_of_mem _ hw)) hvs (by omega)
    rw [length_cons, decodeItems, hfirst]
    simp only [hrest, bind_ok, map_cons, Nat.add_assoc, pure, Except.pure]

theorem setEntry_of_fresh {k : String} {d : Decoded} (h : ∀ e ∈ dict, sameKey nfc e.1 k = false) :
    setEntry nfc k d dict = dict ++ [(k, d)] := by
  induction dict with
  | nil => rfl
  | cons e es ih =>
    rw [setEntry, h e (mem_cons_self ..)]
    rw [ih fun e' he' => h e' (mem_cons_of_mem _ he')]
    rfl

theorem decodeEntries_of_reads
    (h : ∀ e ∈ entries, Reads nfc (encodeCborValue nfc e.2) (readBack nfc e.2))
    (hkeys : entries.Pairwise fun a b => sameKey nfc a.1 b.1 = false)
    (hdict : ∀ d ∈ dict, ∀ e ∈ entries, sameKey nfc d.1 e.1 = false)
    (hb : data.Holds o (entries.flatMap fun e => appendCborString e.1 ++ encodeCborValue nfc e.2))
    (hfuel : (entries.flatMap fun e =>
      appendCborString e.1 ++ encodeCborValue nfc e.2).length ≤ fuel) :
    decodeEntries nfc (decodeCborAt nfc fuel data) entries.length dict o
      = .ok (dict ++ entries.map (fun e => (e.1, readBack nfc e.2)), o + (entries.flatMap fun e =>
          appendCborString e.1 ++ encodeCborValue nfc e.2).length) := by
  induction entries generalizing o dict with
  | nil => simp [decodeEntries, pure, Except.pure]
  | cons e es ih =>
    rw [flatMap_cons] at hb hfuel ⊢
    rw [length_append, length_append] at hfuel ⊢
    obtain ⟨hentry, hrest⟩ := holds_append.1 hb
    obtain ⟨hkey, hvalue⟩ := holds_append.1 hentry
    rw [pairwise_cons] at hkeys
    have hk : decodeCborAt nfc fuel data o = .ok (.string e.1, _) :=
      reads_string e.1 data fuel o hkey (by omega)
    have hv := h e (mem_cons_self ..) data fuel _ hvalue (by omega)
    have hset := setEntry_of_fresh (d := readBack nfc e.2)
      fun d hd => hdict d hd e (mem_cons_self ..)
    have hdict' : ∀ d ∈ dict ++ [(e.1, readBack nfc e.2)], ∀ e' ∈ es,
        sameKey nfc d.1 e'.1 = false := by
      intro d hd e' he'
      rcases mem_append.1 hd with hd | hd
      · exact hdict d hd e' (mem_cons_of_mem _ he')
      · rw [mem_singleton.1 hd]
        exact hkeys.1 e' he'
    have hloop := ih (fun e' he' => h e' (mem_cons_of_mem _ he')) hkeys.2 hdict' hrest (by omega)
    rw [length_append] at hloop
    rw [length_cons, decodeEntries, hk]
    simp only [hv, bind_ok, hset]
    rw [Nat.add_assoc o, hloop]
    simp [Nat.add_assoc]

/-! The branches of `decodeCborAt` for arrays and maps. -/

theorem decodeCborAt_array {ds : List Decoded} (h : HeaderAt data o 4 n next)
    (hn : n.toNat < 2 ^ 63)
    (hitems : decodeItems (decodeCborAt nfc fuel data) n.toNat next = .ok (ds, e)) :
    decodeCborAt nfc (fuel + 1) data o = .ok (.array ds, e) := by
  have hint : toInt n = .ok n.toNat := if_pos hn
  rw [decodeCborAt_succ nfc data h.lt]
  simp only [h.major, h.read, hint, hitems, bind_ok, pure, Except.pure]

theorem decodeCborAt_dict {ds : List (String × Decoded)} (h : HeaderAt data o 5 n next)
    (hn : n.toNat < 2 ^ 63)
    (hentries : decodeEntries nfc (decodeCborAt nfc fuel data) n.toNat [] next = .ok (ds, e)) :
    decodeCborAt nfc (fuel + 1) data o = .ok (.dict ds, e) := by
  have hint : toInt n = .ok n.toNat := if_pos hn
  rw [decodeCborAt_succ nfc data h.lt]
  simp only [h.major, h.read, hint, hentries, bind_ok, pure, Except.pure]

/-- A length that is no more than the bytes that follow is written and read as it is. -/
theorem length_toNat {n : Nat} (h : n ≤ data.count) : (UInt64.ofNat n).toNat = n ∧ n < 2 ^ 63 := by
  have hc : data.count < 2 ^ 63 := data.count_lt
  refine ⟨?_, by omega⟩
  rw [toNat_ofNat']
  exact Nat.mod_eq_of_lt (by omega)

theorem reads_array (h : ∀ v ∈ items, Reads nfc (encodeCborValue nfc v) (readBack nfc v)) :
    Reads nfc (encodeCborValue nfc (.array items)) (readBack nfc (.array items)) := by
  intro data fuel o hb hfuel
  rw [encodeCborValue, appendItems_eq] at hb hfuel ⊢
  rw [readBack, readBackItems_eq]
  obtain ⟨hhead, hbody⟩ := holds_append.1 hb
  have hpos := appendCborUInt_length_pos (UInt64.ofNat items.length) 4
  have hlen := hbody.length_le
  have hcount : items.length ≤ (items.flatMap (encodeCborValue nfc)).length :=
    length_le_flatMap _ encodeCborValue_length_pos items
  obtain ⟨hn, h63⟩ := length_toNat (show items.length ≤ data.count by omega)
  rw [length_append] at hfuel ⊢
  obtain ⟨fuel, rfl⟩ : ∃ f, fuel = f + 1 := ⟨fuel - 1, by omega⟩
  have hitems : decodeItems (decodeCborAt nfc fuel data) items.length _ = _ :=
    decodeItems_of_reads h hbody (by omega)
  rw [← Nat.add_assoc]
  exact decodeCborAt_array (headerAt_of_holds (by decide) hhead) (by omega) (by rw [hn, hitems])

theorem sameKey_comm (a b : String) : sameKey nfc a b = sameKey nfc b a := Bool.beq_comm

theorem reads_dict (h : ∀ e ∈ entries, Reads nfc (encodeCborValue nfc e.2) (readBack nfc e.2))
    (hkeys : entries.Pairwise fun a b => sameKey nfc a.1 b.1 = false) :
    Reads nfc (encodeCborValue nfc (.dict entries)) (readBack nfc (.dict entries)) := by
  intro data fuel o hb hfuel
  have hperm : (sortedEntries nfc entries).Perm entries := mergeSort_perm ..
  have hkeys' : (sortedEntries nfc entries).Pairwise fun a b => sameKey nfc a.1 b.1 = false :=
    (hperm.pairwise_iff fun {a b} hab => by rwa [sameKey_comm]).2 hkeys
  rw [encodeCborValue_dict] at hb hfuel ⊢
  rw [readBack_dict]
  obtain ⟨hhead, hbody⟩ := holds_append.1 hb
  have hpos := appendCborUInt_length_pos (UInt64.ofNat entries.length) 5
  have hlen := hbody.length_le
  have hcount := length_le_flatMap
    (fun e : String × Json => appendCborString e.1 ++ encodeCborValue nfc e.2)
    (fun e => by
      rw [length_append]
      exact Nat.add_pos_right _ (encodeCborValue_length_pos e.2)) (sortedEntries nfc entries)
  rw [hperm.length_eq] at hcount
  obtain ⟨hn, h63⟩ := length_toNat (show entries.length ≤ data.count by omega)
  rw [length_append] at hfuel ⊢
  obtain ⟨fuel, rfl⟩ : ∃ f, fuel = f + 1 := ⟨fuel - 1, by omega⟩
  have hentries : decodeEntries nfc (decodeCborAt nfc fuel data)
      (sortedEntries nfc entries).length [] _ = _ :=
    decodeEntries_of_reads (fun e he => h e (hperm.mem_iff.1 he)) hkeys' (by simp) hbody (by omega)
  rw [hperm.length_eq, nil_append] at hentries
  rw [← Nat.add_assoc]
  exact decodeCborAt_dict (headerAt_of_holds (by decide) hhead) (by omega) (by rw [hn, hentries])

/-- **Decoding an encoding.** The decoder reads exactly the bytes of the value, and makes
    `readBack` of it. -/
theorem reads_encode (v : Json) (h : v.Keyed nfc) :
    Reads nfc (encodeCborValue nfc v) (readBack nfc v) := by
  induction v using Json.induct with
  | null => exact reads_null
  | bool b => exact reads_bool b
  | int n => exact reads_int n
  | double bits => exact reads_double bits
  | string s => exact reads_string s
  | array items ih =>
    exact reads_array fun v hv => ih v hv ((keyedItems_iff items).1 h v hv)
  | dict entries ih =>
    obtain ⟨hkeys, hentries⟩ := h
    exact reads_dict (fun e he => ih e he ((keyedEntries_iff entries).1 hentries e he)) hkeys

end Containers

/-! ## Which values come back -/

section Same
variable {nfc : String → String}

theorem sameItems_iff (items : List Json) :
    SameItems items (items.map (readBack nfc)) ↔ ∀ v ∈ items, v.Same (readBack nfc v) := by
  induction items with
  | nil => simp [SameItems]
  | cons v vs ih =>
    rw [forall_mem_cons, ← ih]
    constructor
    · rintro ⟨d, rest, heq, hv, hvs⟩
      rw [map_cons] at heq
      obtain ⟨rfl, rfl⟩ := heq
      exact ⟨hv, hvs⟩
    · rintro ⟨hv, hvs⟩
      exact ⟨_, _, rfl, hv, hvs⟩

variable {entries : List (String × Json)}

theorem SameEntries.mem {ds : List (String × Decoded)} (h : SameEntries entries ds)
    {e : String × Json} (he : e ∈ entries) :
    ∃ d, (e.1, d) ∈ ds ∧ e.2.Same d := by
  induction entries generalizing ds with
  | nil => simp at he
  | cons e' es ih =>
    rw [SameEntries] at h
    obtain ⟨d, rest, rfl, hd, hrest⟩ := h
    rcases mem_cons.1 he with rfl | he
    · exact ⟨d, mem_cons_self .., hd⟩
    · obtain ⟨d', hmem, hd'⟩ := ih hrest he
      exact ⟨d', mem_cons_of_mem _ hmem, hd'⟩

theorem sameEntries_of_forall (h : ∀ e ∈ entries, e.2.Same (readBack nfc e.2)) :
    SameEntries entries (entries.map fun e => (e.1, readBack nfc e.2)) := by
  induction entries with
  | nil => rfl
  | cons e es ih =>
    rw [forall_mem_cons] at h
    rw [SameEntries]
    exact ⟨_, _, rfl, h.1, ih h.2⟩

/-- Two entries of one dictionary with the same key are the same entry. -/
theorem entry_unique {f : Json → Decoded}
    (hkeys : entries.Pairwise fun a b => sameKey nfc a.1 b.1 = false) {k : String} {v : Json}
    {d : Decoded} (hv : (k, v) ∈ entries) (hd : (k, d) ∈ entries.map fun e => (e.1, f e.2)) :
    d = f v := by
  induction entries with
  | nil => simp at hv
  | cons e es ih =>
    rw [pairwise_cons] at hkeys
    have hne : ∀ e' ∈ es, e'.1 ≠ e.1 := by
      intro e' he' heq
      have := hkeys.1 e' he'
      rw [heq] at this
      simp [sameKey] at this
    rw [map_cons, mem_cons] at hd
    rcases mem_cons.1 hv with rfl | hv
    · rcases hd with hd | hd
      · simp only [Prod.mk.injEq] at hd
        exact hd.2
      · obtain ⟨e', he', heq⟩ := mem_map.1 hd
        simp only [Prod.mk.injEq] at heq
        exact absurd heq.1 (hne e' he')
    · rcases hd with hd | hd
      · simp only [Prod.mk.injEq] at hd
        exact absurd hd.1 (hne _ hv)
      · exact ih hkeys.2 hv hd

theorem same_readBackInt (n : Int64) : (Json.int n).Same (readBackInt n) := by
  rw [readBackInt]
  by_cases h : 0 ≤ n
  · right
    rw [if_pos h]
    exact ⟨_, rfl, by rw [Int64.toNat_toUInt64_of_le h, Int64.cast_toNatClampNeg n h]⟩
  · left
    rw [if_neg h]

/-- What is read back is the value exactly if it is plain. -/
theorem same_readBack_iff (v : Json) (h : v.Keyed nfc) :
    v.Same (readBack nfc v) ↔ v.plain = true := by
  induction v using Json.induct with
  | null | double | string => simp [Json.Same, readBack, Json.plain]
  | bool b => cases b <;> simp [Json.Same, readBack, misreadBool, Json.plain]
  | int n =>
    rw [readBack]
    exact iff_of_true (same_readBackInt n) rfl
  | array items ih =>
    rw [Json.Keyed, keyedItems_iff] at h
    rw [Json.plain, plainItems_iff, readBack, readBackItems_eq, Json.Same]
    have hitems : (∃ ds, Decoded.array (items.map (readBack nfc)) = .array ds ∧
        SameItems items ds) ↔ SameItems items (items.map (readBack nfc)) := by simp
    rw [hitems, sameItems_iff]
    exact forall₂_congr fun v hv => ih v hv (h v hv)
  | dict entries ih =>
    obtain ⟨hkeys, hentries⟩ := h
    rw [keyedEntries_iff] at hentries
    have hperm : (sortedEntries nfc entries).Perm entries := mergeSort_perm ..
    rw [Json.plain, plainEntries_iff, readBack_dict]
    constructor
    · rintro ⟨ds, es, heq, hp, hsame⟩ e he
      rw [Decoded.dict.injEq] at heq
      obtain ⟨d, hmem, hd⟩ := hsame.mem he
      have hmem' : (e.1, d) ∈ entries.map fun e => (e.1, readBack nfc e.2) := by
        rw [← (hperm.map _).mem_iff, heq]
        exact hp.mem_iff.2 hmem
      rw [entry_unique hkeys he hmem'] at hd
      exact (ih e he (hentries e he)).1 hd
    · intro hplain
      refine ⟨_, entries.map fun e => (e.1, readBack nfc e.2), rfl, hperm.map _, ?_⟩
      exact sameEntries_of_forall fun e he => (ih e he (hentries e he)).2 (hplain e he)

end Same

/-! ## The round trip -/

/-- Decoding the encoding of `v` returns `v` and consumes exactly the encoded bytes. -/
def RoundTrips (nfc : String → String) (v : Json)
    (hfit : (encodeCborValue nfc v).length < 2 ^ 63) : Prop :=
  ∃ d, decodeCborValue nfc ⟨encodeCborValue nfc v, hfit⟩
    = .ok (d, (encodeCborValue nfc v).length) ∧ v.Same d

/-- **The round trip.** A value comes back exactly if neither `null` nor a boolean occurs in it. -/
theorem roundTrips_iff_plain (nfc : String → String) (v : Json) (hv : v.Keyed nfc)
    (hfit : (encodeCborValue nfc v).length < 2 ^ 63) :
    RoundTrips nfc v hfit ↔ v.plain = true := by
  have hholds : Data.Holds ⟨encodeCborValue nfc v, hfit⟩ 0 (encodeCborValue nfc v) :=
    prefix_refl _
  have hread := reads_encode v hv _ ((encodeCborValue nfc v).length + 1) 0 hholds
    (Nat.le_succ _)
  rw [Nat.zero_add] at hread
  rw [← same_readBack_iff v hv]
  constructor
  · rintro ⟨d, hd, hsame⟩
    have heq := hread.symm.trans hd
    rw [Except.ok.injEq, Prod.mk.injEq] at heq
    rwa [heq.1]
  · exact fun hsame => ⟨_, hread, hsame⟩

/-- A dictionary with a negative integer and an array. -/
def plainSample : Json := .dict [("n", .array [.int (-3), .int 500, .string "x"])]

theorem keyed_plainSample : plainSample.Keyed fun s => s := by
  simp [plainSample, Json.Keyed, KeyedItems, KeyedEntries]

theorem encode_plainSample : encodeCborValue (fun s => s) plainSample =
    [0xa1, 0x61, 0x6e, 0x83, 0x22, 0x19, 0x01, 0xf4, 0x61, 0x78] := by
  rw [plainSample, encodeCborValue_dict, sortedEntries, mergeSort_singleton]
  decide

theorem roundTrips_plainSample :
    ∃ hfit : (encodeCborValue (fun s => s) plainSample).length < 2 ^ 63,
      plainSample.plain = true ∧ RoundTrips (fun s => s) plainSample hfit := by
  have hfit : (encodeCborValue (fun s => s) plainSample).length < 2 ^ 63 := by
    rw [encode_plainSample]
    decide
  exact ⟨hfit, rfl, (roundTrips_iff_plain _ plainSample keyed_plainSample hfit).2 rfl⟩

/-- `null` comes back as `true`. -/
theorem not_roundTrips : ¬ ∀ (nfc : String → String) (v : Json), v.Keyed nfc →
    ∀ hfit : (encodeCborValue nfc v).length < 2 ^ 63, RoundTrips nfc v hfit := by
  intro hall
  obtain ⟨d, hd, hsame⟩ := hall (fun s => s) .null trivial (by decide)
  have htrue : decodeCborValue (fun s => s) ⟨encodeCborValue (fun s => s) .null, by decide⟩
      = .ok (.bool true, 1) := rfl
  have heq := htrue.symm.trans hd
  rw [Except.ok.injEq, Prod.mk.injEq] at heq
  rw [Json.Same, ← heq.1] at hsame
  simp at hsame

end ZhtpCodec
