import Mathlib.Data.List.Basic

/-! # DNS responses

The wire format of a response with one question, as far as a reader of addresses needs it: names made
of labels that end at the root or in a pointer, and resource records. `readResponse` reads the
addresses of a message from its bytes, stops where the message is cut short, and reads back what
`Response.encode` has written. -/

namespace Dns

open List

/-! ## Numbers -/

/-- A number of 16 bits, the high byte first. -/
def be16 (n : Nat) : List UInt8 := [UInt8.ofNat (n / 256), UInt8.ofNat n]

def number (hi lo : UInt8) : Nat := hi.toNat * 256 + lo.toNat

theorem number_lt (hi lo : UInt8) : number hi lo < 65536 := by
  have hhi := hi.toNat_lt
  have hlo := lo.toNat_lt
  rw [number]
  omega

variable {n : Nat}

theorem number_be16 (h : n < 65536) : number (UInt8.ofNat (n / 256)) (UInt8.ofNat n) = n := by
  rw [number, UInt8.toNat_ofNat', UInt8.toNat_ofNat']
  omega

/-! ## Names -/

structure Label where
  bytes : List UInt8
  pos : 0 < bytes.length
  le : bytes.length ≤ 63

def Label.encode (l : Label) : List UInt8 := UInt8.ofNat l.bytes.length :: l.bytes

inductive NameEnd where
  | root
  | pointer (offset : Fin 16384)

def NameEnd.encode : NameEnd → List UInt8
  | .root => [0]
  | .pointer offset => [UInt8.ofNat (192 + offset / 256), UInt8.ofNat offset]

/-- A label sequence, a pointer, or labels that end in a pointer. -/
structure Name where
  labels : List Label
  ending : NameEnd

def Name.encode (n : Name) : List UInt8 := n.labels.flatMap Label.encode ++ n.ending.encode

/-- The two high bits of a length are set. -/
def isPointer (len : Nat) : Bool := len &&& 0xC0 = 0xC0

theorem isPointer_iff {len : Nat} (h : len < 256) : isPointer len = true ↔ 192 ≤ len := by
  have hall : ∀ n : Fin 256, isPointer n = true ↔ 192 ≤ n.1 := by decide +kernel
  exact hall ⟨len, h⟩

/-- What stands behind the name. -/
def skipName : List UInt8 → List UInt8
  | [] => []
  | b :: rest =>
    if b.toNat = 0 then rest
    else if isPointer b.toNat then rest.drop 1
    else skipName (rest.drop b.toNat)
termination_by bs => bs.length
decreasing_by
  simp only [List.length_drop, List.length_cons]
  omega

@[simp] theorem skipName_nil : skipName [] = [] := by rw [skipName]

theorem length_skipName_le (bytes : List UInt8) : (skipName bytes).length ≤ bytes.length := by
  induction bytes using skipName.induct with
  | case1 => exact Nat.le_of_eq (congrArg List.length skipName_nil)
  | case2 b rest hzero =>
    rw [skipName, if_pos hzero]
    exact Nat.le_succ _
  | case3 b rest hzero hpointer =>
    rw [skipName, if_neg hzero, if_pos hpointer, length_drop, length_cons]
    omega
  | case4 b rest hzero hpointer ih =>
    rw [skipName, if_neg hzero, if_neg hpointer, length_cons]
    rw [length_drop] at ih
    omega

theorem skipName_end (e : NameEnd) (rest : List UInt8) : skipName (e.encode ++ rest) = rest := by
  cases e with
  | root =>
    rw [NameEnd.encode, singleton_append, skipName]
    exact if_pos rfl
  | pointer offset =>
    have hbyte : (UInt8.ofNat (192 + offset.1 / 256)).toNat = 192 + offset.1 / 256 := by
      rw [UInt8.toNat_ofNat']
      omega
    have hpointer : isPointer (192 + offset.1 / 256) = true := (isPointer_iff (by omega)).2 (by omega)
    rw [NameEnd.encode, cons_append, skipName, hbyte, if_neg (by omega), if_pos hpointer]
    rfl

theorem skipName_label (l : Label) (rest : List UInt8) :
    skipName (l.encode ++ rest) = skipName rest := by
  have hle := l.le
  have hpos := l.pos
  have hbyte : (UInt8.ofNat l.bytes.length).toNat = l.bytes.length := by
    rw [UInt8.toNat_ofNat']
    omega
  have hplain : ¬ isPointer l.bytes.length = true := by
    rw [isPointer_iff (by omega)]
    omega
  rw [Label.encode, cons_append, skipName, hbyte, if_neg (by omega), if_neg hplain, drop_left' rfl]

theorem skipName_encode (n : Name) (rest : List UInt8) : skipName (n.encode ++ rest) = rest := by
  obtain ⟨labels, ending⟩ := n
  rw [Name.encode, append_assoc]
  induction labels with
  | nil => exact skipName_end ending rest
  | cons l labels ih =>
    rw [flatMap_cons, append_assoc, skipName_label]
    exact ih

/-! ## Records -/

structure Record where
  owner : Name
  type : UInt16
  cls : UInt16
  ttl : UInt32
  data : List UInt8
  data_lt : data.length < 65536

/-- The fixed fields, and the data. -/
def Record.fields (r : Record) : List UInt8 :=
  be16 r.type.toNat ++ (be16 r.cls.toNat ++ (be16 (r.ttl.toNat / 65536) ++
    (be16 (r.ttl.toNat % 65536) ++ (be16 r.data.length ++ r.data))))

def Record.encode (r : Record) : List UInt8 := r.owner.encode ++ r.fields

def dotted (a b c d : UInt8) : String :=
  toString a.toNat ++ "." ++ toString b.toNat ++ "." ++ toString c.toNat ++ "." ++ toString d.toNat

/-- The address of a record of type A, which is 1. -/
def address (type : Nat) : List UInt8 → Option String
  | [a, b, c, d] => if type = 1 then some (dotted a b c d) else none
  | _ => none

theorem address_of_length_ne {type : Nat} {data : List UInt8} (h : data.length ≠ 4) :
    address type data = none := by
  unfold address
  split
  · exact absurd rfl h
  · rfl

def Record.address (r : Record) : Option String := Dns.address r.type.toNat r.data

/-- The address of the first record, if it has one, and what stands behind the record. -/
def readRecord (bytes : List UInt8) : Option (Option String × List UInt8) :=
  match skipName bytes with
  | t₁ :: t₂ :: _ :: _ :: _ :: _ :: _ :: _ :: n₁ :: n₂ :: rest =>
    if rest.length < number n₁ n₂ then none
    else some (address (number t₁ t₂) (rest.take (number n₁ n₂)), rest.drop (number n₁ n₂))
  | _ => none

def readAnswers : Nat → List UInt8 → List String
  | 0, _ => []
  | n + 1, bytes =>
    match readRecord bytes with
    | none => []
    | some (found, rest) => found.toList ++ readAnswers n rest

theorem readAnswers_short {bytes : List UInt8} (h : (skipName bytes).length < 10) :
    readAnswers n bytes = [] := by
  cases n with
  | zero => rfl
  | succ n =>
    have hnone : readRecord bytes = none := by
      rw [readRecord]
      split
      · rename_i heq
        rw [heq] at h
        simp only [length_cons] at h
        omega
      · rfl
    rw [readAnswers, hnone]

theorem readRecord_encode (r : Record) (rest : List UInt8) :
    readRecord (r.encode ++ rest) = some (r.address, rest) := by
  have htype : number (UInt8.ofNat (r.type.toNat / 256)) (UInt8.ofNat r.type.toNat) = r.type.toNat :=
    number_be16 r.type.toNat_lt
  rw [readRecord, Record.encode, append_assoc, skipName_encode]
  simp only [Record.fields, be16, cons_append, nil_append]
  rw [number_be16 r.data_lt, htype, if_neg (by rw [length_append]; omega), take_left' rfl,
    drop_left' rfl]
  rfl

theorem readAnswers_encode (records : List Record) (rest : List UInt8) :
    readAnswers records.length (records.flatMap Record.encode ++ rest) =
      records.filterMap Record.address := by
  induction records with
  | nil => rfl
  | cons r records ih =>
    rw [length_cons, readAnswers, flatMap_cons, append_assoc, readRecord_encode]
    dsimp only
    rw [ih, filterMap_cons]
    cases r.address <;> rfl

/-! ## Responses -/

/-- `rest` is what follows the answers: the other sections, and anything behind the message. -/
structure Response where
  id : UInt16
  flags : UInt16
  nscount : UInt16
  arcount : UInt16
  qname : Name
  qtype : UInt16
  qclass : UInt16
  answers : List Record
  answers_lt : answers.length < 65536
  rest : List UInt8

def Response.header (r : Response) : List UInt8 :=
  be16 r.id.toNat ++ be16 r.flags.toNat ++ be16 1 ++ be16 r.answers.length ++ be16 r.nscount.toNat ++
    be16 r.arcount.toNat

def Response.encode (r : Response) : List UInt8 :=
  r.header ++ (r.qname.encode ++ ((be16 r.qtype.toNat ++ be16 r.qclass.toNat) ++
    (r.answers.flatMap Record.encode ++ r.rest)))

def readResponse : List UInt8 → List String
  | _ :: _ :: _ :: _ :: _ :: _ :: a₁ :: a₂ :: _ :: _ :: _ :: _ :: body =>
    readAnswers (number a₁ a₂) ((skipName body).drop 4)
  | _ => []

theorem readResponse_encode (r : Response) :
    readResponse r.encode = r.answers.filterMap Record.address := by
  rw [Response.encode, Response.header]
  simp only [be16, cons_append, nil_append, readResponse]
  rw [number_be16 r.answers_lt, skipName_encode]
  exact readAnswers_encode r.answers r.rest

/-! ## Positions

A reader that keeps the whole message and an index reads the same: what it has still to read is the
message without its first `idx` bytes. -/

def byteAt (bytes : List UInt8) (i : Nat) : UInt8 := bytes.getD i 0

section
variable {bytes : List UInt8} {idx next : Nat}

theorem drop_eq_cons (h : idx < bytes.length) :
    bytes.drop idx = byteAt bytes idx :: bytes.drop (idx + 1) := by
  rw [drop_eq_getElem_cons h, byteAt, getD_eq_getElem?_getD, getElem?_eq_getElem h]
  rfl

/-- One round of a loop over the labels. -/
theorem skipName_drop (h : idx < bytes.length) : skipName (bytes.drop idx) =
      if (byteAt bytes idx).toNat = 0 then bytes.drop (idx + 1)
      else if isPointer (byteAt bytes idx).toNat then bytes.drop (idx + 2)
      else skipName (bytes.drop (idx + (1 + (byteAt bytes idx).toNat))) := by
  rw [drop_eq_cons h, skipName, drop_drop, drop_drop, ← Nat.add_assoc]

theorem skipName_drop_pointer (h : idx < bytes.length)
    (hpointer : isPointer (byteAt bytes idx).toNat = true) :
    skipName (bytes.drop idx) = bytes.drop (idx + 2) := by
  have hne : ¬ (byteAt bytes idx).toNat = 0 := by
    intro hzero
    rw [hzero] at hpointer
    exact nomatch hpointer
  rw [skipName_drop h, if_neg hne, if_pos hpointer]

theorem skipName_drop_end (h : bytes.length ≤ idx) :
    skipName (bytes.drop idx) = bytes.drop idx := by
  rw [drop_eq_nil_of_le h, skipName_nil]

theorem drop_eq_header (h : next + 10 ≤ bytes.length) :
    bytes.drop next = byteAt bytes next :: byteAt bytes (next + 1) :: byteAt bytes (next + 2) ::
      byteAt bytes (next + 3) :: byteAt bytes (next + 4) :: byteAt bytes (next + 5) ::
      byteAt bytes (next + 6) :: byteAt bytes (next + 7) :: byteAt bytes (next + 8) ::
      byteAt bytes (next + 9) :: bytes.drop (next + 10) := by
  rw [drop_eq_cons (show next < bytes.length by omega),
    drop_eq_cons (show next + 1 < bytes.length by omega),
    drop_eq_cons (show next + 2 < bytes.length by omega),
    drop_eq_cons (show next + 3 < bytes.length by omega),
    drop_eq_cons (show next + 4 < bytes.length by omega),
    drop_eq_cons (show next + 5 < bytes.length by omega),
    drop_eq_cons (show next + 6 < bytes.length by omega),
    drop_eq_cons (show next + 7 < bytes.length by omega),
    drop_eq_cons (show next + 8 < bytes.length by omega),
    drop_eq_cons (show next + 9 < bytes.length by omega)]

/-- What a record says of its type and of the length of its data. -/
theorem readRecord_drop (hname : bytes.drop next = skipName (bytes.drop idx))
    (h : next + 10 ≤ bytes.length) :
    readRecord (bytes.drop idx) =
      if bytes.length < next + 10 + number (byteAt bytes (next + 8)) (byteAt bytes (next + 9)) then none
      else some (address (number (byteAt bytes next) (byteAt bytes (next + 1)))
          ((bytes.drop (next + 10)).take (number (byteAt bytes (next + 8)) (byteAt bytes (next + 9)))),
        bytes.drop (next + 10 + number (byteAt bytes (next + 8)) (byteAt bytes (next + 9)))) := by
  rw [readRecord, ← hname, drop_eq_header h]
  dsimp only
  rw [length_drop, drop_drop]
  refine if_congr ?_ rfl rfl
  omega

variable {type size n : Nat}

theorem address_drop (h : next + size ≤ bytes.length) : address type ((bytes.drop next).take size) =
      if type = 1 ∧ size = 4 then
        some (dotted (byteAt bytes next) (byteAt bytes (next + 1)) (byteAt bytes (next + 2))
          (byteAt bytes (next + 3)))
      else none := by
  by_cases hsize : size = 4
  · subst hsize
    rw [drop_eq_cons (show next < bytes.length by omega),
      drop_eq_cons (show next + 1 < bytes.length by omega),
      drop_eq_cons (show next + 2 < bytes.length by omega),
      drop_eq_cons (show next + 3 < bytes.length by omega)]
    simp only [take_succ_cons, take_zero, address, and_true]
  · have hlen : ((bytes.drop next).take size).length = size := by
      rw [length_take, length_drop]
      omega
    rw [if_neg fun hand => hsize hand.2]
    exact address_of_length_ne (by rw [hlen]; exact hsize)

/-- A reader that finds no room for the fixed fields is done. -/
theorem readAnswers_drop_short (hname : bytes.drop next = skipName (bytes.drop idx))
    (h : bytes.length < next + 10) : readAnswers n (bytes.drop idx) = [] := by
  refine readAnswers_short ?_
  rw [← hname, length_drop]
  omega

/-- Fewer bytes than the fixed fields need hold no record, whatever the name. -/
theorem readAnswers_drop_few (h : bytes.length < idx + 10) :
    readAnswers n (bytes.drop idx) = [] := by
  have hle := length_skipName_le (bytes.drop idx)
  rw [length_drop] at hle
  exact readAnswers_short (by omega)

/-- One round of a loop over the answers. -/
theorem readAnswers_drop (hname : bytes.drop next = skipName (bytes.drop idx))
    (h : next + 10 ≤ bytes.length)
    (htype : number (byteAt bytes next) (byteAt bytes (next + 1)) = type)
    (hsize : number (byteAt bytes (next + 8)) (byteAt bytes (next + 9)) = size) :
    readAnswers (n + 1) (bytes.drop idx) = if bytes.length < next + 10 + size then []
      else if type = 1 ∧ size = 4 then
        dotted (byteAt bytes (next + 10)) (byteAt bytes (next + 10 + 1)) (byteAt bytes (next + 10 + 2))
          (byteAt bytes (next + 10 + 3)) :: readAnswers n (bytes.drop (next + 10 + size))
      else readAnswers n (bytes.drop (next + 10 + size)) := by
  rw [readAnswers, readRecord_drop hname h, htype, hsize]
  by_cases hshort : bytes.length < next + 10 + size
  · rw [if_pos hshort, if_pos hshort]
  rw [if_neg hshort, if_neg hshort, address_drop (Nat.le_of_not_lt hshort)]
  by_cases haddress : type = 1 ∧ size = 4
  · rw [if_pos haddress, if_pos haddress]
    rfl
  · rw [if_neg haddress, if_neg haddress]
    rfl

theorem readResponse_short (h : bytes.length ≤ 12) : readResponse bytes = [] := by
  unfold readResponse
  split
  · rename_i body
    simp only [length_cons] at h
    have hbody : body = [] := length_eq_zero_iff.1 (by omega)
    rw [hbody, skipName_nil]
    exact readAnswers_short (by rw [drop_nil, skipName_nil, length_nil]; omega)
  · rfl

/-- The answers begin four bytes behind the name of the question. -/
theorem readResponse_drop (h : 12 ≤ bytes.length)
    (hname : bytes.drop next = skipName (bytes.drop 12)) :
    readResponse bytes =
      readAnswers (number (byteAt bytes 6) (byteAt bytes 7)) (bytes.drop (next + 4)) := by
  have hheader : bytes.drop 0 = _ := drop_eq_header (show 0 + 10 ≤ bytes.length by omega)
  rw [drop_zero, drop_eq_cons (show 0 + 10 < bytes.length by omega),
    drop_eq_cons (show 0 + 10 + 1 < bytes.length by omega)] at hheader
  rw [← drop_drop, hname]
  conv_lhs => rw [hheader]
  rfl

end

end Dns
