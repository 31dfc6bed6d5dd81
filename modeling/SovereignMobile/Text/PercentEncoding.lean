import Mathlib.Data.List.Basic
import Mathlib.Data.List.Chain

/-! # Percent-encoded text

Text in which the characters of a set stand for themselves and every other one is written as the
octets of its UTF-8 encoding. `decode_encode` is the round trip of one component, `Spells` lets it
pass through the separators between components, and the lengths say which components are spelled
differently from what they mean. -/

namespace PercentEncoding

open List
open String (utf8EncodeChar)

/-! ## Octets -/

def hexDigit (n : Nat) : Char :=
  Char.ofNat (if n < 10 then 48 + n else 55 + n)

def hexValue (c : Char) : Option Nat :=
  if 48 ≤ c.toNat ∧ c.toNat ≤ 57 then some (c.toNat - 48)
  else if 65 ≤ c.toNat ∧ c.toNat ≤ 70 then some (c.toNat - 55)
  else if 97 ≤ c.toNat ∧ c.toNat ≤ 102 then some (c.toNat - 87)
  else none

def encodeOctet (b : UInt8) : List Char :=
  ['%', hexDigit (b.toNat / 16), hexDigit (b.toNat % 16)]

/-- The octets of a text in which `%` and two hexadecimal digits stand for one octet. -/
def octets : List Char → List UInt8
  | [] => []
  | [c] => String.utf8EncodeChar c
  | [c, a] => String.utf8EncodeChar c ++ String.utf8EncodeChar a
  | c :: a :: b :: cs =>
    match decide (c = '%'), hexValue a, hexValue b with
    | true, some x, some y => UInt8.ofNat (16 * x + y) :: octets cs
    | _, _, _ => String.utf8EncodeChar c ++ octets (a :: b :: cs)

/-- Every character outside `keep` becomes its octets. -/
def encodeChar (keep : Char → Bool) (c : Char) : List Char :=
  if keep c then [c] else (String.utf8EncodeChar c).flatMap encodeOctet

def encode (keep : Char → Bool) (cs : List Char) : List Char :=
  cs.flatMap (encodeChar keep)

/-- `none` where the octets are not UTF-8. -/
def decode (cs : List Char) : Option (List Char) :=
  (octets cs).toByteArray.utf8Decode?.map Array.toList

variable {keep : Char → Bool}

theorem hexValue_hexDigit {n : Nat} (h : n < 16) : hexValue (hexDigit n) = some n := by
  have hall : ∀ i : Fin 16, hexValue (hexDigit i) = some i.1 := by decide
  exact hall ⟨n, h⟩

theorem octets_encodeOctet (b : UInt8) (rest : List Char) :
    octets (encodeOctet b ++ rest) = b :: octets rest := by
  have hlt : b.toNat < 256 := b.toNat_lt
  have hhigh := hexValue_hexDigit (n := b.toNat / 16) (by omega)
  have hlow := hexValue_hexDigit (n := b.toNat % 16) (by omega)
  simp only [encodeOctet, cons_append, nil_append]
  rw [octets]
  simp only [hhigh, hlow, decide_true]
  rw [show 16 * (b.toNat / 16) + b.toNat % 16 = b.toNat by omega, UInt8.ofNat_toNat]

theorem octets_flatMap_encodeOctet (bs : List UInt8) (rest : List Char) :
    octets (bs.flatMap encodeOctet ++ rest) = bs ++ octets rest := by
  induction bs with
  | nil => rfl
  | cons b bs ih =>
    rw [flatMap_cons, append_assoc, octets_encodeOctet, ih]
    rfl

variable {c : Char} {raw text cs pat : List Char} {α : Type} {f g : α → List Char}

theorem octets_cons_of_ne (h : c ≠ '%') (cs : List Char) :
    octets (c :: cs) = utf8EncodeChar c ++ octets cs := by
  rcases cs with _ | ⟨a, _ | ⟨b, rest⟩⟩
  · rw [octets, octets, append_nil]
  · rw [octets, octets]
  · rw [octets, decide_eq_false h]

/-! ## What a text spells -/

/-- Decoded, `raw` is `text`, also when something follows. -/
def Spells (raw text : List Char) : Prop :=
  ∀ rest, octets (raw ++ rest) = text.flatMap String.utf8EncodeChar ++ octets rest

theorem Spells.nil : Spells [] [] := fun _ => rfl

theorem Spells.append {raw' text' : List Char} (h : Spells raw text) (h' : Spells raw' text') :
    Spells (raw ++ raw') (text ++ text') := by
  intro rest
  rw [append_assoc, h, h', flatMap_append, append_assoc]

theorem Spells.singleton (h : c ≠ '%') : Spells [c] [c] := by
  intro rest
  rw [singleton_append, octets_cons_of_ne h, flatMap_singleton]

theorem Spells.encode (hkeep : keep '%' = false) (cs : List Char) : Spells (encode keep cs) cs := by
  induction cs with
  | nil => exact Spells.nil
  | cons c cs ih =>
    have hc : Spells (encodeChar keep c) [c] := by
      unfold encodeChar
      split
      · rename_i hk
        refine Spells.singleton fun heq => ?_
        rw [heq, hkeep] at hk
        exact nomatch hk
      · intro rest
        rw [octets_flatMap_encodeOctet, flatMap_singleton]
    exact hc.append ih

/-- Components one by one, with a separator that is not encoded. -/
theorem Spells.intercalate (sep : Char) (hsep : sep ≠ '%') (xs : List α)
    (h : ∀ x ∈ xs, Spells (f x) (g x)) :
    Spells ([sep].intercalate (xs.map f)) ([sep].intercalate (xs.map g)) := by
  induction xs with
  | nil => exact Spells.nil
  | cons x xs ih =>
    have hx := h x mem_cons_self
    have hxs := ih fun y hy => h y (mem_cons_of_mem _ hy)
    cases xs with
    | nil => simpa using hx
    | cons y ys =>
      simp only [map_cons, intercalate_cons_cons]
      exact (hx.append (Spells.singleton hsep)).append hxs

theorem Spells.decode (h : Spells raw text) : decode raw = some text := by
  have hoctets := h []
  rw [append_nil, octets, append_nil] at hoctets
  unfold PercentEncoding.decode
  rw [hoctets, show (text.flatMap utf8EncodeChar).toByteArray = text.utf8Encode from rfl,
    utf8Decode?_utf8Encode]
  rfl

/-- **Round trip** of one component. -/
theorem decode_encode (hkeep : keep '%' = false) (cs : List Char) :
    decode (encode keep cs) = some cs :=
  (Spells.encode hkeep cs).decode

/-! ## Lengths -/

theorem encode_of_all (h : cs.all keep = true) : encode keep cs = cs := by
  induction cs with
  | nil => rfl
  | cons c cs ih =>
    rw [all_cons, Bool.and_eq_true] at h
    unfold encode
    rw [flatMap_cons, encodeChar, if_pos h.1]
    exact congrArg (c :: ·) (ih h.2)

theorem length_encodeChar (keep : Char → Bool) (c : Char) :
    (keep c = true ∧ (encodeChar keep c).length = 1) ∨
      (keep c = false ∧ 3 ≤ (encodeChar keep c).length) := by
  unfold encodeChar
  split
  · rename_i hk
    exact .inl ⟨hk, rfl⟩
  rename_i hk
  refine .inr ⟨Bool.eq_false_iff.2 hk, ?_⟩
  obtain ⟨b, bs, hbs⟩ := exists_cons_of_ne_nil (String.utf8EncodeChar_ne_nil)
  rw [hbs, flatMap_cons, length_append]
  exact Nat.le_add_right 3 _

/-- An encoded text is longer, unless there is nothing to encode in it. -/
theorem length_encode (keep : Char → Bool) (cs : List Char) : cs.length ≤ (encode keep cs).length ∧
    ((encode keep cs).length = cs.length → cs.all keep = true) := by
  induction cs with
  | nil => exact ⟨le_rfl, fun _ => rfl⟩
  | cons c cs ih =>
    have hlength : (encode keep (c :: cs)).length =
        (encodeChar keep c).length + (encode keep cs).length := by
      unfold encode
      rw [flatMap_cons, length_append]
    rw [length_cons]
    rcases length_encodeChar keep c with ⟨hk, hone⟩ | ⟨_, hthree⟩
    · refine ⟨by omega, fun heq => ?_⟩
      rw [all_cons, hk, ih.2 (by omega)]
      rfl
    · exact ⟨by omega, fun heq => by omega⟩

/-- Where every part is at most as long as another, so is the whole; and a whole of the same length
    has parts of the same length. -/
theorem length_intercalate_le (sep : Char) (xs : List α) (h : ∀ x ∈ xs, (f x).length ≤ (g x).length)
    :
    ([sep].intercalate (xs.map f)).length ≤ ([sep].intercalate (xs.map g)).length ∧
      (([sep].intercalate (xs.map g)).length = ([sep].intercalate (xs.map f)).length →
        ∀ x ∈ xs, (g x).length = (f x).length) := by
  induction xs with
  | nil => exact ⟨le_rfl, fun _ x hx => nomatch hx⟩
  | cons x xs ih =>
    have hx := h x mem_cons_self
    obtain ⟨hle, heq⟩ := ih fun y hy => h y (mem_cons_of_mem _ hy)
    cases xs with
    | nil => simpa using hx
    | cons y ys =>
      simp only [map_cons, intercalate_cons_cons, length_append] at *
      refine ⟨by omega, fun hlength z hz => ?_⟩
      rcases mem_cons.1 hz with rfl | hz
      · omega
      · exact heq (by omega) z hz

/-! ## Replacing a text -/

/-- `skip` counts the characters of an occurrence that are left. -/
def replaceFrom (pat rep : List Char) : Nat → List Char → List Char
  | _, [] => []
  | skip + 1, _ :: cs => replaceFrom pat rep skip cs
  | 0, c :: cs =>
    if pat.isPrefixOf (c :: cs) then rep ++ replaceFrom pat rep (pat.length - 1) cs
    else c :: replaceFrom pat rep 0 cs

/-- Every occurrence of `pat`, from the left, is replaced. -/
def replaceAll (pat rep cs : List Char) : List Char :=
  replaceFrom pat rep 0 cs

theorem replaceFrom_append (pat rep : List Char) (xs cs : List Char) :
    replaceFrom pat rep xs.length (xs ++ cs) = replaceFrom pat rep 0 cs := by
  induction xs with
  | nil => rfl
  | cons x xs ih => exact ih

theorem replaceAll_of_not_occurs (rep : List Char) (h : ¬ pat <:+: cs) :
    replaceAll pat rep cs = cs := by
  induction cs with
  | nil => rfl
  | cons c cs ih =>
    have hprefix : ¬ pat.isPrefixOf (c :: cs) = true := by
      intro hp
      exact h ( isPrefixOf_iff_prefix.1 hp).isInfix
    unfold replaceAll replaceFrom
    rw [if_neg hprefix]
    exact congrArg (c :: ·) (ih fun hin => h (hin.trans (suffix_cons c cs).isInfix))

/-- An occurrence at the start, and none after it. -/
theorem replaceAll_append (rep : List Char) (hpat : pat ≠ []) (h : ¬ pat <:+: cs) :
    replaceAll pat rep (pat ++ cs) = rep ++ cs := by
  obtain ⟨c, pat', rfl⟩ := exists_cons_of_ne_nil hpat
  unfold replaceAll
  have hprefix : (c :: pat').isPrefixOf (c :: (pat' ++ cs)) = true :=
    isPrefixOf_iff_prefix.2 (prefix_append (c :: pat') cs)
  rw [cons_append, replaceFrom, if_pos hprefix, length_cons, Nat.add_sub_cancel, replaceFrom_append]
  exact congrArg (rep ++ ·) (replaceAll_of_not_occurs rep h)

end PercentEncoding
