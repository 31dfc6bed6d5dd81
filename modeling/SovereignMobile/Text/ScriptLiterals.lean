import Mathlib.Data.List.Basic
import Mathlib.Data.List.TakeWhile

/-! # String literals of a script

Single-quoted string literals of JavaScript, over the UTF-16 code units of the script, with every
escape sequence of the sloppy mode. A text that is put between the quotes as it stands is the value of
the literal exactly if it has no quote, backslash or line break (`body_raw_iff`); where its quotes are
escaped first, it must still have no backslash or line break (`body_escaped_iff`). -/

namespace ScriptLiterals

open List Option

/-- A string of UTF-16 code units. -/
abbrev Text := List UInt16

def quote : UInt16 := 39
def backslash : UInt16 := 92

/-- The line terminators that may not stand in a literal. -/
def isLineBreak (c : UInt16) : Bool := c = 10 || c = 13

def hexValue (c : UInt16) : Option Nat :=
  if 48 ≤ c.toNat ∧ c.toNat ≤ 57 then some (c.toNat - 48)
  else if 65 ≤ c.toNat ∧ c.toNat ≤ 70 then some (c.toNat - 55)
  else if 97 ≤ c.toNat ∧ c.toNat ≤ 102 then some (c.toNat - 87)
  else none

def isHex (c : UInt16) : Bool := (hexValue c).isSome

def isOctal (c : UInt16) : Bool := 48 ≤ c.toNat && c.toNat ≤ 55

/-- The value of digits in base `b`. -/
def ofDigits (b : Nat) (ds : List UInt16) : Nat :=
  ds.foldl (fun n d => b * n + (hexValue d).getD 0) 0

/-- The code units of a code point. -/
def utf16 (n : Nat) : Text :=
  if n < 0x10000 then [UInt16.ofNat n]
  else [UInt16.ofNat (0xD800 + (n - 0x10000) / 0x400), UInt16.ofNat (0xDC00 + (n - 0x10000) % 0x400)]

/-- How many octal digits an escape takes. -/
def octalLength (ds : List UInt16) : Nat :=
  let run := (ds.takeWhile isOctal).length
  if (ds.head?.getD 0).toNat ≤ 51 then min 3 run else min 2 run

/-- `\b`, `\t`, `\n`, `\v`, `\f`, `\r`, and any other unit for itself. -/
def single (c : UInt16) : UInt16 :=
  if c = 98 then 8
  else if c = 116 then 9
  else if c = 110 then 10
  else if c = 118 then 11
  else if c = 102 then 12
  else if c = 114 then 13
  else c

/-- What follows a backslash: the units that it stands for, and how many were read. -/
def escape : Text → Option (Text × Nat)
  | [] => none
  | c :: cs =>
    -- a continued line
    if c = 13 then some ([], if cs.head? = some 10 then 2 else 1)
    else if c = 10 || c = 0x2028 || c = 0x2029 then some ([], 1)
    -- `x`
    else if c = 120 then
      if (cs.take 2).length = 2 && (cs.take 2).all isHex then
        some ([UInt16.ofNat (ofDigits 16 (cs.take 2))], 3)
      else none
    -- `u`
    else if c = 117 then
      if cs.head? = some 123 then
        let ds := cs.tail.takeWhile isHex
        if ds ≠ [] ∧ ofDigits 16 ds ≤ 0x10FFFF ∧ (cs.tail.drop ds.length).head? = some 125 then
          some (utf16 (ofDigits 16 ds), ds.length + 3)
        else none
      else if (cs.take 4).length = 4 && (cs.take 4).all isHex then
        some ([UInt16.ofNat (ofDigits 16 (cs.take 4))], 5)
      else none
    else if isOctal c then
      let n := octalLength (c :: cs)
      some ([UInt16.ofNat (ofDigits 8 ((c :: cs).take n))], n)
    else some ([single c], 1)

/-- A literal after its opening quote: its value, and what follows the closing quote. The first `skip`
    units have been read with the escape before them. -/
def body : Nat → Text → Option (Text × Text)
  | _, [] => none
  | skip + 1, _ :: cs => body skip cs
  | 0, c :: cs =>
    if c = quote then some ([], cs)
    else if c = backslash then
      match escape cs with
      | none => none
      | some (units, n) => (body n cs).map fun r => (units ++ r.1, r.2)
    else if isLineBreak c then none
    else (body 0 cs).map fun r => (c :: r.1, r.2)

theorem body_skip (n : Nat) (cs : Text) : body n cs = body 0 (cs.drop n) := by
  induction cs generalizing n with
  | nil => cases n <;> rfl
  | cons c cs ih =>
    cases n with
    | zero => rfl
    | succ n => exact ih n

/-! ## Escapes -/

theorem not_isHex_quote : isHex quote = false := by decide

/-- All that an escape reads after its first unit is part of it: no quote is. -/
structure Reads (cs units : Text) (n : Nat) : Prop where
  pos : 0 < n
  le : n ≤ cs.length
  shorter : units.length ≤ n
  quote : quote ∉ (cs.take n).tail

variable {cs units s tail r : Text} {c : UInt16}

theorem quote_not_mem_of_all {p : UInt16 → Bool} (hp : p quote = false) (h : cs.all p = true) :
    quote ∉ cs := by
  intro hq
  exact absurd (all_eq_true.1 h _ hq) (by simp [hp])

theorem utf16_length (n : Nat) : (utf16 n).length ≤ 2 := by
  unfold utf16
  split <;> simp

theorem octalLength_le (ds : List UInt16) : octalLength ds ≤ (ds.takeWhile isOctal).length := by
  unfold octalLength
  dsimp only
  split <;> omega

theorem octalLength_pos (h : isOctal c = true) (ds : List UInt16) : 0 < octalLength (c :: ds) := by
  unfold octalLength
  rw [takeWhile_cons_of_pos h]
  dsimp only
  split
  · rw [length_cons]
    omega
  · rw [length_cons]
    omega

theorem takeWhile_le (p : UInt16 → Bool) (cs : Text) : (cs.takeWhile p).length ≤ cs.length :=
  ( takeWhile_prefix p).length_le

/-- The digits of a `u` escape in braces. -/
theorem reads_braced (hopen : cs.head? = some 123)
    (hclose : (cs.tail.drop (cs.tail.takeWhile isHex).length).head? = some 125)
    (hshort : units.length ≤ 2) :
    Reads (117 :: cs) units ((cs.tail.takeWhile isHex).length + 3) := by
  obtain ⟨cs, rfl⟩ : ∃ ds, cs = 123 :: ds := by
    cases cs with
    | nil => simp at hopen
    | cons d ds =>
      cases hopen
      exact ⟨ds, rfl⟩
  simp only [tail_cons] at hclose ⊢
  obtain ⟨rest, hrest⟩ : ∃ rest, cs.drop (cs.takeWhile isHex).length = 125 :: rest := by
    cases hd : cs.drop (cs.takeWhile isHex).length with
    | nil =>
      rw [hd] at hclose
      simp at hclose
    | cons d ds =>
      rw [hd] at hclose
      cases hclose
      exact ⟨ds, rfl⟩
  have hsplit : cs = cs.takeWhile isHex ++ 125 :: rest := by
    conv_lhs => rw [← take_append_drop (cs.takeWhile isHex).length cs, hrest]
    rw [← prefix_iff_eq_take.1 ( takeWhile_prefix isHex)]
  have hlen := congrArg List.length hsplit
  simp only [length_append, length_cons] at hlen
  constructor
  · omega
  · simp only [length_cons]
    omega
  · omega
  have htake : ∀ ds, cs = ds ++ 125 :: rest →
      (117 :: 123 :: cs).take (ds.length + 3) = 117 :: 123 :: (ds ++ [125]) := by
    intro ds hds
    rw [hds]
    simp [take_append, take_of_length_le]
  rw [htake _ hsplit, tail_cons, mem_cons, mem_append]
  rintro (hq | hq | hq)
  · exact nomatch hq
  · exact nomatch mem_takeWhile_imp hq
  · exact nomatch hq

theorem escape_reads {n : Nat} (h : escape cs = some (units, n)) : Reads cs units n := by
  cases cs with
  | nil => simp [escape] at h
  | cons c cs =>
    have hsingle : ∀ units : Text, units.length ≤ 1 → Reads (c :: cs) units 1 := fun units hu =>
      ⟨Nat.one_pos, by simp, hu, by simp⟩
    have hdigits : ∀ k units, units.length ≤ 1 →
        ((cs.take k).length = k && (cs.take k).all isHex) = true → Reads (c :: cs) units (k + 1) := by
      intro k units hu hk
      rw [Bool.and_eq_true, decide_eq_true_eq] at hk
      refine ⟨Nat.succ_pos k, ?_, by omega, ?_⟩
      · have hle : (cs.take k).length ≤ cs.length := length_take_le' k cs
        simp only [length_cons]
        omega
      · rw [take_succ_cons]
        exact quote_not_mem_of_all not_isHex_quote hk.2
    simp only [escape] at h
    split at h
    · -- a line feed may follow
      cases h
      split
      · rename_i hlf
        cases cs with
        | nil => simp at hlf
        | cons d ds =>
          cases hlf
          exact ⟨Nat.two_pos, by simp, by simp, by simp [quote]⟩
      · exact hsingle [] (by simp)
    · split at h
      · cases h
        exact hsingle [] (by simp)
      split at h
      · -- `x`
        split at h
        · rename_i hhex
          cases h
          exact hdigits 2 _ (by simp) hhex
        · simp at h
      · split at h
        · -- `u`
          rename_i hu
          subst hu
          split at h
          · rename_i hopen
            split at h
            · rename_i hbraced
              cases h
              exact reads_braced hopen hbraced.2.2 (utf16_length _)
            · simp at h
          · split at h
            · rename_i hhex
              cases h
              exact hdigits 4 _ (by simp) hhex
            · simp at h
        · split at h
          · -- octal digits
            rename_i hoctal
            cases h
            have hle := octalLength_le (c :: cs)
            refine ⟨octalLength_pos hoctal cs, hle.trans (takeWhile_le _ _), ?_, ?_⟩
            · exact octalLength_pos hoctal cs
            intro hq
            have htaken :
                (c :: cs).take (octalLength (c :: cs)) <+: (c :: cs).takeWhile isOctal := by
              rw [prefix_iff_eq_take.1 ( takeWhile_prefix isOctal)]
              exact take_prefix_take_left hle
            have hoct := mem_takeWhile_imp (htaken.subset (mem_of_mem_tail hq))
            exact nomatch hoct
          · cases h
            exact hsingle _ (by simp)

/-! ## What ends a literal -/

/-- No quote, and nothing that may not stand in a literal as it is. -/
def Plain (s : Text) : Prop := ∀ c ∈ s, c ≠ quote ∧ c ≠ backslash ∧ isLineBreak c = false

/-- The same, but for quotes. -/
def Unescaped (s : Text) : Prop := ∀ c ∈ s, c ≠ backslash ∧ isLineBreak c = false

instance (s : Text) : Decidable (Plain s) :=
  List.decidableBAll (fun c => c ≠ quote ∧ c ≠ backslash ∧ isLineBreak c = false) s

instance (s : Text) : Decidable (Unescaped s) :=
  List.decidableBAll (fun c => c ≠ backslash ∧ isLineBreak c = false) s

theorem plain_cons :
    Plain (c :: s) ↔ (c ≠ quote ∧ c ≠ backslash ∧ isLineBreak c = false) ∧ Plain s :=
  forall_mem_cons

theorem body_quote (cs : Text) : body 0 (quote :: cs) = some ([], cs) := by
  simp [body]

theorem body_plain (hq : c ≠ quote) (hb : c ≠ backslash) (hl : isLineBreak c = false) (cs : Text) :
    body 0 (c :: cs) = (body 0 cs).map fun r => (c :: r.1, r.2) := by
  simp [body, hq, hb, hl]

theorem body_backslash (cs : Text) : body 0 (backslash :: cs) =
    (escape cs).bind fun e => (body 0 (cs.drop e.2)).map fun r => (e.1 ++ r.1, r.2) := by
  have hne : backslash ≠ quote := by decide
  simp only [body, hne, if_false, if_true]
  cases escape cs with
  | none => rfl
  | some e =>
    obtain ⟨units, n⟩ := e
    simp only [bind_some]
    rw [body_skip]

/-- A literal up to its first quote, `u`: the quote ends it, and then the value is `u` or shorter; or it
    is escaped, and then it is in the value, not behind its place in `u`. -/
theorem body_first_quote (n : Nat) : ∀ {u w v r : Text}, u.length = n → quote ∉ u →
    body 0 (u ++ quote :: w) = some (v, r) →
    (r = w ∧ v.length ≤ u.length ∧ (v.length = u.length → Plain u)) ∨
    (∃ u1 v1 v2, u = u1 ++ [backslash] ∧ v = v1 ++ quote :: v2 ∧ v1.length ≤ u1.length ∧
      (v1.length = u1.length → Plain u1)) := by
  induction n using Nat.strong_induction_on with
  | _ n ih =>
    intro u w v r hlen hu hbody
    cases u with
    | nil =>
      rw [nil_append] at hbody
      cases hbody
      exact .inl ⟨rfl, le_rfl, fun _ _ hc => nomatch hc⟩
    | cons c u =>
      have hc : c ≠ quote := fun h => hu (h ▸ mem_cons_self)
      have hu' : quote ∉ u := fun h => hu (mem_cons_of_mem _ h)
      rw [cons_append] at hbody
      by_cases hb : c = backslash
      · subst hb
        rw [body_backslash] at hbody
        obtain ⟨⟨units, k⟩, hescape, hrest⟩ := bind_eq_some_iff.1 hbody
        obtain ⟨⟨v', r'⟩, hbody', heq⟩ := map_eq_some_iff.1 hrest
        cases heq
        by_cases hnil : u = []
        · -- the quote itself is escaped
          subst hnil
          rw [nil_append] at hescape
          cases hescape
          exact .inr ⟨[], [], v', rfl, rfl, le_rfl, fun _ _ hc => nomatch hc⟩
        have hreads := escape_reads hescape
        -- the escape is read from `u`
        have hk : k ≤ u.length := by
          by_contra hlt
          apply hreads.quote
          obtain ⟨d, ds, rfl⟩ := exists_cons_of_ne_nil hnil
          have htake : (d :: (ds ++ quote :: w)).take k = d :: (ds ++ quote :: w).take (k - 1) := by
            rw [← take_succ_cons]
            congr 1
            omega
          rw [cons_append, htake, take_append]
          refine mem_append_right _ ?_
          have hpos : 0 < k - 1 - ds.length := by
            simp only [length_cons] at hlt
            omega
          rw [show k - 1 - ds.length = (k - 1 - ds.length - 1) + 1 by omega]
          exact mem_cons_self
        have hdrop : (u ++ quote :: w).drop k = u.drop k ++ quote :: w :=
          drop_append_of_le_length hk
        rw [hdrop] at hbody'
        have hshorter := hreads.shorter
        have hlen' : (u.drop k).length = u.length - k := length_drop
        simp only [length_cons] at hlen
        have hdropped : quote ∉ u.drop k := fun h => hu' (mem_of_mem_drop h)
        rcases ih (u.drop k).length (by omega) rfl hdropped hbody' with
          ⟨rfl, hle, _⟩ | ⟨u1, v1, v2, hu1, rfl, hle, _⟩
        · refine .inl ⟨rfl, ?_, fun heq' => ?_⟩
          · simp only [length_append, length_cons]
            omega
          · simp only [length_append, length_cons] at heq'
            omega
        refine .inr ⟨backslash :: (u.take k ++ u1), units ++ v1, v2, ?_, ?_, ?_, fun heq' => ?_⟩
        · rw [cons_append, append_assoc, ← hu1, take_append_drop]
        · rw [append_assoc]
        · simp only [length_append, length_cons, length_take]
          omega
        · simp only [length_append, length_cons, length_take] at heq'
          omega
      · cases hl : isLineBreak c with
        | true =>
          simp [body, hc, hb, hl] at hbody
        | false =>
          rw [body_plain hc hb hl] at hbody
          obtain ⟨⟨v', r'⟩, hbody', heq⟩ := map_eq_some_iff.1 hbody
          cases heq
          simp only [length_cons] at hlen
          rcases ih u.length (by omega) rfl hu' hbody' with
            ⟨rfl, hle, hplain⟩ | ⟨u1, v1, v2, rfl, rfl, hle, hplain⟩
          · refine .inl ⟨rfl, Nat.succ_le_succ hle, fun heq' => ?_⟩
            exact plain_cons.2 ⟨⟨hc, hb, hl⟩, hplain (Nat.succ.inj heq')⟩
          · refine .inr ⟨c :: u1, c :: v1, v2, rfl, rfl, Nat.succ_le_succ hle, fun heq' => ?_⟩
            exact plain_cons.2 ⟨⟨hc, hb, hl⟩, hplain (Nat.succ.inj heq')⟩

theorem length_le_of_first_quote {u w v1 v2 : Text} (hu : quote ∉ u)
    (h : u ++ quote :: w = v1 ++ quote :: v2) : u.length ≤ v1.length := by
  by_contra hlt
  rw [Nat.not_le] at hlt
  apply hu
  have hget : (u ++ quote :: w)[v1.length]? = some quote := by
    rw [h, getElem?_append_right le_rfl, Nat.sub_self]
    rfl
  rw [getElem?_append_left hlt] at hget
  exact mem_of_getElem? hget

theorem exists_first_quote (h : quote ∈ s) : ∃ u w, s = u ++ quote :: w ∧ quote ∉ u := by
  obtain ⟨u, w, heq, hu⟩ := eq_append_cons_of_mem h
  exact ⟨u, w, heq, hu⟩

theorem body_of_plain (h : Plain s) (tail : Text) :
    body 0 (s ++ quote :: tail) = some (s, tail) := by
  induction s with
  | nil => exact body_quote tail
  | cons c s ih =>
    obtain ⟨⟨hq, hb, hl⟩, hs⟩ := plain_cons.1 h
    rw [cons_append, body_plain hq hb hl, ih hs]
    rfl

/-- A text between quotes is read as itself exactly if it is plain. -/
theorem body_raw_iff : body 0 (s ++ quote :: tail) = some (s, r) ↔ Plain s ∧ r = tail := by
  constructor
  · intro h
    by_cases hq : quote ∈ s
    · exfalso
      obtain ⟨u, w, rfl, hu⟩ := exists_first_quote hq
      rw [append_assoc] at h
      rcases body_first_quote _ rfl hu h with ⟨_, hle, _⟩ | ⟨u1, v1, v2, rfl, heq, hle, _⟩
      · simp only [length_append, length_cons] at hle
        omega
      · have hge := length_le_of_first_quote hu heq
        simp only [length_append, length_cons] at hge
        omega
    · rcases body_first_quote _ rfl hq h with ⟨rfl, _, hplain⟩ | ⟨u1, v1, v2, _, rfl, _, _⟩
      · exact ⟨hplain rfl, rfl⟩
      · exact absurd (mem_append_right _ mem_cons_self) hq
  · rintro ⟨hs, rfl⟩
    exact body_of_plain hs r

/-! ## Escaped quotes -/

/-- A backslash before each quote. -/
def escapeQuotes (s : Text) : Text :=
  s.flatMap fun c => if c = quote then [backslash, quote] else [c]

theorem escapeQuotes_quote (s : Text) :
    escapeQuotes (quote :: s) = backslash :: quote :: escapeQuotes s := rfl

theorem escapeQuotes_cons (h : c ≠ quote) (s : Text) :
    escapeQuotes (c :: s) = c :: escapeQuotes s := by
  simp [escapeQuotes, h]

theorem escapeQuotes_append (s t : Text) : escapeQuotes (s ++ t) = escapeQuotes s ++ escapeQuotes t :=
  flatMap_append

theorem escapeQuotes_of_not_mem (h : quote ∉ s) : escapeQuotes s = s := by
  induction s with
  | nil => rfl
  | cons c s ih =>
    rw [mem_cons, not_or] at h
    rw [escapeQuotes_cons (fun heq => h.1 heq.symm), ih h.2]

theorem body_escaped_quote (cs : Text) :
    body 0 (backslash :: quote :: cs) = (body 0 cs).map fun r => (quote :: r.1, r.2) := by
  rw [body_backslash]
  rfl

/-- A text that starts with a backslash is not read as itself. -/
theorem body_escaped_backslash :
    body 0 (escapeQuotes (backslash :: s) ++ quote :: tail) ≠ some (backslash :: s, r) := by
  intro h
  have hstart : ∀ t, ¬Plain (backslash :: t) := fun t ht => (plain_cons.1 ht).1.2.1 rfl
  by_cases hq : quote ∈ s
  · obtain ⟨a, b, rfl, ha⟩ := exists_first_quote hq
    have ha' : quote ∉ backslash :: a := by
      rw [mem_cons, not_or]
      exact ⟨by decide, ha⟩
    -- the first quote is escaped
    have hu : quote ∉ backslash :: a ++ [backslash] := by
      rw [mem_append, not_or]
      exact ⟨ha', by decide⟩
    have hscript : escapeQuotes (backslash :: (a ++ quote :: b)) ++ quote :: tail =
        (backslash :: a ++ [backslash]) ++ quote :: (escapeQuotes b ++ quote :: tail) := by
      rw [← cons_append, escapeQuotes_append, escapeQuotes_of_not_mem ha', escapeQuotes_quote]
      simp
    rw [hscript] at h
    rcases body_first_quote _ rfl hu h with ⟨_, hle, hplain⟩ | ⟨u1, v1, v2, hu1, heq, hle, hplain⟩
    · refine hstart _ (hplain ?_)
      simp only [length_append, length_cons, length_nil] at hle ⊢
      omega
    · obtain ⟨rfl, _⟩ := append_inj' hu1 rfl
      rw [← cons_append] at heq
      exact hstart a (hplain (Nat.le_antisymm hle (length_le_of_first_quote ha' heq)))
  · have hs : quote ∉ backslash :: s := by
      rw [mem_cons, not_or]
      exact ⟨by decide, hq⟩
    rw [escapeQuotes_of_not_mem hs] at h
    exact hstart s (body_raw_iff.1 h).1

/-- A text between quotes whose own quotes are escaped is read as itself exactly if it has no backslash
    and no line break. -/
theorem body_escaped_iff :
    body 0 (escapeQuotes s ++ quote :: tail) = some (s, r) ↔ Unescaped s ∧ r = tail := by
  induction s with
  | nil =>
    constructor
    · intro h
      obtain ⟨_, rfl⟩ := Prod.mk.inj (some.inj ((body_quote tail).symm.trans h))
      exact ⟨fun c hc => absurd hc (by simp), rfl⟩
    · rintro ⟨_, rfl⟩
      exact body_quote r
  | cons c s ih =>
    have hcons : Unescaped (c :: s) ↔ (c ≠ backslash ∧ isLineBreak c = false) ∧ Unescaped s :=
      forall_mem_cons
    -- `c` is read as itself
    have hstep : ∀ rest, body 0 rest = (body 0 (escapeQuotes s ++ quote :: tail)).map
        (fun r => (c :: r.1, r.2)) →
        (body 0 rest = some (c :: s, r) ↔ Unescaped s ∧ r = tail) := by
      intro rest hrest
      rw [hrest, ← ih, map_eq_some_iff]
      constructor
      · rintro ⟨⟨v, t⟩, h, heq⟩
        obtain ⟨hv, rfl⟩ := Prod.mk.inj heq
        obtain rfl : v = s := (cons.inj hv).2
        exact h
      · intro h
        exact ⟨(s, r), h, rfl⟩
    by_cases hq : c = quote
    · subst hq
      rw [hstep _ (by rw [escapeQuotes_quote]; exact body_escaped_quote _), hcons]
      exact ⟨fun h => ⟨⟨by decide, h.1⟩, h.2⟩, fun h => ⟨h.1.2, h.2⟩⟩
    by_cases hb : c = backslash
    · subst hb
      exact ⟨fun h => absurd h body_escaped_backslash, fun h => absurd rfl (hcons.1 h.1).1.1⟩
    rw [escapeQuotes_cons hq, cons_append]
    cases hl : isLineBreak c with
    | true =>
      constructor
      · intro h
        simp [body, hb, hl] at h
      · rintro ⟨h, _⟩
        exact absurd (hcons.1 h).1.2 (by simp [hl])
    | false =>
      rw [hstep _ (body_plain hq hb hl _), hcons]
      exact ⟨fun h => ⟨⟨⟨hb, hl⟩, h.1⟩, h.2⟩, fun h => ⟨h.1.2, h.2⟩⟩

end ScriptLiterals
