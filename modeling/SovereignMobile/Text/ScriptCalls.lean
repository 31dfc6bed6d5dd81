import SovereignMobile.Text.Decimals
import SovereignMobile.Text.ScriptLiterals

/-! # Calls with literal arguments

`window['f'](true, 1, 'a', null)`: a call of a property of `window` that is named by a literal, with
nothing but literals for its arguments. -/

namespace ScriptLiterals

open List Char
open Nat (toDigits)

/-- The units of an ASCII text. -/
def text (s : String) : Text := s.toList.map fun c => UInt16.ofNat c.toNat

inductive Arg where
  | string (value : Text)
  | bool (value : Bool)
  | number (value : Int)
  | null
  deriving DecidableEq

structure Call where
  callback : Text
  args : List Arg
  deriving DecidableEq

def space : UInt16 := 32
def comma : UInt16 := 44
def minus : UInt16 := 45
def closing : UInt16 := 41

def isWord (c : UInt16) : Bool :=
  (48 ≤ c.toNat && c.toNat ≤ 57) || (65 ≤ c.toNat && c.toNat ≤ 90) || (97 ≤ c.toNat && c.toNat ≤ 122)

/-- A decimal numeral, which has no leading zero. -/
def numeral (w : Text) : Option Nat :=
  let ds := w.map fun c => Char.ofNat c.toNat
  if Decimals.Digits ds ∧ Decimals.canonical ds = ds then some (Decimals.number ds) else none

def word (w : Text) : Option Arg :=
  if w = text "true" then some (.bool true)
  else if w = text "false" then some (.bool false)
  else if w = text "null" then some .null
  else (numeral w).map fun n => .number n

def argument : Text → Option (Arg × Text)
  | [] => none
  | c :: cs =>
    if c = quote then (body 0 cs).map fun r => (.string r.1, r.2)
    else if c = minus then
      (numeral (cs.takeWhile isWord)).map fun n => (.number (-n), cs.dropWhile isWord)
    else (word ((c :: cs).takeWhile isWord)).map fun a => (a, (c :: cs).dropWhile isWord)

/-- At most so many arguments, and what follows the parenthesis behind them. -/
def arguments : Nat → Text → Option (List Arg × Text)
  | 0, _ => none
  | n + 1, cs =>
    match argument (cs.dropWhile (· = space)) with
    | none => none
    | some (_, []) => none
    | some (a, c :: rest) =>
      if c = comma then (arguments n rest).map fun r => (a :: r.1, r.2)
      else if c = closing then some ([a], rest)
      else none

/-- The whole script is one call. -/
def parseCall (script : Text) : Option Call :=
  (script.dropPrefix? (text "window['")).bind fun script =>
  (body 0 script).bind fun (callback, script) =>
  (script.dropPrefix? (text "](")).bind fun script =>
  (arguments script.length script).bind fun (args, script) =>
  if script = [] then some ⟨callback, args⟩ else none

/-! ## Literals with a condition -/

/-- `raw` between quotes is read as `s` exactly under a condition. -/
def Literal (raw s : Text) (P : Prop) : Prop :=
  ∀ {tail r : Text}, body 0 (raw ++ quote :: tail) = some (s, r) ↔ P ∧ r = tail

theorem literal_raw (s : Text) : Literal s s (Plain s) := body_raw_iff

theorem literal_escaped (s : Text) : Literal (escapeQuotes s) s (Unescaped s) := body_escaped_iff

theorem dropPrefix_append (pre cs : Text) : (pre ++ cs).dropPrefix? pre = some cs :=
  dropPrefix?_eq_some_iff.2 ⟨pre, rfl, beq_self_eq_true pre⟩

section
variable {n : Nat} {cs rest r raw s : Text} {a : Arg} {args : List Arg} {P : Prop}

theorem arguments_space : arguments (n + 1) (space :: cs) = arguments (n + 1) cs := by
  rw [arguments, arguments, dropWhile_cons_of_pos (by decide)]

theorem arguments_ne_nil : arguments n cs ≠ some ([], r) := by
  intro h
  cases n with
  | zero => simp [arguments] at h
  | succ n =>
    rw [arguments] at h
    split at h
    · cases h
    · cases h
    split at h
    · obtain ⟨_, _, heq⟩ := Option.map_eq_some_iff.1 h
      cases heq
    · split at h
      · cases h
      · cases h

theorem arguments_known (hcs : argument (cs.dropWhile (· = space)) = some (a, comma :: rest)) :
    arguments (n + 1) cs = some (a :: args, r) ↔ arguments n rest = some (args, r) := by
  rw [arguments, hcs]
  dsimp only
  rw [if_pos rfl, Option.map_eq_some_iff]
  constructor
  · rintro ⟨⟨args', r'⟩, h, heq⟩
    cases heq
    exact h
  · intro h
    exact ⟨(args, r), h, rfl⟩

theorem argument_literal (h : Literal raw s P) :
    argument (quote :: (raw ++ quote :: rest)) = some (.string s, r) ↔ P ∧ r = rest := by
  rw [argument, if_pos rfl, Option.map_eq_some_iff, ← h]
  constructor
  · rintro ⟨⟨v, t⟩, hbody, heq⟩
    cases heq
    exact hbody
  · intro hbody
    exact ⟨(s, r), hbody, rfl⟩

theorem arguments_cons : arguments (n + 1) cs = some (a :: args, r) ↔
    (∃ rest, argument (cs.dropWhile (· = space)) = some (a, comma :: rest) ∧
      arguments n rest = some (args, r)) ∨
    (argument (cs.dropWhile (· = space)) = some (a, closing :: r) ∧ args = []) := by
  have hne : closing ≠ comma := by decide
  constructor
  · intro h
    rw [arguments] at h
    split at h
    · cases h
    · cases h
    rename_i a' c rest harg
    split at h
    · rename_i hc
      obtain ⟨⟨args', r'⟩, hrest, heq⟩ := Option.map_eq_some_iff.1 h
      cases heq
      exact .inl ⟨rest, by rw [harg, hc], hrest⟩
    · split at h
      · rename_i hc
        cases h
        exact .inr ⟨by rw [harg, hc], rfl⟩
      · cases h
  · rintro (⟨rest, harg, hrest⟩ | ⟨harg, rfl⟩)
    · exact (arguments_known harg).2 hrest
    rw [arguments, harg]
    dsimp only
    rw [if_neg hne, if_pos rfl]

theorem dropWhile_quote : (quote :: cs).dropWhile (· = space) = quote :: cs :=
  dropWhile_cons_of_neg (by decide)

theorem arguments_literal (h : Literal raw s P) :
    arguments (n + 1) (quote :: (raw ++ quote :: comma :: rest)) = some (.string s :: args, r) ↔
      P ∧ arguments n rest = some (args, r) := by
  rw [arguments_cons, dropWhile_quote]
  simp only [argument_literal h]
  constructor
  · rintro (⟨rest', ⟨hP, heq⟩, hrest⟩ | ⟨⟨_, heq⟩, _⟩)
    · cases heq
      exact ⟨hP, hrest⟩
    · cases heq
  · rintro ⟨hP, hrest⟩
    exact .inl ⟨rest, ⟨hP, rfl⟩, hrest⟩

theorem arguments_last_literal (h : Literal raw s P) :
    arguments (n + 1) (quote :: (raw ++ quote :: closing :: rest)) = some ([.string s], r) ↔
      P ∧ r = rest := by
  rw [arguments_cons, dropWhile_quote]
  simp only [argument_literal h]
  constructor
  · rintro (⟨_, _, hrest⟩ | ⟨⟨hP, heq⟩, _⟩)
    · exact absurd hrest arguments_ne_nil
    · cases heq
      exact ⟨hP, rfl⟩
  · rintro ⟨hP, rfl⟩
    exact .inr ⟨⟨hP, rfl⟩, trivial⟩

/-- A call whose name is pasted in. -/
theorem parseCall_iff (h : Literal raw s P) :
    parseCall (text "window['" ++ (raw ++ quote :: (text "](" ++ rest))) = some ⟨s, args⟩ ↔
      P ∧ arguments rest.length rest = some (args, []) := by
  rw [parseCall, dropPrefix_append, Option.bind_some]
  constructor
  · intro hcall
    obtain ⟨⟨callback, script⟩, hbody, hcall⟩ := Option.bind_eq_some_iff.1 hcall
    obtain ⟨script', htaken, hcall⟩ := Option.bind_eq_some_iff.1 hcall
    obtain ⟨⟨args', script''⟩, hargs, hcall⟩ := Option.bind_eq_some_iff.1 hcall
    dsimp only at htaken hargs hcall
    split at hcall
    · rename_i hend
      cases hcall
      obtain ⟨hP, rfl⟩ := h.1 hbody
      rw [dropPrefix_append] at htaken
      cases htaken
      exact ⟨hP, by rw [hargs, hend]⟩
    · cases hcall
  · rintro ⟨hP, hargs⟩
    rw [h.2 ⟨hP, rfl⟩, Option.bind_some]
    dsimp only
    rw [dropPrefix_append, Option.bind_some, hargs, Option.bind_some]
    dsimp only
    rw [if_pos rfl]

end

/-! ## Numbers -/

def unit (c : Char) : UInt16 := UInt16.ofNat c.toNat

/-- The text of an integer. -/
def ofInt : Int → Text
  | .ofNat n => (Nat.toDigits 10 n).map unit
  | .negSucc n => minus :: (Nat.toDigits 10 (n + 1)).map unit

variable {c : Char}

theorem toNat_unit (h : c.isDigit = true) : (unit c).toNat = c.toNat := by
  have hrange : 48 ≤ c.toNat ∧ c.toNat ≤ 57 := isDigit_iff_toNat.1 h
  rw [unit, UInt16.toNat_ofNat']
  omega

theorem ofNat_toNat_unit (h : c.isDigit = true) : Char.ofNat (unit c).toNat = c := by
  rw [toNat_unit h, ofNat_toNat]

theorem isWord_unit (h : c.isDigit = true) : isWord (unit c) = true := by
  have hrange : 48 ≤ c.toNat ∧ c.toNat ≤ 57 := isDigit_iff_toNat.1 h
  simp [isWord, toNat_unit h, hrange]

theorem numeral_toDigits (n : Nat) : numeral ((toDigits 10 n).map unit) = some n := by
  have hdigits := Decimals.digits_toDigits n
  have hback : ((toDigits 10 n).map unit).map (fun c => Char.ofNat c.toNat) = toDigits 10 n := by
    rw [map_map]
    exact (map_congr_left fun c hc => ofNat_toNat_unit (hdigits c hc)).trans (map_id _)
  have hnumber : Decimals.number (toDigits 10 n) = n := Nat.ofDigitChars_ten_toDigits
  have hcanonical := Decimals.toDigits_number hdigits
  rw [hnumber] at hcanonical
  simp only [numeral, hback]
  rw [if_pos ⟨hdigits, hcanonical.symm⟩, hnumber]

/-- A word of digits is taken whole. -/
theorem takeWhile_toDigits (n : Nat) {c : UInt16} (hc : isWord c = false) (rest : Text) :
    ((toDigits 10 n).map unit ++ c :: rest).takeWhile isWord = (toDigits 10 n).map unit ∧
      ((toDigits 10 n).map unit ++ c :: rest).dropWhile isWord = c :: rest := by
  have hall : ∀ u ∈ (toDigits 10 n).map unit, isWord u = true := by
    intro u hu
    obtain ⟨d, hd, rfl⟩ := mem_map.1 hu
    exact isWord_unit (Decimals.digits_toDigits n d hd)
  have hc' : ¬isWord c = true := by rw [hc]; decide
  constructor
  · rw [takeWhile_append_of_pos hall, takeWhile_cons_of_neg hc', append_nil]
  · rw [dropWhile_append_of_pos hall, dropWhile_cons_of_neg hc']

theorem word_toDigits (n : Nat) : word ((toDigits 10 n).map unit) = some (.number n) := by
  have hn := numeral_toDigits n
  have hne : ∀ w, numeral w = none → (toDigits 10 n).map unit ≠ w := by
    rintro _ hw rfl
    rw [hn] at hw
    cases hw
  rw [word, if_neg (hne _ (by decide)), if_neg (hne _ (by decide)), if_neg (hne _ (by decide)), hn]
  rfl

theorem toDigits_eq_cons (n : Nat) : ∃ c cs, (toDigits 10 n).map unit = c :: cs ∧
    c ≠ quote ∧ c ≠ minus ∧ c ≠ space := by
  cases hds : toDigits 10 n with
  | nil => exact absurd hds Nat.toDigits_ne_nil
  | cons d ds =>
    have hd : isWord (unit d) = true :=
      isWord_unit (Decimals.digits_toDigits n d (by rw [hds]; exact mem_cons_self))
    have hne : ∀ c, isWord c = false → unit d ≠ c := by
      rintro c hc rfl
      exact nomatch hd.symm.trans hc
    exact ⟨unit d, ds.map unit, rfl, hne _ (by decide), hne _ (by decide), hne _ (by decide)⟩

theorem argument_ofInt (i : Int) {c : UInt16} (hc : isWord c = false) (rest : Text) :
    argument ((ofInt i ++ c :: rest).dropWhile (· = space)) = some (.number i, c :: rest) := by
  cases i with
  | ofNat n =>
    obtain ⟨htake, hdrop⟩ := takeWhile_toDigits n hc rest
    have hword := word_toDigits n
    obtain ⟨d, ds, hds, hquote, hminus, hspace⟩ := toDigits_eq_cons n
    rw [hds] at htake hdrop hword
    rw [ofInt, hds, cons_append, dropWhile_cons_of_neg (by simpa using hspace), argument,
      if_neg hquote, if_neg hminus, ← cons_append, htake, hdrop, hword]
    rfl
  | negSucc n =>
    obtain ⟨htake, hdrop⟩ := takeWhile_toDigits (n + 1) hc rest
    rw [ofInt, cons_append, dropWhile_cons_of_neg (by decide), argument, htake, hdrop,
      numeral_toDigits]
    rfl

end ScriptLiterals
