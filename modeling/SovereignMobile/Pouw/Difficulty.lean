import Mathlib.Data.Int.Order.Basic
import Mathlib.Data.List.Basic

/-! # The difficulty of a challenge on Android

`VerifierEngine.kt`: a hash meets a difficulty if that many of its first bits are zero, and a challenge is
solved by a nonce whose hash after the challenge's meets it. A byte is signed; an `Int` of the code that
only counts bits stays at most 256, and is an integer here. -/

namespace Pouw

open List

namespace VerifierEngine

inductive PoUWError where
  | verificationFailed
deriving DecidableEq

def HASH_LENGTH : Nat := 32

/-- `(byte.toInt() shr bit) and 1` -/
def bitValue (byte : Int8) (bit : Int32) : Int32 :=
  (byte.toInt32 >>> bit) &&& 1

/-- One turn of the inner loop: the answer where it returns, or the bits checked after it. -/
def checkBit (difficulty : Int) (byte : Int8) (bitsChecked : Int) (bit : Int32) : Except Bool Int :=
  if bitsChecked ≥ difficulty then .error true
  else if bitValue byte bit ≠ 0 then .error false
  else .ok (bitsChecked + 1)

def checkByte (difficulty bitsChecked : Int) (byte : Int8) : Except Bool Int :=
  [7, 6, 5, 4, 3, 2, 1, 0].foldlM (checkBit difficulty byte) bitsChecked

def verifyHashDifficulty (hash : List Int8) (difficulty : Int) : Bool :=
  if hash.length ≠ HASH_LENGTH then false
  else match hash.foldlM (checkByte difficulty) 0 with
    | .error answer => answer
    | .ok _ => true

section Challenges

variable (computeHash : List Int8 → Except PoUWError (List Int8))

def verifyChallenge (challengeNonce workerNonce : List Int8) (difficulty : Int) :
    Except PoUWError Bool := do
  let hash ← computeHash (challengeNonce ++ workerNonce)
  return verifyHashDifficulty hash difficulty

/-- The loop, from the given draw of `generateRandomNonce(32)` on; `none` where it is still running after
    `fuel` turns, which it may be for ever with `maxAttempts` 0. -/
def solveLoop (generateRandomNonce : Nat → List Int8) (challengeNonce : List Int8) (difficulty : Int)
    (maxAttempts : Int64) : Nat → Nat → Int64 → Option (Except PoUWError (Option (List Int8)))
  | 0, _, _ => none
  | fuel + 1, draw, attempt =>
    if maxAttempts = 0 ∨ attempt < maxAttempts then
      let workerNonce := generateRandomNonce draw
      match verifyChallenge computeHash challengeNonce workerNonce difficulty with
      | .error e => some (.error e)
      | .ok true => some (.ok (some workerNonce))
      | .ok false => solveLoop generateRandomNonce challengeNonce difficulty maxAttempts fuel
          (draw + 1) (attempt + 1)
    else some (.ok none)

def solveChallenge (generateRandomNonce : Nat → List Int8) (challengeNonce : List Int8)
    (difficulty : Int) (maxAttempts : Int64) (fuel : Nat) :
    Option (Except PoUWError (Option (List Int8))) :=
  solveLoop computeHash generateRandomNonce challengeNonce difficulty maxAttempts fuel 0 0

end Challenges

/-! ## The bits of a hash -/

/-- The bits of a byte, most significant first -/
def byteBits (byte : Int8) : List Bool :=
  (List.range 8).map byte.toBitVec.getMsbD

def hashBits (hash : List Int8) : List Bool := hash.flatMap byteBits

theorem length_hashBits (hash : List Int8) : (hashBits hash).length = 8 * hash.length := by
  simp [hashBits, byteBits, Nat.mul_comm]

/-- The shift keeps the sign, and the mask drops what it brings in. -/
theorem bitValue_ne_zero (byte : Int8) :
    [7, 6, 5, 4, 3, 2, 1, 0].map (fun bit => decide (bitValue byte bit ≠ 0)) = byteBits byte := by
  obtain ⟨⟨v⟩⟩ := byte
  revert v
  decide +kernel

/-- A turn of the loop, by the value of the bit -/
def checkBool (difficulty bitsChecked : Int) (bit : Bool) : Except Bool Int :=
  if bitsChecked ≥ difficulty then .error true
  else if bit then .error false
  else .ok (bitsChecked + 1)

theorem checkByte_eq (difficulty bitsChecked : Int) (byte : Int8) :
    checkByte difficulty bitsChecked byte = (byteBits byte).foldlM (checkBool difficulty) bitsChecked := by
  rw [← bitValue_ne_zero, foldlM_map]
  simp only [checkBool, decide_eq_true_eq]
  rfl

/-- The two loops are one over the bits. -/
theorem foldlM_checkByte (difficulty : Int) (hash : List Int8) (bitsChecked : Int) :
    hash.foldlM (checkByte difficulty) bitsChecked
      = (hashBits hash).foldlM (checkBool difficulty) bitsChecked := by
  induction hash generalizing bitsChecked with
  | nil => rfl
  | cons byte rest ih =>
    rw [hashBits, flatMap_cons, foldlM_append, foldlM_cons, checkByte_eq]
    exact congrArg _ (funext ih)

/-- The answer of the loop: an early one, or that every bit passed -/
def answer : Except Bool Int → Bool
  | .error b => b
  | .ok _ => true

/-- The loop looks at the bits up to the difficulty, and asks each of them to be zero. -/
theorem answer_checkBool (difficulty : Int) (bits : List Bool) (bitsChecked : Int) :
    answer (bits.foldlM (checkBool difficulty) bitsChecked) = true ↔
      ∀ bit ∈ bits.take (difficulty - bitsChecked).toNat, bit = false := by
  induction bits generalizing bitsChecked with
  | nil => simp [answer, pure, Except.pure]
  | cons bit rest ih =>
    rw [foldlM_cons, checkBool]
    split_ifs with hd hb
    · have h0 : (difficulty - bitsChecked).toNat = 0 := by omega
      simp [h0, answer, bind, Except.bind]
    · have h0 : (difficulty - bitsChecked).toNat = (difficulty - bitsChecked).toNat - 1 + 1 := by omega
      rw [h0]
      simp [answer, bind, Except.bind, hb]
    · have h0 : (difficulty - bitsChecked).toNat = (difficulty - (bitsChecked + 1)).toNat + 1 := by omega
      rw [h0]
      simpa [hb, bind, Except.bind] using ih (bitsChecked + 1)

theorem verifyHashDifficulty_iff (hash : List Int8) (difficulty : Int) :
    verifyHashDifficulty hash difficulty = true ↔
      hash.length = HASH_LENGTH ∧ ∀ bit ∈ (hashBits hash).take difficulty.toNat, bit = false := by
  have h := answer_checkBool difficulty (hashBits hash) 0
  rw [← foldlM_checkByte, Int.sub_zero] at h
  rw [verifyHashDifficulty]
  split_ifs with hl
  · simp [hl]
  · rw [and_iff_right (Decidable.not_not.mp hl), ← h]
    cases hash.foldlM (checkByte difficulty) 0 <;> rfl

theorem verifyHashDifficulty_anti (hash : List Int8) {d d' : Int} (hd : d' ≤ d)
    (h : verifyHashDifficulty hash d = true) : verifyHashDifficulty hash d' = true := by
  rw [verifyHashDifficulty_iff] at h ⊢
  refine ⟨h.1, fun bit hb => h.2 bit (take_subset_take_left _ ?_ hb)⟩
  exact Int.toNat_le_toNat hd

theorem verifyChallenge_anti (computeHash : List Int8 → Except PoUWError (List Int8))
    (challengeNonce workerNonce : List Int8) {d d' : Int} (hd : d' ≤ d)
    (h : verifyChallenge computeHash challengeNonce workerNonce d = .ok true) :
    verifyChallenge computeHash challengeNonce workerNonce d' = .ok true := by
  simp only [verifyChallenge] at h ⊢
  cases hh : computeHash (challengeNonce ++ workerNonce) with
  | error e => rw [hh] at h; cases h
  | ok hash =>
    rw [hh] at h
    exact congrArg _ (verifyHashDifficulty_anti hash hd (Except.ok.inj h))

theorem solveLoop_verified (computeHash : List Int8 → Except PoUWError (List Int8))
    (generateRandomNonce : Nat → List Int8) (challengeNonce : List Int8) (difficulty : Int)
    (maxAttempts : Int64) (workerNonce : List Int8) (fuel draw : Nat) (attempt : Int64)
    (h : solveLoop computeHash generateRandomNonce challengeNonce difficulty maxAttempts fuel draw attempt
      = some (.ok (some workerNonce))) :
    verifyChallenge computeHash challengeNonce workerNonce difficulty = .ok true := by
  induction fuel generalizing draw attempt with
  | zero => cases h
  | succ fuel ih =>
    simp only [solveLoop] at h
    split at h
    · split at h
      · cases h
      · next hv => cases h; exact hv
      · exact ih _ _ h
    · cases h

/-- A hash of 32 bytes is accepted exactly if its first bits, most significant first and as many as the
    difficulty between 0 and 256, are zero. A lower difficulty accepts what a higher one does, and so a
    nonce that solves a challenge is accepted for every lower difficulty. -/
theorem verifyHashDifficulty_leadingZeros :
    (∀ (hash : List Int8) (difficulty : Int), hash.length = 32 →
      (verifyHashDifficulty hash difficulty = true ↔
        ∀ i : Nat, (i : Int) < min (max difficulty 0) 256 → (hashBits hash)[i]? = some false)) ∧
    (∀ (hash : List Int8) (d d' : Int), d' ≤ d →
      verifyHashDifficulty hash d = true → verifyHashDifficulty hash d' = true) ∧
    ∀ (computeHash : List Int8 → Except PoUWError (List Int8)) (generateRandomNonce : Nat → List Int8)
      (challengeNonce workerNonce : List Int8) (difficulty : Int) (maxAttempts : Int64) (fuel : Nat),
      solveChallenge computeHash generateRandomNonce challengeNonce difficulty maxAttempts fuel
        = some (.ok (some workerNonce)) →
      ∀ d' ≤ difficulty, verifyChallenge computeHash challengeNonce workerNonce d' = .ok true := by
  refine ⟨fun hash difficulty hl => ?_, fun hash d d' hd h => verifyHashDifficulty_anti hash hd h, ?_⟩
  · have hlen : (hashBits hash).length = 256 := by rw [length_hashBits, hl]
    rw [verifyHashDifficulty_iff]
    constructor
    · rintro ⟨-, h⟩ i hi
      rw [getElem?_eq_getElem (by omega)]
      refine congrArg _ (h _ (mem_take_iff_getElem.mpr ⟨i, ?_, rfl⟩))
      omega
    · intro h
      refine ⟨hl, fun bit hb => ?_⟩
      obtain ⟨i, hi, rfl⟩ := mem_take_iff_getElem.mp hb
      have hz := h i (by omega)
      rw [getElem?_eq_getElem (by omega)] at hz
      exact Option.some.inj hz
  · intro computeHash generateRandomNonce challengeNonce workerNonce difficulty maxAttempts fuel h d' hd
    exact verifyChallenge_anti computeHash challengeNonce workerNonce hd
      (solveLoop_verified computeHash generateRandomNonce challengeNonce difficulty maxAttempts
        workerNonce fuel 0 0 h)

theorem verifyHashDifficulty_leadingZeros_nine :
    verifyHashDifficulty (0 :: 127 :: List.replicate 30 (-1)) 9 = true ∧
    verifyHashDifficulty (0 :: 127 :: List.replicate 30 (-1)) (-3) = true ∧
    verifyChallenge (fun _ => .ok (0 :: 127 :: List.replicate 30 (-1))) [1] [2] 5 = .ok true :=
  have h9 := (verifyHashDifficulty_leadingZeros.1 (0 :: 127 :: List.replicate 30 (-1)) 9 (by decide)).mpr
    (fun i hi => (by decide : ∀ i < 9, (hashBits (0 :: 127 :: List.replicate 30 (-1)))[i]? = some false)
      i (by omega))
  ⟨h9, verifyHashDifficulty_leadingZeros.2.1 _ 9 (-3) (by decide) h9,
    verifyHashDifficulty_leadingZeros.2.2 (fun _ => .ok (0 :: 127 :: List.replicate 30 (-1)))
      (fun _ => [2]) [1] [2] 9 0 1 (by decide) 5 (by decide)⟩

end VerifierEngine

end Pouw
