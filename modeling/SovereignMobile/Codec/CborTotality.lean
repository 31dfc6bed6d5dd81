import SovereignMobile.Codec.CborHeader

/-! # When the CBOR decoder stops without a trap

The grammar of the items that `decodeCborAt` walks through, in unbounded arithmetic, and the
numbers it converts on the way. The decoder is total on exactly the inputs on which every header
it gets to announces a number that fits (`totalOn_iff_visited_fits`). -/

namespace ZhtpCodec

open List Option

/-! ## Items -/

/-- Where the item at `o` ends, if it is not an array or a map and lies within the data. -/
def Data.leafEnd (data : Data) (o : Nat) : Option Nat :=
  match data.majorAt o with
  | 0 | 1 => (data.argument o).map Prod.snd
  | 2 | 3 =>
    match data.argument o with
    | none => none
    | some (n, next) => if next + n ≤ data.count then some (next + n) else none
  | 7 =>
    if data.infoAt o = 27 then if o + 9 ≤ data.count then some (o + 9) else none
    else some (o + 1)
  | _ => none

/-- How many items the array or map at `o` is made of, and where the first one starts. -/
def Data.children (data : Data) (o : Nat) : Option (Nat × Nat) :=
  match data.majorAt o with
  | 4 => data.argument o
  | 5 => (data.argument o).map fun (n, next) => (2 * n, next)
  | _ => none

/-- `n` items, one after the other, take the bytes from `o` to `e`. -/
inductive Items (data : Data) : Nat → Nat → Nat → Prop
  | nil (o : Nat) : Items data 0 o o
  | leaf {n o m e : Nat} : o < data.count → data.leafEnd o = some m → Items data n m e →
      Items data (n + 1) o e
  | node {n o k next m e : Nat} : o < data.count → data.children o = some (k, next) →
      Items data k next m → Items data n m e → Items data (n + 1) o e

/-- A decoder that reads `n` items from `o` gets to an item at `p`. -/
inductive Visits (data : Data) : Nat → Nat → Nat → Prop
  | here {n o : Nat} : o < data.count → Visits data (n + 1) o o
  | inside {n o k next p : Nat} : o < data.count → data.children o = some (k, next) →
      Visits data k next p → Visits data (n + 1) o p
  | later {n o m p : Nat} : Items data 1 o m → Visits data n m p → Visits data (n + 1) o p

/-- The furthest position that the bound check of the header at `o` computes fits into an `Int`,
    and so does what the decoder makes of the argument. -/
def Data.Fits (data : Data) (o : Nat) : Prop :=
  match data.majorAt o with
  | 0 => o + argumentReach (data.infoAt o) < 2 ^ 63
  | 1 | 4 | 5 => o + argumentReach (data.infoAt o) < 2 ^ 63 ∧
      ∀ n next, data.argument o = some (n, next) → n < 2 ^ 63
  | 2 | 3 => o + argumentReach (data.infoAt o) < 2 ^ 63 ∧
      ∀ n next, data.argument o = some (n, next) → next + n < 2 ^ 63
  | 7 => data.infoAt o = 27 → o + 9 < 2 ^ 63
  | _ => True

theorem argumentWidth_le {info w : Nat} (h : argumentWidth info = some w) : w ≤ 8 := by
  unfold argumentWidth at h
  grind

variable {data : Data} {o : Nat} {α β : Type}

theorem argument_bounds {n next : Nat} (ho : o < data.count)
    (h : data.argument o = some (n, next)) :
    n < 2 ^ 64 ∧ o < next ∧ next ≤ data.count := by
  unfold Data.argument at h
  split at h
  · simp at h
  · simp only [some.injEq, Prod.mk.injEq] at h
    have hi : data.infoAt o < 32 := Nat.mod_lt _ (by decide)
    omega
  rename_i w _ hw
  split at h
  · cases h
    have hlt := beNat_lt ((range w).map fun k => data.at (o + 1 + k))
    rw [length_map, length_range] at hlt
    have hpow : 256 ^ w ≤ 256 ^ 8 := Nat.pow_le_pow_right (by decide) (argumentWidth_le hw)
    exact ⟨by omega, by omega, by omega⟩
  · simp at h

/-! ## The decoder without its values -/

/-- The final offset of a call. -/
def ends {α : Type} (r : Swift (α × Nat)) : Swift Nat := r.map Prod.snd

def Thrown {α : Type} (r : Swift α) : Prop := ∃ code description, r = throwNSError code description

/-- Read `n` items, one after the other. -/
def readItems (readAt : Nat → Swift Nat) : Nat → Nat → Swift Nat
  | 0, o => .ok o
  | n + 1, o =>
    match readAt o with
    | .ok m => readItems readAt n m
    | .error e => .error e

@[simp] theorem ends_ok (v : α) (o : Nat) : ends (.ok (v, o)) = .ok o := rfl

@[simp] theorem ends_error (e : Stop) : ends (.error e : Swift (α × Nat)) = .error e := rfl

@[simp] theorem bind_ok (a : α) (f : α → Swift β) : ((.ok a : Swift α) >>= f) = f a := rfl

@[simp] theorem bind_error (e : Stop) (f : α → Swift β) :
    ((.error e : Swift α) >>= f) = .error e := rfl

theorem readItems_one (readAt : Nat → Swift Nat) (o : Nat) : readItems readAt 1 o = readAt o := by
  rw [readItems]
  cases readAt o <;> rfl

theorem ends_decodeItems (decodeAt : Nat → Swift (Decoded × Nat)) (n o : Nat) :
    ends (decodeItems decodeAt n o) = readItems (fun o => ends (decodeAt o)) n o := by
  induction n generalizing o with
  | zero => rfl
  | succ n ih =>
    rw [decodeItems, readItems]
    cases decodeAt o with
    | error e => simp
    | ok r =>
      obtain ⟨v, m⟩ := r
      simp only [bind_ok, ends_ok, ← ih m]
      cases decodeItems decodeAt n m <;> rfl

theorem ends_decodeEntries (nfc : String → String) (decodeAt : Nat → Swift (Decoded × Nat))
    (n o : Nat) (dict : List (String × Decoded)) :
    ends (decodeEntries nfc decodeAt n dict o)
      = readItems (fun o => ends (decodeAt o)) (2 * n) o := by
  induction n generalizing o dict with
  | zero => rfl
  | succ n ih =>
    rw [show 2 * (n + 1) = 2 * n + 1 + 1 by omega]
    rw [decodeEntries, readItems]
    cases decodeAt o with
    | error e => simp
    | ok r =>
      obtain ⟨key, m⟩ := r
      simp only [bind_ok, ends_ok, readItems]
      cases decodeAt m with
      | error e => simp
      | ok r' =>
        obtain ⟨value, m'⟩ := r'
        cases key <;> exact ih _ _

/-! ## One call -/

section Step
variable (nfc : String → String) (data : Data)

/-- What a call at `o` does, given what its recursive calls do. -/
inductive Step (readAt : Nat → Swift Nat) (o : Nat) (r : Swift Nat) : Prop
  | pastEnd : data.count ≤ o → Thrown r → Step readAt o r
  | trap : o < data.count → ¬ data.Fits o → r = .error .trap → Step readAt o r
  | leaf {e : Nat} : o < data.count → data.Fits o → data.leafEnd o = some e → r = .ok e →
      Step readAt o r
  | node {k next : Nat} : o < data.count → data.Fits o → data.children o = some (k, next) →
      r = readItems readAt k next → Step readAt o r
  | bad : o < data.count → data.Fits o → data.leafEnd o = none → data.children o = none →
      Thrown r → Step readAt o r

variable {α : Type} {o : Nat} {mt : UInt8} {readAt : Nat → Swift Nat}

theorem thrown_argumentError (info : Nat) : Thrown (argumentError info : Swift α) := by
  unfold argumentError
  split
  · exact ⟨5, none, rfl⟩
  · exact ⟨6, _, rfl⟩

theorem majorAt_lt (o : Nat) : data.majorAt o < 8 := by
  have := (data.at o).toNat_lt
  unfold Data.majorAt
  omega

theorem ofNat_toNat_of_argument {data : Data} {n next : Nat} (ho : o < data.count)
    (h : data.argument o = some (n, next)) : (UInt64.ofNat n).toNat = n := by
  rw [UInt64.toNat_ofNat']
  exact Nat.mod_eq_of_lt (argument_bounds ho h).1

/-- The call at `o` after its header byte. -/
theorem decodeCborAt_succ {fuel : Nat} (ho : o < data.count) : decodeCborAt nfc (fuel + 1) data o =
      match data.majorAt o with
      | 0 => do
        let (n, offset) ← decodeCborUInt (data.at o &&& 0x1F) data (o + 1)
        pure (.uint n, offset)
      | 1 => do
        let (uintValue, offset) ← decodeCborUInt (data.at o &&& 0x1F) data (o + 1)
        let n ← toInt64 uintValue
        pure (.int (-1 - n), offset)
      | 2 => decodeCborString ((data.at o &&& 0xE0) >>> 5) (data.at o &&& 0x1F) data (o + 1)
      | 3 => decodeCborString ((data.at o &&& 0xE0) >>> 5) (data.at o &&& 0x1F) data (o + 1)
      | 4 => do
        let (lengthValue, offset) ← decodeCborUInt (data.at o &&& 0x1F) data (o + 1)
        let length ← toInt lengthValue
        let (array, offset) ← decodeItems (decodeCborAt nfc fuel data) length offset
        pure (.array array, offset)
      | 5 => do
        let (lengthValue, offset) ← decodeCborUInt (data.at o &&& 0x1F) data (o + 1)
        let length ← toInt lengthValue
        let (dict, offset) ← decodeEntries nfc (decodeCborAt nfc fuel data) length [] offset
        pure (.dict dict, offset)
      | 7 => decodeCborSpecial (data.at o &&& 0x1F) data (o + 1)
      | _ => throwNSError 4 (some "Unknown CBOR major type") := by
  have hc : data.count < 2 ^ 63 := data.count_lt
  have hm : ((data.at o &&& 0xE0) >>> 5).toNat = data.majorAt o := majorType_toNat _
  have hadd : addInt o 1 = .ok (o + 1) := addInt_eq (by omega)
  rw [decodeCborAt, if_pos ho, Data.byte_eq ho, hadd, ← hm]
  rfl

theorem ends_decodeCborString (ho : o < data.count) :
    ends (decodeCborString mt (data.at o &&& 0x1F) data (o + 1)) =
      if o + argumentReach (data.infoAt o) < 2 ^ 63 then
        match data.argument o with
        | some (n, next) =>
          if next + n < 2 ^ 63 then
            if next + n ≤ data.count then .ok (next + n)
            else throwNSError 5 (some "CBOR string length out of bounds")
          else .error .trap
        | none => argumentError (data.infoAt o)
      else .error .trap := by
  rw [decodeCborString, decodeCborUInt_eq ho]
  split
  · cases ha : data.argument o with
    | none =>
      simp only [argumentError]
      split <;> rfl
    | some a =>
      obtain ⟨n, next⟩ := a
      simp only [bind_ok, toInt, ofNat_toNat_of_argument ho ha]
      by_cases hn : n < 2 ^ 63
      · by_cases hs : next + n < 2 ^ 63
        · by_cases hin : next + n ≤ data.count
          · simp only [if_pos hn, if_pos hin, bind_ok, addInt_eq hs, Data.subdata]
            rw [if_pos ⟨by omega, hin⟩]
            split <;> rfl
          · simp only [if_pos hn, if_pos hs, if_neg hin, bind_ok, addInt_eq hs]
            rfl
        · simp only [if_pos hn, if_neg hs, bind_ok, addInt]
          rfl
      · rw [if_neg hn, if_neg (by omega)]
        rfl
  · rfl

theorem ends_decodeCborSpecial (o : Nat) :
    ends (decodeCborSpecial (data.at o &&& 0x1F) data (o + 1)) = if data.infoAt o = 27 then
        if o + 9 < 2 ^ 63 then
          if o + 9 ≤ data.count then .ok (o + 9)
          else throwNSError 6 (some "CBOR float length out of bounds")
        else .error .trap
      else .ok (o + 1) := by
  have hinfo : ∀ c : UInt8, data.at o &&& 0x1F = c ↔ data.infoAt o = c.toNat :=
    fun c => infoAt_eq_iff
  unfold decodeCborSpecial
  simp only [hinfo]
  by_cases h : data.infoAt o = 27
  · rw [h]
    by_cases hs : o + 9 < 2 ^ 63
    · have ha : addInt (o + 1) 8 = .ok (o + 9) := addInt_eq (by omega)
      by_cases hin : o + 9 ≤ data.count
      · have hsub : data.subdata (o + 1) (o + 9) =
            .ok ((data.bytes.drop (o + 1)).take (o + 9 - (o + 1))) :=
          if_pos ⟨by omega, hin⟩
        simp [-Nat.reducePow, hs, hin, ha, hsub, Except.pure]
      · simp [-Nat.reducePow, hs, hin, ha, throwNSError]
    · simp [-Nat.reducePow, hs, addInt]
  · rw [if_neg h]
    repeat' split
    all_goals first
      | rfl
      | (rename_i h'; exact absurd h' h)

theorem Data.argument_none_or (o : Nat) :
    data.argument o = none ∨ ∃ n next, data.argument o = some (n, next) := by
  cases data.argument o with
  | none => exact .inl rfl
  | some a => exact .inr ⟨a.1, a.2, rfl⟩

theorem ends_argument_bind (ho : o < data.count) (f : UInt64 × Nat → Swift (α × Nat)) :
    (¬ o + argumentReach (data.infoAt o) < 2 ^ 63 ∧
      ends (decodeCborUInt (data.at o &&& 0x1F) data (o + 1) >>= f) = .error .trap) ∨
    (o + argumentReach (data.infoAt o) < 2 ^ 63 ∧ ((data.argument o = none ∧
        Thrown (ends (decodeCborUInt (data.at o &&& 0x1F) data (o + 1) >>= f))) ∨
      ∃ n next, data.argument o = some (n, next) ∧ (UInt64.ofNat n).toNat = n ∧
        ends (decodeCborUInt (data.at o &&& 0x1F) data (o + 1) >>= f)
          = ends (f (UInt64.ofNat n, next)))) := by
  rw [decodeCborUInt_eq ho]
  by_cases hr : o + argumentReach (data.infoAt o) < 2 ^ 63
  · right
    refine ⟨hr, ?_⟩
    rw [if_pos hr]
    rcases data.argument_none_or o with ha | ⟨n, next, ha⟩
    · left
      rw [ha]
      obtain ⟨c, d, he⟩ := thrown_argumentError (α := UInt64 × Nat) (data.infoAt o)
      exact ⟨rfl, c, d, by simp only [he]; rfl⟩
    · right
      exact ⟨n, next, ha, ofNat_toNat_of_argument ho ha, by rw [ha]; rfl⟩
  · left
    exact ⟨hr, by rw [if_neg hr]; rfl⟩

theorem ends_bind_pure {β : Type} (r : Swift (α × Nat)) (g : α → β) :
    ends (r >>= fun x => pure (g x.1, x.2)) = ends r := by
  cases r <;> rfl

/-- An array or a map: the argument is a length, and `f` reads as many items as `g` makes of it. -/
theorem step_of_length {g : Nat → Nat} {f : Nat → Nat → Swift (α × Nat)}
    (h : data.majorAt o = 4 ∨ data.majorAt o = 5) (ho : o < data.count)
    (hch : data.children o = (data.argument o).map fun (n, next) => (g n, next))
    (hf : ∀ n next, ends (f n next) = readItems readAt (g n) next) :
    Step data readAt o (ends (decodeCborUInt (data.at o &&& 0x1F) data (o + 1) >>= fun a =>
      toInt a.1 >>= fun length => f length a.2)) := by
  have hfits : data.Fits o ↔ o + argumentReach (data.infoAt o) < 2 ^ 63 ∧
      ∀ n next, data.argument o = some (n, next) → n < 2 ^ 63 := by
    rcases h with h | h <;> simp [Data.Fits, h]
  have hleaf : data.leafEnd o = none := by
    rcases h with h | h <;> simp [Data.leafEnd, h]
  rcases ends_argument_bind data ho (fun a => toInt a.1 >>= fun length => f length a.2)
    with ⟨hr, he⟩ | ⟨hr, ⟨ha, he⟩ | ⟨n, next, ha, hn, he⟩⟩
  · rw [he]
    exact .trap ho (fun hfit => hr (hfits.1 hfit).1) rfl
  · refine .bad ho (hfits.2 ⟨hr, fun n next h => ?_⟩) hleaf (by rw [hch, ha]; rfl) he
    rw [ha] at h
    simp at h
  rw [he]
  simp only [toInt, hn]
  split
  · rename_i hlt
    rw [bind_ok, hf]
    refine .node ho (hfits.2 ⟨hr, fun n' next' h => ?_⟩) (by rw [hch, ha]; rfl) rfl
    rw [ha] at h
    simp only [some.injEq, Prod.mk.injEq] at h
    omega
  · rename_i hge
    exact .trap ho (fun hfit => hge ((hfits.1 hfit).2 n next ha)) rfl

theorem step_of_string (h : data.majorAt o = 2 ∨ data.majorAt o = 3) (ho : o < data.count) :
    Step data readAt o (ends (decodeCborString mt (data.at o &&& 0x1F) data (o + 1))) := by
  have hfits : data.Fits o ↔ o + argumentReach (data.infoAt o) < 2 ^ 63 ∧
      ∀ n next, data.argument o = some (n, next) → next + n < 2 ^ 63 := by
    rcases h with h | h <;> simp [Data.Fits, h]
  have hch : data.children o = none := by
    rcases h with h | h <;> simp [Data.children, h]
  have hleaf : data.leafEnd o = match data.argument o with
      | none => none
      | some (n, next) => if next + n ≤ data.count then some (next + n) else none := by
    rcases h with h | h <;> simp only [Data.leafEnd, h]
  rw [ends_decodeCborString data ho]
  split
  · rename_i hr
    rcases data.argument_none_or o with ha | ⟨n, next, ha⟩
    · rw [ha]
      refine .bad ho (hfits.2 ⟨hr, fun n next h => ?_⟩) (by rw [hleaf, ha]) hch
        (thrown_argumentError _)
      rw [ha] at h
      simp at h
    rw [ha]
    simp only
    split
    · rename_i hs
      have hfit : data.Fits o := by
        refine hfits.2 ⟨hr, fun n' next' h => ?_⟩
        rw [ha] at h
        simp only [some.injEq, Prod.mk.injEq] at h
        omega
      split
      · rename_i hin
        exact .leaf ho hfit (by simp [hleaf, ha, hin]) rfl
      · rename_i hin
        exact .bad ho hfit (by simp [hleaf, ha, hin]) hch ⟨_, _, rfl⟩
    · rename_i hs
      exact .trap ho (fun hfit => hs ((hfits.1 hfit).2 n next ha)) rfl
  · rename_i hr
    exact .trap ho (fun hfit => hr (hfits.1 hfit).1) rfl

/-- Where the call at `o` ends. -/
def endAt (fuel o : Nat) : Swift Nat := ends (decodeCborAt nfc fuel data o)

/-- **One call.** What `decodeCborAt` does at `o`, guards included. -/
theorem step_endAt (fuel o : Nat) :
    Step data (endAt nfc data fuel) o (endAt nfc data (fuel + 1) o) := by
  unfold endAt
  rcases Nat.lt_or_ge o data.count with ho | ho
  swap
  · rw [decodeCborAt, if_neg (by omega)]
    exact .pastEnd ho ⟨_, _, rfl⟩
  rw [decodeCborAt_succ nfc data ho]
  have hm := majorAt_lt data o
  have hcase : data.majorAt o = 0 ∨ data.majorAt o = 1 ∨ data.majorAt o = 2 ∨
      data.majorAt o = 3 ∨ data.majorAt o = 4 ∨ data.majorAt o = 5 ∨ data.majorAt o = 6 ∨
      data.majorAt o = 7 := by omega
  rcases hcase with h | h | h | h | h | h | h | h
  · simp only [h]
    rcases ends_argument_bind data ho (fun a => (pure (Decoded.uint a.1, a.2) : Swift _))
      with ⟨hr, he⟩ | ⟨hr, ⟨ha, he⟩ | ⟨n, next, ha, hn, he⟩⟩
    · rw [he]
      exact .trap ho (by simpa [Data.Fits, h] using hr) rfl
    · exact .bad ho (by simpa [Data.Fits, h] using hr) (by simp [Data.leafEnd, h, ha])
        (by simp [Data.children, h]) he
    · rw [he]
      exact .leaf ho (by simpa [Data.Fits, h] using hr) (by simp [Data.leafEnd, h, ha]) rfl
  · simp only [h]
    rcases ends_argument_bind data ho (fun a => toInt64 a.1 >>= fun n =>
        (pure (Decoded.int (-1 - n), a.2) : Swift _))
      with ⟨hr, he⟩ | ⟨hr, ⟨ha, he⟩ | ⟨n, next, ha, hn, he⟩⟩
    · rw [he]
      exact .trap ho (by simp [-Nat.reducePow, Data.Fits, h, hr]) rfl
    · exact .bad ho (by simp [-Nat.reducePow, Data.Fits, h, hr, ha]) (by simp [Data.leafEnd, h, ha])
        (by simp [Data.children, h]) he
    rw [he]
    simp only [toInt64, hn]
    split
    · rename_i hlt
      exact .leaf ho (by simp [-Nat.reducePow, Data.Fits, h, hr, ha, hlt])
        (by simp [Data.leafEnd, h, ha]) rfl
    · rename_i hge
      exact .trap ho (by simpa [-Nat.reducePow, Data.Fits, h, hr, ha] using hge) rfl
  · simp only [h]
    exact step_of_string data (.inl h) ho
  · simp only [h]
    exact step_of_string data (.inr h) ho
  · simp only [h]
    refine step_of_length data (g := fun n => n) (f := fun n next =>
      decodeItems (decodeCborAt nfc fuel data) n next >>= fun x => pure (Decoded.array x.1, x.2))
      (.inl h) ho ?_ fun n next => ?_
    · simp [Data.children, h]
    · rw [ends_bind_pure _ Decoded.array]
      exact ends_decodeItems _ n next
  · simp only [h]
    refine step_of_length data (g := fun n => 2 * n) (f := fun n next =>
      decodeEntries nfc (decodeCborAt nfc fuel data) n [] next >>= fun x =>
        pure (Decoded.dict x.1, x.2))
      (.inr h) ho ?_ fun n next => ?_
    · simp [Data.children, h]
    · rw [ends_bind_pure _ Decoded.dict]
      exact ends_decodeEntries nfc _ n next []
  · simp only [h]
    exact .bad ho (by simp [Data.Fits, h]) (by simp [Data.leafEnd, h]) (by simp [Data.children, h])
      ⟨_, _, rfl⟩
  · simp only [h]
    rw [ends_decodeCborSpecial]
    have hch : data.children o = none := by simp [Data.children, h]
    split
    · rename_i hi
      split
      · rename_i hs
        have hfit : data.Fits o := by simp [-Nat.reducePow, Data.Fits, h, hs]
        split
        · rename_i hin
          exact .leaf ho hfit (by simp [Data.leafEnd, h, hi, hin]) rfl
        · rename_i hin
          exact .bad ho hfit (by simp [Data.leafEnd, h, hi, hin]) hch ⟨_, _, rfl⟩
      · rename_i hs
        exact .trap ho (by simpa [Data.Fits, h, hi] using hs) rfl
    · rename_i hi
      exact .leaf ho (by simp [Data.Fits, h, hi]) (by simp [Data.leafEnd, h, hi]) rfl

end Step

/-! ## Progress -/

section Runs
variable {nfc : String → String} {data : Data}

variable {o e k next n m o0 fuel : Nat} {readAt : Nat → Swift Nat} {r : Swift Nat}

theorem leafEnd_bounds (ho : o < data.count) (h : data.leafEnd o = some e) :
    o < e ∧ e ≤ data.count := by
  unfold Data.leafEnd at h
  split at h
  iterate 2
    obtain ⟨a, ha, rfl⟩ := map_eq_some_iff.1 h
    exact (argument_bounds ho ha).2
  iterate 2
    split at h
    · simp at h
    rename_i n next ha
    have := argument_bounds ho ha
    split at h <;> simp at h
    omega
  · split at h
    · split at h <;> simp at h
      omega
    · simp at h
      omega
  · simp at h

theorem children_bounds (ho : o < data.count) (h : data.children o = some (k, next)) :
    o < next ∧ next ≤ data.count := by
  unfold Data.children at h
  split at h
  · exact (argument_bounds ho h).2
  · obtain ⟨a, ha, he⟩ := map_eq_some_iff.1 h
    simp only [Prod.mk.injEq] at he
    rw [← he.2]
    exact (argument_bounds ho ha).2
  · simp at h

theorem leafEnd_of_children (h : data.children o = some (k, next)) : data.leafEnd o = none := by
  unfold Data.children at h
  split at h
  · rename_i hm
    simp [Data.leafEnd, hm]
  · rename_i hm
    simp [Data.leafEnd, hm]
  · simp at h

/-- The calls of a loop over items that move forward move the loop forward. -/
theorem readItems_bounds (hread : ∀ o e, readAt o = .ok e → o < e ∧ e ≤ data.count)
    (ho : o ≤ data.count) (h : readItems readAt n o = .ok e) : o ≤ e ∧ e ≤ data.count := by
  induction n generalizing o with
  | zero =>
    simp only [readItems, Except.ok.injEq] at h
    omega
  | succ n ih =>
    rw [readItems] at h
    split at h
    · rename_i m hm
      have := hread o m hm
      have := ih this.2 h
      omega
    · simp at h

/-- A call that ends has read a leaf, or the items of a node. -/
theorem endAt_ok (h : endAt nfc data (fuel + 1) o = .ok e) :
    (o < data.count ∧ data.leafEnd o = some e) ∨
      ∃ k next, o < data.count ∧ data.children o = some (k, next) ∧
        readItems (endAt nfc data fuel) k next = .ok e := by
  cases step_endAt nfc data fuel o with
  | pastEnd _ ht | bad _ _ _ _ ht =>
    obtain ⟨c, d, he⟩ := ht
    cases h.symm.trans he
  | trap _ _ he => cases h.symm.trans he
  | leaf ho _ hl he =>
    cases h.symm.trans he
    exact .inl ⟨ho, hl⟩
  | node ho _ hch he => exact .inr ⟨_, _, ho, hch, he.symm.trans h⟩

theorem endAt_bounds (fuel : Nat) :
    ∀ o e, endAt nfc data fuel o = .ok e → o < e ∧ e ≤ data.count := by
  induction fuel with
  | zero => exact fun o e h => absurd h (by simp [endAt, decodeCborAt])
  | succ fuel ih =>
    intro o e h
    rcases endAt_ok h with ⟨ho, hl⟩ | ⟨k, next, ho, hch, hitems⟩
    · exact leafEnd_bounds ho hl
    have hb := children_bounds ho hch
    have := readItems_bounds ih hb.2 hitems
    omega

/-! ## What is read is an item -/

theorem Items.cons (h1 : Items data 1 o m) (h2 : Items data n m e) : Items data (n + 1) o e := by
  cases h1 with
  | leaf ho hl hrest =>
    cases hrest
    exact .leaf ho hl h2
  | node ho hch hin hrest =>
    cases hrest
    exact .node ho hch hin h2

theorem items_of_readItems (hread : ∀ o e, readAt o = .ok e → Items data 1 o e)
    (h : readItems readAt n o = .ok e) : Items data n o e := by
  induction n generalizing o with
  | zero =>
    simp only [readItems, Except.ok.injEq] at h
    exact h ▸ .nil o
  | succ n ih =>
    rw [readItems] at h
    split at h
    · rename_i m hm
      exact (hread o m hm).cons (ih h)
    · simp at h

theorem items_of_endAt (fuel : Nat) : ∀ o e, endAt nfc data fuel o = .ok e → Items data 1 o e := by
  induction fuel with
  | zero => exact fun o e h => absurd h (by simp [endAt, decodeCborAt])
  | succ fuel ih =>
    intro o e h
    rcases endAt_ok h with ⟨ho, hl⟩ | ⟨k, next, ho, hch, hitems⟩
    · exact .leaf ho hl (.nil e)
    · exact .node ho hch (items_of_readItems ih hitems) (.nil e)

/-! ## The recursion bound is enough -/

theorem readItems_ne_fuel (hread : ∀ o, o0 ≤ o → readAt o ≠ .error .fuel)
    (hbound : ∀ o e, readAt o = .ok e → o < e ∧ e ≤ data.count) (n : Nat) :
    ∀ o, o0 ≤ o → readItems readAt n o ≠ .error .fuel := by
  induction n with
  | zero => exact fun o _ => by simp [readItems]
  | succ n ih =>
    intro o ho
    rw [readItems]
    split
    · rename_i m hm
      have := hbound o m hm
      exact ih m (by omega)
    · rename_i e he
      rw [← he]
      exact hread o ho

theorem Thrown.ne_trap (h : Thrown r) : r ≠ .error .trap := by
  obtain ⟨c, d, rfl⟩ := h
  simp [throwNSError]

theorem Thrown.ne_fuel (h : Thrown r) : r ≠ .error .fuel := by
  obtain ⟨c, d, rfl⟩ := h
  simp [throwNSError]

theorem endAt_ne_fuel (fuel : Nat) :
    ∀ o, data.count - o < fuel → endAt nfc data fuel o ≠ .error .fuel := by
  induction fuel with
  | zero => exact fun o h => absurd h (by omega)
  | succ fuel ih =>
    intro o hlt
    cases step_endAt nfc data fuel o with
    | pastEnd _ ht => exact ht.ne_fuel
    | trap _ _ he =>
      rw [he]
      simp
    | leaf _ _ _ he =>
      rw [he]
      simp
    | @node k next ho _ hch he =>
      have hb := children_bounds ho hch
      rw [he]
      exact readItems_ne_fuel (fun m hm => ih m (by omega)) (endAt_bounds fuel) k next
        (Nat.le_refl _)
    | bad _ _ _ _ ht => exact ht.ne_fuel

/-! ## Traps -/

/-- A loop whose calls meet only headers that fit does not trap. -/
theorem readItems_ne_trap
    (hread : ∀ o, o0 ≤ o → (∀ p, Visits data 1 o p → data.Fits p) → readAt o ≠ .error .trap)
    (hitems : ∀ o e, readAt o = .ok e → Items data 1 o e)
    (hbound : ∀ o e, readAt o = .ok e → o < e ∧ e ≤ data.count) (n : Nat) :
    ∀ o, o0 ≤ o → (∀ p, Visits data n o p → data.Fits p) → readItems readAt n o ≠ .error .trap := by
  induction n with
  | zero => exact fun o _ _ => by simp [readItems]
  | succ n ih =>
    intro o ho hfit
    rw [readItems]
    split
    · rename_i m hm
      have := hbound o m hm
      exact ih m (by omega) fun p hp => hfit p (.later (hitems o m hm) hp)
    rename_i e he
    rw [← he]
    refine hread o ho fun p hp => hfit p ?_
    cases hp with
    | here h => exact .here h
    | inside h hch hin => exact .inside h hch hin
    | later _ hin => cases hin

theorem endAt_ne_trap (fuel : Nat) :
    ∀ o, data.count - o < fuel → (∀ p, Visits data 1 o p → data.Fits p) →
      endAt nfc data fuel o ≠ .error .trap := by
  induction fuel with
  | zero => exact fun o h => absurd h (by omega)
  | succ fuel ih =>
    intro o hlt hfit
    cases step_endAt nfc data fuel o with
    | pastEnd _ ht => exact ht.ne_trap
    | trap ho hf _ => exact absurd (hfit o (.here ho)) hf
    | leaf _ _ _ he =>
      rw [he]
      simp
    | @node k next ho _ hch he =>
      have hb := children_bounds ho hch
      rw [he]
      exact readItems_ne_trap (fun m hm => ih m (by omega)) (items_of_endAt fuel)
        (endAt_bounds fuel) k next (Nat.le_refl _) fun p hp => hfit p (.inside ho hch hp)
    | bad _ _ _ _ ht => exact ht.ne_trap

/-- The first call of a loop decides how the loop goes on. -/
theorem readItems_succ_of_ok (h : readAt o = .ok m) :
    readItems readAt (n + 1) o = readItems readAt n m := by
  rw [readItems, h]

theorem readItems_succ_of_trap (h : readAt o = .error .trap) :
    readItems readAt (n + 1) o = .error .trap := by
  rw [readItems, h]

theorem endAt_of_leafEnd (ho : o < data.count) (hl : data.leafEnd o = some e) :
    endAt nfc data (fuel + 1) o = .ok e ∨ endAt nfc data (fuel + 1) o = .error .trap := by
  cases step_endAt nfc data fuel o with
  | pastEnd h => omega
  | trap _ _ he => exact .inr he
  | leaf _ _ hl' he =>
    rw [hl, some.injEq] at hl'
    exact .inl (hl' ▸ he)
  | node _ _ hch => exact nomatch hl.symm.trans (leafEnd_of_children hch)
  | bad _ _ hn => exact nomatch hl.symm.trans hn

theorem endAt_of_children (ho : o < data.count) (hch : data.children o = some (k, next)) :
    endAt nfc data (fuel + 1) o = readItems (endAt nfc data fuel) k next ∨
      endAt nfc data (fuel + 1) o = .error .trap := by
  cases step_endAt nfc data fuel o with
  | pastEnd h => omega
  | trap _ _ he => exact .inr he
  | leaf _ _ hl => exact nomatch hl.symm.trans (leafEnd_of_children hch)
  | node _ _ hch' he =>
    rw [hch] at hch'
    obtain ⟨rfl, rfl⟩ := hch'
    exact .inl he
  | bad _ _ _ hn => exact nomatch hch.symm.trans hn

/-- Items of the grammar are read to their end, or not at all because of a trap. -/
theorem readItems_of_items (h : Items data n o e) :
    ∀ fuel, data.count - o < fuel → readItems (endAt nfc data fuel) n o = .ok e ∨
      readItems (endAt nfc data fuel) n o = .error .trap := by
  induction h with
  | nil o => exact fun fuel _ => .inl rfl
  | @leaf n o m e ho hl _ ih =>
    intro fuel hlt
    obtain ⟨fuel, rfl⟩ : ∃ f, fuel = f + 1 := ⟨fuel - 1, by omega⟩
    have hb := leafEnd_bounds ho hl
    have hcall : endAt nfc data (fuel + 1) o = .ok m ∨ _ := endAt_of_leafEnd ho hl
    rcases hcall with he | he
    · rw [readItems_succ_of_ok he]
      exact ih _ (by omega)
    · exact .inr (readItems_succ_of_trap he)
  | @node n o k next m e ho hch _ _ ih1 ih2 =>
    intro fuel hlt
    obtain ⟨fuel, rfl⟩ : ∃ f, fuel = f + 1 := ⟨fuel - 1, by omega⟩
    have hb := children_bounds ho hch
    have hcall : endAt nfc data (fuel + 1) o = readItems (endAt nfc data fuel) k next ∨ _ :=
      endAt_of_children ho hch
    rcases hcall with he | he
    · rcases ih1 fuel (by omega) with h1 | h1
      · have hm := endAt_bounds (fuel + 1) o m (he.trans h1)
        rw [readItems_succ_of_ok (he.trans h1)]
        exact ih2 _ (by omega)
      · exact .inr (readItems_succ_of_trap (he.trans h1))
    · exact .inr (readItems_succ_of_trap he)

/-- A loop that gets to a header that does not fit traps. -/
theorem readItems_trap_of_visits {p : Nat} (h : Visits data n o p) (hp : ¬ data.Fits p) :
    ∀ fuel, data.count - o < fuel → readItems (endAt nfc data fuel) n o = .error .trap := by
  induction h with
  | @here n o ho =>
    intro fuel hlt
    obtain ⟨fuel, rfl⟩ : ∃ f, fuel = f + 1 := ⟨fuel - 1, by omega⟩
    refine readItems_succ_of_trap ?_
    cases step_endAt nfc data fuel o with
    | pastEnd h => omega
    | trap _ _ he => exact he
    | leaf _ hf | node _ hf | bad _ hf => exact absurd hf hp
  | @inside n o k next p ho hch _ ih =>
    intro fuel hlt
    obtain ⟨fuel, rfl⟩ : ∃ f, fuel = f + 1 := ⟨fuel - 1, by omega⟩
    have hb := children_bounds ho hch
    refine readItems_succ_of_trap ?_
    have hcall : endAt nfc data (fuel + 1) o = readItems (endAt nfc data fuel) k next ∨ _ :=
      endAt_of_children ho hch
    rcases hcall with he | he
    · exact he.trans (ih hp fuel (by omega))
    · exact he
  | @later n o m p hitem _ ih =>
    intro fuel hlt
    have hone := readItems_one (endAt nfc data fuel) o
    have hread : readItems (endAt nfc data fuel) 1 o = .ok m ∨ _ :=
      readItems_of_items hitem fuel hlt
    rcases hread with he | he
    · rw [hone] at he
      have hm := endAt_bounds fuel o m he
      rw [readItems_succ_of_ok he]
      exact ih hp fuel (by omega)
    · rw [hone] at he
      exact readItems_succ_of_trap he

end Runs

/-! ## Totality -/

/-- `decodeCborValue` returns or throws, does not read past the end, and every call that returns
    has consumed at least one byte. -/
structure TotalOn (nfc : String → String) (data : Data) : Prop where
  stops : (∃ v e, decodeCborValue nfc data = .ok (v, e)) ∨ Thrown (decodeCborValue nfc data)
  inBounds : ∀ v e, decodeCborValue nfc data = .ok (v, e) → e ≤ data.count
  consumes : ∀ fuel o v e, decodeCborAt nfc fuel data o = .ok (v, e) → o < e

theorem endAt_of_ok {nfc : String → String} {fuel e : Nat} {v : Decoded}
    (h : decodeCborAt nfc fuel data o = .ok (v, e)) : endAt nfc data fuel o = .ok e := by
  rw [endAt, h, ends_ok]

/-- **Totality of the decoder.** It is total on exactly the inputs on which no header it gets to
    announces a number outside the range it is converted to. -/
theorem totalOn_iff_visited_fits (nfc : String → String) (data : Data) :
    TotalOn nfc data ↔ ∀ p, Visits data 1 0 p → data.Fits p := by
  have hone := readItems_one (endAt nfc data (data.count + 1)) 0
  constructor
  · intro h p hp
    by_contra hbad
    have htrap : readItems (endAt nfc data (data.count + 1)) 1 0 = .error .trap :=
      readItems_trap_of_visits hp hbad (data.count + 1) (by omega)
    rw [hone, endAt] at htrap
    rcases h.stops with ⟨v, e, he⟩ | ⟨c, d, he⟩
    · rw [show decodeCborAt nfc (data.count + 1) data 0 = .ok (v, e) from he] at htrap
      simp at htrap
    · rw [show decodeCborAt nfc (data.count + 1) data 0 = throwNSError c d from he] at htrap
      simp [throwNSError] at htrap
  · intro h
    have htrap : endAt nfc data (data.count + 1) 0 ≠ .error .trap :=
      endAt_ne_trap (data.count + 1) 0 (by omega) h
    have hfuel : endAt nfc data (data.count + 1) 0 ≠ .error .fuel :=
      endAt_ne_fuel (data.count + 1) 0 (by omega)
    refine ⟨?_, fun v e he => (endAt_bounds _ 0 e (endAt_of_ok he)).2,
      fun fuel o v e he => (endAt_bounds fuel o e (endAt_of_ok he)).1⟩
    cases hr : decodeCborValue nfc data with
    | ok r => exact .inl ⟨r.1, r.2, rfl⟩
    | error e =>
      have he : endAt nfc data (data.count + 1) 0 = .error e := by
        rw [endAt, show decodeCborAt nfc (data.count + 1) data 0 = .error e from hr, ends_error]
      cases e with
      | thrown c d => exact .inr ⟨c, d, rfl⟩
      | trap => exact absurd he htrap
      | fuel => exact absurd he hfuel

/-- A byte string that announces `2 ^ 64 - 1` bytes. -/
def oversizedString : Data := ⟨[0x5b, 0xff, 0xff, 0xff, 0xff, 0xff, 0xff, 0xff, 0xff], by decide⟩

theorem not_totalOn_oversizedString :
    ¬ ∀ (nfc : String → String) (data : Data), TotalOn nfc data := by
  intro hall
  have htrap : decodeCborValue (fun s => s) oversizedString = .error .trap := rfl
  rcases (hall (fun s => s) oversizedString).stops with ⟨v, e, he⟩ | ⟨c, d, he⟩
  · exact nomatch htrap.symm.trans he
  · exact absurd (htrap.symm.trans he) (by simp [throwNSError])

end ZhtpCodec
