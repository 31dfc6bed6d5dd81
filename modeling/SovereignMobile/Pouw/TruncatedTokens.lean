import SovereignMobile.Protobuf.Rounds
import SovereignMobile.Pouw.ChallengeToken

/-! # Tokens that break off

What `parseChallengeToken` of `SubmissionClient.kt` makes of the end of its input: `readVarint` throws,
`readLengthDelimited` leaves zeros where nothing was read, and the loop that skips a varint takes the
-1 of `read` for a byte that continues it. -/

namespace Pouw.Android

open Protobuf List Except

/-! ## The end of the input -/

/-- A varint that starts here has an end. -/
def EndsVarint (input : List UInt8) : Prop := ∃ b ∈ input, b.toNat < 128

variable {input rest value bytes : List UInt8} {e : Abort} {wireType : Nat} {tag : UInt8}
    {s : Reading}

theorem endsVarint_cons {b : UInt8} (hb : ¬ b.toNat < 128) :
    EndsVarint (b :: input) ↔ EndsVarint input := by
  constructor
  · rintro ⟨c, hc, hlt⟩
    rcases mem_cons.1 hc with rfl | hc
    · exact absurd hlt hb
    · exact ⟨c, hc, hlt⟩
  · rintro ⟨c, hc, hlt⟩
    exact ⟨c, mem_cons_of_mem _ hc, hlt⟩

/-- `while (input.read() and 0x80 != 0) {}`, as far as a number of calls of `read` gets. The -1 at the
    end of the stream has the bit set. -/
def skipVarintWithin : Nat → List UInt8 → Option (List UInt8)
  | 0, _ => none
  | reads + 1, [] => skipVarintWithin reads []
  | reads + 1, b :: input => if b.toNat < 128 then some input else skipVarintWithin reads input

theorem skipVarintWithin_nil (reads : Nat) : skipVarintWithin reads [] = none := by
  induction reads with
  | zero => rfl
  | succ reads ih => exact ih

theorem skipVarint_cases (input : List UInt8) :
    (EndsVarint input ∧ ∃ rest, skipVarint input = .ok rest ∧ rest <:+ input) ∨
      ¬ EndsVarint input ∧ skipVarint input = .error .diverges := by
  induction input with
  | nil => exact .inr ⟨by simp [EndsVarint], rfl⟩
  | cons b input ih =>
    rw [skipVarint]
    by_cases hb : b.toNat < 128
    · rw [if_pos hb]
      exact .inl ⟨⟨b, mem_cons_self, hb⟩, input, rfl, suffix_cons b input⟩
    rw [if_neg hb]
    rw [endsVarint_cons hb]
    rcases ih with ⟨hin, rest, hok, hsuffix⟩ | hout
    · exact .inl ⟨hin, rest, hok, hsuffix.trans (suffix_cons b input)⟩
    · exact .inr hout

/-- The model says `diverges` where the loop does not come to an end, however often it reads. -/
theorem skipVarint_diverges_iff (input : List UInt8) :
    skipVarint input = .error .diverges ↔ ∀ reads, skipVarintWithin reads input = none := by
  induction input with
  | nil => exact iff_of_true rfl skipVarintWithin_nil
  | cons b input ih =>
    rw [skipVarint]
    by_cases hb : b.toNat < 128
    · rw [if_pos hb]
      refine iff_of_false (by simp) fun hnone => ?_
      cases (hnone 1).symm.trans (if_pos hb)
    rw [if_neg hb, ih]
    constructor
    · rintro hnone (_ | reads)
      · rfl
      · exact (if_neg hb).trans (hnone reads)
    · exact fun hnone reads => (if_neg hb).symm.trans (hnone (reads + 1))

theorem suffix_readVarint {n : BitVec 64} (h : readVarint input = .ok (n, rest)) :
    rest <:+ input := by
  unfold readVarint at h
  split at h
  · cases h
  rename_i hloop
  cases h
  obtain ⟨b, bytes, rfl, hrest⟩ := suffix_readVarintLoop hloop
  exact hrest.trans (suffix_cons b bytes)

theorem readVarintLoop_none {w : Nat} {value : BitVec w} {shift : Nat}
    (h : readVarintLoop w (fun _ => true) input value shift = none) : ¬ EndsVarint input := by
  induction input generalizing value shift with
  | nil => simp [EndsVarint]
  | cons b input ih =>
    rw [readVarintLoop, if_pos rfl] at h
    split at h
    · cases h
    rename_i hb
    rw [endsVarint_cons hb]
    exact ih h

/-- `readVarint` throws where there is no end. -/
theorem not_endsVarint_of_readVarint (h : readVarint input = .error e) : ¬ EndsVarint input := by
  unfold readVarint at h
  split at h
  · rename_i hloop
    exact readVarintLoop_none hloop
  · cases h

theorem readVarint_ne_diverges (input : List UInt8) : readVarint input ≠ .error .diverges := by
  unfold readVarint
  split <;> simp

/-! ## Fields with a length -/

/-- The length that stands here, if there is one, is no more than what follows it. -/
def LengthFits (input : List UInt8) : Prop :=
  ∀ n rest, readVarint input = .ok (n, rest) → toInt n ≤ rest.length

/-- What was read stands in the input, right behind its length. -/
def Inside (input value rest : List UInt8) : Prop :=
  ∃ n, readVarint input = .ok (n, value ++ rest)

theorem readLengthDelimited_ne_diverges (input : List UInt8) :
    readLengthDelimited input ≠ .error .diverges := by
  unfold readLengthDelimited
  split
  · rename_i e he
    intro h
    cases h
    exact readVarint_ne_diverges input he
  · split <;> simp

theorem readLengthDelimited_ok (h : readLengthDelimited input = .ok (value, rest)) :
    ∃ n bytes, readVarint input = .ok (n, bytes) ∧ 0 ≤ toInt n ∧
      value = bytes.take (toInt n).toNat ++ replicate ((toInt n).toNat - bytes.length) 0 ∧
      rest = bytes.drop (toInt n).toNat := by
  unfold readLengthDelimited at h
  split at h
  · cases h
  rename_i n bytes hn
  split at h
  · cases h
  · cases h
    exact ⟨n, bytes, hn, by omega, rfl, rfl⟩

theorem suffix_readLengthDelimited (h : readLengthDelimited input = .ok (value, rest)) :
    rest <:+ input := by
  obtain ⟨n, bytes, hn, -, -, rfl⟩ := readLengthDelimited_ok h
  exact (drop_suffix _ _).trans (suffix_readVarint hn)

theorem inside_of_lengthFits (hfits : LengthFits input)
    (h : readLengthDelimited input = .ok (value, rest)) : Inside input value rest := by
  obtain ⟨n, bytes, hn, hpos, rfl, rfl⟩ := readLengthDelimited_ok h
  have hle := hfits n bytes hn
  have hzeros : (toInt n).toNat - bytes.length = 0 := by omega
  refine ⟨n, ?_⟩
  rw [hn, hzeros, replicate_zero, append_nil, take_append_drop]

/-- A field that is longer than the rest of the input is filled up, and nothing comes after it. -/
theorem padded_of_not_lengthFits (h : ¬ LengthFits input) :
    ∃ value, readLengthDelimited input = .ok (value ++ [0], []) ∧
      ¬ Inside input (value ++ [0]) [] := by
  unfold LengthFits at h
  simp only [not_forall] at h
  obtain ⟨n, bytes, hn, hlt⟩ := h
  -- at least one zero is missing in the input
  obtain ⟨zeros, hzeros⟩ : ∃ zeros, (toInt n).toNat - bytes.length = zeros + 1 :=
    ⟨(toInt n).toNat - bytes.length - 1, by omega⟩
  refine ⟨bytes ++ replicate zeros 0, ?_, ?_⟩
  · unfold readLengthDelimited
    rw [hn]
    dsimp only
    rw [if_neg (by omega), drop_eq_nil_of_le (by omega), take_of_length_le (by omega),
      hzeros, replicate_succ', append_assoc]
  rintro ⟨m, hm⟩
  rw [hn] at hm
  obtain ⟨-, hbytes⟩ := Prod.mk.inj (Except.ok.inj hm)
  have hlen := congrArg List.length hbytes
  simp only [length_append, length_cons] at hlen
  omega

/-! ## Rounds -/

/-- A field that is skipped as a varint: its number is none of the known ones, `1` to `known`. -/
def SkipsVarint (known : Nat) (tag : UInt8) : Prop :=
  tag.toNat % 8 = 0 ∧ (tag.toNat / 8 = 0 ∨ known < tag.toNat / 8)

def ReadsTaskId (tag : UInt8) : Prop :=
  tag.toNat % 8 = 2 ∧ (tag.toNat / 8 = 3 ∨ tag.toNat / 8 = 1)

def ReadsChallengeNonce (tag : UInt8) : Prop :=
  tag.toNat % 8 = 2 ∧ (tag.toNat / 8 = 4 ∨ tag.toNat / 8 = 2)

def ReadsPolicy (tag : UInt8) : Prop := tag.toNat % 8 = 2 ∧ tag.toNat / 8 = 6

/-- What a reader leaves is a part of its input, and exactly under `D` it does not end. -/
def Takes {σ : Type} (input : List UInt8) (D : Prop) (m : Except Abort (σ × List UInt8)) : Prop :=
  (∀ s rest, m = .ok (s, rest) → rest <:+ input) ∧ (m = .error .diverges ↔ D)

section Takes
variable {σ : Type} {input rest : List UInt8} {D : Prop}

theorem Takes.of_ok (s : σ) (hrest : rest <:+ input) (hD : ¬ D) :
    Takes input D (.ok (s, rest)) := by
  constructor
  · intro s' rest' h
    cases h
    exact hrest
  · exact iff_of_false (fun h => nomatch h) hD

variable {e : Abort}

theorem Takes.of_error (he : e = .diverges ↔ D) :
    Takes input D (.error e : Except Abort (σ × List UInt8)) := by
  constructor
  · intro s' rest' h
    cases h
  · rw [error.injEq, he]

theorem Takes.of_thrown (he : e ≠ .diverges) (hD : ¬ D) :
    Takes input D (.error e : Except Abort (σ × List UInt8)) :=
  .of_error (iff_of_false he hD)

end Takes

theorem skipField_diverges_iff (input : List UInt8) (wireType : Nat) :
    skipField input wireType = .error .diverges ↔ wireType = 0 ∧ ¬ EndsVarint input := by
  unfold skipField
  split
  · rcases skipVarint_cases input with ⟨hends, rest, hok, -⟩ | ⟨hends, hdiverges⟩
    · simp [hok, hends]
    · simp [hdiverges, hends]
  · split
    · rename_i e he
      have hne := readVarint_ne_diverges input
      rw [he] at hne
      simpa using hne
    · simp
  · simp
  · simp
  · rename_i h0 _ _ _
    exact iff_of_false (by simp) fun h => h0 h.1

theorem suffix_skipField (h : skipField input wireType = .ok rest) : rest <:+ input := by
  unfold skipField at h
  split at h
  · rcases skipVarint_cases input with ⟨-, rest', hok, hsuffix⟩ | ⟨-, hdiverges⟩
    · rw [hok] at h
      cases h
      exact hsuffix
    · rw [hdiverges] at h
      cases h
  · split at h
    · cases h
    rename_i n bytes hn
    cases h
    exact (drop_suffix _ _).trans (suffix_readVarint hn)
  · cases h
    exact drop_suffix _ _
  · cases h
    exact drop_suffix _ _
  · cases h
    exact suffix_refl _

theorem not_endsVarint_of_skipField (h : skipField input wireType = .error e) :
    ¬ EndsVarint input := by
  unfold skipField at h
  split at h
  · rcases skipVarint_cases input with ⟨-, rest, hok, -⟩ | ⟨hends, -⟩
    · rw [hok] at h
      cases h
    · exact hends
  · split at h
    · rename_i hn
      exact not_endsVarint_of_readVarint hn
    · cases h
  · cases h
  · cases h
  · cases h

theorem policyStep_takes (p : ChallengePolicy) (tag : UInt8) (input : List UInt8) :
    Takes input (SkipsVarint 2 tag ∧ ¬ EndsVarint input) (policyStep p (tag :: input)) := by
  unfold policyStep
  dsimp only
  split
  iterate 2
    · rename_i h1
      have hknown : ¬ (SkipsVarint 2 tag ∧ ¬ EndsVarint input) := fun h => by
        have := h.1.2
        omega
      split
      · cases hn : readVarint input with
        | error e => exact .of_thrown (fun he => readVarint_ne_diverges input (he ▸ hn)) hknown
        | ok next => exact .of_ok _ (suffix_readVarint hn) hknown
      · exact .of_ok _ (suffix_refl _) hknown
  · rename_i h1 h2
    have hne1 : tag.toNat / 8 ≠ 1 := h1
    have hne2 : tag.toNat / 8 ≠ 2 := h2
    have hunknown : SkipsVarint 2 tag ↔ tag.toNat % 8 = 0 := by
      unfold SkipsVarint
      omega
    have hdiverges := skipField_diverges_iff input (tag.toNat % 8)
    rw [← hunknown] at hdiverges
    cases hskip : skipField input (tag.toNat % 8) with
    | error e =>
      rw [hskip, error.injEq] at hdiverges
      exact .of_error hdiverges
    | ok rest =>
      rw [hskip] at hdiverges
      exact .of_ok _ (suffix_skipField hskip) fun h => nomatch hdiverges.2 h

theorem not_endsVarint_of_policyStep {p : ChallengePolicy}
    (h : policyStep p (tag :: input) = .error e) : ¬ EndsVarint input := by
  unfold policyStep at h
  dsimp only at h
  split at h
  iterate 2
    · split at h
      · split at h
        · rename_i hn
          exact not_endsVarint_of_readVarint hn
        · cases h
      · cases h
  · split at h
    · rename_i hskip
      exact not_endsVarint_of_skipField hskip
    · cases h

theorem policyStep_shortens : Shortens policyStep :=
  fun p tag input _ _ h => ((policyStep_takes p tag input).1 _ _ h).length_le

/-- Every varint that is skipped in a policy ends there. -/
def PolicyEnds (bytes : List UInt8) : Prop :=
  ∀ p tag input, Rounds policyStep ⟨100, 20⟩ bytes p (tag :: input) → SkipsVarint 2 tag →
    EndsVarint input

theorem parsePolicy_diverges_iff (bytes : List UInt8) :
    parsePolicy bytes = .error .diverges ↔ ¬ PolicyEnds bytes := by
  unfold parsePolicy PolicyEnds
  rw [readAll_error_iff policyStep_shortens le_rfl]
  constructor
  · rintro ⟨p, tag, input, hrounds, hstep⟩ hends
    obtain ⟨hskips, hout⟩ := (policyStep_takes p tag input).2.1 hstep
    exact hout (hends p tag input hrounds hskips)
  intro h
  simp only [not_forall] at h
  obtain ⟨p, tag, input, hrounds, hskips, hout⟩ := h
  exact ⟨p, tag, input, hrounds, (policyStep_takes p tag input).2.2 ⟨hskips, hout⟩⟩

theorem zero_mem_of_suffix {xs : List UInt8} (h : xs <:+ value ++ [0]) (hne : xs ≠ []) :
    (0 : UInt8) ∈ xs := by
  obtain ⟨pre, hpre⟩ := h
  obtain ⟨ys, y, rfl⟩ := (eq_nil_or_concat xs).resolve_left hne
  rw [concat_eq_append, ← append_assoc] at hpre
  obtain ⟨-, hy⟩ := append_inj' hpre rfl
  obtain rfl := head_eq_of_cons_eq hy
  simp

/-- A policy that was filled up is read, or never: the last zero ends a varint, and as a tag it begins
    one that has no end. -/
theorem parsePolicy_padded (h : parsePolicy (value ++ [0]) = .error e) : e = .diverges := by
  obtain ⟨p, tag, input, hrounds, hstep⟩ :=
    (readAll_error_iff policyStep_shortens le_rfl).1 h
  have hsuffix : tag :: input <:+ value ++ [0] :=
    hrounds.invariant (suffix_refl _)
      fun p tag input _ _ hbytes hok => (((policyStep_takes p tag input).1 _ _ hok).trans
        (suffix_cons tag input)).trans hbytes
  have hends := not_endsVarint_of_policyStep hstep
  cases input with
  | nil =>
    have htag := mem_singleton.1 (zero_mem_of_suffix hsuffix (cons_ne_nil _ _))
    obtain rfl := htag
    exact (error.inj hstep).symm
  | cons b input =>
    have hzero := zero_mem_of_suffix ((suffix_cons tag _).trans hsuffix) (cons_ne_nil b input)
    exact absurd ⟨0, hzero, by decide⟩ hends

/-- The policy that stands here, filled up if it breaks off, has its skipped varints whole. -/
def PolicyEndsAt (input : List UInt8) : Prop :=
  ∀ value rest, readLengthDelimited input = .ok (value, rest) → PolicyEnds value

/-! The rounds of `parseChallengeToken`, by the kind of their tag. -/

section Step
variable (s : Reading) {tag : UInt8} (input : List UInt8)

theorem step_taskId (h : ReadsTaskId tag) : step s (tag :: input) = s.readTaskId input := by
  obtain ⟨hwire, h3 | h1⟩ := h
  · simp [step, hwire, h3]
  · simp [step, hwire, h1]

theorem step_challengeNonce (h : ReadsChallengeNonce tag) :
    step s (tag :: input) = s.readChallengeNonce input := by
  obtain ⟨hwire, h4 | h2⟩ := h
  · simp [step, hwire, h4]
  · simp [step, hwire, h2]

variable {e : Abort} {value rest : List UInt8}

theorem step_policy_error (h : ReadsPolicy tag) (hv : readLengthDelimited input = .error e) :
    step s (tag :: input) = .error e := by
  simp [step, h.1, h.2, hv]

theorem step_policy_refused (h : ReadsPolicy tag)
    (hv : readLengthDelimited input = .ok (value, rest)) (hp : parsePolicy value = .error e) :
    step s (tag :: input) = .error e := by
  simp [step, h.1, h.2, hv, hp]

theorem step_policy_ok (h : ReadsPolicy tag) {policy : ChallengePolicy}
    (hv : readLengthDelimited input = .ok (value, rest)) (hp : parsePolicy value = .ok policy) :
    step s (tag :: input) = .ok ({ s with policy := some policy }, rest) := by
  simp [step, h.1, h.2, hv, hp]

/-- The remaining tags: nothing but a varint or a skipped field is read. -/
theorem step_takes_other (h3 : ¬ ReadsTaskId tag) (h4 : ¬ ReadsChallengeNonce tag)
    (h6 : ¬ ReadsPolicy tag) :
    Takes input (SkipsVarint 6 tag ∧ ¬ EndsVarint input) (step s (tag :: input)) := by
  have hknown : ∀ {k}, tag.toNat / 8 = k → 1 ≤ k → k ≤ 6 →
      ¬ (SkipsVarint 6 tag ∧ ¬ EndsVarint input) := by
    intro k hk h1 h6 h
    have := h.1.2
    omega
  unfold step
  dsimp only
  split
  · rename_i hk
    rw [if_neg fun hw => h3 ⟨hw, .inl hk⟩]
    exact .of_ok _ (suffix_refl _) (hknown hk (by decide) (by decide))
  · rename_i hk
    rw [if_neg fun hw => h4 ⟨hw, .inl hk⟩]
    exact .of_ok _ (suffix_refl _) (hknown hk (by decide) (by decide))
  · rename_i hk
    split
    · cases hn : readVarint input with
      | error e =>
        exact .of_thrown (fun he => readVarint_ne_diverges input (he ▸ hn))
          (hknown hk (by decide) (by decide))
      | ok next =>
        exact .of_ok _ (suffix_readVarint hn) (hknown hk (by decide) (by decide))
    · exact .of_ok _ (suffix_refl _) (hknown hk (by decide) (by decide))
  · rename_i hk
    rw [if_neg fun hw => h6 ⟨hw, hk⟩]
    exact .of_ok _ (suffix_refl _) (hknown hk (by decide) (by decide))
  · rename_i hk
    rw [if_neg fun hw => h3 ⟨hw, .inr hk⟩]
    exact .of_ok _ (suffix_refl _) (hknown hk (by decide) (by decide))
  · rename_i hk
    rw [if_neg fun hw => h4 ⟨hw, .inr hk⟩]
    exact .of_ok _ (suffix_refl _) (hknown hk (by decide) (by decide))
  · rename_i n3 n4 n5 n6 n1 n2
    have hunknown : SkipsVarint 6 tag ↔ tag.toNat % 8 = 0 := by
      have hne1 : tag.toNat / 8 ≠ 1 := n1
      have hne2 : tag.toNat / 8 ≠ 2 := n2
      have hne3 : tag.toNat / 8 ≠ 3 := n3
      have hne4 : tag.toNat / 8 ≠ 4 := n4
      have hne5 : tag.toNat / 8 ≠ 5 := n5
      have hne6 : tag.toNat / 8 ≠ 6 := n6
      unfold SkipsVarint
      omega
    have hdiverges := skipField_diverges_iff input (tag.toNat % 8)
    rw [← hunknown] at hdiverges
    cases hskip : skipField input (tag.toNat % 8) with
    | error e =>
      rw [hskip, error.injEq] at hdiverges
      exact .of_error hdiverges
    | ok rest =>
      rw [hskip] at hdiverges
      exact .of_ok _ (suffix_skipField hskip) fun h => nomatch hdiverges.2 h

/-- One round. It does not end where it skips a varint without an end, or reads a policy that has
    one. -/
theorem step_takes : Takes input
    (SkipsVarint 6 tag ∧ ¬ EndsVarint input ∨ ReadsPolicy tag ∧ ¬ PolicyEndsAt input)
    (step s (tag :: input)) := by
  by_cases h6 : ReadsPolicy tag
  · have hskips : ¬ SkipsVarint 6 tag := fun h => by
      have := h.1
      have := h6.1
      omega
    cases hv : readLengthDelimited input with
    | error e =>
      rw [step_policy_error s input h6 hv]
      have hends : PolicyEndsAt input := fun value rest h => by
        rw [hv] at h
        cases h
      exact .of_thrown (fun he => readLengthDelimited_ne_diverges input (he ▸ hv)) fun h =>
        h.elim (fun h => hskips h.1) fun h => h.2 hends
    | ok next =>
      obtain ⟨value, rest⟩ := next
      have hends : PolicyEndsAt input ↔ PolicyEnds value := by
        constructor
        · intro h
          exact h value rest hv
        intro h value' rest' hv'
        rw [hv] at hv'
        cases hv'
        exact h
      have hdiverges := parsePolicy_diverges_iff value
      rw [← hends] at hdiverges
      cases hp : parsePolicy value with
      | error e =>
        rw [step_policy_refused s input h6 hv hp]
        rw [hp, error.injEq] at hdiverges
        exact .of_error (hdiverges.trans
          ⟨fun h => .inr ⟨h6, h⟩, fun h => h.elim (fun h => absurd h.1 hskips) And.right⟩)
      | ok policy =>
        rw [step_policy_ok s input h6 hv hp]
        rw [hp] at hdiverges
        exact .of_ok _ (suffix_readLengthDelimited hv) fun h =>
          h.elim (fun h => hskips h.1) fun h => nomatch hdiverges.2 h.2
  · have hD : (SkipsVarint 6 tag ∧ ¬ EndsVarint input ∨ ReadsPolicy tag ∧ ¬ PolicyEndsAt input) ↔
        SkipsVarint 6 tag ∧ ¬ EndsVarint input := or_iff_left fun h => h6 h.1
    rw [hD]
    by_cases h3 : ReadsTaskId tag
    · rw [step_taskId s input h3]
      have hskips : ¬ (SkipsVarint 6 tag ∧ ¬ EndsVarint input) := fun h => by
        have := h.1.1
        have := h3.1
        omega
      unfold Reading.readTaskId
      cases hv : readLengthDelimited input with
      | error e =>
        exact .of_thrown (fun he => readLengthDelimited_ne_diverges input (he ▸ hv)) hskips
      | ok next => exact .of_ok _ (suffix_readLengthDelimited hv) hskips
    · by_cases h4 : ReadsChallengeNonce tag
      · rw [step_challengeNonce s input h4]
        have hskips : ¬ (SkipsVarint 6 tag ∧ ¬ EndsVarint input) := fun h => by
          have := h.1.1
          have := h4.1
          omega
        unfold Reading.readChallengeNonce
        cases hv : readLengthDelimited input with
        | error e =>
          exact .of_thrown (fun he => readLengthDelimited_ne_diverges input (he ▸ hv)) hskips
        | ok next => exact .of_ok _ (suffix_readLengthDelimited hv) hskips
      · exact step_takes_other s input h3 h4 h6

end Step

theorem step_shortens : Shortens step :=
  fun s _ input _ _ h => ((step_takes s input).1 _ _ h).length_le

/-! ## Tokens -/

/-- The parse comes to an end, and if its end is a token, every field with a length that it has read
    stands in the input. -/
structure Strict (bytes : List UInt8) : Prop where
  terminates : parseChallengeToken bytes ≠ .error .diverges
  inside : ∀ token, parseChallengeToken bytes = .ok (some token) →
    ∀ s tag input value rest, Rounds step {} bytes s (tag :: input) →
      ReadsTaskId tag ∨ ReadsChallengeNonce tag ∨ ReadsPolicy tag →
      readLengthDelimited input = .ok (value, rest) → Inside input value rest

def Reading.HasTaskId (s : Reading) : Prop := ∃ value, s.taskId = some value ∧ value ≠ []

def Reading.HasChallengeNonce (s : Reading) : Prop := ∃ value, s.challengeNonce = some value ∧ value ≠ []

/-- A round skips no varint that breaks off, and reads a field that breaks off only where no token
    comes of it. -/
structure Reading.Whole (s : Reading) (tag : UInt8) (input : List UInt8) : Prop where
  skipped : SkipsVarint 6 tag → EndsVarint input
  skippedInPolicy : ReadsPolicy tag → PolicyEndsAt input
  taskId : ReadsTaskId tag → s.HasChallengeNonce → LengthFits input
  challengeNonce : ReadsChallengeNonce tag → s.HasTaskId → LengthFits input
  policy : ReadsPolicy tag → s.HasTaskId → s.HasChallengeNonce → LengthFits input

theorem Reading.finish_isSome_iff (s : Reading) :
    (∃ token, s.finish = some token) ↔ s.HasTaskId ∧ s.HasChallengeNonce := by
  unfold Reading.finish Reading.HasTaskId Reading.HasChallengeNonce
  cases htask : s.taskId with
  | none => simp
  | some task =>
    cases hnonce : s.challengeNonce with
    | none => simp
    | some nonce =>
      by_cases htask' : task = []
      · simp
      · simp

theorem parseChallengeToken_diverges_iff (bytes : List UInt8) :
    parseChallengeToken bytes = .error .diverges ↔
      ∃ s tag input, Rounds step {} bytes s (tag :: input) ∧
        (SkipsVarint 6 tag ∧ ¬ EndsVarint input ∨ ReadsPolicy tag ∧ ¬ PolicyEndsAt input) := by
  have hread : parseChallengeToken bytes = .error .diverges ↔
      readAll step bytes.length {} bytes = .error .diverges := by
    unfold parseChallengeToken
    cases readAll step bytes.length {} bytes <;> simp
  rw [hread, readAll_error_iff step_shortens le_rfl]
  constructor
  · rintro ⟨s, tag, input, hrounds, hstep⟩
    exact ⟨s, tag, input, hrounds, (step_takes s input).2.1 hstep⟩
  · rintro ⟨s, tag, input, hrounds, hD⟩
    exact ⟨s, tag, input, hrounds, (step_takes s input).2.2 hD⟩

/-- After the round that uses up the input, the result is settled. -/
theorem parseChallengeToken_of_last {s' : Reading} (h : Rounds step {} bytes s (tag :: input))
    (hstep : step s (tag :: input) = .ok (s', [])) :
    parseChallengeToken bytes = .ok s'.finish := by
  have hread := (readAll_ok_iff step_shortens (Nat.le_refl bytes.length)).2 (h.tail hstep)
  unfold parseChallengeToken
  rw [hread]

theorem Strict.whole (h : Strict bytes) (hrounds : Rounds step {} bytes s (tag :: input)) :
    s.Whole tag input := by
  have hends : ¬ (SkipsVarint 6 tag ∧ ¬ EndsVarint input ∨ ReadsPolicy tag ∧ ¬ PolicyEndsAt input) :=
    fun hD => h.terminates ((parseChallengeToken_diverges_iff bytes).2 ⟨s, tag, input, hrounds, hD⟩)
  -- a filled-up field is the last one, and stands in the token if there is one
  have hfits : ReadsTaskId tag ∨ ReadsChallengeNonce tag ∨ ReadsPolicy tag →
      (∀ value, readLengthDelimited input = .ok (value ++ [0], []) →
        ∃ s', step s (tag :: input) = .ok (s', []) ∧ s'.HasTaskId ∧ s'.HasChallengeNonce) →
      LengthFits input := by
    intro hreads hlast
    by_contra hlong
    obtain ⟨value, hvalue, hout⟩ := padded_of_not_lengthFits hlong
    obtain ⟨s', hstep, htask, hnonce⟩ := hlast value hvalue
    obtain ⟨token, htoken⟩ := s'.finish_isSome_iff.2 ⟨htask, hnonce⟩
    have hresult := parseChallengeToken_of_last hrounds hstep
    rw [htoken] at hresult
    exact hout (h.inside token hresult s tag input _ _ hrounds hreads hvalue)
  constructor
  · intro hskips
    by_contra hend
    exact hends (.inl ⟨hskips, hend⟩)
  · intro hreads
    by_contra hend
    exact hends (.inr ⟨hreads, hend⟩)
  · intro hreads hnonce
    apply hfits (.inl hreads)
    intro value hvalue
    have hstep : step s (tag :: input) = .ok ({ s with taskId := some (value ++ [0]) }, []) := by
      rw [step_taskId s input hreads, Reading.readTaskId, hvalue]
    exact ⟨_, hstep, ⟨_, rfl, by simp⟩, hnonce⟩
  · intro hreads htask
    apply hfits (.inr (.inl hreads))
    intro value hvalue
    have hstep : step s (tag :: input) =
        .ok ({ s with challengeNonce := some (value ++ [0]) }, []) := by
      rw [step_challengeNonce s input hreads, Reading.readChallengeNonce, hvalue]
    exact ⟨_, hstep, htask, ⟨_, rfl, by simp⟩⟩
  · intro hreads htask hnonce
    apply hfits (.inr (.inr hreads))
    intro value hvalue
    cases hpolicy : parsePolicy (value ++ [0]) with
    | error e =>
      have he := parsePolicy_padded hpolicy
      subst he
      have hbreaks := (parsePolicy_diverges_iff _).1 hpolicy
      exact absurd (.inr ⟨hreads, fun hat => hbreaks (hat _ _ hvalue)⟩) hends
    | ok policy => exact ⟨_, step_policy_ok s input hreads hvalue hpolicy, htask, hnonce⟩

theorem strict_of_whole
    (h : ∀ s tag input, Rounds step {} bytes s (tag :: input) → s.Whole tag input) :
    Strict bytes := by
  constructor
  · intro hdiverges
    obtain ⟨s, tag, input, hrounds, ⟨hskips, hend⟩ | ⟨hreads, hend⟩⟩ :=
      (parseChallengeToken_diverges_iff bytes).1 hdiverges
    · exact hend ((h s tag input hrounds).skipped hskips)
    · exact hend ((h s tag input hrounds).skippedInPolicy hreads)
  intro token htoken s tag input value rest hrounds hreads hvalue
  apply inside_of_lengthFits ?_ hvalue
  have hwhole := h s tag input hrounds
  by_contra hlong
  obtain ⟨value', hvalue', -⟩ := padded_of_not_lengthFits hlong
  -- the field would be the last one, and its token complete before it
  have hcomplete : ∀ s', step s (tag :: input) = .ok (s', []) → s'.HasTaskId ∧ s'.HasChallengeNonce := by
    intro s' hstep
    have hresult := parseChallengeToken_of_last hrounds hstep
    rw [htoken] at hresult
    exact s'.finish_isSome_iff.1 ⟨token, (Except.ok.inj hresult).symm⟩
  rcases hreads with hreads | hreads | hreads
  · have hstep : step s (tag :: input) = .ok ({ s with taskId := some (value' ++ [0]) }, []) := by
      rw [step_taskId s input hreads, Reading.readTaskId, hvalue']
    exact hlong (hwhole.taskId hreads (hcomplete _ hstep).2)
  · have hstep : step s (tag :: input) =
        .ok ({ s with challengeNonce := some (value' ++ [0]) }, []) := by
      rw [step_challengeNonce s input hreads, Reading.readChallengeNonce, hvalue']
    exact hlong (hwhole.challengeNonce hreads (hcomplete _ hstep).1)
  cases hpolicy : parsePolicy (value' ++ [0]) with
  | error e =>
    have he := parsePolicy_padded hpolicy
    subst he
    exact (parsePolicy_diverges_iff _).1 hpolicy (hwhole.skippedInPolicy hreads _ _ hvalue')
  | ok policy =>
    have hstep := step_policy_ok s input hreads hvalue' hpolicy
    obtain ⟨htask, hnonce⟩ := hcomplete _ hstep
    exact hlong (hwhole.policy hreads htask hnonce)

/-- The parse ends, and no field of a token is filled up, exactly if in every round what is skipped or
    read is whole. -/
theorem token_fields_inside_iff (bytes : List UInt8) :
    Strict bytes ↔
      ∀ s tag input, Rounds step {} bytes s (tag :: input) → s.Whole tag input :=
  ⟨fun h _ _ _ hrounds => h.whole hrounds, strict_of_whole⟩

/-- Field 7 as a varint, at the end of the input: the loop does not end. The nonce has three bytes by
    its length, and one is there: it comes out with two zeros. -/
theorem token_fields_not_inside :
    ¬ Strict [0x38] ∧ ¬ Strict [0x1A, 1, 7, 0x22, 3, 9] := by
  constructor
  · intro h
    exact h.terminates rfl
  · intro h
    have hround : Rounds step {} [0x1A, 1, 7, 0x22, 3, 9] { taskId := some [7] } [0x22, 3, 9] :=
      .head rfl (.refl _ _)
    obtain ⟨n, hn⟩ := h.inside ⟨[7], [9, 0, 0], 0, none⟩ rfl _ _ _ [9, 0, 0] [] hround
      (.inr (.inl (by unfold ReadsChallengeNonce; decide))) rfl
    obtain ⟨-, hbytes⟩ := Prod.mk.inj (Except.ok.inj hn)
    exact nomatch hbytes

end Pouw.Android
