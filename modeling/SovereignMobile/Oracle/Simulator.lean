import Mathlib.Analysis.Real.Sqrt
import Mathlib.Algebra.Order.Floor.Ring
import Mathlib.Tactic.Linarith
import Mathlib.Tactic.LinearCombination

/-! # The simulated curve is solvent

`SimulatorTab.tsx` with its numbers read exactly. The band math: a price that is linear in each band of the
supply, its integral, and the supply that a credit mints; `cost` is the integral from the start of the curve,
and the loops are shown to move along it. The buttons before graduation: `executeBuy` mints along the curve,
and `executeSell` pays the integral back, from the reserve and then from the treasury. The settings may change
between two presses, the parameters of the curve do not. -/

namespace Oracle

open List Option

/-! ## Bands -/

section Bands
variable {K : Type} [Field K] [LinearOrder K]

structure Band (K : Type) where
  sEnd : K
  slope : K

def DEFAULT_BANDS : List (Band K) :=
  [⟨10000000, 1 / 10 ^ 12⟩, ⟨100000000, 5 / 10 ^ 12⟩, ⟨1000000000, 2 / 10 ^ 11⟩,
    ⟨100000000000, 1 / 10 ^ 10⟩]

structure ComputedBand (K : Type) where
  sStart : K
  sEnd : K
  m : K
  b : K

/-- The bands after one that starts at no matter where, has the given slope and intercept and ends at
    `sStart`. -/
def computeBandsFrom (sStart slope b : K) : List (Band K) → List (ComputedBand K)
  | [] => []
  | band :: bands =>
    let b := b + (slope - band.slope) * sStart
    ⟨sStart, band.sEnd, band.slope, b⟩ :: computeBandsFrom band.sEnd band.slope b bands

def computeBands (initPrice : K) : List (Band K) → List (ComputedBand K)
  | [] => []
  | band :: bands =>
    ⟨0, band.sEnd, band.slope, initPrice⟩ :: computeBandsFrom band.sEnd band.slope initPrice bands

/-- The index of the band; that of no bands, -1 in the source, is none of a band here either. -/
def findBand (S : K) : List (ComputedBand K) → Nat
  | [] => 0
  | [_] => 0
  | band :: cb => if S < band.sEnd then 0 else findBand S cb + 1

/-- It throws where there is no band. -/
def marginalPrice (S : K) (cb : List (ComputedBand K)) : Option K :=
  cb[findBand S cb]?.map fun band => band.m * S + band.b

def integrateBand (sa sb m b : K) : K := (m / 2) * (sb * sb - sa * sa) + b * (sb - sa)

/-- The loop over the bands that are left, with `total` and `cur`. -/
def integrateLoop (hi : K) : List (ComputedBand K) → K → K → K
  | [], total, _ => total
  | band :: cb, total, cur =>
    if cur < hi then
      if band.sEnd ≤ cur ∧ ¬cb.isEmpty then integrateLoop hi cb total cur
      else if hi < band.sStart then total
      else
        let blo := max cur band.sStart
        let bhi := if cb.isEmpty then hi else min hi band.sEnd
        if blo < bhi then integrateLoop hi cb (total + integrateBand blo bhi band.m band.b) bhi
        else integrateLoop hi cb total cur
    else total

def integrateCurve (sa sb : K) (cb : List (ComputedBand K)) : K :=
  if sa ≤ sb then integrateLoop sb cb 0 sa else integrateLoop sa cb 0 sb

/-- The loop over the bands that are left, with `rem`, `minted` and `supply`. A band that takes all of
    `rem` leaves 0 of it, which ends the loop. -/
def mintLoop (sqrt : K → K) (maxSupply : K) : List (ComputedBand K) → K → K → K → K
  | [], _, minted, _ => minted
  | band :: cb, rem, minted, supply =>
    if 1 / 10 ^ 15 < rem then
      let maxIn := (if cb.isEmpty then maxSupply else band.sEnd) - supply
      let cost := integrateBand supply (supply + maxIn) band.m band.b
      if rem ≤ cost then
        let P0 := band.m * supply + band.b
        let ds := if 1 / 10 ^ 30 < band.m then
            (-P0 + sqrt (P0 * P0 + 2 * band.m * rem)) / band.m
          else rem / band.b
        minted + min ds maxIn
      else mintLoop sqrt maxSupply cb (rem - cost) (minted + maxIn) (supply + maxIn)
    else minted

/-- It throws where there is no band to mint from. -/
def curveMint [FloorRing K] (sqrt : K → K) (credit S maxSupply : K) (cb : List (ComputedBand K)) :
    Option K :=
  if cb.isEmpty ∧ 1 / 10 ^ 15 < credit then none
  else some (⌊mintLoop sqrt maxSupply (cb.drop (findBand S cb)) credit 0 S⌋ : Int)

end Bands

/-! ## The cost of a supply -/

section Curve
variable {s p x y S rem minted supply maxSupply : ℝ} {band : ComputedBand ℝ} {cb : List (ComputedBand ℝ)}

/-- What it takes to mint from the start `s` of the bands up to `x`. -/
noncomputable def cost : ℝ → List (ComputedBand ℝ) → ℝ → ℝ
  | _, [], _ => 0
  | s, band :: cb, x =>
    if cb.isEmpty ∨ x ≤ band.sEnd then integrateBand s x band.m band.b
    else integrateBand s band.sEnd band.m band.b + cost band.sEnd cb x

/-- Bands from `s` on, where the price is `p`: each takes up the price of the one before it and does not
    lower it, and all but the last end within `maxSupply`. -/
def Chain (maxSupply : ℝ) : ℝ → ℝ → List (ComputedBand ℝ) → Prop
  | _, _, [] => False
  | s, p, band :: cb =>
    band.sStart = s ∧ band.m * s + band.b = p ∧ (band.m = 0 ∨ 1 / 10 ^ 30 < band.m) ∧
      (cb.isEmpty ∨ s ≤ band.sEnd ∧ band.sEnd ≤ maxSupply ∧
        Chain maxSupply band.sEnd (band.m * band.sEnd + band.b) cb)

theorem integrateBand_add (x y z m b : ℝ) :
    integrateBand x y m b + integrateBand y z m b = integrateBand x z m b := by
  unfold integrateBand
  ring

/-- Within a band the price does not fall below that at its start. -/
theorem integrateBand_mono {m b : ℝ} (hm : 0 ≤ m) (hp : 0 ≤ m * s + b) (hs : s ≤ x) (hxy : x ≤ y) :
    integrateBand s x m b ≤ integrateBand s y m b := by
  have hx : 0 ≤ m * (x - s) := mul_nonneg hm (by linarith)
  have hy : 0 ≤ m * (y - s) := mul_nonneg hm (by linarith)
  have hprice : 0 ≤ m / 2 * (x + y) + b := by linarith
  have heq : integrateBand s y m b - integrateBand s x m b = (m / 2 * (x + y) + b) * (y - x) := by
    unfold integrateBand
    ring
  have := mul_nonneg hprice (sub_nonneg.mpr hxy)
  linarith

theorem slope_nonneg {m : ℝ} (h : m = 0 ∨ 1 / 10 ^ 30 < m) : 0 ≤ m := by
  rcases h with rfl | h
  · exact le_refl 0
  · exact le_trans (by positivity) h.le

theorem Chain.next_price (h : band.m * s + band.b = p) (hm : band.m = 0 ∨ 1 / 10 ^ 30 < band.m)
    (hs : s ≤ x) : p ≤ band.m * x + band.b := by
  have := mul_le_mul_of_nonneg_left hs (slope_nonneg hm)
  linarith

theorem cost_self (h : Chain maxSupply s p cb) : cost s cb s = 0 := by
  cases cb with
  | nil => exact absurd h id
  | cons band cb =>
    obtain ⟨-, -, -, hlast⟩ := h
    rw [cost, if_pos (hlast.imp_right And.left)]
    unfold integrateBand
    ring

/-- Past its end a band has cost what it costs in full. -/
theorem cost_cons (h : Chain maxSupply s p (band :: cb)) (hcb : ¬cb.isEmpty = true) (hx : band.sEnd ≤ x) :
    cost s (band :: cb) x = integrateBand s band.sEnd band.m band.b + cost band.sEnd cb x := by
  obtain ⟨-, -, -, hlast⟩ := h
  obtain ⟨-, -, hchain⟩ := hlast.resolve_left hcb
  rw [cost]
  split
  · next hle =>
    have hxe : x = band.sEnd := le_antisymm (hle.resolve_left hcb) hx
    rw [hxe, cost_self hchain, add_zero]
  · rfl

theorem cost_mono (h : Chain maxSupply s p cb) (hp : 0 ≤ p) (hs : s ≤ x) (hxy : x ≤ y) :
    cost s cb x ≤ cost s cb y := by
  induction cb generalizing s p x with
  | nil => exact absurd h id
  | cons band cb ih =>
    have hband := h
    obtain ⟨-, hprice, hm, hlast⟩ := h
    have hmono : ∀ {x y}, s ≤ x → x ≤ y →
        integrateBand s x band.m band.b ≤ integrateBand s y band.m band.b := fun hx hxy =>
      integrateBand_mono (slope_nonneg hm) (hprice ▸ hp) hx hxy
    by_cases hcb : cb.isEmpty = true
    · rw [cost, cost, if_pos (.inl hcb), if_pos (.inl hcb)]
      exact hmono hs hxy
    obtain ⟨hse, -, hchain⟩ := hlast.resolve_left hcb
    have hp' : 0 ≤ band.m * band.sEnd + band.b := le_trans hp (Chain.next_price hprice hm hse)
    rcases le_total y band.sEnd with hy | hy
    · rw [cost, cost, if_pos (.inr (le_trans hxy hy)), if_pos (.inr hy)]
      exact hmono hs hxy
    rw [cost_cons hband hcb hy]
    rcases le_total x band.sEnd with hx | hx
    · have hrest := ih hchain hp' le_rfl hy
      rw [cost_self hchain] at hrest
      rw [cost, if_pos (.inr hx)]
      linarith [hmono hs hx]
    · rw [cost_cons hband hcb hx]
      linarith [ih hchain hp' hx hxy]

theorem cost_nonneg (h : Chain maxSupply s p cb) (hp : 0 ≤ p) (hs : s ≤ x) : 0 ≤ cost s cb x := by
  rw [← cost_self h]
  exact cost_mono h hp le_rfl hs

/-! ## The integral -/

theorem integrateLoop_eq {hi cur : ℝ} (h : Chain maxSupply s p cb) (hs : s ≤ cur) (hcur : cur ≤ hi)
    (total : ℝ) : integrateLoop hi cb total cur = total + (cost s cb hi - cost s cb cur) := by
  induction cb generalizing s p cur total with
  | nil => exact absurd h id
  | cons band cb ih =>
    have hband := h
    obtain ⟨hstart, -, -, hlast⟩ := h
    rw [integrateLoop]
    by_cases hlt : cur < hi
    swap
    · rw [if_neg hlt, le_antisymm hcur (not_lt.mp hlt), sub_self, add_zero]
    have hblo : max cur band.sStart = cur := max_eq_left (hstart ▸ hs)
    rw [if_pos hlt, if_neg (not_lt.mpr (show band.sStart ≤ hi by linarith)), hblo]
    by_cases hcb : cb.isEmpty = true
    · have hnil : cb = [] := isEmpty_iff.mp hcb
      rw [if_neg (by simp [hcb]), if_pos hcb, if_pos hlt, cost, cost, if_pos (.inl hcb), if_pos (.inl hcb),
        hnil, integrateLoop]
      linarith [integrateBand_add s cur hi band.m band.b]
    obtain ⟨hse, -, hchain⟩ := hlast.resolve_left hcb
    by_cases hend : band.sEnd ≤ cur
    · rw [if_pos ⟨hend, hcb⟩, ih hchain hend hcur, cost_cons hband hcb hend,
        cost_cons hband hcb (le_trans hend hcur)]
      ring
    rw [if_neg (by simp [hend]), if_neg hcb, if_pos (lt_min hlt (not_le.mp hend))]
    have hadd := integrateBand_add s cur (min hi band.sEnd) band.m band.b
    have hcost : cost s (band :: cb) cur = integrateBand s cur band.m band.b := by
      rw [cost, if_pos (.inr (not_le.mp hend).le)]
    rcases le_total hi band.sEnd with hhi | hhi
    · rw [min_eq_left hhi] at hadd ⊢
      have hdone : ∀ cb total, integrateLoop hi cb total hi = total := by
        intro cb total
        cases cb <;> simp [integrateLoop]
      rw [hdone, cost, if_pos (.inr hhi)]
      linarith
    · rw [min_eq_right hhi] at hadd ⊢
      rw [ih hchain le_rfl hhi, cost_self hchain, cost_cons hband hcb hhi]
      linarith

/-- The integral between two supplies is the difference of what they cost. -/
theorem integrateCurve_eq (h : Chain maxSupply s p cb) (hx : s ≤ x) (hxy : x ≤ y) :
    integrateCurve x y cb = cost s cb y - cost s cb x := by
  rw [integrateCurve, if_pos hxy, integrateLoop_eq h hx hxy, zero_add]

/-! ## The price -/

/-- `marginalPrice` where there is a band -/
noncomputable def price (S : ℝ) : List (ComputedBand ℝ) → ℝ
  | [] => 0
  | band :: cb => if cb.isEmpty ∨ S < band.sEnd then band.m * S + band.b else price S cb

theorem marginalPrice_eq (S : ℝ) (h : cb ≠ []) : marginalPrice S cb = some (price S cb) := by
  unfold marginalPrice
  induction cb with
  | nil => exact absurd rfl h
  | cons band cb ih =>
    cases cb with
    | nil => simp [findBand, price]
    | cons band' cb =>
      have hfind : findBand S (band :: band' :: cb) =
          if S < band.sEnd then 0 else findBand S (band' :: cb) + 1 := rfl
      rw [hfind, price]
      split
      · next hlt => simp [hlt]
      next hlt =>
      rw [getElem?_cons_succ, ih (cons_ne_nil _ _)]
      simp [hlt]

theorem price_start (h : Chain maxSupply s p cb) : price s cb = p := by
  induction cb generalizing s p with
  | nil => exact absurd h id
  | cons band cb ih =>
    obtain ⟨-, hprice, -, hlast⟩ := h
    rw [price]
    split
    · exact hprice
    next hnot =>
    obtain ⟨hcb, hlt⟩ := not_or.mp hnot
    obtain ⟨hse, -, hchain⟩ := hlast.resolve_left hcb
    have hs : s = band.sEnd := le_antisymm hse (not_lt.mp hlt)
    rw [hs, ih hchain, ← hprice, hs]

theorem continuous_price (h : Chain maxSupply s p cb) : Continuous fun S => price S cb := by
  induction cb generalizing s p with
  | nil => exact absurd h id
  | cons band cb ih =>
    obtain ⟨-, -, -, hlast⟩ := h
    have hline : Continuous fun S : ℝ => band.m * S + band.b :=
      (continuous_const.mul continuous_id).add continuous_const
    by_cases hcb : cb.isEmpty = true
    · simpa only [price, hcb, true_or, if_true] using hline
    obtain ⟨-, -, hchain⟩ := hlast.resolve_left hcb
    have hif : (fun S => price S (band :: cb)) =
        fun S => if band.sEnd ≤ S then price S cb else band.m * S + band.b := by
      funext S
      rw [price]
      by_cases hS : S < band.sEnd
      · rw [if_pos (.inr hS), if_neg (not_le.mpr hS)]
      · rw [if_neg (by simp [hcb, hS]), if_pos (not_lt.mp hS)]
    rw [hif]
    -- the two lines meet where the band ends
    refine Continuous.if_le (ih hchain) hline continuous_const continuous_id fun S hS => ?_
    rw [← hS, price_start hchain]

/-! ## Minting -/

/-- The quadratic in a rising band, and the quotient in a level one, take the credit exactly. -/
theorem integrateBand_solved {m b : ℝ} (hm : m = 0 ∨ 1 / 10 ^ 30 < m) (hP : 0 < m * supply + b)
    (hrem : 0 ≤ rem) :
    ∃ ds, (if 1 / 10 ^ 30 < m then (-(m * supply + b) + Real.sqrt ((m * supply + b) * (m * supply + b)
        + 2 * m * rem)) / m else rem / b) = ds ∧
      0 ≤ ds ∧ integrateBand supply (supply + ds) m b = rem := by
  refine ⟨_, rfl, ?_⟩
  rcases hm with rfl | hm
  · have hb : 0 < b := by linarith
    rw [if_neg (by norm_num)]
    refine ⟨div_nonneg hrem hb.le, ?_⟩
    unfold integrateBand
    field_simp
    ring
  · have hpos : 0 < m := lt_trans (by positivity) hm
    have hrad : 0 ≤ (m * supply + b) * (m * supply + b) + 2 * m * rem := by positivity
    rw [if_pos hm]
    have hsq := Real.mul_self_sqrt hrad
    have hle : m * supply + b ≤ Real.sqrt ((m * supply + b) * (m * supply + b) + 2 * m * rem) :=
      Real.le_sqrt_of_sq_le (by nlinarith [mul_nonneg hpos.le hrem])
    generalize Real.sqrt ((m * supply + b) * (m * supply + b) + 2 * m * rem) = r at hsq hle
    refine ⟨div_nonneg (by linarith) hpos.le, ?_⟩
    unfold integrateBand
    field_simp
    linear_combination hsq

/-- `supply` is in the first of the bands, from where the loop goes on: what is minted stays within
    `maxSupply` and costs no more than what is left of the credit. -/
theorem mintLoop_cost (h : Chain maxSupply s p cb) (hp : 0 < p) (hs : s ≤ supply)
    (hsupply : supply ≤ maxSupply) (hend : ∀ band ∈ cb.head?, cb.tail.isEmpty ∨ supply ≤ band.sEnd)
    (hrem : 0 ≤ rem) (minted : ℝ) :
    ∃ δ, mintLoop Real.sqrt maxSupply cb rem minted supply = minted + δ ∧ 0 ≤ δ ∧
      supply + δ ≤ maxSupply ∧ cost s cb (supply + δ) - cost s cb supply ≤ rem := by
  induction cb generalizing s p rem minted supply with
  | nil => exact absurd h id
  | cons band cb ih =>
    have hband := h
    obtain ⟨-, hprice, hm, hlast⟩ := h
    have hend' : cb.isEmpty ∨ supply ≤ band.sEnd := hend band rfl
    rw [mintLoop]
    by_cases hguard : 1 / 10 ^ 15 < rem
    swap
    · rw [if_neg hguard]
      exact ⟨0, (add_zero _).symm, le_rfl, by linarith, by rw [add_zero, sub_self]; exact hrem⟩
    rw [if_pos hguard]
    dsimp only
    generalize hcap : (if cb.isEmpty = true then maxSupply else band.sEnd) = cap
    have hle : supply ≤ cap := by
      rw [← hcap]
      split
      · exact hsupply
      · next hcb => exact hend'.resolve_left hcb
    have hcapMax : cap ≤ maxSupply := by
      rw [← hcap]
      split
      · exact le_rfl
      · next hcb => exact (hlast.resolve_left hcb).2.1
    have hsum : supply + (cap - supply) = cap := by ring
    -- within the band the cost is that of the band
    have hwithin : ∀ {x}, x ≤ cap → cost s (band :: cb) x = integrateBand s x band.m band.b := by
      intro x hx
      rw [← hcap] at hx
      rw [cost, if_pos]
      by_cases hcb : cb.isEmpty = true
      · exact .inl hcb
      · rw [if_neg hcb] at hx
        exact .inr hx
    rw [hsum]
    have hP : 0 < band.m * supply + band.b := lt_of_lt_of_le hp (Chain.next_price hprice hm hs)
    split
    · obtain ⟨ds, hds, hnonneg, hsolved⟩ := integrateBand_solved hm hP hrem
      refine ⟨min ds (cap - supply), by rw [hds], le_min hnonneg (by linarith), ?_, ?_⟩
      · linarith [min_le_right ds (cap - supply)]
      have hmono := integrateBand_mono (slope_nonneg hm) hP.le
        (by linarith [le_min hnonneg (show 0 ≤ cap - supply by linarith)])
        (add_le_add_right (min_le_left ds (cap - supply)) supply)
      have hadd := integrateBand_add s supply (supply + min ds (cap - supply)) band.m band.b
      rw [hwithin (by linarith [min_le_right ds (cap - supply)]), hwithin hle]
      linarith
    · next hcost =>
      have hadd := integrateBand_add s supply cap band.m band.b
      by_cases hcb : cb.isEmpty = true
      · have hnil : cb = [] := isEmpty_iff.mp hcb
        refine ⟨cap - supply, by rw [hnil, mintLoop], by linarith, by linarith, ?_⟩
        rw [hsum, hwithin le_rfl, hwithin hle]
        linarith
      obtain ⟨hse, hmax, hchain⟩ := hlast.resolve_left hcb
      rw [if_neg hcb] at hcap
      subst hcap
      have hhead : ∀ band' ∈ cb.head?, cb.tail.isEmpty ∨ band.sEnd ≤ band'.sEnd := by
        intro band' hmem
        obtain ⟨rest, rfl⟩ : ∃ rest, cb = band' :: rest := head?_eq_some_iff.mp hmem
        exact hchain.2.2.2.imp_right And.left
      obtain ⟨δ, hδ, hnonneg, hbound, hrest⟩ := ih hchain
        (lt_of_lt_of_le hp (Chain.next_price hprice hm hse)) le_rfl hmax hhead
        (sub_nonneg.mpr (not_le.mp hcost).le) (minted + (band.sEnd - supply))
      have hto : supply + (band.sEnd - supply + δ) = band.sEnd + δ := by ring
      refine ⟨band.sEnd - supply + δ, by rw [hδ]; ring, by linarith, by linarith, ?_⟩
      rw [hto, cost_cons hband hcb (by linarith), hwithin hle]
      rw [cost_self hchain] at hrest
      linarith

/-- Minting starts in the band of the supply. -/
theorem mintLoop_drop (h : Chain maxSupply s p cb) (hp : 0 < p) (hs : s ≤ S) (hS : S ≤ maxSupply)
    (hrem : 0 ≤ rem) :
    ∃ δ, mintLoop Real.sqrt maxSupply (cb.drop (findBand S cb)) rem 0 S = δ ∧ 0 ≤ δ ∧
      S + δ ≤ maxSupply ∧ cost s cb (S + δ) - cost s cb S ≤ rem := by
  have hfirst : ∀ {s p} {cb : List (ComputedBand ℝ)}, Chain maxSupply s p cb → 0 < p → s ≤ S →
      (∀ band ∈ cb.head?, cb.tail.isEmpty ∨ S ≤ band.sEnd) →
      ∃ δ, mintLoop Real.sqrt maxSupply cb rem 0 S = δ ∧ 0 ≤ δ ∧
        S + δ ≤ maxSupply ∧ cost s cb (S + δ) - cost s cb S ≤ rem := by
    intro s p cb h hp hs hend
    obtain ⟨δ, hδ, hrest⟩ := mintLoop_cost h hp hs hS hend hrem 0
    exact ⟨δ, by rw [hδ, zero_add], hrest⟩
  induction cb generalizing s p with
  | nil => exact absurd h id
  | cons band cb ih =>
    cases cb with
    | nil => exact hfirst h hp hs fun _ _ => .inl rfl
    | cons band' cb =>
      have hfind : findBand S (band :: band' :: cb) =
          if S < band.sEnd then 0 else findBand S (band' :: cb) + 1 := rfl
      rw [hfind]
      split
      · next hlt => exact hfirst h hp hs fun b hb => .inr (Option.some.inj hb ▸ hlt.le)
      next hge =>
      obtain ⟨-, hprice, hm, hlast⟩ := id h
      obtain ⟨hse, -, hchain⟩ := hlast.resolve_left Bool.false_ne_true
      have hge := not_lt.mp hge
      obtain ⟨δ, hδ, hnonneg, hbound, hrest⟩ := ih hchain
        (lt_of_lt_of_le hp (Chain.next_price hprice hm hse)) hge
      refine ⟨δ, hδ, hnonneg, hbound, ?_⟩
      rw [cost_cons h Bool.false_ne_true (by linarith), cost_cons h Bool.false_ne_true hge]
      linarith

/-- A credit mints a supply that stays within `maxSupply` and costs no more than the credit. -/
theorem curveMint_cost (h : Chain maxSupply s p cb) (hp : 0 < p) (hs : s ≤ S) (hS : S ≤ maxSupply)
    {credit : ℝ} (hcredit : 0 ≤ credit) :
    ∃ δ, curveMint Real.sqrt credit S maxSupply cb = some δ ∧ 0 ≤ δ ∧ S + δ ≤ maxSupply ∧
      cost s cb (S + δ) - cost s cb S ≤ credit := by
  obtain ⟨δ, hδ, hnonneg, hbound, hcost⟩ := mintLoop_drop h hp hs hS hcredit
  have hne : ¬(cb.isEmpty = true ∧ 1 / 10 ^ 15 < credit) := by
    rintro ⟨hnil, -⟩
    rw [isEmpty_iff.mp hnil] at h
    exact h
  have hfloor : ((⌊δ⌋) : ℝ) ≤ δ := Int.floor_le δ
  have hfloor0 : (0 : ℝ) ≤ (⌊δ⌋) := Int.cast_nonneg (Int.floor_nonneg.mpr hnonneg)
  have hmono := cost_mono h hp.le (x := S + (⌊δ⌋)) (y := S + δ) (by linarith) (by linarith)
  refine ⟨(⌊δ⌋), ?_, hfloor0, by linarith, by linarith⟩
  rw [curveMint, if_neg hne, hδ]

/-! ## The bands of the parameters -/

/-- Increasing ends, all but the last within `maxSupply`, and slopes that the code tells from zero. -/
def BandsFrom (maxSupply : ℝ) : ℝ → List (Band ℝ) → Prop
  | _, [] => False
  | s, band :: bands =>
    (band.slope = 0 ∨ 1 / 10 ^ 30 < band.slope) ∧
      (bands = [] ∨ s ≤ band.sEnd ∧ band.sEnd ≤ maxSupply ∧ BandsFrom maxSupply band.sEnd bands)

theorem chain_computeBandsFrom {bands : List (Band ℝ)} {slope b : ℝ}
    (h : BandsFrom maxSupply s bands) :
    Chain maxSupply s (slope * s + b) (computeBandsFrom s slope b bands) := by
  induction bands generalizing s slope b with
  | nil => exact absurd h id
  | cons band bands ih =>
    obtain ⟨hslope, hrest⟩ := h
    refine ⟨rfl, by ring, hslope, ?_⟩
    rcases hrest with rfl | ⟨hse, hmax, hrest⟩
    · exact .inl rfl
    · exact .inr ⟨hse, hmax, ih hrest⟩

theorem chain_computeBands {bands : List (Band ℝ)} {initPrice : ℝ} (h : BandsFrom maxSupply 0 bands) :
    Chain maxSupply 0 initPrice (computeBands initPrice bands) := by
  cases bands with
  | nil => exact absurd h id
  | cons band bands =>
    obtain ⟨hslope, hrest⟩ := h
    refine ⟨rfl, by ring, hslope, ?_⟩
    rcases hrest with rfl | ⟨hse, hmax, hrest⟩
    · exact .inl rfl
    · exact .inr ⟨hse, hmax, chain_computeBandsFrom hrest⟩

end Curve

/-! ## The state -/

section State
variable {K : Type}

inductive LogType where
  | buy
  | sell
  | grad
  | info
deriving DecidableEq

/-- The text of a log entry, by the numbers it shows. -/
inductive Message (K : Type) where
  | graduated (block : Nat) (reserveUsd finalPrice : K)
  | buyFailed (gross : K)
  | buy (minted gross reserveCredit treasuryCredit : K)
  | sellingDisabled
  | insufficientBalance
  | sellAborted
  | sell (cbeIn funded burned : K)

structure LogEntry (K : Type) where
  type : LogType
  msg : Message K
  block : Nat

structure SimState (K : Type) where
  circulatingSupply : K
  burnedSupply : K
  reserveSov : K
  treasuryLockedSov : K
  treasuryFreeSov : K
  graduated : Bool
  block : Nat
  txnCount : Nat
  totalSovIn : K
  ammCbe : K
  ammSov : K
  ammK : K
  priceHistory : List (Nat × K)
  log : List (LogEntry K)

inductive BurnMode where
  | full
  | partly
deriving DecidableEq

inductive OracleMode where
  | genesis
  | derived
deriving DecidableEq

structure Settings (K : Type) where
  reserveRatio : K
  gradThreshold : K
  burnMode : BurnMode
  burnBeta : K
  sellEnabled : Bool
  oracleMode : OracleMode
  extCbeUsd : K
  srvGenesis : K

structure CurveParams (K : Type) where
  bands : List (Band K)
  maxSupply : K
  initPrice : K

variable [Field K] [LinearOrder K]

def INIT : SimState K where
  circulatingSupply := 0
  burnedSupply := 0
  reserveSov := 0
  treasuryLockedSov := 0
  treasuryFreeSov := 0
  graduated := false
  block := 0
  txnCount := 0
  totalSovIn := 0
  ammCbe := 0
  ammSov := 0
  ammK := 0
  priceHistory := []
  log := []

def CurveParams.cb (C : CurveParams K) : List (ComputedBand K) := computeBands C.initPrice C.bands

/-- What the simulator starts with. -/
def startParams : CurveParams K where
  bands := DEFAULT_BANDS
  maxSupply := 100000000000
  initPrice := 3133457 / 10 ^ 10

def startSettings : Settings K where
  reserveRatio := 1 / 5
  gradThreshold := 269000
  burnMode := .full
  burnBeta := 1
  sellEnabled := true
  oracleMode := .genesis
  extCbeUsd := 1 / 100
  srvGenesis := 1

/-! ## The buttons -/

def getSovUsd (C : CurveParams K) (T : Settings K) (s : SimState K) : Option K :=
  if s.graduated ∨ T.oracleMode = .derived then
    let cbeSov := if s.graduated then some (s.ammSov / s.ammCbe)
      else marginalPrice s.circulatingSupply C.cb
    cbeSov.map fun cbeSov =>
      if 0 < cbeSov ∧ 0 < T.extCbeUsd then T.extCbeUsd / cbeSov else T.srvGenesis
  else some T.srvGenesis

def appendLog (s : SimState K) (type : LogType) (msg : Message K) : List (LogEntry K) :=
  ⟨type, msg, s.block⟩ :: s.log.take 49

def checkGraduation (C : CurveParams K) (T : Settings K) (s : SimState K) : Option (SimState K) :=
  if s.graduated then some s
  else do
    let reserveUsd := s.reserveSov * (← getSovUsd C T s)
    if reserveUsd < T.gradThreshold then some s
    else
      let finalPrice ← marginalPrice s.circulatingSupply C.cb
      let ammSov := s.reserveSov
      let ammCbe := if 0 < finalPrice then ammSov / finalPrice else 0
      some { s with
        graduated := true
        ammSov := ammSov
        ammCbe := ammCbe
        ammK := ammSov * ammCbe
        reserveSov := 0
        treasuryFreeSov := s.treasuryFreeSov + s.treasuryLockedSov
        treasuryLockedSov := 0
        log := appendLog s .grad (.graduated s.block reserveUsd finalPrice) }

/-- The new state of a purchase or a sale, with its price and its only log entry. -/
def recorded (C : CurveParams K) (prev next : SimState K) (type : LogType) (msg : Message K) :
    Option (SimState K) := do
  let price ← marginalPrice next.circulatingSupply C.cb
  some { next with
    priceHistory := prev.priceHistory ++ [(next.block, price)]
    log := appendLog { next with log := [] } type msg }

variable [FloorRing K] (sqrt : K → K) (C : CurveParams K) (T : Settings K)

/-- `none` where the update throws. -/
def executeBuy (gross : K) (prev : SimState K) : Option (SimState K) :=
  if gross ≤ 0 then some prev
  else if prev.graduated then some prev
  else do
    let reserveCredit := T.reserveRatio * gross
    let treasuryCredit := (1 - T.reserveRatio) * gross
    let minted ← curveMint sqrt reserveCredit prev.circulatingSupply C.maxSupply C.cb
    if minted ≤ 0 then some { prev with log := appendLog prev .info (.buyFailed gross) }
    else
      let next ← recorded C prev { prev with
        circulatingSupply := prev.circulatingSupply + minted
        reserveSov := prev.reserveSov + reserveCredit
        treasuryLockedSov := prev.treasuryLockedSov + treasuryCredit
        totalSovIn := prev.totalSovIn + gross
        txnCount := prev.txnCount + 1
        block := prev.block + 1 } .buy (.buy minted gross reserveCredit treasuryCredit)
      checkGraduation C T next

def executeSell (cbeIn : K) (prev : SimState K) : Option (SimState K) :=
  if cbeIn ≤ 0 then some prev
  else if prev.graduated ∨ ¬T.sellEnabled then
    some { prev with log := appendLog prev .info .sellingDisabled }
  else if prev.circulatingSupply < cbeIn then
    some { prev with log := appendLog prev .info .insufficientBalance }
  else
    let newSupply := prev.circulatingSupply - cbeIn
    let redemption := integrateCurve newSupply prev.circulatingSupply C.cb
    let fromReserve := min redemption prev.reserveSov
    let fromTreasury := min (redemption - fromReserve) prev.treasuryLockedSov
    let funded := fromReserve + fromTreasury
    if funded < redemption * (999 / 1000) then
      some { prev with log := appendLog prev .info .sellAborted }
    else
      let beta := if T.burnMode = .full then 1 else T.burnBeta
      let burned : K := (⌊cbeIn * beta⌋ : Int)
      recorded C prev { prev with
        circulatingSupply := newSupply
        burnedSupply := prev.burnedSupply + burned
        reserveSov := prev.reserveSov - fromReserve
        treasuryLockedSov := prev.treasuryLockedSov - fromTreasury
        txnCount := prev.txnCount + 1
        block := prev.block + 1 } .sell (.sell cbeIn funded burned)

inductive Press (K : Type) where
  | buy (T : Settings K) (gross : K)
  | sell (T : Settings K) (cbeIn : K)

def press (prev : SimState K) : Press K → Option (SimState K)
  | .buy T gross => executeBuy sqrt C T gross prev
  | .sell T cbeIn => executeSell C T cbeIn prev

/-- The state after the presses, from the empty one -/
def run (presses : List (Press K)) : Option (SimState K) := presses.foldlM (press sqrt C) INIT

end State

/-! ## Solvency -/

/-- The parameters of a curve: its price starts above zero, its slopes are told from zero, and its bands end
    one after the other, all but the last between 0 and `maxSupply`. -/
structure CurveParams.Valid (C : CurveParams ℝ) : Prop where
  ne_nil : C.bands ≠ []
  increasing : (C.bands.map Band.sEnd).Pairwise (· < ·)
  slopes : ∀ band ∈ C.bands, band.slope = 0 ∨ 1 / 10 ^ 30 < band.slope
  initPrice_pos : 0 < C.initPrice
  ends : ∀ band ∈ C.bands.dropLast, 0 ≤ band.sEnd ∧ band.sEnd < C.maxSupply
  maxSupply_nonneg : 0 ≤ C.maxSupply

/-- Presses of positive amounts, with a reserve ratio between 0 and 1 -/
def Press.Allowed : Press ℝ → Prop
  | .buy T gross => 0 ≤ T.reserveRatio ∧ T.reserveRatio ≤ 1 ∧ 0 < gross
  | .sell _ cbeIn => 0 < cbeIn

/-- The reserve covers what the supply costs, and the treasury is no debt. -/
structure Backed (C : CurveParams ℝ) (s : SimState ℝ) : Prop where
  reserve : cost 0 C.cb s.circulatingSupply ≤ s.reserveSov
  supply_nonneg : 0 ≤ s.circulatingSupply
  supply_le : s.circulatingSupply ≤ C.maxSupply
  treasury : 0 ≤ s.treasuryLockedSov

variable {C : CurveParams ℝ} {T : Settings ℝ} {s prev next s' : SimState ℝ} {x : ℝ}

theorem bandsFrom_of_ends {maxSupply start : ℝ} {bands : List (Band ℝ)} (hne : bands ≠ [])
    (hinc : (start :: bands.dropLast.map Band.sEnd).Pairwise (· ≤ ·))
    (hslopes : ∀ band ∈ bands, band.slope = 0 ∨ 1 / 10 ^ 30 < band.slope)
    (hends : ∀ band ∈ bands.dropLast, band.sEnd ≤ maxSupply) : BandsFrom maxSupply start bands := by
  induction bands generalizing start with
  | nil => exact absurd rfl hne
  | cons band bands ih =>
    refine ⟨hslopes band mem_cons_self, ?_⟩
    cases bands with
    | nil => exact .inl rfl
    | cons band' bands =>
      rw [dropLast_cons_cons] at hinc
      rw [dropLast_cons_cons, forall_mem_cons] at hends
      exact .inr ⟨rel_of_pairwise_cons hinc mem_cons_self, hends.1,
        ih (cons_ne_nil _ _) hinc.of_cons (fun b hb => hslopes b (mem_cons_of_mem _ hb)) hends.2⟩

theorem CurveParams.Valid.chain (h : C.Valid) : Chain C.maxSupply 0 C.initPrice C.cb := by
  refine chain_computeBands (bandsFrom_of_ends h.ne_nil ?_ h.slopes fun b hb => (h.ends b hb).2.le)
  refine pairwise_cons.mpr ⟨fun e he => ?_, ?_⟩
  · obtain ⟨b, hb, rfl⟩ := mem_map.mp he
    exact (h.ends b hb).1
  · exact (h.increasing.sublist ((dropLast_sublist _).map _)).imp le_of_lt

theorem cb_ne_nil (h : C.Valid) : C.cb ≠ [] := by
  intro hnil
  have := h.chain
  rw [hnil] at this
  exact this

theorem backed_init (h : C.Valid) : Backed C INIT :=
  ⟨(cost_self h.chain).le, le_rfl, h.maxSupply_nonneg, le_rfl⟩

theorem recorded_eq (h : C.Valid) (prev next : SimState ℝ) (type : LogType) (msg : Message ℝ) :
    ∃ history log, recorded C prev next type msg
      = some { next with priceHistory := history, log := log } := by
  rw [recorded, marginalPrice_eq _ (cb_ne_nil h)]
  exact ⟨_, _, rfl⟩

theorem getSovUsd_eq (h : C.Valid) (T : Settings ℝ) (s : SimState ℝ) :
    ∃ usd, getSovUsd C T s = some usd := by
  unfold getSovUsd
  rw [marginalPrice_eq _ (cb_ne_nil h)]
  split_ifs <;> exact ⟨_, rfl⟩

theorem checkGraduation_eq (h : C.Valid) (T : Settings ℝ) (s : SimState ℝ) :
    ∃ s', checkGraduation C T s = some s' ∧ (s' = s ∨ s'.graduated = true) := by
  obtain ⟨usd, husd⟩ := getSovUsd_eq h T s
  unfold checkGraduation
  rw [husd, marginalPrice_eq _ (cb_ne_nil h)]
  simp only [bind_eq_bind, bind_some]
  split
  · exact ⟨s, rfl, .inl rfl⟩
  split
  · exact ⟨s, rfl, .inl rfl⟩
  · exact ⟨_, rfl, .inr rfl⟩

/-- Nothing is bought, or the state is backed when it is decided whether the curve graduates. -/
theorem executeBuy_cases (h : C.Valid) (hback : Backed C prev) (hg : prev.graduated = false) {gross : ℝ}
    (hallowed : (Press.buy T gross).Allowed) :
    (∃ log, executeBuy Real.sqrt C T gross prev = some { prev with log := log }) ∨
    ∃ next, Backed C next ∧ 0 < next.circulatingSupply ∧ next.graduated = false ∧
      executeBuy Real.sqrt C T gross prev = checkGraduation C T next := by
  obtain ⟨hratio, hratio1, hgross⟩ := hallowed
  have hcredit : 0 ≤ T.reserveRatio * gross := mul_nonneg hratio hgross.le
  have htreasury : 0 ≤ (1 - T.reserveRatio) * gross := mul_nonneg (by linarith) hgross.le
  obtain ⟨minted, hmint, hnonneg, hbound, hcost⟩ := curveMint_cost h.chain h.initPrice_pos
    hback.supply_nonneg hback.supply_le hcredit
  rw [executeBuy, if_neg (not_le.mpr hgross), if_neg (by simp [hg])]
  simp only [hmint, bind_eq_bind, bind_some]
  split_ifs with hzero
  · exact .inl ⟨_, rfl⟩
  generalize hnext : recorded C prev _ _ _ = r
  obtain ⟨history, log, hrec⟩ := hnext ▸ recorded_eq h prev _ _ _
  rw [hrec, bind_some]
  refine .inr ⟨_, ⟨?_, ?_, ?_, ?_⟩, ?_, ?_, rfl⟩
  · linarith [hback.reserve]
  · exact add_nonneg hback.supply_nonneg hnonneg
  · exact hbound
  · exact add_nonneg hback.treasury htreasury
  · exact add_pos_of_nonneg_of_pos hback.supply_nonneg (not_le.mp hzero)
  · exact hg

/-- A purchase leaves the state backed, unless the curve graduates. -/
theorem executeBuy_backed (h : C.Valid) (hs : prev.graduated = true ∨ Backed C prev) {gross : ℝ}
    (hallowed : (Press.buy T gross).Allowed) :
    ∃ s', executeBuy Real.sqrt C T gross prev = some s' ∧ (s'.graduated = true ∨ Backed C s') := by
  cases hg : prev.graduated with
  | true =>
    rw [executeBuy, if_neg (not_le.mpr hallowed.2.2), if_pos hg]
    exact ⟨prev, rfl, .inl hg⟩
  | false =>
    have hback := hs.resolve_left (by simp [hg])
    obtain ⟨log, hbuy⟩ | ⟨next, hnext, -, -, hbuy⟩ := executeBuy_cases h hback hg hallowed
    · exact ⟨_, hbuy, .inr ⟨hback.reserve, hback.supply_nonneg, hback.supply_le, hback.treasury⟩⟩
    obtain ⟨s', hcheck, hs'⟩ := checkGraduation_eq h T next
    refine ⟨s', hbuy.trans hcheck, ?_⟩
    rcases hs' with rfl | hs'
    · exact .inr hnext
    · exact .inl hs'

/-- Nothing is sold, or the sale is paid from the reserve in full and from nothing else. -/
theorem executeSell_cases (h : C.Valid) (hs : Backed C prev) (hg : prev.graduated = false) (hx : 0 < x) :
    (T.sellEnabled = true ∧ x ≤ prev.circulatingSupply ∧ ∃ redemption burned history log,
        redemption = integrateCurve (prev.circulatingSupply - x) prev.circulatingSupply C.cb ∧
        0 ≤ redemption ∧ redemption ≤ prev.reserveSov ∧
        executeSell C T x prev = some { prev with
          circulatingSupply := prev.circulatingSupply - x
          burnedSupply := prev.burnedSupply + burned
          reserveSov := prev.reserveSov - redemption
          txnCount := prev.txnCount + 1
          block := prev.block + 1
          priceHistory := history
          log := log }) ∨
    ((T.sellEnabled = true → prev.circulatingSupply < x) ∧
      ∃ log, executeSell C T x prev = some { prev with log := log }) := by
  rw [executeSell, if_neg (not_le.mpr hx)]
  by_cases hsell : T.sellEnabled = true
  swap
  · rw [if_pos (.inr hsell)]
    exact .inr ⟨fun h => absurd h hsell, _, rfl⟩
  rw [if_neg (by simp [hg, hsell])]
  by_cases hlt : prev.circulatingSupply < x
  · rw [if_pos hlt]
    exact .inr ⟨fun _ => hlt, _, rfl⟩
  have hle := not_lt.mp hlt
  have hredemption := integrateCurve_eq h.chain (x := prev.circulatingSupply - x) (by linarith) (by linarith)
  have hmono := cost_mono h.chain h.initPrice_pos.le (x := prev.circulatingSupply - x)
    (y := prev.circulatingSupply) (by linarith) (by linarith)
  have hfloor := cost_nonneg h.chain h.initPrice_pos.le (x := prev.circulatingSupply - x) (by linarith)
  have hreserve := hs.reserve
  rw [if_neg hlt]
  dsimp only
  generalize integrateCurve (prev.circulatingSupply - x) prev.circulatingSupply C.cb = redemption
    at hredemption
  have hcovered : redemption ≤ prev.reserveSov := by linarith
  rw [min_eq_left hcovered, sub_self, min_eq_left hs.treasury, sub_zero, if_neg (by linarith)]
  generalize hnext : recorded C prev _ _ _ = r
  obtain ⟨history, log, hrec⟩ := hnext ▸ recorded_eq h prev _ _ _
  rw [hrec]
  exact .inl ⟨hsell, hle, redemption, _, history, log, rfl, by linarith, hcovered, rfl⟩

theorem executeSell_backed (h : C.Valid) (hs : prev.graduated = true ∨ Backed C prev)
    (hx : 0 < x) : ∃ s', executeSell C T x prev = some s' ∧ (s'.graduated = true ∨ Backed C s') := by
  cases hg : prev.graduated with
  | true =>
    rw [executeSell, if_neg (not_le.mpr hx), if_pos (.inl hg)]
    exact ⟨_, rfl, .inl hg⟩
  | false =>
    have hback := hs.resolve_left (by simp [hg])
    obtain ⟨-, hle, redemption, burned, history, log, hred, -, -, hsell⟩ | ⟨-, log, hsell⟩ :=
      executeSell_cases h hback hg hx
    · rw [hsell]
      refine ⟨_, rfl, .inr ⟨?_, sub_nonneg.mpr hle, ?_, hback.treasury⟩⟩
      · rw [integrateCurve_eq h.chain (sub_nonneg.mpr hle) (sub_le_self _ hx.le)] at hred
        have := hback.reserve
        dsimp only
        linarith
      · exact le_trans (sub_le_self _ hx.le) hback.supply_le
    · rw [hsell]
      exact ⟨_, rfl, .inr ⟨hback.reserve, hback.supply_nonneg, hback.supply_le, hback.treasury⟩⟩

theorem press_backed (h : C.Valid) (hs : prev.graduated = true ∨ Backed C prev) {p : Press ℝ}
    (hp : p.Allowed) : ∃ s', press Real.sqrt C prev p = some s' ∧ (s'.graduated = true ∨ Backed C s') := by
  cases p with
  | buy T gross => exact executeBuy_backed h hs hp
  | sell T x => exact executeSell_backed h hs hp

theorem run_backed (h : C.Valid) {presses : List (Press ℝ)} (hp : ∀ p ∈ presses, p.Allowed)
    (hs : prev.graduated = true ∨ Backed C prev) :
    ∃ s, presses.foldlM (press Real.sqrt C) prev = some s ∧ (s.graduated = true ∨ Backed C s) := by
  induction presses generalizing prev with
  | nil => exact ⟨prev, rfl, hs⟩
  | cons p presses ih =>
    obtain ⟨s', hpress, hs'⟩ := press_backed h hs (hp p mem_cons_self)
    rw [foldlM_cons, hpress]
    exact ih (fun q hq => hp q (mem_cons_of_mem _ hq)) hs'

/-- What a user may rely on before graduation: the reserve covers the integral of the curve up to the supply,
    the supply stays within its bounds, and every sale up to it is paid from the reserve in full. -/
structure Solvent (C : CurveParams ℝ) (s : SimState ℝ) : Prop where
  covered : integrateCurve 0 s.circulatingSupply C.cb ≤ s.reserveSov
  supply_nonneg : 0 ≤ s.circulatingSupply
  supply_le : s.circulatingSupply ≤ C.maxSupply
  funded : ∀ (T : Settings ℝ) (x : ℝ), T.sellEnabled = true → 0 < x → x ≤ s.circulatingSupply →
    ∃ s', executeSell C T x s = some s' ∧ s'.circulatingSupply = s.circulatingSupply - x ∧
      s'.reserveSov = s.reserveSov
        - integrateCurve (s.circulatingSupply - x) s.circulatingSupply C.cb ∧
      0 ≤ s'.reserveSov ∧ s'.treasuryLockedSov = s.treasuryLockedSov

theorem Backed.solvent (h : C.Valid) (hs : Backed C s) (hg : s.graduated = false) : Solvent C s where
  covered := by
    rw [integrateCurve_eq h.chain le_rfl hs.supply_nonneg, cost_self h.chain, sub_zero]
    exact hs.reserve
  supply_nonneg := hs.supply_nonneg
  supply_le := hs.supply_le
  funded := by
    intro T x hsell hx hle
    obtain ⟨-, -, redemption, burned, history, log, hred, -, hcovered, hok⟩ | ⟨hno, -⟩ :=
      executeSell_cases h hs hg hx
    · exact ⟨_, hok, rfl, by rw [hred], sub_nonneg.mpr hcovered, rfl⟩
    · exact absurd (hno hsell) (not_lt.mpr hle)

/-- Whatever is bought and sold from the empty state on, and whatever the settings are at each press, the
    presses go through, and as long as the curve has not graduated it is solvent. The marginal price is
    continuous, and the integral of the curve is additive. -/
theorem simulator_solvent (C : CurveParams ℝ) (hC : C.Valid) :
    (∀ presses : List (Press ℝ), (∀ p ∈ presses, p.Allowed) →
      ∃ s, run Real.sqrt C presses = some s ∧ (s.graduated = false → Solvent C s)) ∧
    (∃ price : ℝ → ℝ, Continuous price ∧ ∀ S, marginalPrice S C.cb = some (price S)) ∧
    ∀ a b c : ℝ, 0 ≤ a → a ≤ b → b ≤ c →
      integrateCurve a b C.cb + integrateCurve b c C.cb = integrateCurve a c C.cb := by
  refine ⟨fun presses hp => ?_, ?_, fun a b c ha hab hbc => ?_⟩
  · obtain ⟨s, hrun, hs⟩ := run_backed hC hp (.inr (backed_init hC))
    refine ⟨s, hrun, fun hg => ?_⟩
    exact (hs.resolve_left (by simp [hg])).solvent hC hg
  · exact ⟨_, continuous_price hC.chain, fun S => marginalPrice_eq S (cb_ne_nil hC)⟩
  · rw [integrateCurve_eq hC.chain ha hab, integrateCurve_eq hC.chain (le_trans ha hab) hbc,
      integrateCurve_eq hC.chain ha (le_trans hab hbc)]
    ring

theorem startParams_valid : (startParams : CurveParams ℝ).Valid where
  ne_nil := cons_ne_nil _ _
  increasing := by norm_num [startParams, DEFAULT_BANDS]
  slopes := by norm_num [startParams, DEFAULT_BANDS]
  initPrice_pos := by norm_num [startParams]
  ends := by norm_num [startParams, DEFAULT_BANDS]
  maxSupply_nonneg := by norm_num [startParams]

theorem simulator_solvent_start :
    ∃ s, run Real.sqrt startParams [.buy startSettings 1000, .sell startSettings 10] = some s ∧
      (s.graduated = false → Solvent startParams s) :=
  (simulator_solvent startParams startParams_valid).1 _ (by norm_num [Press.Allowed, startSettings])

/-- A first band that ends below zero, so that the curve starts at a price of -1. -/
def belowZero : CurveParams ℝ := ⟨[⟨-1, 3⟩, ⟨10, 1⟩], 100, 1⟩

theorem cb_belowZero : belowZero.cb = [⟨0, -1, 3, 1⟩, ⟨-1, 10, 1, -1⟩] := by
  norm_num [belowZero, CurveParams.cb, computeBands, computeBandsFrom]

theorem run_belowZero :
    ∃ s, run Real.sqrt belowZero [.buy { startSettings with reserveRatio := 1 } 4] = some s ∧
      s.graduated = false ∧ s.circulatingSupply = 4 ∧ s.reserveSov = 4 := by
  have hsqrt : Real.sqrt 9 = 3 := by
    rw [show (9 : ℝ) = 3 * 3 by norm_num, Real.sqrt_mul_self (by norm_num)]
  have hmint : curveMint Real.sqrt 4 0 belowZero.maxSupply belowZero.cb = some 4 := by
    rw [cb_belowZero]
    norm_num [curveMint, findBand, mintLoop, integrateBand, belowZero, hsqrt]
  have hprice : marginalPrice 4 belowZero.cb = some 3 := by
    rw [cb_belowZero]
    norm_num [marginalPrice, findBand]
  have hmode : ¬OracleMode.genesis = .derived := by decide
  norm_num [run, press, executeBuy, INIT, startSettings, hmint, recorded, hprice, checkGraduation, getSovUsd,
    hmode]

/-- Without the bounds a curve need not be solvent: one band below a negative `maxSupply`, and two of which
    the first ends below zero, where 4 are sold for 4, and 3 of them are worth more than that. Without any
    band there is no price. -/
theorem simulator_insolvent :
    ¬Solvent ⟨[⟨10, 0⟩], -1, 1⟩ INIT ∧
    (∃ s, run Real.sqrt belowZero [.buy { startSettings with reserveRatio := 1 } 4] = some s ∧
      s.graduated = false ∧ ¬Solvent belowZero s) ∧
    marginalPrice (0 : ℝ) (computeBands 1 []) = none := by
  refine ⟨fun h => ?_, ?_, rfl⟩
  · have := h.supply_le
    norm_num [INIT] at this
  · obtain ⟨s, hrun, hg, hcirc, hres⟩ := run_belowZero
    refine ⟨s, hrun, hg, fun h => ?_⟩
    obtain ⟨s', -, -, hpaid, hnonneg, -⟩ := h.funded startSettings 3 rfl (by norm_num) (by norm_num [hcirc])
    have hredeem : integrateCurve (4 - 3) 4 belowZero.cb = 9 / 2 := by
      rw [cb_belowZero]
      norm_num [integrateCurve, integrateLoop, integrateBand]
    rw [hcirc, hredeem] at hpaid
    linarith

end Oracle
