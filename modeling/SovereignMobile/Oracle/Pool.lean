import SovereignMobile.Oracle.Simulator

/-! # The pool of a graduated curve

`executeSwap` of `SimulatorTab.tsx` trades against the pool that the graduation has seeded, and `reset`
begins again. The log entries of the two are left out. -/

namespace Oracle

open List Option

section Swap
variable {K : Type}

inductive SwapDir where
  | sov2cbe
  | cbe2sov
deriving DecidableEq

variable [Field K] [LinearOrder K]

/-- The state after a swap, with its price -/
def swapped (prev : SimState K) (newSov newCbe : K) : SimState K :=
  { prev with
    ammSov := newSov
    ammCbe := newCbe
    txnCount := prev.txnCount + 1
    block := prev.block + 1
    priceHistory := prev.priceHistory ++ [(prev.block + 1, newSov / newCbe)] }

def executeSwap (ammFee : K) (swapDir : SwapDir) (amt : K) (prev : SimState K) : SimState K :=
  if amt ≤ 0 then prev
  else if ¬prev.graduated then prev
  else
    let effIn := amt * (1 - ammFee)
    match swapDir with
    | .sov2cbe =>
      let newSov := prev.ammSov + effIn
      let newCbe := prev.ammK / newSov
      if prev.ammCbe - newCbe ≤ 0 then prev else swapped prev newSov newCbe
    | .cbe2sov =>
      let newCbe := prev.ammCbe + effIn
      let newSov := prev.ammK / newCbe
      if prev.ammSov - newSov ≤ 0 then prev else swapped prev newSov newCbe

inductive Button (K : Type) where
  | trade (p : Press K)
  | swap (ammFee : K) (swapDir : SwapDir) (amt : K)
  | reset

variable [FloorRing K] (sqrt : K → K) (C : CurveParams K)

def push (prev : SimState K) : Button K → Option (SimState K)
  | .trade p => press sqrt C prev p
  | .swap ammFee swapDir amt => some (executeSwap ammFee swapDir amt prev)
  | .reset => some INIT

/-- The state after the buttons, from the empty one -/
def session (buttons : List (Button K)) : Option (SimState K) := buttons.foldlM (push sqrt C) INIT

end Swap

variable {C : CurveParams ℝ} {T : Settings ℝ} {s s' prev : SimState ℝ} {fee amt : ℝ}

/-! ## The pool -/

/-- A pool with both sides, on its hyperbola -/
structure Pool (s : SimState ℝ) : Prop where
  graduated : s.graduated = true
  sov_pos : 0 < s.ammSov
  cbe_pos : 0 < s.ammCbe
  product : s.ammSov * s.ammCbe = s.ammK
  reserve : s.reserveSov = 0
  treasury : s.treasuryLockedSov = 0

theorem price_pos {maxSupply start p x : ℝ} {cb : List (ComputedBand ℝ)} (h : Chain maxSupply start p cb)
    (hp : 0 < p) (hx : start ≤ x) : 0 < price x cb := by
  induction cb generalizing start p with
  | nil => exact absurd h id
  | cons band cb ih =>
    obtain ⟨-, hprice, hm, hlast⟩ := h
    rw [price]
    split
    · exact lt_of_lt_of_le hp (Chain.next_price hprice hm hx)
    next hnot =>
    obtain ⟨hcb, hlt⟩ := not_or.mp hnot
    obtain ⟨hse, -, hchain⟩ := hlast.resolve_left hcb
    exact ih hchain (lt_of_lt_of_le hp (Chain.next_price hprice hm hse)) (not_lt.mp hlt)

/-- The supply costs at least its price at the start. -/
theorem le_cost {maxSupply start p x : ℝ} {cb : List (ComputedBand ℝ)} (h : Chain maxSupply start p cb)
    (hp : 0 < p) (hx : start ≤ x) : p * (x - start) ≤ cost start cb x := by
  induction cb generalizing start p with
  | nil => exact absurd h id
  | cons band cb ih =>
    have hband := h
    obtain ⟨-, hprice, hm, hlast⟩ := h
    have hle : ∀ {e}, start ≤ e → p * (e - start) ≤ integrateBand start e band.m band.b := by
      intro e he
      have hsq := mul_nonneg (slope_nonneg hm) (mul_self_nonneg (e - start))
      rw [integrateBand, ← hprice]
      linarith
    by_cases hcb : cb.isEmpty = true
    · rw [cost, if_pos (.inl hcb)]
      exact hle hx
    obtain ⟨hse, -, hchain⟩ := hlast.resolve_left hcb
    rcases le_total x band.sEnd with hxe | hxe
    · rw [cost, if_pos (.inr hxe)]
      exact hle hx
    have hnext := Chain.next_price hprice hm hse
    have hrest := ih hchain (lt_of_lt_of_le hp hnext) hxe
    have hmore := mul_le_mul_of_nonneg_right hnext (sub_nonneg.mpr hxe)
    rw [cost_cons hband hcb hxe]
    linarith [hle hse]

/-- The graduation leaves a pool with both sides. -/
theorem checkGraduation_pool (h : C.Valid) (hs : Backed C prev) (hpos : 0 < prev.circulatingSupply)
    (hcheck : checkGraduation C T prev = some s') : s' = prev ∨ Pool s' := by
  obtain ⟨usd, husd⟩ := getSovUsd_eq h T prev
  have hprice := price_pos h.chain h.initPrice_pos hs.supply_nonneg
  have hreserve : 0 < prev.reserveSov := by
    have hcost := le_cost h.chain h.initPrice_pos hs.supply_nonneg
    rw [sub_zero] at hcost
    linarith [hs.reserve, mul_pos h.initPrice_pos hpos]
  unfold checkGraduation at hcheck
  rw [husd, marginalPrice_eq _ (cb_ne_nil h)] at hcheck
  simp only [bind_eq_bind, bind_some] at hcheck
  split at hcheck
  · exact .inl (Option.some.inj hcheck).symm
  split at hcheck
  · exact .inl (Option.some.inj hcheck).symm
  obtain rfl := Option.some.inj hcheck
  exact .inr ⟨rfl, hreserve, div_pos hreserve hprice, rfl, rfl, rfl⟩

/-- A swap changes nothing, or it moves the pool along its hyperbola: what is paid in, less the fee, is added
    to the one side, and the other pays out. -/
theorem executeSwap_cases (h : Pool s) (hfee : fee ≤ 1) (dir : SwapDir) (amt : ℝ) :
    executeSwap fee dir amt s = s ∨
    ∃ newSov newCbe, executeSwap fee dir amt s = swapped s newSov newCbe ∧
      0 < newSov ∧ 0 < newCbe ∧ newSov * newCbe = s.ammK ∧
      match dir with
      | .sov2cbe => newSov - s.ammSov = amt * (1 - fee)
      | .cbe2sov => newCbe - s.ammCbe = amt * (1 - fee) := by
  have hK : 0 < s.ammK := h.product ▸ mul_pos h.sov_pos h.cbe_pos
  by_cases hamt : amt ≤ 0
  · exact .inl (if_pos hamt)
  have hin : 0 ≤ amt * (1 - fee) := mul_nonneg (not_le.mp hamt).le (sub_nonneg.mpr hfee)
  rw [executeSwap, if_neg hamt, if_neg (not_not_intro h.graduated)]
  cases dir with
  | sov2cbe =>
    have hnew := add_pos_of_pos_of_nonneg h.sov_pos hin
    dsimp only
    split_ifs
    · exact .inl rfl
    · exact .inr ⟨_, _, rfl, hnew, div_pos hK hnew, mul_div_cancel₀ _ hnew.ne', add_sub_cancel_left _ _⟩
  | cbe2sov =>
    have hnew := add_pos_of_pos_of_nonneg h.cbe_pos hin
    dsimp only
    split_ifs
    · exact .inl rfl
    · exact .inr ⟨_, _, rfl, div_pos hK hnew, hnew, div_mul_cancel₀ _ hnew.ne', add_sub_cancel_left _ _⟩

theorem Pool.swap (h : Pool s) (hfee : fee ≤ 1) (dir : SwapDir) (amt : ℝ) :
    Pool (executeSwap fee dir amt s) ∧ (executeSwap fee dir amt s).ammK = s.ammK := by
  obtain heq | ⟨newSov, newCbe, heq, hsov, hcbe, hprod, -⟩ := executeSwap_cases h hfee dir amt
  · rw [heq]
    exact ⟨h, rfl⟩
  · rw [heq]
    exact ⟨⟨h.graduated, hsov, hcbe, hprod, h.reserve, h.treasury⟩, rfl⟩

/-! ## Traders -/

structure Trade where
  ammFee : ℝ
  swapDir : SwapDir
  amt : ℝ

noncomputable def Trade.next (t : Trade) (s : SimState ℝ) : SimState ℝ :=
  executeSwap t.ammFee t.swapDir t.amt s

/-- What the swap brings the trader in SOV and in CBE, who pays the amount -/
noncomputable def Trade.gain (t : Trade) (s : SimState ℝ) : ℝ × ℝ :=
  if (t.next s).txnCount = s.txnCount then (0, 0)
  else match t.swapDir with
    | .sov2cbe => (-t.amt, s.ammCbe - (t.next s).ammCbe)
    | .cbe2sov => (s.ammSov - (t.next s).ammSov, -t.amt)

noncomputable def traded (s : SimState ℝ) (ts : List Trade) : SimState ℝ := ts.foldl (fun s t => t.next s) s

noncomputable def gains : SimState ℝ → List Trade → ℝ × ℝ
  | _, [] => (0, 0)
  | s, t :: ts => t.gain s + gains (t.next s) ts

/-- Positive amounts, and fees from nothing to all of them -/
def Fair (ts : List Trade) : Prop := ∀ t ∈ ts, 0 ≤ t.ammFee ∧ t.ammFee ≤ 1 ∧ 0 < t.amt

/-- What the trader gains, the pool loses. -/
theorem gain_le (h : Pool s) {t : Trade} (hfee : 0 ≤ t.ammFee) (hfee1 : t.ammFee ≤ 1) (hamt : 0 < t.amt) :
    (t.gain s).1 ≤ s.ammSov - (t.next s).ammSov ∧ (t.gain s).2 ≤ s.ammCbe - (t.next s).ammCbe := by
  have hpaid : t.amt * (1 - t.ammFee) ≤ t.amt := by linarith [mul_nonneg hamt.le hfee]
  rw [Trade.gain, Trade.next]
  obtain heq | ⟨newSov, newCbe, heq, -, -, -, hin⟩ := executeSwap_cases h hfee1 t.swapDir t.amt
  · rw [heq, if_pos rfl, sub_self, sub_self]
    exact ⟨le_rfl, le_rfl⟩
  rw [heq, if_neg (show (swapped s newSov newCbe).txnCount ≠ _ from Nat.succ_ne_self _)]
  cases hdir : t.swapDir with
  | sov2cbe =>
    rw [hdir] at hin
    exact ⟨neg_le.1 ((neg_sub _ _).trans_le (hin.trans_le hpaid)), le_rfl⟩
  | cbe2sov =>
    rw [hdir] at hin
    exact ⟨le_rfl, neg_le.1 ((neg_sub _ _).trans_le (hin.trans_le hpaid))⟩

theorem gains_le (h : Pool s) {ts : List Trade} (hts : Fair ts) :
    Pool (traded s ts) ∧ (traded s ts).ammK = s.ammK ∧ (gains s ts).1 ≤ s.ammSov - (traded s ts).ammSov ∧
      (gains s ts).2 ≤ s.ammCbe - (traded s ts).ammCbe := by
  induction ts generalizing s with
  | nil => exact ⟨h, rfl, (sub_self _).ge, (sub_self _).ge⟩
  | cons t ts ih =>
    obtain ⟨hfee, hfee1, hamt⟩ := hts t mem_cons_self
    obtain ⟨hpool, hK⟩ := h.swap hfee1 t.swapDir t.amt
    obtain ⟨hsov, hcbe⟩ := gain_le h hfee hfee1 hamt
    obtain ⟨hlast, hK', hsov', hcbe'⟩ := ih hpool fun t' ht' => hts t' (mem_cons_of_mem _ ht')
    rw [gains, traded, foldl_cons, Prod.fst_add, Prod.snd_add]
    exact ⟨hlast, hK'.trans hK, (add_le_add hsov hsov').trans_eq (sub_add_sub_cancel _ _ _),
      (add_le_add hcbe hcbe').trans_eq (sub_add_sub_cancel _ _ _)⟩

/-- Whatever is swapped with a pool, and at whatever fees, the pool keeps its product and pays out neither
    side in full, and a trader who has gained in one coin has paid in the other. -/
theorem no_free_gain (h : Pool s) {ts : List Trade} (hts : Fair ts) :
    Pool (traded s ts) ∧ (traded s ts).ammK = s.ammK ∧
      (gains s ts).1 < s.ammSov ∧ (gains s ts).2 < s.ammCbe ∧
      (0 < (gains s ts).1 → (gains s ts).2 < 0) ∧ (0 < (gains s ts).2 → (gains s ts).1 < 0) := by
  obtain ⟨hlast, hK, hsov, hcbe⟩ := gains_le h hts
  have hprod : (traded s ts).ammSov * (traded s ts).ammCbe = s.ammSov * s.ammCbe := by
    rw [hlast.product, hK, h.product]
  refine ⟨hlast, hK, by linarith [hlast.sov_pos], by linarith [hlast.cbe_pos], fun hgain => ?_, fun hgain => ?_⟩
  · have hlt : s.ammCbe < (traded s ts).ammCbe := by
      by_contra hle
      nlinarith [hlast.sov_pos, h.cbe_pos, not_lt.mp hle]
    linarith
  · have hlt : s.ammSov < (traded s ts).ammSov := by
      by_contra hle
      nlinarith [hlast.cbe_pos, h.sov_pos, not_lt.mp hle]
    linarith

noncomputable def onePool : SimState ℝ := { INIT with graduated := true, ammSov := 1, ammCbe := 1, ammK := 1 }

theorem no_free_gain_onePool :
    (gains onePool [⟨3 / 1000, .sov2cbe, 1⟩, ⟨3 / 1000, .cbe2sov, 1 / 2⟩]).1 < 1 :=
  (no_free_gain (s := onePool) ⟨rfl, one_pos, one_pos, one_mul 1, rfl, rfl⟩ (by norm_num [Fair])).2.2.1

/-! ## Whole sessions -/

/-- Presses of positive amounts, and fees of at most all of them -/
def Button.Allowed : Button ℝ → Prop
  | .trade p => p.Allowed
  | .swap ammFee _ _ => ammFee ≤ 1
  | .reset => True

/-- A curve that has not graduated is backed, and one that has is a pool. -/
def Held (C : CurveParams ℝ) (s : SimState ℝ) : Prop := (s.graduated = false ∧ Backed C s) ∨ Pool s

theorem executeBuy_held (h : C.Valid) (hs : Held C prev) {gross : ℝ} (hp : (Press.buy T gross).Allowed) :
    ∃ s', executeBuy Real.sqrt C T gross prev = some s' ∧ Held C s' := by
  obtain ⟨hg, hback⟩ | hpool := hs
  · obtain ⟨log, hbuy⟩ | ⟨next, hnext, hpos, hg', hbuy⟩ := executeBuy_cases h hback hg hp
    · exact ⟨_, hbuy, .inl ⟨hg, hback.reserve, hback.supply_nonneg, hback.supply_le, hback.treasury⟩⟩
    obtain ⟨s', hcheck, -⟩ := checkGraduation_eq h T next
    refine ⟨s', hbuy.trans hcheck, ?_⟩
    rcases checkGraduation_pool h hnext hpos hcheck with rfl | hpool
    · exact .inl ⟨hg', hnext⟩
    · exact .inr hpool
  · rw [executeBuy, if_neg (not_le.mpr hp.2.2), if_pos hpool.graduated]
    exact ⟨prev, rfl, .inr hpool⟩

theorem executeSell_held (h : C.Valid) (hs : Held C prev) {x : ℝ} (hx : 0 < x) :
    ∃ s', executeSell C T x prev = some s' ∧ Held C s' := by
  obtain ⟨hg, hback⟩ | hpool := hs
  · obtain ⟨s', hsell, hs'⟩ := executeSell_backed (T := T) h (.inr hback) hx
    have hg' : s'.graduated = false := by
      obtain ⟨-, -, _, _, _, _, -, -, -, heq⟩ | ⟨-, _, heq⟩ := executeSell_cases (T := T) h hback hg hx <;>
        exact Option.some.inj (heq.symm.trans hsell) ▸ hg
    exact ⟨s', hsell, .inl ⟨hg', hs'.resolve_left (by simp [hg'])⟩⟩
  · rw [executeSell, if_neg (not_le.mpr hx), if_pos (.inl hpool.graduated)]
    exact ⟨_, rfl, .inr ⟨hpool.graduated, hpool.sov_pos, hpool.cbe_pos, hpool.product, hpool.reserve,
      hpool.treasury⟩⟩

theorem push_held (h : C.Valid) (hs : Held C prev) {b : Button ℝ} (hb : b.Allowed) :
    ∃ s', push Real.sqrt C prev b = some s' ∧ Held C s' := by
  cases b with
  | trade p =>
    cases p with
    | buy T gross => exact executeBuy_held h hs hb
    | sell T x => exact executeSell_held h hs hb
  | swap fee dir amt =>
    refine ⟨_, rfl, ?_⟩
    obtain ⟨hg, hback⟩ | hpool := hs
    · have hsame : executeSwap fee dir amt prev = prev := by
        have hnot : ¬prev.graduated = true := by simp [hg]
        rw [executeSwap, if_pos hnot, ite_self]
      rw [hsame]
      exact .inl ⟨hg, hback⟩
    · exact .inr (hpool.swap hb dir amt).1
  | reset => exact ⟨INIT, rfl, .inl ⟨rfl, backed_init h⟩⟩

/-- Whatever is bought, sold, swapped and reset, and whatever the settings are at each press, the presses go
    through: the curve is solvent until it graduates, and from then on there is a pool with both sides, on
    its hyperbola, and nothing is left in the reserve or locked in the treasury. -/
theorem session_held (C : CurveParams ℝ) (hC : C.Valid) (buttons : List (Button ℝ))
    (hb : ∀ b ∈ buttons, b.Allowed) :
    ∃ s, session Real.sqrt C buttons = some s ∧ (s.graduated = false → Solvent C s) ∧
      (s.graduated = true → Pool s) := by
  have hrun : ∀ prev, Held C prev →
      ∃ s, buttons.foldlM (push Real.sqrt C) prev = some s ∧ Held C s := by
    induction buttons with
    | nil => exact fun prev hs => ⟨prev, rfl, hs⟩
    | cons b buttons ih =>
      intro prev hs
      obtain ⟨s', hpush, hs'⟩ := push_held hC hs (hb b mem_cons_self)
      rw [foldlM_cons, hpush]
      exact ih (fun c hc => hb c (mem_cons_of_mem _ hc)) s' hs'
  obtain ⟨s, hs, hheld⟩ := hrun INIT (.inl ⟨rfl, backed_init hC⟩)
  obtain ⟨hg, hback⟩ | hpool := hheld
  · exact ⟨s, hs, fun _ => hback.solvent hC hg, fun hg' => absurd (hg'.symm.trans hg) (by decide)⟩
  · exact ⟨s, hs, fun hg => absurd (hg.symm.trans hpool.graduated) (by decide), fun _ => hpool⟩

theorem session_held_start :
    ∃ s, session Real.sqrt startParams [.trade (.buy startSettings 1000), .swap (3 / 1000) .sov2cbe 5, .reset]
        = some s ∧ (s.graduated = false → Solvent startParams s) ∧ (s.graduated = true → Pool s) :=
  session_held startParams startParams_valid _
    (by norm_num [Button.Allowed, Press.Allowed, startSettings])

end Oracle
