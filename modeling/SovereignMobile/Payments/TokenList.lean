import SovereignMobile.Payments.TokenUnits

/-! # The list of tokens

`getUserTokenBalances` of `TokenService.ts` reads the balances that the node reports, and
`mergeRegistryWithBalances` of `useUserTokenBalances.ts` joins them with the token registry. -/

namespace UserTokenBalances

open List
open Auth (trim)
open SendTokensScreen (isDigits)
open TokenUnits (atomsToDisplayLocale)

/-! ## What the node answers -/

/-- A field of the answer; `null` counts as missing. -/
inductive Field where
  | missing
  | number (v : ℚ)
  | infinite
  | text (v : String)
  | other
  deriving DecidableEq

/-- `B` is what the balance is: a field of the answer, or a decimal string. -/
structure TokenBalanceResponse (Id B : Type) where
  token_id : Id
  symbol : Field
  name : Field
  decimals : Field
  balance : B
  deriving DecidableEq

/-- `data.balances`, whose entries may be `null`; no list is `other`. -/
inductive Balances (Id : Type) where
  | missing
  | list (entries : List (Option (TokenBalanceResponse Id Field)))
  | other

inductive Response (Id : Type) where
  | failed
  | answered (balances : Balances Id)

structure TokenListItem (Id : Type) where
  token_id : Id
  symbol : Field
  name : Field
  decimals : Field

/-! ## Reading the balances -/

/-- `none` where it throws. -/
def parseAtoms : Field → Option String
  | .missing => some "0"
  | .number v => if v < 0 then none else some (toString ⌊v⌋₊)
  | .infinite => none
  | .text v =>
    if v = "" then some "0"
    else if isDigits (trim v).toList then some (toString (Decimals.number (trim v).toList))
    else none
  | .other => none

section
variable {Id : Type}

def normalizeBalance (b : TokenBalanceResponse Id Field) : Option (TokenBalanceResponse Id String) :=
  (parseAtoms b.balance).map fun balance => { b with balance := balance }

def getUserTokenBalances : Response Id → Option (List (TokenBalanceResponse Id String))
  | .failed => none
  | .answered .missing => some []
  -- `null` has no balance to read
  | .answered (.list entries) => entries.mapM (Option.bind · normalizeBalance)
  | .answered .other => none

/-- What the hook fetches: an error is caught. -/
def fetchBalances (response : Response Id) : List (TokenBalanceResponse Id String) :=
  (getUserTokenBalances response).getD []

/-! ## Joining the lists -/

structure TokenDisplay (Id : Type) where
  token_id : Id
  symbol : Field
  name : Field
  decimals : Option ℚ
  balance : Option String
  atomicBalance : String
  error : Option String

/-- `a ?? b` -/
def orElse : Field → Field → Field
  | .missing, b => b
  | a, _ => a

/-- The decimals, if they are a finite number that is not negative. -/
def finiteDecimals : Field → Option ℚ
  | .number d => if d < 0 then none else some d
  | _ => none

/-- A fraction of a place is cut off as the whole place is. -/
def buildDisplay (token_id : Id) (symbol name decimalsRaw : Field) (atomicBalance : String) :
    TokenDisplay Id :=
  match finiteDecimals decimalsRaw with
  | none => ⟨token_id, symbol, name, none, none, atomicBalance, some "Missing decimals metadata"⟩
  | some d => ⟨token_id, symbol, name, some d, some (atomsToDisplayLocale atomicBalance ⌈d⌉₊),
      atomicBalance, none⟩

variable [DecidableEq Id]

/-- `balances` is null before the first response. -/
def mergeRegistryWithBalances (registry : List (TokenListItem Id))
    (balances : Option (List (TokenBalanceResponse Id String))) : List (TokenDisplay Id) :=
  let balances := balances.getD []
  let balanceMap := balances.foldl (fun m b => m.put b.token_id b) LinkedMap.empty
  let merged := registry.map fun item =>
    let found := balanceMap.get item.token_id
    let atomicBalance := (found.map TokenBalanceResponse.balance).getD "0"
    let decimalsRaw := orElse item.decimals ((found.map TokenBalanceResponse.decimals).getD .missing)
    buildDisplay item.token_id item.symbol item.name decimalsRaw atomicBalance
  merged ++ (balances.filter fun b => !registry.any fun t => t.token_id = b.token_id).map fun b =>
    buildDisplay b.token_id b.symbol b.name b.decimals b.balance

/-- The tokens that are shown, before the response or after it. -/
def tokens (registry : List (TokenListItem Id)) (response : Option (Response Id)) :
    List (TokenDisplay Id) :=
  mergeRegistryWithBalances registry (response.map fetchBalances)

/-! ## The outer join -/

/-- The entries of the answer, well formed or not. -/
def entries : Option (Response Id) → List (TokenBalanceResponse Id Field)
  | some (.answered (.list es)) => es.filterMap id
  | _ => []

omit [DecidableEq Id] in
/-- The atoms of a well-formed balance. -/
def Field.atoms : Field → Option Nat
  | .number v => if 0 ≤ v ∧ v.den = 1 then some v.num.toNat else none
  | .text v => if isDigits (trim v).toList then some (Decimals.number (trim v).toList) else none
  | _ => none

def Field.NoneOrZero (balance : Field) : Prop :=
  balance = .missing ∨ balance = .text "" ∨ balance.atoms = some 0

structure OuterJoin (registry : List (TokenListItem Id)) (response : Option (Response Id))
    (shown : List (TokenDisplay Id)) : Prop where
  once : ∀ id, (shown.map TokenDisplay.token_id).count id =
    if id ∈ registry.map TokenListItem.token_id ∨
      id ∈ (entries response).map TokenBalanceResponse.token_id then 1 else 0
  exact : ∀ b ∈ entries response, ∀ n, b.balance.atoms = some n →
    ∃ t ∈ shown, t.token_id = b.token_id ∧ t.atomicBalance = toString n
  zero : ∀ t ∈ shown, t.atomicBalance = "0" → (∃ balances, response = some (.answered balances)) ∧
    ∀ b ∈ entries response, b.token_id = t.token_id → b.balance.NoneOrZero

/-- No number is lost when a balance is read. -/
def Field.Kept : Field → Prop
  | .missing => True
  | .number v => v = 0 ∨ 1 ≤ v
  | .text v => v = "" ∨ isDigits (trim v).toList = true
  | _ => False

/-- All balances of the answer are kept, or what it lists is in the registry, with nothing held. -/
def Joined (registry : List (TokenListItem Id)) : Option (Response Id) → Prop
  | none | some .failed => registry = []
  | some (.answered (.list es)) =>
    (∀ e ∈ es, ∃ b, e = some b ∧ b.balance.Kept) ∨
    ∀ b, some b ∈ es → b.token_id ∈ registry.map TokenListItem.token_id ∧ b.balance.NoneOrZero
  | some (.answered _) => True

end

/-! ## Reading a balance -/

section
variable {f : Field} {s : String} {n : Nat}

theorem toString_eq_zero_iff : toString n = "0" ↔ n = 0 := by
  constructor
  · intro h
    have hnumber := Nat.ofDigitChars_toDigits (n := n) (by decide : 1 < 10) (by decide)
    have hdigits : Nat.toDigits 10 n = ['0'] := by
      rw [← String.toList_ofList (l := Nat.toDigits 10 n)]
      exact congrArg String.toList h
    rw [hdigits] at hnumber
    exact hnumber.symm
  · rintro rfl
    rfl

theorem Field.parse_of_atoms (h : f.atoms = some n) : parseAtoms f = some (toString n) := by
  cases f with
  | number v =>
    simp only [Field.atoms] at h
    split at h
    · rename_i hv
      obtain rfl : v.num.toNat = n := Option.some.inj h
      have hfloor : ⌊v⌋₊ = v.num.toNat := by
        rw [← Int.floor_toNat, Rat.floor_def', hv.2]
        simp
      rw [parseAtoms, if_neg (not_lt.2 hv.1), hfloor]
    · simp at h
  | text v =>
    simp only [Field.atoms] at h
    split at h
    · rename_i hv
      have hne : v ≠ "" := by
        rintro rfl
        exact nomatch hv
      rw [parseAtoms, if_neg hne, if_pos hv, Option.some.inj h]
    · simp at h
  | missing | infinite | other => simp [Field.atoms] at h

theorem Field.NoneOrZero.parse (h : f.NoneOrZero) : parseAtoms f = some "0" := by
  rcases h with rfl | rfl | h
  · rfl
  · rfl
  · exact Field.parse_of_atoms h

theorem Field.Kept.parse (h : f.Kept) : ∃ s, parseAtoms f = some s ∧ (s = "0" → f.NoneOrZero) := by
  cases f with
  | missing => exact ⟨"0", rfl, fun _ => .inl rfl⟩
  | number v =>
    have hv : 0 ≤ v := by
      rcases h with rfl | h
      · exact le_rfl
      · exact zero_le_one.trans h
    refine ⟨toString ⌊v⌋₊, by rw [parseAtoms, if_neg (not_lt.2 hv)], fun hzero => ?_⟩
    rcases h with rfl | h
    · exact .inr (.inr rfl)
    · have hfloor := (Nat.floor_eq_zero.1 (toString_eq_zero_iff.1 hzero))
      exact absurd h (not_le.2 hfloor)
  | text v =>
    by_cases hv : v = ""
    · exact ⟨"0", by rw [parseAtoms, if_pos hv], fun _ => .inr (.inl (by rw [hv]))⟩
    have hdigits := h.resolve_left hv
    refine ⟨_, by rw [parseAtoms, if_neg hv, if_pos hdigits], fun hzero => .inr (.inr ?_)⟩
    rw [Field.atoms, if_pos hdigits, toString_eq_zero_iff.1 hzero]
  | infinite | other => exact h.elim

/-- What is read and not kept is a fraction of one atom. -/
theorem Field.zero_of_not_kept (h : ¬f.Kept) (hparse : parseAtoms f = some s) :
    s = "0" ∧ ¬f.NoneOrZero := by
  cases f with
  | missing => exact absurd trivial h
  | number v =>
    simp only [Field.Kept, not_or, not_le] at h
    rw [parseAtoms] at hparse
    split at hparse
    · simp at hparse
    refine ⟨?_, ?_⟩
    · rw [← Option.some.inj hparse, Nat.floor_eq_zero.2 h.2]
      rfl
    rintro (hzero | hzero | hzero)
    · simp at hzero
    · simp at hzero
    have hatoms := Field.parse_of_atoms hzero
    simp only [Field.atoms] at hzero
    split at hzero
    · rename_i hv
      have hnum : v.num ≤ 0 := by simpa using hzero
      exact h.1 (le_antisymm (Rat.num_nonpos.1 hnum) hv.1)
    · simp at hzero
  | text v =>
    simp only [Field.Kept, not_or] at h
    rw [parseAtoms, if_neg h.1, if_neg h.2] at hparse
    simp at hparse
  | infinite | other => simp [parseAtoms] at hparse

theorem Field.NoneOrZero.kept (h : f.NoneOrZero) : f.Kept := by
  by_contra hnot
  exact (Field.zero_of_not_kept hnot h.parse).2 h

end

/-! ## Reading the answer -/

section
variable {Id : Type} {es : List (Option (TokenBalanceResponse Id Field))}
  {raw : List (TokenBalanceResponse Id Field)} {bs : List (TokenBalanceResponse Id String)}

/-- The same entries, with their balances read. -/
def Normalized (raw : List (TokenBalanceResponse Id Field)) (bs : List (TokenBalanceResponse Id String)) :
    Prop :=
  List.Forall₂ (fun b b' => normalizeBalance b = some b') raw bs

variable {b : TokenBalanceResponse Id Field} {b' : TokenBalanceResponse Id String}

theorem normalizeBalance_eq (h : normalizeBalance b = some b') :
    b'.token_id = b.token_id ∧ parseAtoms b.balance = some b'.balance := by
  obtain ⟨balance, hparse, rfl⟩ := Option.map_eq_some_iff.1 h
  exact ⟨rfl, hparse⟩

theorem normalized_of_mapM (h : es.mapM (Option.bind · normalizeBalance) = some bs) :
    ∃ raw, es = raw.map some ∧ Normalized raw bs := by
  induction es generalizing bs with
  | nil =>
    obtain rfl : [] = bs := by simpa using h
    exact ⟨[], rfl, .nil⟩
  | cons e es ih =>
    rw [mapM_cons, Option.bind_eq_bind, Option.bind_eq_some_iff] at h
    obtain ⟨b', hb, h⟩ := h
    rw [Option.bind_eq_bind, Option.bind_eq_some_iff] at h
    obtain ⟨bs', hbs, h⟩ := h
    obtain rfl : b' :: bs' = bs := by simpa using h
    obtain ⟨b, rfl, hb⟩ := Option.bind_eq_some_iff.1 hb
    obtain ⟨raw, rfl, hraw⟩ := ih hbs
    exact ⟨b :: raw, rfl, .cons hb hraw⟩

/-- The whole answer is read if each entry is. -/
theorem mapM_of_kept (h : ∀ e ∈ es, ∃ b, e = some b ∧ b.balance.Kept) :
    ∃ bs, es.mapM (Option.bind · normalizeBalance) = some bs := by
  induction es with
  | nil => exact ⟨[], rfl⟩
  | cons e es ih =>
    obtain ⟨b, rfl, hkept⟩ := h e mem_cons_self
    obtain ⟨s, hs, -⟩ := hkept.parse
    obtain ⟨bs, hbs⟩ := ih fun e he => h e (mem_cons_of_mem _ he)
    refine ⟨{ b with balance := s } :: bs, ?_⟩
    rw [mapM_cons, hbs, Option.bind_some, normalizeBalance, hs]
    rfl

theorem Normalized.ids (h : Normalized raw bs) :
    bs.map TokenBalanceResponse.token_id = raw.map TokenBalanceResponse.token_id := by
  induction h with
  | nil => rfl
  | cons hb _ ih => rw [map_cons, map_cons, ih, (normalizeBalance_eq hb).1]

theorem Normalized.exists_read (h : Normalized raw bs) (hb : b ∈ raw) :
    ∃ b' ∈ bs, normalizeBalance b = some b' := by
  induction h with
  | nil => exact absurd hb not_mem_nil
  | cons hhead _ ih =>
    rcases mem_cons.1 hb with rfl | hb
    · exact ⟨_, mem_cons_self, hhead⟩
    · obtain ⟨b', hb', hread⟩ := ih hb
      exact ⟨b', mem_cons_of_mem _ hb', hread⟩

end

/-! ## What the list shows -/

section
variable {Id : Type} {registry : List (TokenListItem Id)} {bs : List (TokenBalanceResponse Id String)}
  {token_id : Id} {symbol name decimalsRaw : Field} {atomicBalance : String}

@[simp] theorem buildDisplay_token_id :
    (buildDisplay token_id symbol name decimalsRaw atomicBalance).token_id = token_id := by
  unfold buildDisplay
  cases finiteDecimals decimalsRaw <;> rfl

@[simp] theorem buildDisplay_atomicBalance :
    (buildDisplay token_id symbol name decimalsRaw atomicBalance).atomicBalance = atomicBalance := by
  unfold buildDisplay
  cases finiteDecimals decimalsRaw <;> rfl

variable [DecidableEq Id]

/-- The token ids: those of the registry, and those of the balances that the registry lacks. -/
theorem ids_merge : (mergeRegistryWithBalances registry (some bs)).map TokenDisplay.token_id =
    registry.map TokenListItem.token_id ++ (bs.map TokenBalanceResponse.token_id).filter fun id =>
        !decide (id ∈ registry.map TokenListItem.token_id) := by
  have hany : ∀ b : TokenBalanceResponse Id String, (registry.any fun t => t.token_id = b.token_id) =
      decide (b.token_id ∈ registry.map TokenListItem.token_id) := by
    intro b
    rw [Bool.eq_iff_iff]
    simp
  simp only [mergeRegistryWithBalances, Option.getD_some, map_append, map_map, filter_map,
    Function.comp_def, buildDisplay_token_id, hany]

theorem count_merge (hregistry : (registry.map TokenListItem.token_id).Nodup)
    (hbs : (bs.map TokenBalanceResponse.token_id).Nodup) (id : Id) :
    ((mergeRegistryWithBalances registry (some bs)).map TokenDisplay.token_id).count id =
      if id ∈ registry.map TokenListItem.token_id ∨ id ∈ bs.map TokenBalanceResponse.token_id
        then 1 else 0 := by
  have hnodup : ((mergeRegistryWithBalances registry (some bs)).map TokenDisplay.token_id).Nodup := by
    rw [ids_merge]
    refine hregistry.append (hbs.filter _) fun id hid hid' => ?_
    simp only [mem_filter, hid, decide_true, Bool.not_true, Bool.false_eq_true, and_false] at hid'
  have hmem : id ∈ (mergeRegistryWithBalances registry (some bs)).map TokenDisplay.token_id ↔
      id ∈ registry.map TokenListItem.token_id ∨ id ∈ bs.map TokenBalanceResponse.token_id := by
    rw [ids_merge, mem_append, mem_filter, Bool.not_eq_true', decide_eq_false_iff_not]
    tauto
  rw [hnodup.count, if_congr hmem rfl rfl]

/-- Where the balance of a token comes from. -/
theorem mem_merge {t : TokenDisplay Id} (ht : t ∈ mergeRegistryWithBalances registry (some bs)) :
    (∃ b ∈ bs, b.token_id = t.token_id ∧ t.atomicBalance = b.balance) ∨
      (∀ b ∈ bs, b.token_id ≠ t.token_id) ∧ t.atomicBalance = "0" := by
  simp only [mergeRegistryWithBalances, Option.getD_some, mem_append, mem_map,
    LinkedMap.get_foldl_put] at ht
  rcases ht with ⟨item, -, rfl⟩ | ⟨b, hb, rfl⟩
  · cases hfind : bs.reverse.find? (TokenBalanceResponse.token_id · = item.token_id) with
    | none =>
      refine .inr ⟨fun b hb => ?_, by simp⟩
      simpa using find?_eq_none.1 hfind b (mem_reverse.2 hb)
    | some b =>
      refine .inl ⟨b, mem_reverse.1 (mem_of_find?_eq_some hfind), ?_, by simp⟩
      simpa using find?_some hfind
  · exact .inl ⟨b, mem_of_mem_filter hb, by simp, by simp⟩

/-- Each balance is shown. -/
theorem exists_shown (hbs : (bs.map TokenBalanceResponse.token_id).Nodup)
    {b : TokenBalanceResponse Id String} (hb : b ∈ bs) :
    ∃ t ∈ mergeRegistryWithBalances registry (some bs),
      t.token_id = b.token_id ∧ t.atomicBalance = b.balance := by
  have hid : b.token_id ∈ (mergeRegistryWithBalances registry (some bs)).map TokenDisplay.token_id := by
    rw [ids_merge, mem_append, mem_filter, Bool.not_eq_true', decide_eq_false_iff_not]
    have hmem := mem_map_of_mem (f := TokenBalanceResponse.token_id) hb
    tauto
  obtain ⟨t, ht, hid⟩ := mem_map.1 hid
  refine ⟨t, ht, hid, ?_⟩
  rcases mem_merge ht with ⟨b', hb', hid', hbalance⟩ | ⟨hnone, -⟩
  · rw [hbalance, inj_on_of_nodup_map hbs hb' hb (hid'.trans hid)]
  · exact absurd hid.symm (hnone b hb)

/-- Without balances, nothing but zeros is shown. -/
theorem merge_nil : mergeRegistryWithBalances registry (some []) = registry.map fun item =>
    buildDisplay item.token_id item.symbol item.name (orElse item.decimals .missing) "0" := by
  simp [mergeRegistryWithBalances, LinkedMap.get, LinkedMap.empty]

theorem count_merge_nil (hregistry : (registry.map TokenListItem.token_id).Nodup) (id : Id) :
    ((mergeRegistryWithBalances registry (some [])).map TokenDisplay.token_id).count id =
      if id ∈ registry.map TokenListItem.token_id then 1 else 0 := by
  rw [count_merge hregistry (by simp)]
  simp

/-! ## When the list is the outer join -/

variable {response : Option (Response Id)} {es : List (Option (TokenBalanceResponse Id Field))}

/-- Nothing is listed, and nothing but zeros is shown. -/
theorem outerJoin_nil_iff (hregistry : (registry.map TokenListItem.token_id).Nodup)
    (hentries : entries response = []) :
    OuterJoin registry response (mergeRegistryWithBalances registry (some [])) ↔
      (∃ balances, response = some (.answered balances)) ∨ registry = [] := by
  constructor
  · intro h
    cases registry with
    | nil => exact .inr rfl
    | cons item items =>
      rw [merge_nil] at h
      exact .inl (h.zero _ mem_cons_self (by simp)).1
  · intro h
    constructor
    · intro id
      rw [count_merge_nil hregistry, hentries]
      simp
    · simp [hentries]
    intro t ht _
    refine ⟨h.resolve_right ?_, by simp [hentries]⟩
    rintro rfl
    simp [merge_nil] at ht

/-- The answer is read. -/
theorem outerJoin_read_iff {raw : List (TokenBalanceResponse Id Field)}
    (hregistry : (registry.map TokenListItem.token_id).Nodup)
    (hraw : (raw.map TokenBalanceResponse.token_id).Nodup) (hnormalized : Normalized raw bs)
    (hanswered : ∃ balances, response = some (.answered balances)) (hentries : entries response = raw) :
    OuterJoin registry response (mergeRegistryWithBalances registry (some bs)) ↔
      ∀ b ∈ raw, b.balance.Kept := by
  have hbs : (bs.map TokenBalanceResponse.token_id).Nodup := by rwa [hnormalized.ids]
  constructor
  · intro h b hb
    by_contra hnot
    obtain ⟨b', hb', hread⟩ := hnormalized.exists_read hb
    obtain ⟨hid, hparse⟩ := normalizeBalance_eq hread
    obtain ⟨hzero, hheld⟩ := Field.zero_of_not_kept hnot hparse
    obtain ⟨t, ht, htid, hbalance⟩ := exists_shown hbs hb'
    exact hheld ((h.zero t ht (hbalance.trans hzero)).2 b (by rwa [hentries]) (hid.symm.trans htid.symm))
  · intro h
    constructor
    · intro id
      rw [count_merge hregistry hbs, hentries, hnormalized.ids]
    · intro b hb n hn
      rw [hentries] at hb
      obtain ⟨b', hb', hread⟩ := hnormalized.exists_read hb
      obtain ⟨hid, hparse⟩ := normalizeBalance_eq hread
      obtain ⟨t, ht, htid, hbalance⟩ := exists_shown hbs hb'
      rw [Field.parse_of_atoms hn] at hparse
      exact ⟨t, ht, htid.trans hid, hbalance.trans (Option.some.inj hparse).symm⟩
    · intro t ht hzero
      refine ⟨hanswered, fun b hb hid => ?_⟩
      rw [hentries] at hb
      obtain ⟨b', hb', hread⟩ := hnormalized.exists_read hb
      obtain ⟨hid', hparse⟩ := normalizeBalance_eq hread
      -- what is shown of the token is this balance
      rcases mem_merge ht with ⟨b'', hb'', hid'', hbalance⟩ | ⟨hnone, -⟩
      · obtain rfl : b'' = b' :=
          inj_on_of_nodup_map hbs hb'' hb' (hid''.trans (hid.symm.trans hid'.symm))
        obtain ⟨s, hs, hheld⟩ := (h b hb).parse
        rw [hparse] at hs
        exact hheld ((Option.some.inj hs).symm.trans (hbalance.symm.trans hzero))
      · exact absurd (hid'.trans hid) (hnone b' hb')

/-- An entry throws, and nothing is left of the answer. -/
theorem outerJoin_thrown_iff (hregistry : (registry.map TokenListItem.token_id).Nodup) :
    OuterJoin registry (some (.answered (.list es))) (mergeRegistryWithBalances registry (some [])) ↔
      ∀ b, some b ∈ es → b.token_id ∈ registry.map TokenListItem.token_id ∧ b.balance.NoneOrZero := by
  have hmem : ∀ b, b ∈ entries (some (.answered (.list es))) ↔ some b ∈ es := by simp [entries]
  have hshown : ∀ id ∈ registry.map TokenListItem.token_id,
      ∃ t ∈ mergeRegistryWithBalances registry (some []), t.token_id = id ∧ t.atomicBalance = "0" := by
    intro id hid
    obtain ⟨item, hitem, rfl⟩ := mem_map.1 hid
    rw [merge_nil]
    exact ⟨_, mem_map_of_mem hitem, by simp, by simp⟩
  constructor
  · intro h b hb
    have hid : b.token_id ∈ registry.map TokenListItem.token_id := by
      have honce := h.once b.token_id
      have hlisted := mem_map_of_mem (f := TokenBalanceResponse.token_id) ((hmem b).2 hb)
      by_contra hnot
      rw [count_merge_nil hregistry, if_neg hnot, if_pos (.inr hlisted)] at honce
      exact nomatch honce
    obtain ⟨t, ht, htid, hzero⟩ := hshown _ hid
    exact ⟨hid, (h.zero t ht hzero).2 b ((hmem b).2 hb) htid.symm⟩
  · intro h
    constructor
    · intro id
      rw [count_merge_nil hregistry]
      refine if_congr ?_ rfl rfl
      constructor
      · exact .inl
      rintro (hid | hid)
      · exact hid
      · obtain ⟨b, hb, rfl⟩ := mem_map.1 hid
        exact (h b ((hmem b).1 hb)).1
    · intro b hb n hn
      obtain ⟨hid, hheld⟩ := h b ((hmem b).1 hb)
      obtain ⟨t, ht, htid, hzero⟩ := hshown _ hid
      have hparse := hheld.parse
      rw [Field.parse_of_atoms hn] at hparse
      exact ⟨t, ht, htid, hzero.trans (Option.some.inj hparse).symm⟩
    · intro t ht _
      exact ⟨⟨_, rfl⟩, fun b hb _ => (h b ((hmem b).1 hb)).2⟩

/-- **When the list is the outer join** of the registry and the balances. -/
theorem outerJoin_iff (hregistry : (registry.map TokenListItem.token_id).Nodup)
    (hresponse : ((entries response).map TokenBalanceResponse.token_id).Nodup) :
    OuterJoin registry response (tokens registry response) ↔ Joined registry response := by
  match response with
  | none | some .failed =>
    refine (outerJoin_nil_iff hregistry rfl).trans ?_
    simp [Joined]
  | some (.answered .missing) | some (.answered .other) =>
    refine (outerJoin_nil_iff hregistry rfl).trans ?_
    simp [Joined]
  | some (.answered (.list es)) =>
    have htokens : tokens registry (some (.answered (.list es))) = mergeRegistryWithBalances registry
        (some ((es.mapM (Option.bind · normalizeBalance)).getD [])) := rfl
    rw [htokens]
    cases hread : es.mapM (Option.bind · normalizeBalance) with
    | none =>
      rw [Option.getD_none, outerJoin_thrown_iff hregistry]
      refine ⟨.inr, fun h => h.resolve_left fun hkept => ?_⟩
      obtain ⟨bs, hbs⟩ := mapM_of_kept hkept
      rw [hread] at hbs
      simp at hbs
    | some bs =>
      obtain ⟨raw, rfl, hnormalized⟩ := normalized_of_mapM hread
      have hentries : entries (some (Response.answered (.list (raw.map some)))) = raw := by
        simp [entries]
      rw [hentries] at hresponse
      rw [Option.getD_some, outerJoin_read_iff hregistry hresponse hnormalized ⟨_, rfl⟩ hentries]
      constructor
      · intro h
        refine .inl fun e he => ?_
        obtain ⟨b, hb, rfl⟩ := mem_map.1 he
        exact ⟨b, rfl, h b hb⟩
      · rintro (h | h) b hb
        · obtain ⟨b', heq, hkept⟩ := h _ (mem_map_of_mem hb)
          rwa [Option.some.inj heq]
        · exact (h b (mem_map_of_mem hb)).2.kept

end

/-! ## A held balance that is shown as zero -/

def sovItem : TokenListItem String := ⟨"sov", .text "SOV", .text "Sovereign", .number 18⟩

def heldSov : TokenBalanceResponse String Field :=
  ⟨"sov", .text "SOV", .text "Sovereign", .number 18, .text "5"⟩

def owedGold : TokenBalanceResponse String Field :=
  ⟨"gold", .text "GOLD", .text "Gold", .number 2, .text "-1"⟩

theorem outerJoin_iff_held :
    OuterJoin [sovItem] (some (.answered (.list [some heldSov])))
      (tokens [sovItem] (some (.answered (.list [some heldSov])))) := by
  refine (outerJoin_iff (by decide) (by decide)).2 (.inl fun e he => ?_)
  obtain rfl : e = some heldSov := by simpa using he
  exact ⟨heldSov, rfl, .inr (by decide)⟩

/-- A request that fails leaves a zero, and so does a malformed entry of another token. -/
theorem held_shown_zero :
    ¬OuterJoin [sovItem] (some .failed) (tokens [sovItem] (some .failed)) ∧
    ¬OuterJoin [sovItem] (some (.answered (.list [some heldSov, some owedGold])))
      (tokens [sovItem] (some (.answered (.list [some heldSov, some owedGold])))) := by
  constructor
  · intro h
    have hjoined := (outerJoin_nil_iff (by decide) (show entries (some .failed) = [] from rfl)).1 h
    simp at hjoined
  · intro h
    have hheld := ((outerJoin_thrown_iff (by decide)).1 h heldSov (by simp)).2
    exact nomatch hheld.parse

end UserTokenBalances
