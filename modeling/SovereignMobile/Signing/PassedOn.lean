import SovereignMobile.Signing.Parameters

/-! # Which calls are passed on

For each parameter of a signing method: when Android rejects it, when iOS does, and when both pass
it on. A call is passed on exactly if both platforms reject one of its parameters, or all of them
are passed on. -/

namespace NativeIdentityProvisioning

open List Option Char

/-! ## From parameters to calls -/

/-- What is to be known about one parameter. -/
structure Check where
  refusedByAndroid : Prop
  refusedByIos : Prop
  kept : Prop

/-- `k` describes the parameter that Android reads as `a` and iOS as `i`. -/
structure Check.Describes (k : Check) (a i supplied : Option Value) : Prop where
  android : a = none ↔ k.refusedByAndroid
  ios : i = none ↔ k.refusedByIos
  kept : (∃ v, a = some v ∧ i = some v ∧ Carries supplied v) ↔ k.kept

inductive Described : List Check → List (Option Value) → List (Option Value) →
    List (Option Value) → Prop
  | nil : Described [] [] [] []
  | cons {k ks a as i is w ws} : Check.Describes k a i w → Described ks as is ws →
      Described (k :: ks) (a :: as) (i :: is) (w :: ws)

variable {x : JsNumber}

namespace Described

variable {ks : List Check} {as is ws : List (Option Value)}

theorem android_none (h : Described ks as is ws) :
    allArgs as = none ↔ ∃ k ∈ ks, k.refusedByAndroid := by
  induction h with
  | nil => simp [allArgs]
  | cons hk _ ih => rw [allArgs_cons_eq_none, ih, hk.android, exists_mem_cons_iff]

theorem ios_none (h : Described ks as is ws) : allArgs is = none ↔ ∃ k ∈ ks, k.refusedByIos := by
  induction h with
  | nil => simp [allArgs]
  | cons hk _ ih => rw [allArgs_cons_eq_none, ih, hk.ios, exists_mem_cons_iff]

theorem all_kept (h : Described ks as is ws) :
    (∃ args, allArgs as = some args ∧ allArgs is = some args ∧ List.Forall₂ Carries ws args) ↔
      ∀ k ∈ ks, k.kept := by
  induction h with
  | nil => simp [allArgs]
  | @cons k ks a as i is w ws hk _ ih =>
    rw [forall_mem_cons, ← ih, ← hk.kept]
    constructor
    · rintro ⟨args, ha, hi, hw⟩
      obtain ⟨v, vs, rfl, has, rfl⟩ := allArgs_cons_eq_some.1 ha
      obtain ⟨v', vs', rfl, his, heq⟩ := allArgs_cons_eq_some.1 hi
      obtain ⟨rfl, rfl⟩ := cons.inj heq
      obtain ⟨hv, hvs⟩ := forall₂_cons.1 hw
      exact ⟨⟨v, rfl, rfl, hv⟩, vs, has, his, hvs⟩
    · rintro ⟨⟨v, rfl, rfl, hv⟩, vs, has, his, hvs⟩
      exact ⟨v :: vs, allArgs_cons_eq_some.2 ⟨v, vs, rfl, has, rfl⟩,
        allArgs_cons_eq_some.2 ⟨v, vs, rfl, his, rfl⟩, .cons hv hvs⟩

end Described

/-! ## Numbers -/

theorem toNat?_eq_some_iff {n : Nat} : JsNumber.toNat? x = some n ↔ x = .finite n := by
  cases x with
  | nan | infinity => simp [JsNumber.toNat?]
  | finite q =>
    simp only [JsNumber.toNat?, ite_none_right_eq_some, some.injEq, JsNumber.finite.injEq]
    constructor
    · rintro ⟨⟨hden, hnum⟩, rfl⟩
      rw [← (Rat.den_eq_one_iff q).1 hden]
      have hcast : ((q.num.toNat : Int) : ℚ) = q.num := by rw [Int.toNat_of_nonneg hnum]
      exact hcast.symm.trans (Int.cast_natCast _)
    · rintro rfl
      simp

theorem supplied_number_eq {k : Int} :
    Supplied.number x = .number k ↔ ∃ n : Nat, x = .finite n ∧ k = n := by
  unfold Supplied.number
  split
  · rename_i n hn
    have hx := toNat?_eq_some_iff.1 hn
    constructor
    · rintro h
      exact ⟨n, hx, (Value.number.inj h).symm⟩
    · rintro ⟨m, hm, rfl⟩
      rw [toNat?_eq_some_iff.2 hm] at hn
      rw [some.inj hn]
  · rename_i hnone
    constructor
    · intro h
      simp at h
    · rintro ⟨n, hn, -⟩
      rw [toNat?_eq_some_iff.2 hn] at hnone
      simp at hnone

theorem truncate_nat (n : Nat) : JsNumber.truncate n = n := by
  unfold JsNumber.truncate
  rw [if_pos (by positivity)]
  exact Rat.floor_intCast n

theorem Android.doubleToLong_nat (n : Nat) :
    Android.doubleToLong (.finite n) = min (2 ^ 63 - 1) n := by
  simp only [Android.doubleToLong, truncate_nat]
  omega

theorem Android.getInt_nat (n : Nat) : Android.getInt (.finite n) = min (2 ^ 31 - 1) n := by
  simp only [Android.getInt, truncate_nat]
  omega

@[simp] theorem carries_none (v : Value) : Carries none v ↔ True := by simp [Carries]

@[simp] theorem carries_some (w v : Value) : Carries (some w) v ↔ v = w := by
  simp [Carries]

/-- A parameter that neither platform rejects. -/
theorem Check.Describes.of_values {a i : Value} {w : Option Value} {kept : Prop}
    (h : (a = i ∧ Carries w a) ↔ kept) :
    Check.Describes ⟨False, False, kept⟩ (some a) (some i) w := by
  refine ⟨by simp, by simp, ?_⟩
  rw [← h]
  constructor
  · rintro ⟨v, ha, hi, hw⟩
    cases ha
    cases hi
    exact ⟨rfl, hw⟩
  · rintro ⟨rfl, hw⟩
    exact ⟨a, rfl, rfl, hw⟩

namespace Check

def nonce (x : JsNumber) : Check := ⟨False, False, ∃ n : Nat, x = .finite n ∧ n < 2 ^ 63⟩

theorem describes_nonce (E : Env) (x : JsNumber) :
    (nonce x).Describes (some (Android.readNonce x)) (some (Ios.readNonce E x))
      (some (Supplied.number x)) := by
  refine .of_values ?_
  rw [carries_some]
  constructor
  · rintro ⟨-, h⟩
    obtain ⟨n, rfl, hn⟩ := supplied_number_eq.1 h.symm
    rw [Android.doubleToLong_nat] at hn
    exact ⟨n, rfl, by omega⟩
  rintro ⟨n, rfl, hn⟩
  have hsupplied := (supplied_number_eq).2 ⟨n, rfl, rfl⟩
  rw [Android.readNonce, Ios.readNonce, Android.doubleToLong_nat,
    E.ios.uint64Value_nat n (by omega)]
  have hlong : ((min (2 ^ 63 - 1) n : Nat) : Int) % 2 ^ 64 = n := by omega
  rw [hlong]
  exact ⟨rfl, rfl⟩

def fetchedNonce (E : Env) (x : JsNumber) : Check :=
  ⟨E.fetchedNonce = none, False, ∃ n : Nat, x = .finite n ∧ n < 2 ^ 64 ∧ E.fetchedNonce = some n⟩

theorem describes_fetchedNonce (E : Env) (x : JsNumber) :
    (fetchedNonce E x).Describes (E.fetchedNonce.map fun n : Nat => .number n)
      (some (Ios.readNonce E x)) (some (Supplied.number x)) := by
  refine ⟨map_eq_none_iff, by simp [fetchedNonce], ?_⟩
  constructor
  · rintro ⟨v, ha, hi, hw⟩
    obtain ⟨m, hm, rfl⟩ := map_eq_some_iff.1 ha
    rw [carries_some] at hw
    obtain ⟨n, rfl, hn⟩ := supplied_number_eq.1 hw.symm
    have hlt := E.ios.uint64Value_lt (.finite n)
    have hi' := Value.number.inj (some.inj hi)
    have hmn : m = n := by omega
    exact ⟨n, rfl, by omega, hmn ▸ hm⟩
  · rintro ⟨n, rfl, hn, hfetched⟩
    refine ⟨.number n, by rw [hfetched]; rfl, ?_, ?_⟩
    · rw [Ios.readNonce, E.ios.uint64Value_nat n hn]
    · rw [carries_some, (supplied_number_eq).2 ⟨n, rfl, rfl⟩]

/-- An optional number that has to lie below `bound`. -/
def below (bound : Nat) (x : Option JsNumber) : Check :=
  ⟨False, False, ∀ y, x = some y → ∃ n : Nat, y = .finite n ∧ n < bound⟩

/-- Readers that keep the numbers below the bound and never say a larger one. -/
theorem describes_below {a i : JsNumber → Int} (bound : Nat) (default : Int)
    (ha : ∀ n : Nat, n < bound → a (.finite n) = n) (hi : ∀ n : Nat, n < bound → i (.finite n) = n)
    (hlt : ∀ x, a x < bound ∨ i x < bound) (x : Option JsNumber) :
    (below bound x).Describes (some (.number (x.elim default a))) (some (.number (x.elim default i)))
      (x.map Supplied.number) := by
  refine .of_values ?_
  cases x with
  | none => simp
  | some y =>
    rw [map_some, carries_some]
    constructor
    · rintro ⟨hai, hw⟩ y' hy'
      cases hy'
      obtain ⟨n, rfl, hn⟩ := supplied_number_eq.1 hw.symm
      have hai' := Value.number.inj hai
      simp only [elim_some] at hai' hn
      have := hlt (.finite n)
      exact ⟨n, rfl, by omega⟩
    · intro h
      obtain ⟨n, rfl, hn⟩ := h y rfl
      rw [elim_some, elim_some, ha n hn, hi n hn]
      exact ⟨rfl, rfl⟩

theorem describes_chainId (E : Env) (x : Option JsNumber) :
    (below 256 x).Describes (some (Android.chainId x)) (some (Ios.chainId E x))
      (x.map Supplied.number) := by
  have h := describes_below (a := fun x => Android.getInt x % 256)
    (i := fun x => E.ios.uint8Value x) 256 3
    (fun n hn => by rw [Android.getInt_nat]; omega)
    (fun n hn => by rw [E.ios.uint8Value_nat n hn]) (fun x => .inl (by omega)) x
  cases x <;> exact h

theorem describes_truncating (E : Env) {bound : Nat} (hbound : 0 < bound) (hle : bound ≤ 65536)
    (default : Int) (x : Option JsNumber) :
    (below bound x).Describes (some (Android.launchInt default x))
      (some (Ios.truncating E bound default x)) (x.map Supplied.number) := by
  have h := describes_below (a := Android.getInt) (i := fun x => E.ios.intValue x % bound)
    bound default
    (fun n hn => by rw [Android.getInt_nat]; omega)
    (fun n hn => by
      rw [E.ios.intValue_nat n (by omega)]
      exact Int.emod_eq_of_lt (by omega) (by omega))
    (fun x => .inr (Int.emod_lt_of_pos _ (by omega))) x
  cases x <;> exact h

/-- On Android, 0 is replaced. -/
def domainChainId (E : Env) (x : Option JsNumber) : Check :=
  ⟨False, False, ∀ y, x = some y →
    ∃ n : Nat, y = .finite n ∧ n < 256 ∧ (n = 0 → E.defaultDomainChainId = 0)⟩

theorem describes_domainChainId (E : Env) (x : Option JsNumber) :
    (domainChainId E x).Describes (some (Android.domainChainId E x))
      (some (Ios.truncating E 256 3 x)) (x.map Supplied.number) := by
  refine .of_values ?_
  cases x with
  | none => simp [Android.domainChainId, Ios.truncating]
  | some y =>
    simp only [Android.domainChainId, Ios.truncating, map_some, carries_some]
    constructor
    · rintro ⟨hai, hw⟩ y' hy'
      cases hy'
      obtain ⟨n, rfl, hn⟩ := supplied_number_eq.1 (hai.symm.trans hw).symm
      refine ⟨n, rfl, by omega, ?_⟩
      rintro rfl
      rw [Android.getInt_nat] at hai
      have := Value.number.inj hai
      omega
    · intro h
      obtain ⟨n, rfl, hn, hzero⟩ := h y rfl
      have hios : E.ios.intValue (.finite n) % 256 = n := by
        rw [E.ios.intValue_nat n (by omega)]
        omega
      rw [hios, Android.getInt_nat]
      split
      · obtain rfl : n = 0 := by omega
        rw [hzero rfl]
        exact ⟨rfl, rfl⟩
      · have hwrap : ((min (2 ^ 31 - 1) n : Nat) : Int) % 256 = n := by omega
        rw [hwrap]
        exact ⟨rfl, rfl⟩

/-! ### Texts -/

variable {s : String} {signer : Signer} {id : List UInt8} {c : Char} {digit : Char → Option Nat}
    {cs : List Char} {n : Nat} {v : StringOrNumber}

theorem cString_eq_self (h : '\x00' ∉ s.toList) : Ios.cString s = s := by
  unfold Ios.cString
  rw [takeWhile_eq_self_iff.2 fun c hc => ?_, String.ofList_toList]
  rw [decide_eq_true_iff]
  rintro rfl
  exact h hc

theorem not_mem_of_cString_eq (h : Ios.cString s = s) : '\x00' ∉ s.toList := by
  intro hmem
  have hlist := congrArg String.toList h
  unfold Ios.cString at hlist
  rw [String.toList_ofList] at hlist
  have hall := takeWhile_eq_self_iff.1 hlist _ hmem
  exact nomatch hall

theorem text_kept_iff :
    (∃ v, Android.required s = some v ∧ Ios.text s = some v ∧ Carries (some (.text s)) v) ↔
      s ≠ "" ∧ '\x00' ∉ s.toList := by
  unfold Android.required Ios.text
  constructor
  · rintro ⟨v, ha, hi, -⟩
    split at ha
    · simp at ha
    rename_i hne
    cases ha
    exact ⟨hne, not_mem_of_cString_eq (Value.text.inj (some.inj hi))⟩
  · rintro ⟨hne, hzero⟩
    exact ⟨.text s, if_neg hne, by rw [cString_eq_self hzero], by simp⟩

/-- A text that only Android requires. -/
def text (s : String) : Check := ⟨s = "", False, s ≠ "" ∧ '\x00' ∉ s.toList⟩

theorem describes_text (s : String) :
    (text s).Describes (Android.required s) (Ios.text s) (some (.text s)) := by
  refine ⟨?_, by simp [Ios.text, text], text_kept_iff⟩
  simp [Android.required, text]

/-- A text that both platforms require. -/
def requiredText (s : String) : Check := ⟨s = "", s = "", s ≠ "" ∧ '\x00' ∉ s.toList⟩

theorem describes_requiredText (s : String) :
    (requiredText s).Describes (Android.required s) (if s = "" then none else Ios.text s)
      (some (.text s)) := by
  refine ⟨by simp [Android.required, requiredText], by simp [Ios.text, requiredText], ?_⟩
  by_cases h : s = ""
  · simp [requiredText, h]
  · rw [if_neg h]
    exact text_kept_iff

/-- A JSON text that Android parses. -/
def json (parses : String → Bool) (s : Option String) : Check :=
  ⟨False, False, ∀ j, s = some j → parses j = true ∧ '\x00' ∉ j.toList⟩

theorem describes_json (parses : String → Bool) (s : Option String) :
    (json parses s).Describes (some (Android.parsed parses s)) (some (Ios.optionalText s))
      (s.map .text) := by
  refine .of_values ?_
  cases s with
  | none => simp [Android.parsed, Ios.optionalText]
  | some j =>
    simp only [Android.parsed, Ios.optionalText, map_some, carries_some]
    constructor
    · rintro ⟨hai, hw⟩ j' hj'
      cases hj'
      rw [hw] at hai
      refine ⟨?_, not_mem_of_cString_eq (Value.text.inj hai).symm⟩
      by_contra hparses
      rw [if_neg hparses] at hw
      simp at hw
    · intro h
      obtain ⟨hparses, hzero⟩ := h j rfl
      rw [if_pos hparses, cString_eq_self hzero]
      exact ⟨rfl, rfl⟩

/-- iOS passes metadata only beside content mappings. -/
def metadata (E : Env) (s mappings : Option String) : Check :=
  ⟨False, False, ∀ j, s = some j →
    E.parsesJson j = true ∧ '\x00' ∉ j.toList ∧ mappings ≠ none⟩

theorem describes_metadata (E : Env) (s mappings : Option String) :
    (metadata E s mappings).Describes (some (Android.parsed E.parsesJson s))
      (some (if mappings = none then .absent else Ios.optionalText s)) (s.map .text) := by
  refine .of_values ?_
  by_cases hmap : mappings = none
  · rw [if_pos hmap]
    cases s with
    | none => simp [Android.parsed]
    | some j =>
      simp only [map_some, carries_some]
      constructor
      · rintro ⟨hai, hw⟩
        exact nomatch hai.symm.trans hw
      · intro h
        exact absurd hmap (h j rfl).2.2
  · rw [if_neg hmap]
    have h := (describes_json E.parsesJson s).kept
    simp only [some.injEq, exists_eq_left', json] at h
    rw [eq_comm, h]
    simp [hmap]

/-- What neither platform passes on. -/
def dropped (s : Option String) : Check := ⟨False, False, s = none⟩

theorem describes_dropped (s : Option String) :
    (dropped s).Describes (some .absent) (some .absent) (s.map .text) := by
  refine .of_values ?_
  cases s <;> simp

/-- What only Android passes on. -/
def droppedByIos : Check := ⟨False, False, False⟩

theorem describes_droppedByIos (s : String) :
    droppedByIos.Describes (some (.text s)) (some .absent) (some (.text s)) := by
  refine .of_values ?_
  simp

/-! ### Ids -/

theorem android_readId_of_wellFormed (h : Android.WellFormed signer s) :
    ∃ id, Android.readId signer s = some id ∧ addressBytes s = some id := by
  suffices hread : ∃ id, Android.readId signer s = some id by
    obtain ⟨id, hid⟩ := hread
    exact ⟨id, hid, (Android.readId_exact_iff hid).2 h⟩
  cases signer with
  | tokenMint | tokenTransfer =>
    obtain ⟨bs, hbs, -⟩ := Hex64.exists_bytes h
    exact ⟨_, by rw [Android.readId, hexToBytes_of_hexBytes hbs]; rfl⟩
  | walletTransfer =>
    obtain ⟨bs, hbs, -⟩ := Hex64.exists_bytes h
    exact ⟨_, by rw [Android.readId_walletTransfer_of_hex64 h, hexToBytes_of_hexBytes hbs]; rfl⟩
  | assetLaunch =>
    obtain ⟨bs, hbs, hlen⟩ := Hex64.exists_bytes h
    exact ⟨bs, by simp [Android.readId, hexToBytes_of_hexBytes hbs, hlen]⟩

theorem ios_readId_of_wellFormed (signer : Signer) (h : Ios.WellFormed s) :
    ∃ id, Ios.readId signer s = some id ∧ addressBytes s = some id := by
  obtain ⟨bs, hbs, hlen⟩ := Hex64.exists_bytes h
  have hdata : Ios.dataFromHexString s = some bs := pairBytes_of_hexBytes hbs
  have hread : Ios.readId signer s = some bs := by
    cases signer <;> simp [Ios.readId, hdata, hlen]
  exact ⟨bs, hread, (Ios.readId_exact_iff hread).2 h⟩

theorem ios_wellFormed_of_android (h : Android.WellFormed signer s) : Ios.WellFormed s := by
  obtain ⟨id, -, hid⟩ := android_readId_of_wellFormed h
  exact (addressBytes_eq_some_iff.1 hid).1

theorem supplied_hexId_eq : Supplied.hexId s = .bytes id ↔ addressBytes s = some id := by
  unfold Supplied.hexId
  cases addressBytes s <;> simp

def hexId (signer : Signer) (s : String) : Check :=
  ⟨Android.Malformed signer s, Ios.Malformed signer s, Android.WellFormed signer s⟩

theorem describes_hexId (signer : Signer) (s : String) :
    (hexId signer s).Describes (Android.hexId signer s) (Ios.hexId signer s)
      (some (Supplied.hexId s)) := by
  refine ⟨map_eq_none_iff.trans (Android.readId_eq_none_iff signer s),
    map_eq_none_iff.trans (Ios.readId_eq_none_iff signer s), ?_⟩
  constructor
  · rintro ⟨v, ha, -, hw⟩
    obtain ⟨id, hid, rfl⟩ := map_eq_some_iff.1 ha
    rw [carries_some] at hw
    exact (Android.readId_exact_iff hid).1 (supplied_hexId_eq.1 hw.symm)
  intro h
  obtain ⟨id, hid, hbytes⟩ := android_readId_of_wellFormed h
  obtain ⟨id', hid', hbytes'⟩ := ios_readId_of_wellFormed signer (ios_wellFormed_of_android h)
  cases hbytes.symm.trans hbytes'
  refine ⟨.bytes id, by rw [Android.hexId, hid]; rfl, by rw [Ios.hexId, hid']; rfl, ?_⟩
  rw [carries_some, supplied_hexId_eq.2 hbytes]

/-- An id that may be left out or empty. -/
def treasury (s : Option String) : Check where
  refusedByAndroid := ∃ t, s = some t ∧ t ≠ "" ∧ Android.Malformed .walletTransfer t
  refusedByIos := ∃ t, s = some t ∧ t ≠ "" ∧ Ios.Malformed .walletTransfer t
  kept := ∀ t, s = some t → t ≠ "" → Hex64 t.toList

theorem describes_treasury (s : Option String) :
    (treasury s).Describes (Android.treasury s) (Ios.treasury s) (Supplied.treasury s) := by
  cases s with
  | none => exact ⟨by simp [Android.treasury, treasury], by simp [Ios.treasury, treasury],
      by simp [Android.treasury, Ios.treasury, Supplied.treasury, treasury]⟩
  | some t =>
    by_cases ht : t = ""
    · exact ⟨by simp [Android.treasury, treasury, ht], by simp [Ios.treasury, treasury, ht],
        by simp [Android.treasury, Ios.treasury, Supplied.treasury, treasury, ht]⟩
    have h := describes_hexId .walletTransfer t
    simp only [Android.treasury, Ios.treasury, Supplied.treasury, if_neg ht]
    refine ⟨h.android.trans ?_, h.ios.trans ?_, h.kept.trans ?_⟩
    · simp [treasury, hexId, ht]
    · simp [treasury, hexId, ht]
    · simp [treasury, hexId, ht, Android.WellFormed]

theorem pubkeyBytes_of_pairBytes : ∀ {cs : List Char} {bs : List UInt8},
    Ios.pairBytes cs = some bs → Ios.pubkeyBytes cs = bs
  | [], _, h => some.inj h
  | [_], _, h => absurd h (by simp [Ios.pairBytes])
  | c :: d :: cs, bs, h => by
    unfold Ios.pairBytes at h
    split at h
    · rename_i b tail hb htail
      cases h
      simp only [Ios.pubkeyBytes, hb, pubkeyBytes_of_pairBytes htail]
    · simp at h

/-- A prefix `0x` is a pair that is passed over. -/
theorem pubkeyBytes_strip (cs : List Char) :
    Ios.pubkeyBytes (stripHexPrefix cs) = Ios.pubkeyBytes cs := by
  unfold stripHexPrefix
  split
  · rename_i rest
    have hprefix : Ios.uint8Radix16 '0' 'x' = none := by decide
    simp only [Ios.pubkeyBytes, hprefix]
  · rfl

def owner (did : String) : Check :=
  ⟨did = "", False, Hex64 (stripHexPrefix (removeDidPrefix did).toList)⟩

theorem describes_owner (did : String) :
    (owner did).Describes (if did = "" then none else some (Supplied.owner did))
      (some (.bytes (Ios.pubkeyBytes (removeDidPrefix did).toList))) (some (Supplied.owner did)) := by
  refine ⟨by simp [owner], by simp [owner], ?_⟩
  constructor
  · rintro ⟨v, -, hi, hw⟩
    cases hi
    rw [carries_some] at hw
    exact (addressBytes_eq_some_iff.1 (supplied_hexId_eq.1 hw.symm)).1
  intro h
  obtain ⟨bs, hbs, -⟩ := Hex64.exists_bytes h
  have hkey : Ios.pubkeyBytes (removeDidPrefix did).toList = bs := by
    rw [← pubkeyBytes_strip]
    exact pubkeyBytes_of_pairBytes (pairBytes_of_hexBytes hbs)
  have howner : Supplied.owner did = .bytes bs :=
    supplied_hexId_eq.2 (addressBytes_eq_some_iff.2 ⟨h, hbs⟩)
  have hne : did ≠ "" := by
    rintro rfl
    exact nomatch h.1
  exact ⟨.bytes bs, by rw [if_neg hne, howner], by rw [hkey], by rw [howner, carries_some]⟩

/-! ### Amounts -/

theorem mem_digits_of_isDigit (h : c.isDigit = true) :
    c ∈ ['0', '1', '2', '3', '4', '5', '6', '7', '8', '9'] := by
  obtain ⟨hlo, hhi⟩ : 48 ≤ c.toNat ∧ c.toNat ≤ 57 := isDigit_iff_toNat.1 h
  rw [← ofNat_toNat c]
  generalize c.toNat = k at hlo hhi
  interval_cases k <;> decide

theorem android_trim_of_digits (h : ∀ c ∈ s.toList, c.isDigit = true) : Android.trim s = s := by
  refine trimWith_eq_self fun c hc => ?_
  have hdigits : ['0', '1', '2', '3', '4', '5', '6', '7', '8', '9'].all (fun c =>
      !((0x09 ≤ c.val && c.val ≤ 0x0D) || (0x1C ≤ c.val && c.val ≤ 0x1F) || isSeparator c)) =
        true := by decide
  simpa only [Bool.not_eq_true'] using all_eq_true.1 hdigits c (mem_digits_of_isDigit (h c hc))

theorem timesTenPlus_eq {lo hi d : Nat} (hlo : lo < 2 ^ 64) (hhi : hi < 2 ^ 64) (hd : d ≤ 9) :
    Ios.timesTenPlus (lo, hi) d = if 10 * (hi * 2 ^ 64 + lo) + d < 2 ^ 128 then
        some ((10 * (hi * 2 ^ 64 + lo) + d) % 2 ^ 64, (10 * (hi * 2 ^ 64 + lo) + d) / 2 ^ 64)
      else none := by
  unfold Ios.timesTenPlus
  dsimp only
  split
  · rw [if_neg (by omega)]
  split
  · rw [if_neg (by omega)]
  split
  · rw [if_neg (by omega)]
  rw [if_pos (by omega)]
  congr 1
  refine Prod.ext ?_ ?_
  · dsimp only
    omega
  · dsimp only
    omega

theorem ofDigitChars_le (cs : List Char) (n : Nat) : n ≤ Nat.ofDigitChars 10 cs n := by
  induction cs generalizing n with
  | nil => simp
  | cons c cs ih =>
    rw [Nat.ofDigitChars_cons]
    exact le_trans (by omega) (ih _)

/-- The loop computes the number, unless it leaves 128 bits. -/
theorem halvesLoop_eq (hdigit : ∀ c : Char, c.isDigit = true → digit c = some (c.toNat - 48))
    (cs : List Char) :
    ∀ n < 2 ^ 128, (∀ c ∈ cs, c.isDigit = true) → Ios.halvesLoop digit (n % 2 ^ 64, n / 2 ^ 64) cs =
        if Nat.ofDigitChars 10 cs n < 2 ^ 128 then
          some (Nat.ofDigitChars 10 cs n % 2 ^ 64, Nat.ofDigitChars 10 cs n / 2 ^ 64)
        else none := by
  induction cs with
  | nil =>
    intro n hn _
    rw [Nat.ofDigitChars_nil, if_pos hn]
    rfl
  | cons c cs ih =>
    intro n hn hcs
    have hc : 48 ≤ c.toNat ∧ c.toNat ≤ 57 := isDigit_iff_toNat.1 (hcs c (by simp))
    have hd : c.toNat - 48 ≤ 9 := by omega
    have hjoin : n / 2 ^ 64 * 2 ^ 64 + n % 2 ^ 64 = n := Nat.div_add_mod' n (2 ^ 64)
    unfold Ios.halvesLoop
    simp only [hdigit c (hcs c (by simp)), if_neg (show ¬ 9 < c.toNat - 48 by omega)]
    rw [timesTenPlus_eq (by omega) (by omega) hd, hjoin]
    by_cases hnext : 10 * n + (c.toNat - 48) < 2 ^ 128
    · rw [if_pos hnext]
      exact ih _ hnext fun c' hc' => hcs c' (by simp [hc'])
    · rw [if_neg hnext]
      have hle := ofDigitChars_le cs (10 * n + (c.toNat - 48))
      exact (if_neg (show ¬ Nat.ofDigitChars 10 cs (10 * n + (c.toNat - 48)) < 2 ^ 128 by omega)).symm

theorem parseU128Halves_eq (hdigit : ∀ c : Char, c.isDigit = true → digit c = some (c.toNat - 48))
    (hne : s.toList ≠ []) (hdigits : ∀ c ∈ s.toList, c.isDigit = true) :
    Ios.parseU128Halves digit s = if AssetService.bigInt s.toList < 2 ^ 128 then
        some (AssetService.bigInt s.toList % 2 ^ 64, AssetService.bigInt s.toList / 2 ^ 64)
      else none := by
  rw [Ios.parseU128Halves, if_neg hne]
  exact halvesLoop_eq hdigit s.toList 0 (by decide) hdigits

def amount (E : Env) (s : String) : Check where
  refusedByAndroid := ¬ Decimal128 (Android.trim s).toList
  refusedByIos := Ios.parseU128Halves E.ios.wholeNumberValue s = none
  kept := Decimal128 s.toList

theorem describes_amount (E : Env) (s : String) :
    (amount E s).Describes (Android.amount s) (Ios.amount E s) (some (Supplied.amount s)) := by
  refine ⟨?_, map_eq_none_iff, ?_⟩
  · unfold Android.amount Android.parseAmountAtoms
    rw [map_eq_none_iff]
    simp [amount]
  constructor
  · rintro ⟨v, ha, -, hw⟩
    obtain ⟨n, -, rfl⟩ := map_eq_some_iff.1 ha
    rw [carries_some] at hw
    by_contra hnot
    rw [Supplied.amount, if_neg (show ¬ Decimal128 s.toList from hnot)] at hw
    simp at hw
  · intro h
    have hdecimal : Decimal128 s.toList := h
    obtain ⟨hne, hdigits, hlt⟩ := h
    refine ⟨.number (AssetService.bigInt s.toList), ?_, ?_, ?_⟩
    · unfold Android.amount Android.parseAmountAtoms
      simp only [android_trim_of_digits hdigits, if_pos hdecimal]
      rfl
    · rw [Ios.amount, parseU128Halves_eq E.ios.wholeNumberValue_digit hne hdigits, if_pos hlt]
      simp only [map_some, some.injEq, Value.number.injEq, Nat.cast_inj]
      exact Nat.div_add_mod' _ _
    · rw [carries_some, Supplied.amount, if_pos hdecimal]

/-! ### Supplies -/

/-- A loop that gives up at what is no digit, and cannot take up again. -/
theorem isDigit_of_foldl {f : Option Nat → Char → Option Nat}
    (hf : ∀ m c, f m c ≠ none → m ≠ none ∧ c.isDigit = true) (cs : List Char) :
    ∀ m, cs.foldl f m ≠ none → m ≠ none ∧ ∀ c ∈ cs, c.isDigit = true := by
  induction cs with
  | nil => exact fun m h => ⟨h, by simp⟩
  | cons c cs ih =>
    intro m h
    obtain ⟨hstep, hcs⟩ := ih _ h
    obtain ⟨hm, hc⟩ := hf m c hstep
    exact ⟨hm, forall_mem_cons.2 ⟨hc, hcs⟩⟩

theorem isDigit_of_digits10 (h : digits10 Ios.decimalDigit cs = some n) :
    cs ≠ [] ∧ ∀ c ∈ cs, c.isDigit = true := by
  cases cs with
  | nil => simp [digits10] at h
  | cons c cs =>
    have hsome : digits10 Ios.decimalDigit (c :: cs) ≠ none := by simp [h]
    refine ⟨by simp, (isDigit_of_foldl (fun m c hstep => ?_) (c :: cs) (some 0) hsome).2⟩
    cases m with
    | none => exact absurd rfl hstep
    | some m =>
      refine ⟨by simp, ?_⟩
      by_contra hc
      exact hstep (by simp [Ios.decimalDigit, hc])

theorem digits10_android (h : digits10 Ios.decimalDigit cs = some n) :
    digits10 Android.characterDigit10 cs = some n := by
  obtain ⟨hne, hdigits⟩ := isDigit_of_digits10 h
  rw [digits10_of_isDigit Ios.decimalDigit_of_isDigit hne hdigits] at h
  rw [digits10_of_isDigit Android.characterDigit10_of_isDigit hne hdigits, h]

theorem toLong_of_uint64 (h : Ios.uint64 s = some n) :
    Android.toLong s = if n < 2 ^ 63 then some (n : Int) else none := by
  -- what is left to do once the digits are read
  have hfits : ∀ parsed : Option Int, parsed = some (Int.ofNat n) →
      (parsed.filter fun n => -2 ^ 63 ≤ n && n < 2 ^ 63) =
        if n < 2 ^ 63 then some (n : Int) else none := by
    rintro _ rfl
    rw [filter_some]
    refine if_congr ?_ rfl rfl
    rw [Int.ofNat_eq_natCast, Bool.and_eq_true, decide_eq_true_iff, decide_eq_true_iff]
    omega
  unfold Ios.uint64 at h
  refine hfits _ ?_
  split at h
  · obtain ⟨hdigits, hzero⟩ := filter_eq_some_iff.1 h
    obtain rfl : n = 0 := of_decide_eq_true hzero
    simp only [digits10_android hdigits]
    rfl
  · obtain ⟨hdigits, -⟩ := filter_eq_some_iff.1 h
    simp only [digits10_android hdigits, map_some]
  · obtain ⟨hdigits, -⟩ := filter_eq_some_iff.1 h
    rw [digits10_android hdigits, map_some]

/-- A number below 2^63, as a string or as a number. -/
def Half (v : StringOrNumber) : Prop := ∃ n : Nat, Supplied.supplyHalf v = .number n ∧ n < 2 ^ 63

theorem parseAmount_of_half (h : Supplied.supplyHalf v = .number n) (hlt : n < 2 ^ 63) :
    Android.parseAmount v = some (n : Int) := by
  cases v with
  | string s =>
    simp only [Supplied.supplyHalf] at h
    split at h
    · rename_i m hm
      obtain rfl : m = n := by exact_mod_cast Value.number.inj h
      rw [Android.parseAmount, toLong_of_uint64 hm, if_pos hlt]
    · simp at h
  | number x =>
    obtain ⟨m, rfl, hm⟩ := supplied_number_eq.1 h
    rw [Android.parseAmount, Android.doubleToLong_nat]
    congr 1
    omega

theorem supplyHalf_of_half (E : Env) (h : Supplied.supplyHalf v = .number n) (hlt : n < 2 ^ 63) :
    Ios.supplyHalf E.ios.toNSNumber v = some n := by
  cases v with
  | string s =>
    simp only [Supplied.supplyHalf] at h
    split at h
    · rename_i m hm
      obtain rfl : m = n := by exact_mod_cast Value.number.inj h
      exact hm
    · simp at h
  | number x =>
    obtain ⟨m, rfl, hm⟩ := supplied_number_eq.1 h
    obtain rfl : n = m := by exact_mod_cast hm
    rw [Ios.supplyHalf, E.ios.uint64Value_nat n (by omega)]

/-- Android says no number of 2^63 or more. -/
theorem half_of_android {k : Int}
    (hk : k = 0 ∧ Android.parseAmount v = none ∨ ∃ a, Android.parseAmount v = some a ∧ k = a % 2 ^ 64)
    (h : Supplied.supplyHalf v = .number k) : Half v := by
  cases v with
  | string s =>
    simp only [Supplied.supplyHalf] at h
    split at h
    · rename_i n hn
      obtain rfl := Value.number.inj h
      have hlong := toLong_of_uint64 hn
      refine ⟨n, by simp only [Supplied.supplyHalf, hn], ?_⟩
      by_contra hge
      rw [if_neg hge] at hlong
      rcases hk with ⟨hk, -⟩ | ⟨a, ha, -⟩
      · omega
      · exact nomatch hlong.symm.trans ha
    · simp at h
  | number x =>
    obtain ⟨n, rfl, rfl⟩ := supplied_number_eq.1 h
    refine ⟨n, h, ?_⟩
    rcases hk with ⟨hk, -⟩ | ⟨a, ha, hk⟩
    · omega
    have ha' := some.inj ha
    rw [Android.doubleToLong_nat] at ha'
    omega

def supplyLo (E : Env) (v : StringOrNumber) : Check :=
  ⟨Android.parseAmount v = none, Ios.supplyHalf E.ios.toNSNumber v = none, Half v⟩

theorem describes_supplyLo (E : Env) (v : StringOrNumber) :
    (supplyLo E v).Describes (Android.supplyLo v) (Ios.supplyLo E v)
      (some (Supplied.supplyHalf v)) := by
  refine ⟨map_eq_none_iff, map_eq_none_iff, ?_⟩
  constructor
  · rintro ⟨w, ha, -, hw⟩
    obtain ⟨a, hparse, rfl⟩ := map_eq_some_iff.1 ha
    rw [carries_some] at hw
    exact half_of_android (.inr ⟨a, hparse, rfl⟩) hw.symm
  rintro ⟨n, hn, hlt⟩
  refine ⟨.number n, ?_, ?_, by rw [carries_some, hn]⟩
  · rw [Android.supplyLo, parseAmount_of_half hn hlt, map_some]
    congr 2
    omega
  · rw [Ios.supplyLo, supplyHalf_of_half E hn hlt, map_some]

def supplyHi (v : Option StringOrNumber) : Check := ⟨False, False, ∀ y, v = some y → Half y⟩

theorem describes_supplyHi (E : Env) (v : Option StringOrNumber) :
    (supplyHi v).Describes (some (Android.supplyHi v)) (some (Ios.supplyHi E v))
      (v.map Supplied.supplyHalf) := by
  refine .of_values ?_
  cases v with
  | none => simp [Android.supplyHi, Ios.supplyHi]
  | some y =>
    rw [map_some, carries_some]
    constructor
    · rintro ⟨-, hw⟩ y' hy'
      cases hy'
      refine half_of_android ?_ hw.symm
      cases ha : Android.parseAmount y with
      | none => exact .inl ⟨by simp, rfl⟩
      | some a => exact .inr ⟨a, rfl, by simp⟩
    · intro h
      obtain ⟨n, hn, hlt⟩ := h y rfl
      rw [hn, Android.supplyHi, Ios.supplyHi, parseAmount_of_half hn hlt,
        supplyHalf_of_half E hn hlt, getD_some]
      have hwrap : (n : Int) % 2 ^ 64 = n := by omega
      rw [hwrap]
      exact ⟨rfl, rfl⟩

/-! ### Manifests -/

/-- Two ids that are set together or left out together. -/
def manifest (cid hash : Option String) : Check where
  refusedByAndroid :=
    Android.isNullOrBlank cid ≠ Android.isNullOrBlank hash ∨
      Android.isNullOrBlank cid = false ∧
        (Android.manifestBytes cid = none ∨ Android.manifestBytes hash = none)
  refusedByIos :=
    Supplied.isOmitted cid ≠ Supplied.isOmitted hash ∨
      Supplied.isOmitted cid = false ∧
        (cid.bind (Ios.readId .assetLaunch) = none ∨ hash.bind (Ios.readId .assetLaunch) = none)
  kept :=
    (Supplied.isOmitted cid = true ∧ Supplied.isOmitted hash = true) ∨
      ∃ c h, cid = some c ∧ hash = some h ∧ Hex64 (stripHexPrefix c.toList) ∧
        Hex64 (stripHexPrefix h.toList)

theorem isNullOrBlank_of_isOmitted {s : Option String} (h : Supplied.isOmitted s = true) :
    Android.isNullOrBlank s = true := by
  cases s with
  | none => rfl
  | some t =>
    obtain rfl : t = "" := of_decide_eq_true h
    decide

/-- An id of 64 digits is read in the same way by both. -/
theorem manifestBytes_of_hex64 (h : Hex64 (stripHexPrefix s.toList)) :
    ∃ id, Android.manifestBytes (some s) = some id ∧ Ios.readId .assetLaunch s = some id ∧
      addressBytes s = some id := by
  obtain ⟨id, hid, hbytes⟩ := ios_readId_of_wellFormed .assetLaunch h
  exact ⟨id, hexToBytes_of_hexBytes (addressBytes_eq_some_iff.1 hbytes).2, hid, hbytes⟩

theorem mem_of_mem_stripHexPrefix (h : c ∈ stripHexPrefix cs) : c ∈ cs := by
  unfold stripHexPrefix at h
  split at h
  · exact mem_cons_of_mem _ (mem_cons_of_mem _ h)
  · exact h

theorem trimWith_ne_empty {isSpace : Char → Bool} (hc : c ∈ s.toList) (hspace : isSpace c = false) :
    trimWith isSpace s ≠ "" := by
  intro h
  have hlist := congrArg String.toList h
  rw [trimWith, String.toList_ofList, String.toList_empty, reverse_eq_nil_iff,
    dropWhile_eq_nil_iff] at hlist
  rw [← takeWhile_append_dropWhile (p := isSpace) (l := s.toList), mem_append] at hc
  rcases hc with hc | hc
  · exact absurd (mem_takeWhile_imp hc) (by simp [hspace])
  · exact absurd (hlist c (mem_reverse.2 hc)) (by simp [hspace])

theorem not_space_of_hexValue (h : (hexValue c).isSome = true) :
    ((0x09 ≤ c.val && c.val ≤ 0x0D) || (0x1C ≤ c.val && c.val ≤ 0x1F) || isSeparator c) = false := by
  have hrange : 48 ≤ c.toNat ∧ c.toNat ≤ 102 := by
    unfold hexValue at h
    split_ifs at h
    · omega
    · omega
    · omega
    · simp at h
  obtain ⟨hlo, hhi⟩ := hrange
  rw [← ofNat_toNat c]
  generalize c.toNat = k at hlo hhi
  interval_cases k <;> decide

theorem flags_of_hex64 (h : Hex64 (stripHexPrefix s.toList)) :
    Android.isNullOrBlank (some s) = false ∧ Supplied.isOmitted (some s) = false := by
  obtain ⟨c, hc⟩ := exists_mem_of_length_pos (h.1.symm ▸ (by decide : 0 < 64))
  have htrim : Android.trim s ≠ "" :=
    trimWith_ne_empty (mem_of_mem_stripHexPrefix hc) (not_space_of_hexValue (h.2 c hc))
  refine ⟨decide_eq_false htrim, decide_eq_false ?_⟩
  rintro rfl
  exact htrim (by decide)

theorem manifest_kept_of_hex64 {c h : String} (hc : Hex64 (stripHexPrefix c.toList))
    (hh : Hex64 (stripHexPrefix h.toList)) :
    ∃ v, Android.manifest (some c) (some h) = some v ∧ Ios.manifest (some c) (some h) = some v ∧
      Carries (Supplied.manifest (some c) (some h)) v := by
  obtain ⟨cid, hac, hic, hsc⟩ := manifestBytes_of_hex64 hc
  obtain ⟨hash, hah, hih, hsh⟩ := manifestBytes_of_hex64 hh
  refine ⟨.manifest cid hash, ?_, ?_, ?_⟩
  · simp only [Android.manifest, (flags_of_hex64 hc).1, (flags_of_hex64 hh).1, hac, hah]
  · simp only [Ios.manifest, (flags_of_hex64 hc).2, (flags_of_hex64 hh).2, bind_some, hic, hih]
  · simp [Supplied.manifest, (flags_of_hex64 hc).2, hsc, hsh]

theorem hex64_of_bind_addressBytes {s : Option String} (h : s.bind addressBytes = some id) :
    ∃ t, s = some t ∧ Hex64 (stripHexPrefix t.toList) := by
  obtain ⟨t, rfl, ht⟩ := bind_eq_some_iff.1 h
  exact ⟨t, rfl, (addressBytes_eq_some_iff.1 ht).1⟩

theorem describes_manifest (cid hash : Option String) :
    (manifest cid hash).Describes (Android.manifest cid hash) (Ios.manifest cid hash)
      (Supplied.manifest cid hash) := by
  refine ⟨?_, ?_, ?_⟩
  · unfold Android.manifest manifest
    generalize Android.manifestBytes cid = c, Android.manifestBytes hash = h
    cases Android.isNullOrBlank cid <;> cases Android.isNullOrBlank hash <;>
      cases c <;> cases h <;> simp
  · unfold Ios.manifest manifest
    generalize cid.bind (Ios.readId .assetLaunch) = c, hash.bind (Ios.readId .assetLaunch) = h
    cases Supplied.isOmitted cid <;> cases Supplied.isOmitted hash <;> cases c <;> cases h <;> simp
  constructor
  · rintro ⟨v, -, hi, hw⟩
    by_cases hboth : Supplied.isOmitted cid = true ∧ Supplied.isOmitted hash = true
    · exact .inl hboth
    right
    unfold Supplied.manifest at hw
    rw [← Bool.and_eq_true] at hboth
    rw [if_neg hboth] at hw
    split at hw
    · rename_i hc hh
      obtain ⟨c, rfl, hcid⟩ := hex64_of_bind_addressBytes hc
      obtain ⟨h, rfl, hhash⟩ := hex64_of_bind_addressBytes hh
      exact ⟨c, h, rfl, rfl, hcid, hhash⟩
    rw [carries_some] at hw
    subst hw
    unfold Ios.manifest at hi
    split at hi
    · simp at hi
    · split at hi <;> simp at hi
    · simp at hi
  · rintro (⟨hc, hh⟩ | ⟨c, h, rfl, rfl, hc, hh⟩)
    · refine ⟨.absent, ?_, ?_, ?_⟩
      · simp only [Android.manifest, isNullOrBlank_of_isOmitted hc, isNullOrBlank_of_isOmitted hh]
      · simp only [Ios.manifest, hc, hh]
      · simp [Supplied.manifest, hc, hh]
    · exact manifest_kept_of_hex64 hc hh

/-! ## Calls -/

/-- A constant that JavaScript has no parameter for. -/
def constant : Check := ⟨False, False, True⟩

theorem describes_constant (v : Value) : constant.Describes (some v) (some v) none :=
  .of_values (by simp)

end Check

namespace SignCall

variable (E : Env)

open Check

def tokenTransferChecks (p : TokenTransferParams) : List Check :=
  [hexId .tokenTransfer p.tokenId, hexId .tokenTransfer p.toAddress, amount E p.amount, constant,
   fetchedNonce E p.nonce]

def sovWalletTransferChecks (p : SovWalletTransferParams) : List Check :=
  [hexId .walletTransfer p.fromWalletId, hexId .walletTransfer p.toWalletId, amount E p.amount,
   below 256 p.chainId, nonce p.nonce]

/-- What is to be known about a call, parameter by parameter. -/
def checks : SignCall → List Check
  | .tokenTransfer p => tokenTransferChecks E p
  | .sovWalletTransfer p => sovWalletTransferChecks E p
  | .tokenWalletTransfer p =>
    hexId .walletTransfer p.tokenId :: sovWalletTransferChecks E p.toSovWalletTransferParams
  | .assetLaunch p =>
    [text p.name, text p.symbol, supplyLo E p.initialSupplyAtomsLo,
     supplyHi p.initialSupplyAtomsHi, below 256 p.decimals, hexId .assetLaunch p.treasuryKeyIdHex,
     below 256 p.daoClass, below 65536 p.burnBps, below 256 p.chainId,
     manifest p.manifestCidHex p.manifestHashHex]
  | .domainRegister p =>
    [text p.domain, json E.parsesMappings p.contentMappingsJson, requiredText p.feePaymentTxHex]
  | .domainRegisterWithFeePayment p =>
    [text p.domain, json E.parsesMappings p.contentMappingsJson, text p.feePaymentTxHex,
     metadata E p.metadataJson p.contentMappingsJson, domainChainId E p.chainId,
     dropped p.assetIdHex]
  | .domainFeePayment p =>
    [hexId .walletTransfer p.senderWalletIdHex, treasury p.treasuryWalletIdHex,
     amount E p.amountAtoms, nonce p.nonce, below 256 p.chainId]
  | .domainUpdate p => [text p.domain, text p.newManifestCid, droppedByIos]
  | .domainTransfer p => [text p.domain, owner p.toOwnerDid]

theorem described_sovWalletTransfer (p : SovWalletTransferParams) :
    Described (sovWalletTransferChecks E p) (Android.signSovWalletTransferTransaction p)
      (Ios.signSovWalletTransferTransaction E p) (Supplied.sovWalletTransfer p) :=
  .cons (describes_hexId _ _) <| .cons (describes_hexId _ _) <| .cons (describes_amount E _) <|
    .cons (describes_chainId E _) <| .cons (describes_nonce E _) .nil

theorem described (c : SignCall) :
    Described (c.checks E) (Android.args E c) (Ios.args E c) (Supplied.args c) := by
  cases c with
  | tokenTransfer p =>
    exact .cons (describes_hexId _ _) <| .cons (describes_hexId _ _) <|
      .cons (describes_amount E _) <| .cons (describes_constant _) <|
      .cons (describes_fetchedNonce E _) .nil
  | sovWalletTransfer p => exact described_sovWalletTransfer E p
  | tokenWalletTransfer p =>
    exact .cons (describes_hexId _ _) (described_sovWalletTransfer E p.toSovWalletTransferParams)
  | assetLaunch p =>
    exact .cons (describes_text _) <| .cons (describes_text _) <|
      .cons (describes_supplyLo E _) <| .cons (describes_supplyHi E _) <|
      .cons (describes_truncating E (by decide) (by decide) 18 _) <|
      .cons (describes_hexId _ _) <|
      .cons (describes_truncating E (by decide) (by decide) 0 _) <|
      .cons (describes_truncating E (by decide) (by decide) 0 _) <|
      .cons (describes_truncating E (by decide) (by decide) 3 _) <|
      .cons (describes_manifest _ _) .nil
  | domainRegister p =>
    exact .cons (describes_text _) <| .cons (describes_json _ _) <|
      .cons (describes_requiredText _) .nil
  | domainRegisterWithFeePayment p =>
    exact .cons (describes_text _) <| .cons (describes_json _ _) <|
      .cons (describes_text _) <| .cons (describes_metadata E _ _) <|
      .cons (describes_domainChainId E _) <| .cons (describes_dropped _) .nil
  | domainFeePayment p =>
    exact .cons (describes_hexId _ _) <| .cons (describes_treasury _) <|
      .cons (describes_amount E _) <| .cons (describes_nonce E _) <|
      .cons (describes_chainId E _) .nil
  | domainUpdate p =>
    exact .cons (describes_text _) <| .cons (describes_text _) <|
      .cons (describes_droppedByIos _) .nil
  | domainTransfer p =>
    exact .cons (describes_text _) <| .cons (describes_owner _) .nil

/-- Without an identity both platforms reject every call. -/
theorem passedOn_iff (c : SignCall) :
    c.PassedOn E ↔ E.hasIdentity = false ∨
      ((∃ k ∈ c.checks E, k.refusedByAndroid) ∧ ∃ k ∈ c.checks E, k.refusedByIos) ∨
      ∀ k ∈ c.checks E, k.kept := by
  unfold PassedOn builderArgs
  have h := described E c
  cases E.hasIdentity with
  | false => simp
  | true =>
    simp only [if_true, Bool.true_eq_false, false_or]
    rw [h.android_none, h.ios_none, h.all_kept]

end SignCall

/-- Numbers as they are, and only ASCII digits. -/
def Ios.exactFoundation : Ios.Foundation where
  uint64Value x := (JsNumber.toNat? x).getD 0 % 2 ^ 64
  intValue x := ((JsNumber.toNat? x).getD 0 : Nat)
  uint8Value x := (JsNumber.toNat? x).getD 0 % 256
  wholeNumberValue c := if c.isDigit then some (c.toNat - 48) else none
  uint64Value_lt x := by omega
  uint64Value_nat n hn := by
    rw [toNat?_eq_some_iff.2 rfl, Option.getD_some]
    omega
  intValue_nat n hn := by rw [toNat?_eq_some_iff.2 rfl, Option.getD_some]
  uint8Value_nat n hn := by
    rw [toNat?_eq_some_iff.2 rfl, Option.getD_some]
    omega
  wholeNumberValue_digit c hc := if_pos hc

/-- An identity is loaded, the node reports the nonce 9, and every text is JSON. -/
def exampleEnv : Env := ⟨true, some 9, fun _ => true, fun _ => true, 3, Ios.exactFoundation⟩

theorem SignCall.not_passedOn {E : Env} {c : SignCall} (args : List Value)
    (ha : builderArgs E (Android.args E c) = some args)
    (h : builderArgs E (Ios.args E c) = some args → ¬ List.Forall₂ Carries (Supplied.args c) args) :
    ¬ c.PassedOn E := by
  rintro (⟨hnone, -⟩ | ⟨args', ha', hi, hw⟩)
  · exact nomatch hnone.symm.trans ha
  · obtain rfl := some.inj (ha.symm.trans ha')
    exact h hi hw

/-- iOS leaves out the expected CID, both platforms leave out the asset id, and Android signs with
    the nonce 9 where JavaScript asked for 7. -/
theorem SignCall.parameters_not_passedOn :
    ¬ PassedOn exampleEnv (.domainUpdate ⟨"a.sov", "bafy-new", "bafy-old"⟩) ∧
    ¬ PassedOn exampleEnv (.domainRegisterWithFeePayment
      ⟨⟨"a.sov", none, "00"⟩, none, none, some "aa"⟩) ∧
    ¬ PassedOn exampleEnv (.tokenTransfer
      ⟨String.ofList (List.replicate 64 '1'), String.ofList (List.replicate 64 '2'), "5",
        .finite 7⟩) := by
  refine ⟨?_, ?_, ?_⟩
  · refine not_passedOn [.text "a.sov", .text "bafy-new", .text "bafy-old"]
      (by decide) fun hi => ?_
    exact nomatch hi
  · refine not_passedOn
      [.text "a.sov", .absent, .text "00", .absent, .number 3, .absent]
      (by decide) fun _ hw => ?_
    simp [Supplied.args, Supplied.domainRegisterWithFeePayment, Supplied.domainRegister] at hw
  · refine not_passedOn
      [.bytes (replicate 32 0x11), .bytes (replicate 32 0x22), .number 5, .number 3,
        .number 9] (by decide) fun hi => ?_
    exact nomatch hi

end NativeIdentityProvisioning
