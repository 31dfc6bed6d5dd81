import SovereignMobile.Pouw.TextDecoders

/-! # Hexadecimal digits taken for base64

Every hexadecimal digit is a symbol of base64 too, so that the digits of a token have a reading in
base64 that succeeds. Its bytes are far from those of a token: none begins a nonce, and the first one is
not ASCII, so that it begins no JSON value either. -/

namespace Pouw

open Protobuf List
open Base64 (octets symbol value)
open NativeIdentityProvisioning (hexValue trimWith trimWith_split)
open UInt8 (toNat_ofNat')

/-! ## `atob` -/

def isAsciiSpace (c : Char) : Bool := ([0x09, 0x0A, 0x0C, 0x0D, 0x20] : List Nat).contains c.toNat

/-- Without `=` or `==` at the end. -/
def dropPad (cs : List Char) : List Char :=
  match cs.reverse with
  | '=' :: '=' :: rest => rest.reverse
  | '=' :: rest => rest.reverse
  | _ => cs

/-- `atob`, which throws on anything but symbols and their padding. -/
def atob (s : String) : Option (List UInt8) :=
  let data := s.toList.filter fun c => !isAsciiSpace c
  let data := if data.length % 4 = 0 then dropPad data else data
  if data.length % 4 = 1 then none
  else (data.mapM Base64.value).map Base64.octets

variable {n : Nat} {ns : List Nat} {count : String → Nat} {fs : List Field}

theorem symbol_plain (h : n < 64) : isAsciiSpace (symbol n) = false ∧ symbol n ≠ '=' := by
  have hall : ∀ i < 64, isAsciiSpace (symbol i) = false ∧ symbol i ≠ '=' := by decide
  exact hall n h

theorem dropPad_symbols (hns : ∀ n ∈ ns, n < 64) {k : Nat} (hk : k ≤ 2) :
    dropPad (ns.map symbol ++ replicate k '=') = ns.map symbol := by
  have hrev : (ns.map symbol ++ replicate k '=').reverse =
      replicate k '=' ++ (ns.map symbol).reverse := by
    rw [reverse_append, reverse_replicate]
  have hback : (ns.map symbol).reverse.reverse = ns.map symbol := reverse_reverse _
  have hplain : ∀ c ∈ (ns.map symbol).reverse, c ≠ '=' := by
    intro c hc
    obtain ⟨n, hn, rfl⟩ := mem_map.1 (mem_reverse.1 hc)
    exact (symbol_plain (hns n hn)).2
  unfold dropPad
  rw [hrev]
  generalize (ns.map symbol).reverse = cs at hback hplain
  obtain rfl | rfl | rfl : k = 0 ∨ k = 1 ∨ k = 2 := by omega
  · cases cs with
    | nil => rw [← hback]; rfl
    | cons c cs =>
      have hc : c ≠ '=' := hplain c mem_cons_self
      rw [replicate_zero]
      split
      · rename_i heq
        exact absurd (cons.inj heq).1 hc
      · rename_i heq
        exact absurd (cons.inj heq).1 hc
      · exact append_nil _
  · cases cs with
    | nil => rw [← hback]; rfl
    | cons c cs =>
      have hc : c ≠ '=' := hplain c mem_cons_self
      rw [← hback]
      split
      · rename_i heq
        exact absurd (cons.inj (cons.inj heq).2).1 hc
      · rename_i heq
        rw [← (cons.inj heq).2]
        rfl
      · rename_i hone
        exact absurd rfl (hone _)
  · rw [← hback]
    rfl

theorem atob_decodes : Decodes atob := by
  intro ns k hns hk hlen
  have hfilter : (ns.map symbol ++ replicate k '=').filter (fun c => !isAsciiSpace c) =
      ns.map symbol ++ replicate k '=' := by
    rw [filter_eq_self]
    intro c hc
    rcases mem_append.1 hc with hc | hc
    · obtain ⟨n, hn, rfl⟩ := mem_map.1 hc
      rw [(symbol_plain (hns n hn)).1]
      rfl
    · rw [eq_of_mem_replicate hc]
      rfl
  have hvalues : (ns.map symbol).mapM value = some ns := by
    clear hlen hfilter
    induction ns with
    | nil => rfl
    | cons n ns ih =>
      have htail := ih fun i hi => hns i (mem_cons_of_mem _ hi)
      rw [map_cons, mapM_cons, Base64.value_symbol (hns n mem_cons_self), htail]
      rfl
  have hshort : (ns.map symbol).length % 4 ≠ 1 := by
    rw [length_map]
    omega
  have hfour : (ns.map symbol ++ replicate k '=').length % 4 = 0 := by
    rw [length_append, length_map, length_replicate]
    exact hlen
  unfold atob
  rw [String.toList_ofList]
  dsimp only
  rw [hfilter, if_pos hfour, dropPad_symbols hns hk, if_neg hshort, hvalues]
  rfl

/-! ## Texts that are not ASCII -/

section
variable {s : String} {c : Char}

theorem ne_of_le {d : Char} (h : 128 ≤ c.toNat) (hd : d.toNat < 128) : c ≠ d := by
  rintro rfl
  omega

theorem mem_trimWith {isSpace : Char → Bool} (hc : c ∈ s.toList) (hspace : isSpace c = false) :
    c ∈ (trimWith isSpace s).toList := by
  obtain ⟨front, back, hsplit, hfront, hback⟩ := trimWith_split isSpace s
  rw [hsplit] at hc
  rcases mem_append.1 hc with hc | hc
  · rcases mem_append.1 hc with hc | hc
    · rw [hfront c hc] at hspace
      cases hspace
    · exact hc
  · rw [hback c hc] at hspace
    cases hspace

theorem mem_normalizeBase64 (count : String → Nat) (hc : c ∈ s.toList) (hhigh : 128 ≤ c.toNat) :
    c ∈ (normalizeBase64 count s).toList := by
  have hkeep : (if c = '-' then '+' else if c = '_' then '/' else c) = c := by
    rw [if_neg (ne_of_le hhigh (by decide)), if_neg (ne_of_le hhigh (by decide))]
  have hmap : c ∈ s.toList.map fun c => if c = '-' then '+' else if c = '_' then '/' else c :=
    mem_map.2 ⟨c, hc, hkeep⟩
  unfold normalizeBase64
  dsimp only
  split
  · rw [String.toList_ofList]
    exact hmap
  · rw [String.toList_append, String.toList_ofList]
    exact mem_append_left _ hmap

theorem value_eq_none (hhigh : 128 ≤ c.toNat) : value c = none := by
  unfold value
  rw [if_neg (by omega), if_neg (by omega), if_neg (by omega), if_neg (ne_of_le hhigh (by decide)),
    if_neg (ne_of_le hhigh (by decide))]

theorem mem_dropPad {cs : List Char} (hc : c ∈ cs) (hpad : c ≠ '=') : c ∈ dropPad cs := by
  have hrev := mem_reverse.2 hc
  unfold dropPad
  split
  iterate 2
    · rename_i heq
      rw [heq] at hrev
      simpa [hpad] using hrev
  · exact hc

theorem atob_eq_none (hc : c ∈ s.toList) (hhigh : 128 ≤ c.toNat) : atob s = none := by
  have hspace : isAsciiSpace c = false := by
    have hall : ∀ n ∈ ([0x09, 0x0A, 0x0C, 0x0D, 0x20]), n < 128 := by decide
    rw [isAsciiSpace, contains_eq_mem, decide_eq_false_iff_not]
    exact fun hmem => absurd (hall _ hmem) (Nat.not_lt.2 hhigh)
  have hvalues : ∀ data : List Char, c ∈ data → data.mapM value = none := by
    intro data hmem
    induction data with
    | nil => cases hmem
    | cons d ds ih =>
      rw [mapM_cons]
      rcases mem_cons.1 hmem with rfl | hmem
      · rw [value_eq_none hhigh]
        rfl
      · rw [ih hmem]
        cases value d <;> rfl
  have hthrows : ∀ data : List Char, c ∈ data →
      (if data.length % 4 = 1 then none else (data.mapM value).map octets) = none := by
    intro data hmem
    rw [hvalues data hmem, Option.map_none, ite_self]
  have hdata : c ∈ s.toList.filter fun c => !isAsciiSpace c :=
    mem_filter.2 ⟨hc, by rw [hspace]; rfl⟩
  refine hthrows _ ?_
  split
  · exact mem_dropPad hdata (ne_of_le hhigh (by decide))
  · exact hdata

theorem decodeHexMaybe_eq_none {trim : String → String} (hc : c ∈ (trim s).toList)
    (hhigh : 128 ≤ c.toNat) : decodeHexMaybe trim s = none := by
  have hdigit : hexValue c = none := by
    unfold hexValue
    rw [if_neg (by omega), if_neg (by omega), if_neg (by omega)]
  have hmem : c ∈ (withoutPrefix (trim s)).toList := by
    unfold withoutPrefix
    split
    · rename_i x rest heq
      rw [heq] at hc
      split
      · rename_i hx
        have hother : c ≠ '0' ∧ c ≠ x := by
          refine ⟨ne_of_le hhigh (by decide), ?_⟩
          rcases hx with rfl | rfl
          · exact ne_of_le hhigh (by decide)
          · exact ne_of_le hhigh (by decide)
        rw [String.toList_ofList]
        simpa [hother] using hc
      · rw [heq]
        exact hc
    · exact hc
  have hhex : isHexString (withoutPrefix (trim s)) = false := by
    rw [isHexString, Bool.and_eq_false_iff]
    right
    rw [all_eq_false]
    exact ⟨c, hmem, by rw [hdigit]; decide⟩
  unfold decodeHexMaybe
  dsimp only
  rw [hhex]
  rfl

end

/-! ## The digits as symbols -/

/-- The number that a digit stands for in base64. -/
def digitSextet (n : Nat) : Nat := if n < 10 then 52 + n else 16 + n

def hexSextets (bytes : List UInt8) : List Nat :=
  bytes.flatMap fun b => [digitSextet (b.toNat / 16), digitSextet (b.toNat % 16)]

/-- What the digits of the bytes are in base64. -/
def misread (bytes : List UInt8) : List UInt8 := Base64.octets (hexSextets bytes)

/-- The numbers of the digits. -/
def IsDigitSextet (n : Nat) : Prop := (26 ≤ n ∧ n ≤ 31) ∨ (52 ≤ n ∧ n ≤ 61)

theorem isDigitSextet (h : n < 16) : IsDigitSextet (digitSextet n) := by
  unfold IsDigitSextet digitSextet
  split <;> omega

theorem mem_hexSextets (bytes : List UInt8) : ∀ n ∈ hexSextets bytes, IsDigitSextet n := by
  intro n hn
  obtain ⟨b, _, hn⟩ := mem_flatMap.1 hn
  have hb := b.toNat_lt
  rcases mem_cons.1 hn with rfl | hn
  · exact isDigitSextet (by omega)
  · rw [mem_singleton.1 hn]
    exact isDigitSextet (by omega)

theorem hexSextets_lt (bytes : List UInt8) : ∀ n ∈ hexSextets bytes, n < 64 := by
  intro n hn
  have h := mem_hexSextets bytes n hn
  unfold IsDigitSextet at h
  omega

theorem length_hexSextets (bytes : List UInt8) : (hexSextets bytes).length = 2 * bytes.length := by
  rw [hexSextets]
  simp [Nat.mul_comm]

theorem toList_bytesToHex_symbol (bytes : List UInt8) :
    (bytesToHex bytes).toList = (hexSextets bytes).map symbol := by
  have hdigit : ∀ n < 16, symbol (digitSextet n) = hexDigit n := by decide
  rw [toList_bytesToHex, hexSextets, map_flatMap]
  congr 1
  funext b
  have hb := b.toNat_lt
  rw [map_cons, map_cons, hdigit _ (by omega), hdigit _ (by omega)]
  rfl

/-- The digits, padded. -/
theorem normalizeBase64_bytesToHex (hcount : Counts count) (bytes : List UInt8) :
    ∃ k ≤ 2, ((hexSextets bytes).length + k) % 4 = 0 ∧ normalizeBase64 count (bytesToHex bytes) =
      String.ofList ((hexSextets bytes).map symbol ++ replicate k '=') := by
  have hlen := length_hexSextets bytes
  have hsymbols := @normalizeBase64_symbols count hcount symbol (by decide) _
    (hexSextets_lt bytes) 0
  have htext : String.ofList ((hexSextets bytes).map symbol ++ replicate 0 '=') =
      bytesToHex bytes := by
    rw [replicate_zero, append_nil, ← toList_bytesToHex_symbol, String.ofList_toList]
  rw [htext] at hsymbols
  refine ⟨_, ?_, ?_, hsymbols⟩
  · omega
  · omega

theorem Decodes.hex {decode : String → Option (List UInt8)} (hdecode : Decodes decode)
    (hcount : Counts count) (bytes : List UInt8) :
    decode (normalizeBase64 count (bytesToHex bytes)) = some (misread bytes) := by
  obtain ⟨k, hk, hlen, htext⟩ := normalizeBase64_bytesToHex hcount bytes
  rw [htext]
  exact hdecode _ k (hexSextets_lt bytes) hk hlen

/-! ## The bytes -/

theorem offNonce_iff {b : UInt8} : offNonce b = true ↔
    b.toNat % 128 ≠ 0 ∧ b.toNat % 128 ≠ 2 ∧ b.toNat % 128 ≠ 32 ∧ b.toNat % 128 ≠ 34 := by
  simp [offNonce]

/-- None of the bytes begins a nonce. -/
theorem octets_offNonce (h : ∀ n ∈ ns, IsDigitSextet n) : ∀ b ∈ octets ns, offNonce b = true := by
  have hfirst : ∀ a b : Nat, IsDigitSextet a → IsDigitSextet b →
      offNonce (UInt8.ofNat (a * 4 + b / 16)) = true := by
    intro a b ha hb
    unfold IsDigitSextet at ha hb
    rw [offNonce_iff, toNat_ofNat']
    omega
  have hsecond : ∀ b c : Nat, IsDigitSextet b → IsDigitSextet c →
      offNonce (UInt8.ofNat (b % 16 * 16 + c / 4)) = true := by
    intro b c hb hc
    unfold IsDigitSextet at hb hc
    rw [offNonce_iff, toNat_ofNat']
    omega
  have hthird : ∀ c d : Nat, IsDigitSextet c → IsDigitSextet d →
      offNonce (UInt8.ofNat (c % 4 * 64 + d)) = true := by
    intro c d hc hd
    unfold IsDigitSextet at hc hd
    rw [offNonce_iff, toNat_ofNat']
    omega
  induction ns using Base64.octets.induct with
  | case1 a b c d rest ih =>
    simp only [forall_mem_cons] at h
    obtain ⟨ha, hb, hc, hd, hrest⟩ := h
    simp only [octets, cons_append, forall_mem_cons]
    exact ⟨hfirst a b ha hb, hsecond b c hb hc, hthird c d hc hd, ih hrest⟩
  | case2 a b c =>
    simp only [forall_mem_cons] at h
    obtain ⟨ha, hb, hc, _⟩ := h
    simp only [octets, forall_mem_cons]
    exact ⟨hfirst a b ha hb, hsecond b c hb hc, forall_mem_nil _⟩
  | case3 a b =>
    simp only [forall_mem_cons] at h
    obtain ⟨ha, hb, _⟩ := h
    simp only [octets, forall_mem_cons]
    exact ⟨hfirst a b ha hb, forall_mem_nil _⟩
  | case4 ns hfour hthree htwo =>
    rw [octets]
    · exact forall_mem_nil _
    · exact hfour
    · exact hthree
    · exact htwo

theorem misread_offNonce (bytes : List UInt8) : ∀ b ∈ misread bytes, offNonce b = true :=
  octets_offNonce (mem_hexSextets bytes)

/-- The first two come from the first two bytes. -/
theorem misread_cons_cons (b c : UInt8) (bs : List UInt8) : ∃ rest, misread (b :: c :: bs) =
    UInt8.ofNat (digitSextet (b.toNat / 16) * 4 + digitSextet (b.toNat % 16) / 16) ::
      UInt8.ofNat (digitSextet (b.toNat % 16) % 16 * 16 + digitSextet (c.toNat / 16) / 4) :: rest :=
  ⟨_, rfl⟩

/-! ## Messages in schema order -/

/-- The fields stand in the order of `pouw.proto`, and there are no others. -/
structure Message.InSchemaOrder (m : Message) : Prop where
  known : ∀ f ∈ m.fields, f.number ≤ 8
  ordered : m.fields.Pairwise fun f g => f.number ≤ g.number

/-- No field comes before `task_id`. -/
def Message.BeginsWithTaskId (m : Message) : Prop := m.fields.head?.map Field.number = some 3

theorem exists_number_of_lastLen {number : Nat} {value : List UInt8}
    (h : lastLen number fs = some value) : ∃ f ∈ fs, f.number = number := by
  induction fs using reverseRecOn with
  | nil => cases h
  | append_singleton fs f ih =>
    by_cases hf : f.number = number
    · exact ⟨f, mem_append_right fs mem_cons_self, hf⟩
    -- the last field is another one, so that the value is found before it
    have hprev : lastLen number fs = some value := by
      unfold lastLen at h ⊢
      rw [foldl_append] at h
      cases hp : f.payload with
      | len n bs => simpa [hp, hf] using h
      | _ => simpa [hp] using h
    obtain ⟨g, hg, hnumber⟩ := ih hprev
    exact ⟨g, mem_append_left _ hg, hnumber⟩

theorem noGroups_of_topLevel (hbalanced : balanced [] fs = true)
    (h : ∀ f ∈ fs, f ∈ topLevel 0 fs → f.payload.isGroup = false) :
    ∀ f ∈ fs, f.payload.isGroup = false := by
  induction fs with
  | nil => exact forall_mem_nil _
  | cons f fs ih =>
    have hf := h f mem_cons_self
    rw [balanced] at hbalanced
    rw [topLevel] at h hf
    rw [forall_mem_cons]
    split at hbalanced
    · -- a group at the top
      rename_i hstart
      simp only [hstart] at hf
      rw [← hstart] at hf
      exact absurd (hf mem_cons_self) (by rw [hstart]; decide)
    · cases hbalanced
    rename_i hstart hend
    have hkeep : ∀ g ∈ fs, g ∈ topLevel 0 fs → g.payload.isGroup = false := by
      intro g hg htop
      refine h g (mem_cons_of_mem _ hg) ?_
      split
      · exact absurd ‹_› hstart
      · exact absurd ‹_› hend
      · rw [if_pos rfl]
        exact mem_cons_of_mem _ htop
    refine ⟨?_, ih hbalanced hkeep⟩
    cases hp : f.payload with
    | startGroup => exact absurd hp hstart
    | endGroup => exact absurd hp hend
    | _ => rfl

section
variable {m : Message}

variable {f : Field}

theorem Message.InSchemaOrder.schemaWireType (h : m.InSchemaOrder) (hf : f ∈ m.fields) :
    Pouw.schemaWireType f.number = some 0 ∨ Pouw.schemaWireType f.number = some 2 := by
  have hknown := h.known f hf
  have hpositive : 1 ≤ f.number := (Nat.le_div_iff_mul_le (by decide)).2 f.positive
  have hall : ∀ n ≤ 8, 1 ≤ n → Pouw.schemaWireType n = some 0 ∨ Pouw.schemaWireType n = some 2 := by
    decide
  exact hall f.number hknown hpositive

theorem Message.InSchemaOrder.noGroups (h : m.InSchemaOrder) : m.NoGroups := by
  refine noGroups_of_topLevel m.groups ?_
  intro f hf htop
  have hwire : f.payload.wireType = 0 ∨ f.payload.wireType = 2 :=
    (h.schemaWireType hf).imp (m.schema f htop 0) (m.schema f htop 2)
  cases hp : f.payload with
  | startGroup | endGroup =>
    rw [hp] at hwire
    exact nomatch hwire
  | _ => rfl

theorem Message.InSchemaOrder.wireType (h : m.InSchemaOrder) (hf : f ∈ m.fields) :
    Pouw.schemaWireType f.number = some f.payload.wireType := by
  have htop : f ∈ topLevel 0 m.fields := by
    rw [topLevel_of_noGroups h.noGroups]
    exact hf
  rcases h.schemaWireType hf with hwire | hwire
  · rw [m.schema f htop 0 hwire]
    exact hwire
  · rw [m.schema f htop 2 hwire]
    exact hwire

theorem Message.InSchemaOrder.first (h : m.InSchemaOrder) : ∃ b bs, m.bytes = b :: bs ∧
    (b.toNat % 128 = 8 ∨ b.toNat % 128 = 18 ∨ b.toNat % 128 = 26 ∧ m.BeginsWithTaskId) := by
  obtain ⟨g, hg, hnumber⟩ := exists_number_of_lastLen m.taskId_last
  rw [topLevel_of_noGroups h.noGroups] at hg
  obtain ⟨f, fs, hfields⟩ := exists_cons_of_ne_nil (ne_nil_of_mem hg)
  have hf : f ∈ m.fields := by
    rw [hfields]
    exact mem_cons_self
  have hthree : f.number ≤ 3 := by
    have hordered := h.ordered
    rw [hfields] at hordered hg
    rw [← hnumber]
    rcases mem_cons.1 hg with rfl | hg
    · exact le_rfl
    · exact (pairwise_cons.1 hordered).1 g hg
  obtain ⟨b, bs, htag⟩ : ∃ b bs, f.tag.bytes = b :: bs :=
    exists_cons_of_ne_nil (by simp [Varint.bytes])
  have hvalue : f.tag.value % 128 = b.toNat % 128 := by
    rw [Varint.value, htag, varintValue]
    omega
  have hwire := h.wireType hf
  have hkey : f.tag.value = 8 * f.number + f.payload.wireType := by
    rw [← f.wire, Field.number]
    omega
  have hpositive : 1 ≤ f.number := (Nat.le_div_iff_mul_le (by decide)).2 f.positive
  refine ⟨b, bs ++ f.payload.bytes ++ encode fs, ?_, ?_⟩
  · rw [Message.bytes, hfields, encode_cons, Field.bytes, htag]
    simp
  rw [← hvalue, hkey]
  obtain hn | hn | hn : f.number = 1 ∨ f.number = 2 ∨ f.number = 3 := by omega
  · rw [hn] at hwire ⊢
    rw [← Option.some.inj hwire]
    exact .inl rfl
  · rw [hn] at hwire ⊢
    rw [← Option.some.inj hwire]
    exact .inr (.inl rfl)
  have hbegins : m.BeginsWithTaskId := by
    rw [Message.BeginsWithTaskId, hfields, head?_cons, Option.map_some, hn]
  rw [hn] at hwire ⊢
  rw [← Option.some.inj hwire]
  exact .inr (.inr ⟨rfl, hbegins⟩)

theorem Message.InSchemaOrder.bytes_ne_nil (h : m.InSchemaOrder) : m.bytes ≠ [] := by
  obtain ⟨b, bs, hbytes, _⟩ := h.first
  rw [hbytes]
  exact cons_ne_nil b bs

theorem Message.two_le_length (m : Message) (h : m.InSchemaOrder) : 2 ≤ m.bytes.length := by
  obtain ⟨f, hf, htask⟩ := exists_number_of_lastLen m.taskId_last
  obtain ⟨g, hg, hnonce⟩ := exists_number_of_lastLen m.challengeNonce_last
  rw [topLevel_of_noGroups h.noGroups] at hf hg
  have hfields : 2 ≤ m.fields.length := by
    by_contra hshort
    have hfg : f = g := by
      obtain ⟨e, hone⟩ : ∃ e, m.fields = [e] := length_eq_one_iff.1
        (Nat.le_antisymm (by omega) (length_pos_of_mem hf))
      rw [hone, mem_singleton] at hf hg
      rw [hf, hg]
    rw [hfg, hnonce] at htask
    cases htask
  exact Nat.le_trans hfields (length_le_length_encode m.fields)

/-- The wrong reading does not begin with ASCII. Unless the token begins with `task_id`, it begins with
    the key of a group, and with no character of UTF-8 either. -/
theorem Message.InSchemaOrder.misread_first (h : m.InSchemaOrder) : ∃ g c cs,
    misread m.bytes = g :: c :: cs ∧ 208 ≤ g.toNat ∧ g.toNat < 248 ∧ g.toNat ≠ 239 ∧
      (¬ m.BeginsWithTaskId → g.toNat % 4 = 3 ∧ ¬(128 ≤ c.toNat ∧ c.toNat < 192)) := by
  obtain ⟨b, bs, hbytes, hb⟩ := h.first
  have hlength := m.two_le_length h
  rw [hbytes] at hlength ⊢
  cases bs with
  | nil => simp at hlength
  | cons d ds =>
    obtain ⟨cs, hcs⟩ := misread_cons_cons b d ds
    have hlt := b.toNat_lt
    have hd := d.toNat_lt
    have hhigh : digitSextet (b.toNat / 16) = 52 + b.toNat / 16 := if_pos (by omega)
    have hthird : digitSextet (d.toNat / 16) < 64 := by
      have hdigit := isDigitSextet (show d.toNat / 16 < 16 by omega)
      unfold IsDigitSextet at hdigit
      omega
    have hlow : digitSextet (b.toNat % 16) = 60 ∨ digitSextet (b.toNat % 16) = 54 ∨
        digitSextet (b.toNat % 16) = 26 ∧ m.BeginsWithTaskId := by
      unfold digitSextet
      rcases hb with hb | hb | ⟨hb, hbegins⟩
      · left
        split <;> omega
      · right; left
        split <;> omega
      · right; right
        refine ⟨?_, hbegins⟩
        split <;> omega
    refine ⟨_, _, cs, hcs, ?_, ?_, ?_, ?_⟩
    iterate 3
      · rw [toNat_ofNat']
        omega
    intro hother
    rw [toNat_ofNat', toNat_ofNat']
    rcases hlow with hlow | hlow | ⟨_, hbegins⟩
    · rw [hlow]
      omega
    · rw [hlow]
      omega
    · exact absurd hbegins hother

end

end Pouw
