import SovereignMobile.Codec.CborRoundTrip

/-! # CBOR data items

The data items that both platforms read as such: integers, byte and text strings, arrays, maps, the
simple values 20 to 23 and doubles, with lengths written out. A header may be as wide as it likes.
`reads_item` says what the iOS decoder makes of an item, wherever it stands. -/

namespace ZhtpCodec

open List

/-- `negative n` is the integer `-1 - n`. -/
inductive Item where
  | uint (n : UInt64)
  | negative (n : UInt64)
  | bytes (bs : List UInt8)
  | text (s : String)
  | array (items : List Item)
  | map (entries : List (Item × Item))
  | simpleFalse
  | simpleTrue
  | null
  | undefined
  | double (bits : UInt64)

/-! ## Encodings -/

/-- `bs` is a header of major type `mt` with the argument `n`. -/
def Header (mt : Nat) (n : UInt64) (bs : List UInt8) : Prop :=
  ∃ b tail info, bs = b :: tail ∧ b.toNat = mt * 32 + info ∧
    argumentWidth info = some tail.length ∧
    n.toNat = if tail.length = 0 then info else beNat tail

mutual
/-- `bs` is an encoding of the item. -/
def Encodes : Item → List UInt8 → Prop
  | .uint n, bs => Header 0 n bs
  | .negative n, bs => Header 1 n bs
  | .bytes s, bs => ∃ hd n, bs = hd ++ s ∧ Header 2 n hd ∧ n.toNat = s.length
  | .text s, bs => ∃ hd n, bs = hd ++ utf8 s ∧ Header 3 n hd ∧ n.toNat = (utf8 s).length
  | .array items, bs =>
    ∃ hd n body, bs = hd ++ body ∧ Header 4 n hd ∧ n.toNat = items.length ∧
      EncodesItems items body
  | .map entries, bs =>
    ∃ hd n body, bs = hd ++ body ∧ Header 5 n hd ∧ n.toNat = entries.length ∧
      EncodesEntries entries body
  | .simpleFalse, bs => bs = [0xf4]
  | .simpleTrue, bs => bs = [0xf5]
  | .null, bs => bs = [0xf6]
  | .undefined, bs => bs = [0xf7]
  | .double bits, bs => bs = appendCborFloat bits

def EncodesItems : List Item → List UInt8 → Prop
  | [], bs => bs = []
  | v :: vs, bs => ∃ b rest, bs = b ++ rest ∧ Encodes v b ∧ EncodesItems vs rest

def EncodesEntries : List (Item × Item) → List UInt8 → Prop
  | [], bs => bs = []
  | (k, v) :: es, bs =>
    ∃ b b' rest, bs = b ++ (b' ++ rest) ∧ Encodes k b ∧ Encodes v b' ∧ EncodesEntries es rest
end

mutual
/-- No negative integer is below the range of `Int64`, where the iOS decoder traps. -/
def Item.Readable : Item → Prop
  | .negative n => n.toNat < 2 ^ 63
  | .array items => ReadableItems items
  | .map entries => ReadableEntries entries
  | _ => True

def ReadableItems : List Item → Prop
  | [] => True
  | v :: vs => v.Readable ∧ ReadableItems vs

def ReadableEntries : List (Item × Item) → Prop
  | [] => True
  | (k, v) :: es => k.Readable ∧ v.Readable ∧ ReadableEntries es
end

/-! ## What the iOS decoder makes of an item -/

section Decoded
variable (nfc : String → String)

/-- `if let keyStr = key as? String { dict[keyStr] = value }` -/
def addEntry (dict : List (String × Decoded)) (key value : Decoded) : List (String × Decoded) :=
  match key with
  | .string k => setEntry nfc k value dict
  | _ => dict

mutual
def Item.decoded : Item → Decoded
  | .uint n => .uint n
  | .negative n => .int (-1 - n.toInt64)
  | .bytes bs => .bytes bs
  | .text s => .string s
  | .array items => .array (decodedItems items)
  | .map entries => .dict (decodedEntries entries [])
  | .simpleFalse => .null
  | .simpleTrue => .bool false
  | .null => .bool true
  | .undefined => .null
  | .double bits => .double bits

def decodedItems : List Item → List Decoded
  | [] => []
  | v :: vs => v.decoded :: decodedItems vs

def decodedEntries : List (Item × Item) → List (String × Decoded) → List (String × Decoded)
  | [], dict => dict
  | (k, v) :: es, dict => decodedEntries es (addEntry nfc dict k.decoded v.decoded)
end

end Decoded

/-! ## Induction -/

structure Item.Cases (P : Item → Prop) : Prop where
  leaf : ∀ v : Item, (∀ items, v ≠ .array items) → (∀ entries, v ≠ .map entries) → P v
  array : ∀ items : List Item, (∀ v ∈ items, P v) → P (.array items)
  map : ∀ entries : List (Item × Item), (∀ e ∈ entries, P e.1 ∧ P e.2) → P (.map entries)

mutual
theorem Item.Cases.all {P : Item → Prop} (h : Item.Cases P) : ∀ v : Item, P v
  | .array items => h.array items (Item.Cases.items h items)
  | .map entries => h.map entries (Item.Cases.entries h entries)
  | .uint _ => h.leaf _ (by simp) (by simp)
  | .negative _ => h.leaf _ (by simp) (by simp)
  | .bytes _ => h.leaf _ (by simp) (by simp)
  | .text _ => h.leaf _ (by simp) (by simp)
  | .simpleFalse => h.leaf _ (by simp) (by simp)
  | .simpleTrue => h.leaf _ (by simp) (by simp)
  | .null => h.leaf _ (by simp) (by simp)
  | .undefined => h.leaf _ (by simp) (by simp)
  | .double _ => h.leaf _ (by simp) (by simp)

theorem Item.Cases.items {P : Item → Prop} (h : Item.Cases P) :
    ∀ items : List Item, ∀ v ∈ items, P v
  | [] => fun _ hv => nomatch hv
  | v :: vs => forall_mem_cons.2 ⟨Item.Cases.all h v, Item.Cases.items h vs⟩

theorem Item.Cases.entries {P : Item → Prop} (h : Item.Cases P) :
    ∀ entries : List (Item × Item), ∀ e ∈ entries, P e.1 ∧ P e.2
  | [] => fun _ he => nomatch he
  | (k, v) :: es => forall_mem_cons.2
      ⟨⟨Item.Cases.all h k, Item.Cases.all h v⟩, Item.Cases.entries h es⟩
end

theorem Item.induct {P : Item → Prop}
    (leaf : ∀ v : Item, (∀ items, v ≠ .array items) → (∀ entries, v ≠ .map entries) → P v)
    (array : ∀ items : List Item, (∀ v ∈ items, P v) → P (.array items))
    (map : ∀ entries : List (Item × Item), (∀ e ∈ entries, P e.1 ∧ P e.2) → P (.map entries))
    (v : Item) : P v :=
  Item.Cases.all ⟨leaf, array, map⟩ v

/-! ## Lists of items -/

section Lists
variable {nfc : String → String}

theorem decodedItems_eq (items : List Item) :
    decodedItems nfc items = items.map (Item.decoded nfc) := by
  induction items with
  | nil => rfl
  | cons v vs ih => rw [decodedItems, ih, map_cons]

theorem readableItems_iff (items : List Item) : ReadableItems items ↔ ∀ v ∈ items, v.Readable := by
  induction items with
  | nil => simp [ReadableItems]
  | cons v vs ih => simp [ReadableItems, ih]

theorem readableEntries_iff (entries : List (Item × Item)) :
    ReadableEntries entries ↔ ∀ e ∈ entries, e.1.Readable ∧ e.2.Readable := by
  induction entries with
  | nil => simp [ReadableEntries]
  | cons e es ih =>
    rw [ReadableEntries, ih, forall_mem_cons, and_assoc]

variable {bs : List UInt8}

theorem Header.length_pos {mt : Nat} {n : UInt64} (h : Header mt n bs) : 0 < bs.length := by
  obtain ⟨b, tail, info, rfl, _⟩ := h
  simp

theorem Encodes.length_pos {v : Item} (h : Encodes v bs) : 0 < bs.length := by
  cases v with
  | uint | negative => exact Header.length_pos h
  | bytes s | text s =>
    obtain ⟨hd, n, rfl, hhd, _⟩ := h
    rw [length_append]
    exact Nat.add_pos_left hhd.length_pos _
  | array items | map entries =>
    obtain ⟨hd, n, body, rfl, hhd, _⟩ := h
    rw [length_append]
    exact Nat.add_pos_left hhd.length_pos _
  | simpleFalse | simpleTrue | null | undefined => rw [show bs = _ from h]; exact Nat.zero_lt_one
  | double bits => rw [show bs = _ from h]; simp [appendCborFloat]

theorem EncodesItems.length_le {items : List Item} :
    ∀ {bs : List UInt8}, EncodesItems items bs → items.length ≤ bs.length := by
  induction items with
  | nil => intro bs _; exact Nat.zero_le _
  | cons v vs ih =>
    rintro bs ⟨b, rest, rfl, hv, hvs⟩
    have hpos := hv.length_pos
    have hrest := ih hvs
    rw [length_append, length_cons]
    omega

theorem EncodesEntries.length_le {entries : List (Item × Item)} :
    ∀ {bs : List UInt8}, EncodesEntries entries bs → entries.length ≤ bs.length := by
  induction entries with
  | nil => intro bs _; exact Nat.zero_le _
  | cons e es ih =>
    rintro bs ⟨b, b', rest, rfl, hk, _, hes⟩
    have hpos := hk.length_pos
    have hrest := ih hes
    rw [length_append, length_append, length_cons]
    omega

end Lists

/-! ## Reading -/

section Reading
variable {nfc : String → String} {data : Data} {f o : Nat}

variable {n : UInt64} {bs hd : List UInt8}

theorem headerAt_of_header {mt : Nat} (h : Header mt n bs) (hb : data.Holds o bs) :
    HeaderAt data o mt n (o + bs.length) := by
  obtain ⟨b, tail, info, rfl, hnat, hwidth, harg⟩ := h
  exact headerAt_of_parts hnat hwidth harg hb

theorem decodeItems_of_encodes {items : List Item}
    (ih : ∀ v ∈ items, ∀ bs, Encodes v bs → Reads nfc bs (v.decoded nfc)) :
    ∀ {bs : List UInt8} {o : Nat}, EncodesItems items bs → data.Holds o bs → bs.length ≤ f →
      decodeItems (decodeCborAt nfc f data) items.length o
        = .ok (items.map (Item.decoded nfc), o + bs.length) := by
  induction items with
  | nil =>
    rintro bs o rfl _ _
    rfl
  | cons v vs ihs =>
    rintro bs o ⟨b, rest, rfl, hv, hvs⟩ hb hfuel
    rw [length_append] at hfuel ⊢
    obtain ⟨hfirst, hrest⟩ := holds_append.1 hb
    have hread := ih v mem_cons_self b hv data f o hfirst (by omega)
    have hloop := ihs (fun w hw => ih w (mem_cons_of_mem _ hw)) hvs hrest (by omega)
    rw [length_cons, decodeItems, hread]
    simp only [hloop, bind_ok, map_cons, Nat.add_assoc, pure, Except.pure]

theorem decodeEntries_of_encodes {entries : List (Item × Item)}
    (ih : ∀ e ∈ entries, (∀ bs, Encodes e.1 bs → Reads nfc bs (e.1.decoded nfc)) ∧
      ∀ bs, Encodes e.2 bs → Reads nfc bs (e.2.decoded nfc)) :
    ∀ {bs : List UInt8} {o : Nat} (dict : List (String × Decoded)), EncodesEntries entries bs →
      data.Holds o bs → bs.length ≤ f →
      decodeEntries nfc (decodeCborAt nfc f data) entries.length dict o
        = .ok (decodedEntries nfc entries dict, o + bs.length) := by
  induction entries with
  | nil =>
    rintro bs o dict rfl _ _
    rfl
  | cons e es ihs =>
    rintro bs o dict ⟨b, b', rest, rfl, hk, hv, hes⟩ hb hfuel
    rw [length_append, length_append] at hfuel ⊢
    obtain ⟨hkey, hb⟩ := holds_append.1 hb
    obtain ⟨hvalue, hrest⟩ := holds_append.1 hb
    obtain ⟨ihk, ihv⟩ := ih e mem_cons_self
    have hreadk := ihk b hk data f o hkey (by omega)
    have hreadv := ihv b' hv data f _ hvalue (by omega)
    have hloop : ∀ dict, _ := fun dict => ihs (fun e' he' => ih e' (mem_cons_of_mem _ he'))
      dict hes hrest (by omega)
    rw [length_cons, decodeEntries, hreadk, bind_ok]
    simp only [hreadv]
    rw [decodedEntries, ← Nat.add_assoc o, ← Nat.add_assoc (o + b.length)]
    cases hkey : e.1.decoded nfc <;> exact hloop _

theorem reads_bytes {s : List UInt8} (h : Header 2 n hd) (hn : n.toNat = s.length) :
    Reads nfc (hd ++ s) (.bytes s) := by
  intro data fuel o hb hfuel
  have hc : data.count < 2 ^ 63 := data.count_lt
  obtain ⟨hhead, hbody⟩ := holds_append.1 hb
  have hlen := hb.length_le
  have hpos := h.length_pos
  rw [length_append] at hlen hfuel ⊢
  obtain ⟨fuel, rfl⟩ : ∃ f, fuel = f + 1 := ⟨fuel - 1, by omega⟩
  have hat := headerAt_of_header h hhead
  have hint : toInt n = .ok s.length := by
    rw [toInt, hn, if_pos (by omega)]
  have hmt : (data.at o &&& 0xE0) >>> 5 = 2 := by
    rw [← UInt8.toNat_inj, majorType_toNat]
    exact hat.major
  rw [decodeCborAt_succ nfc data hat.lt]
  simp only [hat.major, decodeCborString, hat.read, hint, bind_ok,
    addInt_eq (show o + hd.length + s.length < 2 ^ 63 by omega), hbody.subdata hat.next_le]
  rw [if_pos (by omega), if_pos hmt, ← Nat.add_assoc]
  rfl

theorem reads_text {s : String} (h : Header 3 n hd) (hn : n.toNat = (utf8 s).length) :
    Reads nfc (hd ++ utf8 s) (.string s) := by
  intro data fuel o hb hfuel
  obtain ⟨hhead, hbody⟩ := holds_append.1 hb
  have hpos := h.length_pos
  rw [length_append] at hfuel ⊢
  obtain ⟨fuel, rfl⟩ : ∃ f, fuel = f + 1 := ⟨fuel - 1, by omega⟩
  rw [decodeCborAt_text (headerAt_of_header h hhead) hn hbody, Nat.add_assoc]

/-- **Reading an item.** From an encoding of an item the iOS decoder makes `Item.decoded`, and stops
    after it. -/
theorem reads_item (v : Item) (hr : v.Readable) (h : Encodes v bs) :
    Reads nfc bs (v.decoded nfc) := by
  induction v using Item.induct generalizing bs with
  | leaf v harray hmap =>
    cases v with
    | uint n =>
      intro data fuel o hb hfuel
      obtain ⟨fuel, rfl⟩ := fuel_succ h.length_pos hfuel
      exact decodeCborAt_uint (headerAt_of_header h hb)
    | negative n =>
      intro data fuel o hb hfuel
      obtain ⟨fuel, rfl⟩ := fuel_succ h.length_pos hfuel
      exact decodeCborAt_negative (headerAt_of_header h hb) hr
    | bytes s =>
      obtain ⟨hd, n, rfl, hhd, hn⟩ := h
      exact reads_bytes hhd hn
    | text s =>
      obtain ⟨hd, n, rfl, hhd, hn⟩ := h
      exact reads_text hhd hn
    | array items => exact absurd rfl (harray items)
    | map entries => exact absurd rfl (hmap entries)
    | simpleFalse | simpleTrue | null | undefined =>
      rw [show bs = _ from h]
      exact reads_simple (by decide) fun _ _ => rfl
    | double bits =>
      rw [show bs = _ from h]
      exact reads_double bits
  | array items ih =>
    intro data fuel o hb hfuel
    obtain ⟨hd, n, body, rfl, hhd, hn, hitems⟩ := h
    obtain ⟨hhead, hbody⟩ := holds_append.1 hb
    have hc : data.count < 2 ^ 63 := data.count_lt
    have hlen := hbody.length_le
    have hcount := hitems.length_le
    have hpos := hhd.length_pos
    rw [length_append] at hfuel ⊢
    obtain ⟨fuel, rfl⟩ : ∃ f, fuel = f + 1 := ⟨fuel - 1, by omega⟩
    have hread : ∀ v ∈ items, ∀ bs, Encodes v bs → Reads nfc bs (v.decoded nfc) :=
      fun v hv bs h => ih v hv ((readableItems_iff items).1 hr v hv) h
    have hloop := decodeItems_of_encodes (f := fuel) hread hitems hbody (by omega)
    rw [Item.decoded, decodedItems_eq, ← Nat.add_assoc]
    exact decodeCborAt_array (headerAt_of_header hhd hhead) (by omega) (by rw [hn, hloop])
  | map entries ih =>
    intro data fuel o hb hfuel
    obtain ⟨hd, n, body, rfl, hhd, hn, hentries⟩ := h
    obtain ⟨hhead, hbody⟩ := holds_append.1 hb
    have hc : data.count < 2 ^ 63 := data.count_lt
    have hlen := hbody.length_le
    have hcount := hentries.length_le
    have hpos := hhd.length_pos
    rw [length_append] at hfuel ⊢
    obtain ⟨fuel, rfl⟩ : ∃ f, fuel = f + 1 := ⟨fuel - 1, by omega⟩
    have hread : ∀ e ∈ entries, (∀ bs, Encodes e.1 bs → Reads nfc bs (e.1.decoded nfc)) ∧
        ∀ bs, Encodes e.2 bs → Reads nfc bs (e.2.decoded nfc) := by
      intro e he
      obtain ⟨hk, hv⟩ := (readableEntries_iff entries).1 hr e he
      exact ⟨fun bs h => (ih e he).1 hk h, fun bs h => (ih e he).2 hv h⟩
    have hloop := decodeEntries_of_encodes (f := fuel) hread [] hentries hbody (by omega)
    rw [← Nat.add_assoc]
    exact decodeCborAt_dict (headerAt_of_header hhd hhead) (by omega) (by rw [hn, hloop])

end Reading

end ZhtpCodec
