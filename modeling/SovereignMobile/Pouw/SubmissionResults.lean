import SovereignMobile.Pouw.ChallengeToken
import SovereignMobile.Pouw.ReceiptStore

/-! # What a submission response says about each receipt

`parseSubmitResponse` of `SubmissionClient.kt` over the JSON of the response. A node decides about every
receipt of a batch, and reports either how many it accepted and rejected, or which, as the
`SubmitResponse` of `PoUWController.ts` and the message of `pouw.proto` do. -/

namespace SubmissionClient

open ReceiptStore KeyedTable List
open ReceiptEntity (receiptNonce)

/-! ## The response -/

/-- A value of `org.json`; a number by its `intValue()`. -/
inductive Json where
  | null
  | bool (value : Bool)
  | number (intValue : Int)
  | string (text : String)
  | array (items : List Json)
  | object (members : List (String × Json))

abbrev JSONObject := List (String × Json)

def has (json : JSONObject) (name : String) : Bool := (json.lookup name).isSome

/-- `optInt`, before its fallback; a text is read by `Double.parseDouble`, and cut off. -/
def optInt (parseDouble : String → Option Int) (json : JSONObject) (name : String) : Option Int :=
  match json.lookup name with
  | some (.number n) => some n
  | some (.string text) => parseDouble text
  | _ => none

/-- The body as it is read; it is `none` where `JSONObject(body)` throws. -/
def bodyOf (parseDouble : String → Option Int) : Option JSONObject → Body
  | none => .other
  | some json =>
    if has json "accepted" || has json "rejected" then
      .counters (optInt parseDouble json "accepted") (optInt parseDouble json "rejected")
    -- an error and an unknown shape come to the same
    else .other

def parseSubmitResponse (parseDouble : String → Option Int) (body : Option JSONObject)
    (submittedReceipts : List ReceiptEntity) : SubmitResponse :=
  ReceiptStore.parseSubmitResponse (bodyOf parseDouble body) submittedReceipts

/-! ## Batches -/

/-- Receipts of different nonces. -/
structure Batch where
  receipts : List ReceiptEntity
  keyed : Keyed ReceiptEntity.receiptNonce receipts

/-- What `getPending` selects from a table with the nonce as its key. -/
def Batch.pending (limit : Nat) {rows : List ReceiptEntity}
    (h : Keyed ReceiptEntity.receiptNonce rows) : Batch where
  receipts := oldestPending limit rows
  keyed := by
    have hperm := List.perm_insertionSort (fun a b => a.createdAt ≤ b.createdAt)
      (rows.filter ReceiptEntity.isPending)
    have hsorted := ((hperm.map ReceiptEntity.receiptNonce).nodup_iff).2 (h.filter _)
    exact hsorted.sublist ((List.take_sublist limit _).map _)

/-! ## Reports -/

/-- How the decision about a batch is reported, and what else the object holds. -/
inductive Report where
  | counts (others : JSONObject)
  | arrays (reason : ReceiptEntity → String) (others : JSONObject)

def nonceText (r : ReceiptEntity) : Json := .string (Pouw.bytesToHex r.receiptNonce)

def Report.json (accepts : ReceiptEntity → Bool) (batch : List ReceiptEntity) : Report → JSONObject
  | .counts others =>
    ("accepted", .number (batch.countP accepts)) ::
      ("rejected", .number (batch.countP fun r => !accepts r)) :: others
  | .arrays reason others =>
    ("accepted", .array ((batch.filter accepts).map nonceText)) ::
      ("rejected", .array ((batch.filter fun r => !accepts r).map fun r =>
        .object [("receipt_nonce", nonceText r), ("reason", .string (reason r))])) :: others

/-- Nothing is said about a receipt but what was decided about it. -/
structure Right (accepts : ReceiptEntity → Bool) (batch : List ReceiptEntity)
    (response : SubmitResponse) : Prop where
  accepted : ∀ r ∈ batch, r.receiptNonce ∈ response.acceptedNonces → accepts r = true
  rejected : ∀ r ∈ batch, r.receiptNonce ∈ response.rejectedNonces → accepts r = false

/-- No receipt is in both lists, and no other nonce in either. -/
structure Apart (batch : List ReceiptEntity) (response : SubmitResponse) : Prop where
  disjoint : response.acceptedNonces.Disjoint response.rejectedNonces
  submitted : ∀ n, n ∈ response.acceptedNonces ∨ n ∈ response.rejectedNonces →
    ∃ r ∈ batch, r.receiptNonce = n

/-! ## Every response -/

section
variable {xs : List ReceiptEntity}

theorem mem_nonces_iff (hkeyed : Keyed receiptNonce xs) {ys : List ReceiptEntity}
    (hsub : ys ⊆ xs) {r : ReceiptEntity} (hr : r ∈ xs) :
    r.receiptNonce ∈ ys.map receiptNonce ↔ r ∈ ys := by
  constructor
  · intro hmem
    obtain ⟨r', hr', heq⟩ := mem_map.1 hmem
    have hsame : r' = r := inj_on_of_nodup_map hkeyed (hsub hr') hr heq
    exact hsame ▸ hr'
  · exact mem_map_of_mem

variable {response : SubmitResponse} {n : Nat}

theorem apart_split (hkeyed : Keyed receiptNonce xs) {m : Nat}
    (haccepted : response.acceptedNonces = (xs.take n).map receiptNonce)
    (hrejected : response.rejectedNonces = ((xs.drop n).take m).map receiptNonce) :
    Apart xs response := by
  have hsplit : ((xs.take n).map receiptNonce).Disjoint ((xs.drop n).map receiptNonce) := by
    have hnodup : (xs.map receiptNonce).Nodup := hkeyed
    rw [← take_append_drop n xs, map_append] at hnodup
    exact disjoint_of_nodup_append hnodup
  constructor
  · rw [haccepted, hrejected]
    exact disjoint_of_subset_right (map_subset _ (take_subset m _)) hsplit
  intro k hk
  rw [haccepted, hrejected] at hk
  rcases hk with hk | hk
  · obtain ⟨r, hr, heq⟩ := mem_map.1 hk
    exact ⟨r, mem_of_mem_take hr, heq⟩
  · obtain ⟨r, hr, heq⟩ := mem_map.1 hk
    exact ⟨r, mem_of_mem_drop (mem_of_mem_take hr), heq⟩

theorem apart_parse (hkeyed : Keyed receiptNonce xs)
    (parseDouble : String → Option Int) (body : Option JSONObject) :
    Apart xs (parseSubmitResponse parseDouble body xs) := by
  unfold parseSubmitResponse
  cases bodyOf parseDouble body with
  | counters accepted rejected => exact apart_split hkeyed rfl rfl
  | other =>
    have hall : (xs.drop 0).take xs.length = xs := by
      rw [drop_zero, take_length]
    exact apart_split hkeyed rfl (by rw [hall]; rfl)

/-! ## Reports by number -/

/-- As many as satisfy `p` come first: exactly if none comes after one that does not. -/
theorem take_countP_iff {α : Type} (p : α → Bool) (ys : List α) :
    (∀ y ∈ ys.take (ys.countP p), p y = true) ∧ (∀ y ∈ ys.drop (ys.countP p), p y = false) ↔
      ys.Pairwise fun y y' => p y' = true → p y = true := by
  induction ys with
  | nil => simp
  | cons y ys ih =>
    rw [pairwise_cons]
    cases hy : p y with
    | true =>
      rw [countP_cons_of_pos hy, take_succ_cons, drop_succ_cons, forall_mem_cons, and_assoc, ih]
      exact ⟨fun h => ⟨fun _ _ _ => rfl, h.2⟩, fun h => ⟨hy, h.2⟩⟩
    | false =>
      rw [countP_cons_of_neg (by simp [hy])]
      constructor
      · rintro ⟨htake, hdrop⟩
        have hnone : ys.countP p = 0 := by
          by_contra hpos
          obtain ⟨n, hn⟩ := Nat.exists_eq_succ_of_ne_zero hpos
          rw [hn] at htake
          exact nomatch (htake y mem_cons_self).symm.trans hy
        rw [hnone] at hdrop
        have hfalse : ∀ y' ∈ ys, ¬p y' = true := by
          intro y' hy'
          rw [hdrop y' (mem_cons_of_mem _ hy')]
          decide
        exact ⟨fun y' hy' h => absurd h (hfalse y' hy'),
          pairwise_of_forall_mem_list fun _ _ y' hy' h => absurd h (hfalse y' hy')⟩
      · rintro ⟨hfirst, _⟩
        have hfalse : ∀ y' ∈ ys, ¬p y' = true := by
          intro y' hy' h
          exact nomatch hfirst y' hy' h
        rw [countP_eq_zero.2 hfalse, drop_zero, forall_mem_cons]
        exact ⟨fun _ h => absurd h (by simp), hy, fun y' hy' => by simpa using hfalse y' hy'⟩

theorem right_split (hkeyed : Keyed receiptNonce xs) (accepts : ReceiptEntity → Bool)
    (haccepted : response.acceptedNonces = (xs.take n).map receiptNonce)
    (hrejected : response.rejectedNonces = (xs.drop n).map receiptNonce) :
    Right accepts xs response ↔
      (∀ r ∈ xs.take n, accepts r = true) ∧ (∀ r ∈ xs.drop n, accepts r = false) := by
  have htake : ∀ {r}, r ∈ xs → (r.receiptNonce ∈ response.acceptedNonces ↔ r ∈ xs.take n) := by
    intro r hr
    rw [haccepted]
    exact mem_nonces_iff hkeyed (take_subset n xs) hr
  have hdrop : ∀ {r}, r ∈ xs → (r.receiptNonce ∈ response.rejectedNonces ↔ r ∈ xs.drop n) := by
    intro r hr
    rw [hrejected]
    exact mem_nonces_iff hkeyed (drop_subset n xs) hr
  constructor
  · intro h
    constructor
    · intro r hr
      exact h.accepted r (mem_of_mem_take hr) ((htake (mem_of_mem_take hr)).2 hr)
    · intro r hr
      exact h.rejected r (mem_of_mem_drop hr) ((hdrop (mem_of_mem_drop hr)).2 hr)
  · rintro ⟨hall, hnone⟩
    constructor
    · intro r hr hmem
      exact hall r ((htake hr).1 hmem)
    · intro r hr hmem
      exact hnone r ((hdrop hr).1 hmem)

variable (parseDouble : String → Option Int) (accepts : ReceiptEntity → Bool)

/-- The counters split the batch after the number that was accepted. -/
theorem parse_counts (others : JSONObject) :
    let response := parseSubmitResponse parseDouble (some ((Report.counts others).json accepts xs)) xs
    response.acceptedNonces = (xs.take (xs.countP accepts)).map receiptNonce ∧
      response.rejectedNonces = (xs.drop (xs.countP accepts)).map receiptNonce := by
  have hbody : bodyOf parseDouble (some ((Report.counts others).json accepts xs)) =
      .counters (some (xs.countP accepts)) (some (xs.countP fun r => !accepts r)) := rfl
  have hsum : xs.length = xs.countP accepts + xs.countP fun r => !accepts r := by
    rw [length_eq_countP_add_countP accepts]
    simp
  have haccepted : (coerceIn (xs.countP accepts) 0 xs.length).toNat = xs.countP accepts := by
    unfold coerceIn
    omega
  have hrejected : (coerceIn (xs.countP fun r => !accepts r) 0
      (xs.length - coerceIn (xs.countP accepts) 0 xs.length)).toNat = xs.length - xs.countP accepts := by
    unfold coerceIn
    omega
  unfold parseSubmitResponse
  rw [hbody]
  simp only [ReceiptStore.parseSubmitResponse, Option.getD_some, haccepted, hrejected, true_and]
  rw [← length_drop, take_length]

/-- Arrays are no numbers: nothing is accepted, and by default the rest is rejected. -/
theorem parse_arrays (reason : ReceiptEntity → String) (others : JSONObject) :
    let response :=
      parseSubmitResponse parseDouble (some ((Report.arrays reason others).json accepts xs)) xs
    response.acceptedNonces = (xs.take 0).map receiptNonce ∧
      response.rejectedNonces = (xs.drop 0).map receiptNonce := by
  have hbody : bodyOf parseDouble (some ((Report.arrays reason others).json accepts xs)) =
      .counters none none := rfl
  have haccepted : (coerceIn 0 0 xs.length).toNat = 0 := by
    unfold coerceIn
    omega
  have hrejected : (coerceIn (max (xs.length - coerceIn 0 0 xs.length) 0) 0
      (xs.length - coerceIn 0 0 xs.length)).toNat = xs.length := by
    unfold coerceIn
    omega
  unfold parseSubmitResponse
  rw [hbody]
  simp only [ReceiptStore.parseSubmitResponse, Option.getD_none, haccepted, hrejected, true_and]
  rw [drop_zero, take_length]

end

/-- The reports that are understood: by number, if no accepted receipt comes after one that is rejected;
    by nonce, if none is accepted. -/
def Report.Fits (accepts : ReceiptEntity → Bool) (batch : List ReceiptEntity) : Report → Prop
  | .counts _ => batch.Pairwise fun r r' => accepts r' = true → accepts r = true
  | .arrays _ _ => ∀ r ∈ batch, accepts r = false

theorem right_iff_fits (parseDouble : String → Option Int) (batch : Batch)
    (accepts : ReceiptEntity → Bool) (report : Report) :
    Right accepts batch.receipts
        (parseSubmitResponse parseDouble (some (report.json accepts batch.receipts)) batch.receipts) ↔
      report.Fits accepts batch.receipts := by
  cases report with
  | counts others =>
    obtain ⟨haccepted, hrejected⟩ := parse_counts parseDouble accepts others
    rw [right_split batch.keyed accepts haccepted hrejected]
    exact take_countP_iff accepts batch.receipts
  | arrays reason others =>
    obtain ⟨haccepted, hrejected⟩ := parse_arrays parseDouble accepts reason others
    rw [right_split batch.keyed accepts haccepted hrejected]
    exact and_iff_right fun _ h => nomatch h

/-- Submission results match what the node decided exactly for the reports that fit. -/
theorem results_match_iff (parseDouble : String → Option Int) (batch : Batch)
    (accepts : ReceiptEntity → Bool) (report : Report) :
    (Right accepts batch.receipts
        (parseSubmitResponse parseDouble (some (report.json accepts batch.receipts)) batch.receipts) ∧
      ∀ body, Apart batch.receipts (parseSubmitResponse parseDouble body batch.receipts)) ↔
      report.Fits accepts batch.receipts := by
  rw [right_iff_fits]
  exact and_iff_left fun body => apart_parse batch.keyed parseDouble body

/-! ## The second of two -/

def receipt (nonce : UInt8) : ReceiptEntity where
  receiptNonce := [nonce]
  taskId := []
  state := .QUEUED
  signedReceiptData := []
  createdAt := 0

def pair : Batch := ⟨[receipt 1, receipt 2], by unfold Keyed; decide⟩

/-- Only the second is accepted, and the first is taken for it. -/
theorem results_mixed :
    ¬∀ (parseDouble : String → Option Int) (batch : Batch) (accepts : ReceiptEntity → Bool)
        (report : Report), Right accepts batch.receipts
      (parseSubmitResponse parseDouble (some (report.json accepts batch.receipts)) batch.receipts) := by
  intro h
  have hright := h (fun _ => none) pair (fun r => r.receiptNonce = [2]) (.counts [])
  exact nomatch hright.accepted (receipt 1) (by decide) (by decide)

end SubmissionClient
