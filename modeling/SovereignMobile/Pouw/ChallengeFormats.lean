import SovereignMobile.Pouw.AndroidFormats
import SovereignMobile.Pouw.IosFormats
import SovereignMobile.Pouw.TypeScriptFormats

/-! # The formats of a challenge

A token in the schema's order, written as base64, base64 for URLs or hexadecimal digits, or as the base64
of such a text, and what the three clients take the text for. -/

namespace Pouw

open List
open String (fromUTF8? ofList)

/-- The three clients return the two fields of the token, but for this. Hexadecimal digits are taken for
    base64 first, and what that gives must come to nothing: in TypeScript it does unless there is a
    `Buffer`, on iOS unless the token begins with `task_id`. The Android reader has to take the token as
    the schema means it, and to get through a text that is a payload. -/
theorem formats_agree_iff {R : TypeScript.Engine} {F : Ios.Foundation} {A : Android.Platform}
    (hR : R.Documented) (hF : F.Documented) (hA : A.Documented)
    (requestedProofs : List PoUWController.ProofType) {m : Message} (hm : m.InSchemaOrder)
    (wrapped : Bool) (f : Format) :
    (Gives (TypeScript.IsToken m) (R.parseChallengeAny requestedProofs
        (TypeScript.tokenResponse (wrap wrapped (f.text m.bytes)))) ↔
      (R.buffer ≠ none → wrapped = false →
        (R.decoders requestedProofs).Undisturbed (TypeScript.IsToken m) 1 f m.bytes)) ∧
    (Gives (Ios.IsToken m) (F.parseChallengeToken (wrap wrapped (f.text m.bytes))) ↔
      (m.BeginsWithTaskId →
        F.decoders.Undisturbed (Ios.IsToken m) (if wrapped then 0 else 1) f m.bytes)) ∧
    (m.AndroidReads →
      ((∃ t, A.parseChallengeTokenFlexible (wrap wrapped (f.text m.bytes)) = .ok t ∧
          Android.IsToken m t) ↔
        (wrapped = true → Android.parseChallengeToken (ascii (f.text m.bytes)) = .ok none) ∧
          A.decoders.Undisturbed (Android.IsToken m) (if wrapped then 1 else 2) f m.bytes)) := by
  refine ⟨?_, ?_, fun hreads => hA.gives_iff hm hreads wrapped f⟩
  · rw [hR.gives_iff requestedProofs hm wrapped f]
    constructor
    · intro hquiet _
      exact hquiet
    · intro hquiet hwrapped
      by_cases hbuffer : R.buffer = none
      · exact hR.undisturbed_of_no_buffer hbuffer hm 1 f
      · exact hquiet hbuffer hwrapped
  · rw [hF.gives_iff hm wrapped f]
    constructor
    · intro hquiet _
      exact hquiet
    · intro hquiet
      by_cases hbegins : m.BeginsWithTaskId
      · exact hquiet hbegins
      · exact hF.undisturbed hm hbegins _ f

/-! ## Platforms without JSON -/

/-- An engine without `Buffer`. -/
def plainEngine : TypeScript.Engine where
  buffer := none
  jsonParse := fun _ => none
  now := 0

theorem plainEngine_documented : plainEngine.Documented where
  quoted := fun _ _ _ h => nomatch h
  starts := fun _ _ _ => rfl
  buffer := fun _ h => nomatch h

def plainFoundation : Ios.Foundation where
  jsonObject := fun _ => none
  utf8Text := fun data => String.fromUTF8? ⟨data.toArray⟩
  base64Data := atob
  count := String.length

theorem fromUTF8_utf8 (s : String) : fromUTF8? ⟨(ZhtpCodec.utf8 s).toArray⟩ = some s := by
  simp [ZhtpCodec.utf8, fromUTF8?, String.fromUTF8, s.isValidUTF8]

theorem utf8_of_fromUTF8 {data : List UInt8} {s : String}
    (h : fromUTF8? ⟨data.toArray⟩ = some s) : ZhtpCodec.utf8 s = data := by
  rw [fromUTF8?] at h
  split at h
  · cases h
    simp [ZhtpCodec.utf8, String.fromUTF8]
  · cases h

theorem plainFoundation_base64Data : plainFoundation.base64Data = atob := rfl

theorem plainFoundation_documented : plainFoundation.Documented where
  quoted := fun _ _ _ h => nomatch h
  starts := fun _ _ _ => rfl
  text_ascii := by
    intro data hdata
    have hlt : ∀ c ∈ (ofList (data.map fun b => Char.ofNat b.toNat)).toList, c.toNat < 128 := by
      intro c hc
      rw [String.toList_ofList] at hc
      obtain ⟨b, hb, rfl⟩ := mem_map.1 hc
      rw [toNat_ofNat_toNat]
      exact hdata b hb
    have hbyte : ∀ b ∈ data, UInt8.ofNat (Char.ofNat b.toNat).toNat = b := by
      intro b _
      rw [toNat_ofNat_toNat, UInt8.ofNat_toNat]
    have hascii : ascii (ofList (data.map fun b => Char.ofNat b.toNat)) = data := by
      rw [ascii, String.toList_ofList, map_map]
      exact (map_congr_left hbyte).trans (map_id _)
    have hback := fromUTF8_utf8 (ofList (data.map fun b => Char.ofNat b.toNat))
    rw [utf8_eq_ascii hlt, hascii] at hback
    exact hback
  text_utf8 := fun data s h => ⟨s, utf8_of_fromUTF8 h⟩
  base64 := by
    intro bytes
    have hlen := Base64.length_sextets bytes
    have hpad : Base64.padLength bytes.length < 3 := Nat.mod_lt _ (by decide)
    have hdecode := atob_decodes _ _ (Base64.sextets_lt bytes) (Nat.le_of_lt_succ hpad) (by omega)
    rw [plainFoundation_base64Data, Format.text, encode_eq, hdecode, Base64.octets_sextets]
  symbols := by
    intro ns k bytes hns hk hlen h
    rw [plainFoundation_base64Data, atob_decodes ns k hns hk hlen] at h
    exact (Option.some.inj h).symm
  count := fun s _ => (String.length_toList).symm

def plainPlatform : Android.Platform where
  jsonObject := fun _ => none
  optLong := fun _ => 0
  toUtf8 := fun bytes => String.ofList (bytes.map fun b =>
    if b.toNat < 128 then Char.ofNat b.toNat else Char.ofNat 0xFFFD)
  base64Decode := fun s => some (Base64.octets (s.toList.filterMap Base64.value))

theorem plainPlatform_documented : plainPlatform.Documented where
  braces := fun _ _ => rfl
  starts := fun _ _ _ => rfl
  characters := by
    intro bytes hbytes
    exact congrArg ofList (map_congr_left fun b hb => if_pos (hbytes b hb))
  head := fun b bytes _ => ⟨_, rfl⟩
  base64 := by
    intro bytes
    have hvalues : ∀ ns : List Nat, (∀ n ∈ ns, n < 64) →
        (ns.map Base64.symbol).filterMap Base64.value = ns := by
      intro ns hns
      induction ns with
      | nil => rfl
      | cons n ns ih =>
        rw [forall_mem_cons] at hns
        rw [map_cons, filterMap_cons, Base64.value_symbol hns.1, ih hns.2]
    have hpad : ∀ k : Nat, (replicate k '=').filterMap Base64.value = [] := by
      intro k
      rw [filterMap_replicate_of_none (by decide)]
    change some (Base64.octets (filterMap Base64.value (Format.base64.text bytes).toList)) =
      some bytes
    rw [Format.text, String.toList_ofList, encode_eq, filterMap_append,
      hvalues _ (Base64.sextets_lt bytes), hpad, append_nil, Base64.octets_sextets]

theorem plainToken_inSchemaOrder : plainToken.InSchemaOrder where
  known := by decide
  ordered := by decide

theorem versionedToken_inSchemaOrder : versionedToken.InSchemaOrder where
  known := by decide
  ordered := by decide

theorem formats_agree_plainToken :
    Gives (TypeScript.IsToken plainToken) (plainEngine.parseChallengeAny []
        (TypeScript.tokenResponse (Format.base64.text plainToken.bytes))) ∧
    Gives (Ios.IsToken plainToken)
      (plainFoundation.parseChallengeToken (Format.base64.text plainToken.bytes)) ∧
    ∃ t, plainPlatform.parseChallengeTokenFlexible (Format.base64.text plainToken.bytes) = .ok t ∧
      Android.IsToken plainToken t := by
  obtain ⟨hengine, hfoundation, hplatform⟩ := formats_agree_iff plainEngine_documented
    plainFoundation_documented plainPlatform_documented [] plainToken_inSchemaOrder false .base64
  refine ⟨hengine.2 ?_, hfoundation.2 ?_, (hplatform plainToken_androidReads).2 ⟨?_, ?_⟩⟩
  · exact fun _ _ hhex => nomatch hhex
  · exact fun _ hhex => nomatch hhex
  · exact fun hwrapped => nomatch hwrapped
  · exact fun hhex => nomatch hhex

/-- The base64 of a token with its version: the Android reader takes the token for none, and nothing
    comes of the other attempts. -/
theorem formats_versionedToken : plainPlatform.Documented ∧ versionedToken.InSchemaOrder ∧
    plainPlatform.parseChallengeTokenFlexible (Format.base64.text versionedToken.bytes) =
      .error (.illegalState "Unsupported challenge token format") := by
  refine ⟨plainPlatform_documented, versionedToken_inSchemaOrder, ?_⟩
  decide

end Pouw
