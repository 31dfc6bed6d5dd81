import SovereignMobile.Codec.BigEndian

/-! # The bytes under the request MAC

`build_mac_input` (`zhtp_auth.rs`) is in `AuthSession.lean`, `buildMacInput` of `ZhtpAuth.swift`
here. Every field of variable length has its length in front of it, so the fields can be read back
from the bytes, and the two platforms write the same bytes. -/

namespace ZhtpAuth

open Quic (ZhtpMethod toBeBytes)
open ZhtpCodec (utf8)

/-- iOS authenticates four methods. -/
def zhtpMethodByte : ZhtpMethod → Option UInt8
  | .get => some 0
  | .post => some 1
  | .put => some 2
  | .delete => some 3
  | _ => none

def buildMacInput (method : ZhtpMethod) (path : String) (body : List UInt8) (counter : UInt64)
    (sessionId : List UInt8) : Option (List UInt8) :=
  match zhtpMethodByte method with
  | none => none
  | some methodByte =>
    if sessionId.length ≠ 32 then none
    else if (utf8 path).length > 65535 then none
    else if body.length > 4294967295 then none
    else some (methodByte :: (toBeBytes 2 (utf8 path).length ++ utf8 path ++ toBeBytes 4 body.length
      ++ body ++ toBeBytes 8 counter.toNat ++ sessionId))

end ZhtpAuth

namespace Quic

open List
open ZhtpCodec (utf8)

/-! ## Strings -/

/-- Rust and Swift take the same bytes of a string. -/
theorem asBytes_eq_utf8 (s : String) : asBytes s = utf8 s := by
  have h : s.toByteArray = (s.toList.flatMap String.utf8EncodeChar).toByteArray := by
    rw [← String.utf8Encode_toList]
    rfl
  rw [asBytes, utf8, h, data_toByteArray]

theorem utf8_inj {s t : String} (h : utf8 s = utf8 t) : s = t := by
  have hdata : s.toByteArray.data = t.toByteArray.data := Array.toList_inj.1 h
  exact String.toByteArray_inj.1 (ByteArray.ext hdata)

/-! ## Reading the fields back -/

theorem methodByte_inj {m1 m2 : ZhtpMethod} (h : methodByte m1 = methodByte m2) : m1 = m2 := by
  cases m1 <;> cases m2 <;> first | rfl | exact nomatch h

/-- A field behind its length: the field and the rest can be told apart. -/
theorem prefixed_inj {width : Nat} {a b a' b' : List UInt8} (ha : a.length < 256 ^ width)
    (ha' : a'.length < 256 ^ width)
    (h : toBeBytes width a.length ++ a ++ b = toBeBytes width a'.length ++ a' ++ b') :
    a = a' ∧ b = b' := by
  rw [append_assoc, append_assoc] at h
  obtain ⟨hlen, htail⟩ := append_inj h (by simp)
  exact append_inj htail (toBeBytes_inj ha ha' hlen)

/-- What `build_mac_input` writes, when it does. -/
def macBytes (methodByte : UInt8) (path body : List UInt8) (counter : Nat)
    (sessionId : List UInt8) : List UInt8 :=
  methodByte :: (toBeBytes 2 path.length ++ path ++ toBeBytes 4 body.length ++ body
    ++ toBeBytes 8 counter ++ sessionId)

theorem macBytes_inj {m1 m2 : UInt8} {p1 p2 b1 b2 s1 s2 : List UInt8} {c1 c2 : UInt64}
    (hp1 : p1.length ≤ 65535) (hp2 : p2.length ≤ 65535) (hb1 : b1.length ≤ 4294967295)
    (hb2 : b2.length ≤ 4294967295)
    (h : macBytes m1 p1 b1 c1.toNat s1 = macBytes m2 p2 b2 c2.toNat s2) :
    m1 = m2 ∧ p1 = p2 ∧ b1 = b2 ∧ c1 = c2 ∧ s1 = s2 := by
  simp only [macBytes, cons.injEq] at h
  obtain ⟨hm, h⟩ := h
  have hpath : toBeBytes 2 p1.length ++ p1 ++
        (toBeBytes 4 b1.length ++ b1 ++ (toBeBytes 8 c1.toNat ++ s1)) =
      toBeBytes 2 p2.length ++ p2 ++
        (toBeBytes 4 b2.length ++ b2 ++ (toBeBytes 8 c2.toNat ++ s2)) := by
    simpa only [append_assoc] using h
  obtain ⟨hp, hrest⟩ := prefixed_inj (by omega) (by omega) hpath
  obtain ⟨hb, hrest⟩ := prefixed_inj (by omega) (by omega) hrest
  obtain ⟨hc, hs⟩ := append_inj hrest (by simp)
  have hcounter := toBeBytes_inj c1.toNat_lt c2.toNat_lt hc
  exact ⟨hm, hp, hb, UInt64.toNat_inj.1 hcounter, hs⟩

theorem buildMacInput_eq_ok {method : ZhtpMethod} {path body : List UInt8} {counter : Nat}
    {sessionId x : List UInt8} :
    buildMacInput method path body counter sessionId = .ok x ↔
      sessionId.length = 32 ∧ path.length ≤ 65535 ∧ body.length ≤ 4294967295 ∧
        x = macBytes (methodByte method) path body counter sessionId := by
  rw [buildMacInput, guard_eq_ok, guard_eq_ok, guard_eq_ok, Except.ok.injEq, not_not, Nat.not_lt,
    Nat.not_lt, ← macBytes, @eq_comm _ x]

end Quic

namespace ZhtpAuth

open Quic (ZhtpMethod macBytes)
open ZhtpCodec (utf8)
open List (replicate)

variable {method : ZhtpMethod}

theorem zhtpMethodByte_eq {b : UInt8} (h : zhtpMethodByte method = some b) :
    b = Quic.methodByte method := by
  cases method <;> simp_all [zhtpMethodByte, Quic.methodByte]

theorem buildMacInput_eq_some {path : String} {body : List UInt8} {counter : UInt64}
    {sessionId x : List UInt8} :
    buildMacInput method path body counter sessionId = some x ↔
      (zhtpMethodByte method).isSome ∧ sessionId.length = 32 ∧ (utf8 path).length ≤ 65535 ∧
        body.length ≤ 4294967295 ∧
        x = macBytes (Quic.methodByte method) (utf8 path) body counter.toNat sessionId := by
  unfold buildMacInput
  split
  · simp_all
  rename_i b hb
  rw [← macBytes, @eq_comm _ x, hb, zhtpMethodByte_eq hb]
  simp

/-- **The MAC input is injective.** On either platform, equal bytes come from equal requests, and for
    the methods that iOS authenticates the platforms write the same bytes (or both refuse). -/
theorem macInput_injective :
    (∀ (m₁ m₂ : ZhtpMethod) (p₁ p₂ : String) (b₁ b₂ : List UInt8) (c₁ c₂ : UInt64)
      (s₁ s₂ x : List UInt8),
      Quic.buildMacInput m₁ (Quic.asBytes p₁) b₁ c₁.toNat s₁ = .ok x →
      Quic.buildMacInput m₂ (Quic.asBytes p₂) b₂ c₂.toNat s₂ = .ok x →
      m₁ = m₂ ∧ p₁ = p₂ ∧ b₁ = b₂ ∧ c₁ = c₂ ∧ s₁ = s₂) ∧
    (∀ (m₁ m₂ : ZhtpMethod) (p₁ p₂ : String) (b₁ b₂ : List UInt8) (c₁ c₂ : UInt64)
      (s₁ s₂ x : List UInt8),
      buildMacInput m₁ p₁ b₁ c₁ s₁ = some x → buildMacInput m₂ p₂ b₂ c₂ s₂ = some x →
      m₁ = m₂ ∧ p₁ = p₂ ∧ b₁ = b₂ ∧ c₁ = c₂ ∧ s₁ = s₂) ∧
    ∀ (m : ZhtpMethod) (p : String) (b : List UInt8) (c : UInt64) (s : List UInt8),
      (zhtpMethodByte m).isSome →
      (Quic.buildMacInput m (Quic.asBytes p) b c.toNat s).toOption = buildMacInput m p b c s := by
  refine ⟨?_, ?_, ?_⟩
  · intro m₁ m₂ p₁ p₂ b₁ b₂ c₁ c₂ s₁ s₂ x h1 h2
    rw [Quic.asBytes_eq_utf8] at h1 h2
    obtain ⟨-, hp1, hb1, rfl⟩ := Quic.buildMacInput_eq_ok.1 h1
    obtain ⟨-, hp2, hb2, h⟩ := Quic.buildMacInput_eq_ok.1 h2
    obtain ⟨hm, hp, hb, hc, hs⟩ := Quic.macBytes_inj hp1 hp2 hb1 hb2 h
    exact ⟨Quic.methodByte_inj hm, Quic.utf8_inj hp, hb, hc, hs⟩
  · intro m₁ m₂ p₁ p₂ b₁ b₂ c₁ c₂ s₁ s₂ x h1 h2
    obtain ⟨-, -, hp1, hb1, rfl⟩ := buildMacInput_eq_some.1 h1
    obtain ⟨-, -, hp2, hb2, h⟩ := buildMacInput_eq_some.1 h2
    obtain ⟨hm, hp, hb, hc, hs⟩ := Quic.macBytes_inj hp1 hp2 hb1 hb2 h
    exact ⟨Quic.methodByte_inj hm, Quic.utf8_inj hp, hb, hc, hs⟩
  · intro m p b c s hm
    rw [Quic.asBytes_eq_utf8]
    cases h : Quic.buildMacInput m (utf8 p) b c.toNat s with
    | ok x =>
      exact (buildMacInput_eq_some.2 ⟨hm, Quic.buildMacInput_eq_ok.1 h⟩).symm
    | error e =>
      refine (Option.eq_none_iff_forall_ne_some.2 fun x hx => ?_).symm
      have hok := Quic.buildMacInput_eq_ok.2 (buildMacInput_eq_some.1 hx).2
      exact nomatch h.symm.trans hok

/-- The bytes of `POST /a` with the body `[1]` and the counter 7. -/
def sampleMacInput : List UInt8 :=
  [1, 0, 2, 0x2f, 0x61, 0, 0, 0, 1, 1, 0, 0, 0, 0, 0, 0, 0, 7] ++ List.replicate 32 0

theorem macInput_sample :
    Quic.buildMacInput .post (Quic.asBytes "/a") [1] (7 : UInt64).toNat (List.replicate 32 0)
      = .ok sampleMacInput ∧
    buildMacInput .post "/a" [1] 7 (List.replicate 32 0) = some sampleMacInput ∧
    ((.post : ZhtpMethod) = .post ∧ "/a" = "/a" ∧ ([1] : List UInt8) = [1] ∧ (7 : UInt64) = 7 ∧
      List.replicate 32 (0 : UInt8) = List.replicate 32 0) ∧
    (Quic.buildMacInput .post (Quic.asBytes "/a") [1] (7 : UInt64).toNat
      (List.replicate 32 0)).toOption = buildMacInput .post "/a" [1] 7 (List.replicate 32 0) := by
  have hq : Quic.buildMacInput .post (Quic.asBytes "/a") [1] (7 : UInt64).toNat
      (replicate 32 0) = .ok sampleMacInput := by decide
  have hi : buildMacInput .post "/a" [1] 7 (replicate 32 0) = some sampleMacInput := by decide
  exact ⟨hq, hi, macInput_injective.2.1 _ _ _ _ _ _ _ _ _ _ _ hi hi,
    macInput_injective.2.2 _ _ _ _ _ (by decide)⟩

end ZhtpAuth
