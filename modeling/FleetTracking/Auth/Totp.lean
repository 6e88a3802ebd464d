import FleetTracking.Auth.Base32
import FleetTracking.Lib.Decimal

/-!
# Codes of the Second Factor

What an authenticator shows for a secret, and what the server accepts. HMAC-SHA1 is a parameter.

1. `totp`, `verifyTotp`: the functions.
2. `totp_digits`: a code is six digits.
3. `verifyTotp_iff`, `verifyTotp_totp`: the codes of three steps are accepted, and no other ones.
-/

namespace FleetTracking.Auth

open FleetTracking.Protocol (Buffer)

namespace Totp

/-- `createHmac('sha1', key).update(message).digest()`. -/
abbrev HmacSha1 := Buffer → Buffer → Vector UInt8 20

/-! ## The functions -/

/-- `hmac[hmac.length - 1] & 0x0f`. -/
def offset (hmac : Vector UInt8 20) : Nat := (hmac[19] &&& 0x0f).toNat

theorem offset_lt (hmac : Vector UInt8 20) : offset hmac < 16 := by
  rw [offset, UInt8.toNat_and]
  exact Nat.lt_of_le_of_lt Nat.and_le_right (by decide)

/-- `bin`: the four bytes from the offset on, less the sign bit. -/
def truncated (hmac : Vector UInt8 20) : UInt32 :=
  have hoffset := offset_lt hmac
  ((hmac[offset hmac] &&& 0x7f).toUInt32 <<< 24) ||| (hmac[offset hmac + 1].toUInt32 <<< 16) |||
    (hmac[offset hmac + 2].toUInt32 <<< 8) ||| hmac[offset hmac + 3].toUInt32

/-- The code of a secret for one step. -/
def codeAt (hmacSha1 : HmacSha1) (secretBase32 : String) (counter : Nat) : String :=
  let hmac := hmacSha1 (Base32.base32Decode secretBase32.toList) (Buffer.ofNatBE 8 counter)
  JsDate.padded 6 ((truncated hmac).toNat % 10 ^ 6)

/-- `totp`, for steps of 30 seconds and six digits. For a time before 1970 there is no code:
`writeBigUInt64BE` throws. -/
def totp (hmacSha1 : HmacSha1) (secretBase32 : String) (timeMs : Int) : Option String :=
  -- `Math.floor(timeMs / 1000 / step)`
  let counter := timeMs / 30000
  if 0 ≤ counter then some (codeAt hmacSha1 secretBase32 counter.toNat) else none

/-- `code.padStart(6, '0')`. A text with other characters than digits is no code, whatever its
length. -/
def target (code : String) : String :=
  String.ofList (List.replicate (6 - code.length) '0') ++ code

/-- `verifyTotp`, for a window of one step. In the first step of 1970 the code throws, as there is
none before it; here that step is passed over. -/
def verifyTotp (hmacSha1 : HmacSha1) (secretBase32 code : String) (timeMs : Nat) : Bool :=
  [-1, 0, 1].any fun w : Int =>
    totp hmacSha1 secretBase32 (timeMs + w * 30000) = some (target code)

/-! ## Codes -/

variable {hmacSha1 : HmacSha1} {secretBase32 code : String} {timeMs : Nat}

/-- Every code is six digits. -/
theorem codeAt_digits (counter : Nat) :
    (codeAt hmacSha1 secretBase32 counter).toList.length = 6 ∧
      ∀ c ∈ (codeAt hmacSha1 secretBase32 counter).toList, c.isDigit = true := by
  constructor
  · apply Decimal.length_padded
    · exact Nat.mod_lt _ (by decide)
    · decide
  · intro c hc
    exact Decimal.isDigit_of_mem_padded hc

/-- A text of six characters is compared as it is. -/
theorem target_of_length (h : code.length = 6) : target code = code := by
  simp [target, h]

/-- The code of a time is that of its step. -/
theorem totp_natCast (timeMs : Nat) :
    totp hmacSha1 secretBase32 timeMs = some (codeAt hmacSha1 secretBase32 (timeMs / 30000)) := by
  have hcounter : (timeMs : Int) / 30000 = ((timeMs / 30000 : Nat) : Int) := by omega
  simp only [totp, hcounter, Int.natCast_nonneg, if_true, Int.toNat_natCast]

/-- One step earlier or later, the counter is one less or one more. -/
theorem totp_shifted (w : Int) : totp hmacSha1 secretBase32 (timeMs + w * 30000) =
    if 0 ≤ (timeMs / 30000 : Nat) + w then
      some (codeAt hmacSha1 secretBase32 ((timeMs / 30000 : Nat) + w).toNat) else none := by
  have hcounter : ((timeMs : Int) + w * 30000) / 30000 = (timeMs / 30000 : Nat) + w := by omega
  simp only [totp, hcounter]

/-- **What is accepted**: the codes of the step of the time, and of the steps before and after. -/
theorem verifyTotp_iff : verifyTotp hmacSha1 secretBase32 code timeMs = true ↔
    ∃ counter, counter ≤ timeMs / 30000 + 1 ∧ timeMs / 30000 ≤ counter + 1 ∧
      codeAt hmacSha1 secretBase32 counter = target code := by
  simp only [verifyTotp, List.any_eq_true, decide_eq_true_eq, totp_shifted]
  constructor
  · intro h
    obtain ⟨w, hw, hcode⟩ := h
    have hwindow : -1 ≤ w ∧ w ≤ 1 := by
      simp only [List.mem_cons, List.not_mem_nil, or_false] at hw
      omega
    split at hcode
    · refine ⟨_, ?_, ?_, Option.some_inj.mp hcode⟩
      · omega
      · omega
    · cases hcode
  · intro h
    obtain ⟨counter, hlate, hearly, hcode⟩ := h
    refine ⟨(counter : Int) - (timeMs / 30000 : Nat), ?_, ?_⟩
    · simp only [List.mem_cons, List.not_mem_nil, or_false]
      omega
    · simp [hcode]

/-- Clocks may drift by a step: the code that an authenticator shows at a time is accepted in the
same step, in the one before and in the one after. -/
theorem verifyTotp_totp {shownMs : Nat} (hlate : shownMs / 30000 ≤ timeMs / 30000 + 1)
    (hearly : timeMs / 30000 ≤ shownMs / 30000 + 1)
    (hshown : totp hmacSha1 secretBase32 shownMs = some code) :
    verifyTotp hmacSha1 secretBase32 code timeMs = true := by
  rw [totp_natCast, Option.some.injEq] at hshown
  have hlength : code.length = 6 := by
    rw [← hshown, ← String.length_toList]
    exact (codeAt_digits _).1
  exact verifyTotp_iff.mpr ⟨_, hlate, hearly, by rw [hshown, target_of_length hlength]⟩

/-- Nothing but digits is accepted. -/
theorem digits_of_verifyTotp (h : verifyTotp hmacSha1 secretBase32 code timeMs = true) {c : Char}
    (hc : c ∈ code.toList) : c.isDigit = true := by
  obtain ⟨counter, -, -, hcode⟩ := verifyTotp_iff.mp h
  apply (codeAt_digits counter).2
  rw [hcode, target, String.toList_append]
  exact List.mem_append_right _ hc

end Totp

/-! ## A secret and its codes -/

/-- The digests of the key "12345678901234567890" for the counters 0, 1 and 2; no other ones are
asked for. -/
def sampleHmac : Totp.HmacSha1 := fun _ message =>
  match message.getLast? with
  | some 0 => ⟨#[0xcc, 0x93, 0xcf, 0x18, 0x50, 0x8d, 0x94, 0x93, 0x4c, 0x64, 0xb6, 0x5d, 0x8b, 0xa7,
      0x66, 0x7f, 0xb7, 0xcd, 0xe4, 0xb0], rfl⟩
  | some 1 => ⟨#[0x75, 0xa4, 0x8a, 0x19, 0xd4, 0xcb, 0xe1, 0x00, 0x64, 0x4e, 0x8a, 0xc1, 0x39, 0x7e,
      0xea, 0x74, 0x7a, 0x2d, 0x33, 0xab], rfl⟩
  | _ => ⟨#[0x0b, 0xac, 0xb7, 0xfa, 0x08, 0x2f, 0xef, 0x30, 0x78, 0x22, 0x11, 0x93, 0x8b, 0xc1,
      0xc5, 0xe7, 0x04, 0x16, 0xff, 0x44], rfl⟩

/-- The secret of that key. -/
def sampleSecret : String := "GEZDGNBVGY3TQOJQGEZDGNBVGY3TQOJQ"

example : Totp.totp sampleHmac sampleSecret 59000 = some "287082" := by decide +kernel

end FleetTracking.Auth
