import FleetTracking.Lib.BitString
import FleetTracking.Protocol.Reader
import FleetTracking.Protocol.TeltonikaParams
import Mathlib.Algebra.Order.Floor.Div
import Mathlib.Data.List.DropRight

/-!
# Secrets in Base32

The secrets of the second factor, as an authenticator takes them. Both loops keep their bits in a
32-bit word that is shifted and never masked; only its low bits count.

1. `base32Encode`, `base32Decode`: the functions.
2. `Encodes`: the letters and the low bits of the word are the bits of the bytes read.
3. `Decodes`: the bytes and the low bits of the word are the bits of the letters read.
4. `base32_round_trip`: a secret comes back from its letters.
-/

namespace FleetTracking.Auth

open BitString
open FleetTracking.Protocol (Buffer)
open FleetTracking.Protocol.TeltonikaParams (Text isSpace)

namespace Base32

/-! ## The functions -/

/-- `ALPHABET`: RFC 4648 base32. -/
def alphabet : Text := "ABCDEFGHIJKLMNOPQRSTUVWXYZ234567".toList

/-- `bits`, `value` and `out` of both loops. -/
structure BitBuffer (α : Type) where
  bits : Nat
  value : BitVec 32
  out : List α

/-- `v & 31` is an index of the alphabet. -/
theorem index_lt (v : BitVec 32) : (v &&& 31).toNat < alphabet.length := by
  have hlength : alphabet.length = 32 := by decide
  rw [hlength, BitVec.toNat_and]
  exact Nat.lt_of_le_of_lt Nat.and_le_right (by decide)

/-- `ALPHABET[v & 31]`. -/
def letter (v : BitVec 32) : Char := alphabet.get ⟨(v &&& 31).toNat, index_lt v⟩

/-- The inner loop of `base32Encode`: a letter for each five bits. -/
def emit : Nat → BitVec 32 → Text → Nat × Text
  | bits + 5, value, out => emit bits value (out ++ [letter (value >>> bits)])
  | bits, _, out => (bits, out)

/-- The loop of `base32Encode`. -/
def encodeByte (s : BitBuffer Char) (byte : UInt8) : BitBuffer Char :=
  let value := (s.value <<< 8) ||| byte.toBitVec.setWidth 32
  let (bits, out) := emit (s.bits + 8) value s.out
  { bits, value, out }

def base32Encode (buf : Buffer) : Text :=
  let s := buf.foldl encodeByte { bits := 0, value := 0, out := [] }
  if 0 < s.bits then s.out ++ [letter (s.value <<< (5 - s.bits))] else s.out

/-- `toUpperCase` of one character. Of those outside ASCII, the ones with an ASCII letter in their
upper case are listed; no other one becomes a letter, a `=` or a space, and they stay. -/
def toUpperCase (c : Char) : Text :=
  match c.toNat with
  | 0xdf => "SS".toList
  | 0x131 => "I".toList
  | 0x149 => "\u02bcN".toList
  | 0x17f => "S".toList
  | 0x1f0 => "J\u030c".toList
  | 0x1e96 => "H\u0331".toList
  | 0x1e97 => "T\u0308".toList
  | 0x1e98 => "W\u030a".toList
  | 0x1e99 => "Y\u030a".toList
  | 0x1e9a => "A\u02be".toList
  | 0xfb00 => "FF".toList
  | 0xfb01 => "FI".toList
  | 0xfb02 => "FL".toList
  | 0xfb03 => "FFI".toList
  | 0xfb04 => "FFL".toList
  | 0xfb05 => "ST".toList
  | 0xfb06 => "ST".toList
  | _ => [c.toUpper]

/-- `str.toUpperCase().replace(/=+$/, '').replace(/\s/g, '')`. -/
def clean (str : Text) : Text :=
  ((str.flatMap toUpperCase).rdropWhile (· = '=')).filter fun c => !isSpace c

/-- The loop of `base32Decode`. -/
def decodeChar (s : BitBuffer UInt8) (ch : Char) : BitBuffer UInt8 :=
  match alphabet.idxOf? ch with
  | none => s
  | some idx =>
    let value := (s.value <<< 5) ||| BitVec.ofNat 32 idx
    let bits := s.bits + 5
    if 8 ≤ bits then
      { bits := bits - 8, value
        out := s.out ++ [⟨((value >>> (bits - 8)) &&& 0xff).setWidth 8⟩] }
    else { s with bits, value }

def base32Decode (str : Text) : Buffer :=
  ((clean str).foldl decodeChar { bits := 0, value := 0, out := [] }).out

example : base32Encode "12345678901234567890".toUTF8.toList =
    "GEZDGNBVGY3TQOJQGEZDGNBVGY3TQOJQ".toList := by
  decide +kernel

example : base32Decode "gezd gnbv==".toList = "12345".toUTF8.toList := by
  decide +kernel

/-! ## The letters -/

/-- The five bits of a letter. -/
def code (c : Char) : BitVec 5 := BitVec.ofNat 5 (alphabet.idxOf c)

theorem letter_mem (v : BitVec 32) : letter v ∈ alphabet := List.get_mem _ _

/-- A letter stands for the low five bits of the word. -/
theorem low_code_letter (v : BitVec 32) : low 5 (code (letter v)) = low 5 v := by
  have hnodup : alphabet.Nodup := by decide
  have hidx : alphabet.idxOf (letter v) = (v &&& 31).toNat := hnodup.idxOf_getElem _ (index_lt v)
  have hmask : ∀ i < 5, (31 : BitVec 32).getLsbD i = true := by decide
  rw [code, hidx, BitVec.ofNat_toNat, low_setWidth (Nat.le_refl 5), low_and hmask]

/-- What the decoder finds for a letter. -/
theorem idxOf?_of_mem {c : Char} (hc : c ∈ alphabet) : alphabet.idxOf? c = some (code c).toNat := by
  have hlt : alphabet.idxOf c < 32 := List.idxOf_lt_length_of_mem hc
  rw [code, BitVec.toNat_ofNat, Nat.mod_eq_of_lt hlt, List.idxOf_eq_getD_idxOf?]
  cases hidx : alphabet.idxOf? c with
  | none => exact absurd hc (List.idxOf?_eq_none_iff.mp hidx)
  | some idx => rfl

/-- A text of letters is clean. -/
theorem clean_eq {text : Text} (h : ∀ c ∈ text, c ∈ alphabet) : clean text = text := by
  have hletters : alphabet.all (fun c => toUpperCase c == [c] && c != '=' && !isSpace c) = true := by
    decide +kernel
  have hletter : ∀ c ∈ text, toUpperCase c = [c] ∧ c ≠ '=' ∧ isSpace c = false := by
    intro c hc
    simpa [and_assoc] using List.all_eq_true.mp hletters c (h c hc)
  have hupper : text.flatMap toUpperCase = text := by
    rw [List.flatMap_congr fun c hc => (hletter c hc).1, List.flatMap_singleton']
  have hstrip : text.rdropWhile (· = '=') = text := by
    rw [List.rdropWhile_eq_self_iff]
    intro hne
    simpa using (hletter _ (List.getLast_mem hne)).2.1
  rw [clean, hupper, hstrip, List.filter_eq_self]
  intro c hc
  rw [(hletter c hc).2.2, Bool.not_false]

/-! ## Encoding -/

/-- **The invariant of `base32Encode`**, after some bytes: the letters and the low bits of the word
are the bits of the bytes. -/
structure Encodes (read : Buffer) (s : BitBuffer Char) : Prop where
  few : s.bits < 5
  letters : ∀ c ∈ s.out, c ∈ alphabet
  eq : chunks (s.out.map code) ++ low s.bits s.value = chunks (read.map UInt8.toBitVec)

/-- The inner loop moves bits of the word into letters, until less than five are left. -/
theorem emit_spec (bits : Nat) (value : BitVec 32) (out : Text) (hout : ∀ c ∈ out, c ∈ alphabet) :
    (emit bits value out).1 < 5 ∧ (∀ c ∈ (emit bits value out).2, c ∈ alphabet) ∧
      chunks ((emit bits value out).2.map code) ++ low (emit bits value out).1 value =
        chunks (out.map code) ++ low bits value := by
  fun_induction emit bits value out with
  | case1 bits value out ih =>
    have hletters : ∀ c ∈ out ++ [letter (value >>> bits)], c ∈ alphabet := by
      intro c hc
      rcases List.mem_append.mp hc with hc | hc
      · exact hout c hc
      · rw [List.mem_singleton.mp hc]
        exact letter_mem _
    obtain ⟨hfew, hmem, heq⟩ := ih hletters
    refine ⟨hfew, hmem, ?_⟩
    have hfive : low (bits + 5) value = low 5 (value >>> bits) ++ low bits value := by
      rw [Nat.add_comm, low_add]
    rw [heq, hfive]
    simp [low_code_letter]
  | case2 bits value out hlt =>
    refine ⟨?_, hout, rfl⟩
    by_contra hge
    obtain ⟨n, rfl⟩ := Nat.exists_eq_add_of_le' (Nat.not_lt.mp hge)
    exact hlt n rfl

theorem Encodes.step {read : Buffer} {s : BitBuffer Char} (h : Encodes read s) (byte : UInt8) :
    Encodes (read ++ [byte]) (encodeByte s byte) := by
  obtain ⟨hfew, hletters, heq⟩ :=
    emit_spec (s.bits + 8) ((s.value <<< 8) ||| byte.toBitVec.setWidth 32) s.out h.letters
  refine ⟨hfew, hletters, heq.trans ?_⟩
  have hfit : s.bits + 8 ≤ 32 := by
    have := h.few
    omega
  have hbyte : ∀ i, 8 ≤ i → (byte.toBitVec.setWidth 32).getLsbD i = false := by
    intro i hi
    simp [BitVec.getLsbD_of_ge _ _ hi]
  rw [low_shiftLeft_or hfit _ _ hbyte, low_setWidth (by decide), ← List.append_assoc, h.eq]
  simp

/-- **What is encoded.** The letters have the bits of the bytes, then less than five zeros. -/
theorem base32Encode_spec (buf : Buffer) :
    (∀ c ∈ base32Encode buf, c ∈ alphabet) ∧
      ∃ pad < 5, chunks ((base32Encode buf).map code) =
        chunks (buf.map UInt8.toBitVec) ++ List.replicate pad false := by
  have hrun : ∀ (rest read : Buffer) (s : BitBuffer Char), Encodes read s →
      Encodes (read ++ rest) (rest.foldl encodeByte s) := by
    intro rest
    induction rest with
    | nil => intro read s h; simpa using h
    | cons byte rest ih =>
      intro read s h
      simpa using ih _ _ (h.step byte)
  have hstart : Encodes [] { bits := 0, value := 0, out := [] } :=
    ⟨by decide, fun c hc => (List.not_mem_nil hc).elim, rfl⟩
  obtain ⟨hfew, hletters, heq⟩ := hrun buf [] _ hstart
  unfold base32Encode
  generalize buf.foldl encodeByte { bits := 0, value := 0, out := [] } = s at *
  dsimp only
  split
  case isTrue hpos =>
    refine ⟨?_, 5 - s.bits, by omega, ?_⟩
    · intro c hc
      rcases List.mem_append.mp hc with hc | hc
      · exact hletters c hc
      · rw [List.mem_singleton.mp hc]
        exact letter_mem _
    · -- the last letter: what is left, and zeros
      have hlast : low 5 (s.value <<< (5 - s.bits)) =
          low s.bits s.value ++ List.replicate (5 - s.bits) false := by
        have hfive : s.bits + (5 - s.bits) = 5 := by omega
        rw [← low_shiftLeft (by omega), hfive]
      rw [List.map_append, chunks_append, ← List.nil_append buf, ← heq, List.append_assoc, ← hlast,
        List.map_singleton, chunks_cons, low_code_letter, chunks_nil, List.append_nil]
  case isFalse hzero =>
    refine ⟨hletters, 0, by decide, ?_⟩
    have hbits : s.bits = 0 := by omega
    simpa [hbits] using heq

/-! ## Decoding -/

/-- **The invariant of `base32Decode`**, after some letters: the bytes and the low bits of the word
are the bits of the letters. -/
structure Decodes (read : Text) (s : BitBuffer UInt8) : Prop where
  few : s.bits < 8
  eq : chunks (s.out.map UInt8.toBitVec) ++ low s.bits s.value = chunks (read.map code)

theorem Decodes.step {read : Text} {s : BitBuffer UInt8} (h : Decodes read s) {c : Char}
    (hc : c ∈ alphabet) : Decodes (read ++ [c]) (decodeChar s c) := by
  have hfew := h.few
  -- the word with the five bits of the letter
  have hlow : low (s.bits + 5) ((s.value <<< 5) ||| BitVec.ofNat 32 (code c).toNat) =
      low s.bits s.value ++ low 5 (code c) := by
    rw [BitVec.ofNat_toNat, low_shiftLeft_or (by omega), low_setWidth (by decide)]
    intro i hi
    simp [BitVec.getLsbD_of_ge _ _ hi]
  have heq : chunks (s.out.map UInt8.toBitVec) ++ low (s.bits + 5)
      ((s.value <<< 5) ||| BitVec.ofNat 32 (code c).toNat) = chunks ((read ++ [c]).map code) := by
    rw [hlow, ← List.append_assoc, h.eq]
    simp
  unfold decodeChar
  rw [idxOf?_of_mem hc]
  dsimp only
  generalize (s.value <<< 5) ||| BitVec.ofNat 32 (code c).toNat = value at *
  split
  case isTrue hfull =>
    refine ⟨by dsimp only; omega, ?_⟩
    have hmask : ∀ i < 8, (0xff : BitVec 32).getLsbD i = true := by decide
    have hbits : s.bits + 5 = 8 + (s.bits + 5 - 8) := by omega
    rw [← heq, List.map_append, chunks_append, List.append_assoc]
    congr 1
    rw [hbits, low_add, ← hbits, List.map_singleton, chunks_cons, chunks_nil, List.append_nil,
      low_setWidth (Nat.le_refl 8), low_and hmask]
  case isFalse hmore =>
    exact ⟨by dsimp only; omega, heq⟩

/-- **What is decoded.** The bytes have the bits of the letters, less than eight of them left. -/
theorem base32Decode_spec {text : Text} (h : ∀ c ∈ text, c ∈ alphabet) :
    ∃ rest : List Bool, rest.length < 8 ∧
      chunks ((base32Decode text).map UInt8.toBitVec) ++ rest = chunks (text.map code) := by
  have hrun : ∀ (rest read : Text) (s : BitBuffer UInt8), (∀ c ∈ rest, c ∈ alphabet) →
      Decodes read s → Decodes (read ++ rest) (rest.foldl decodeChar s) := by
    intro rest
    induction rest with
    | nil => intro read s _ h; simpa using h
    | cons c rest ih =>
      intro read s hrest h
      rw [List.forall_mem_cons] at hrest
      simpa using ih _ _ hrest.2 (h.step hrest.1)
  have hstart : Decodes [] { bits := 0, value := 0, out := [] } := ⟨by decide, rfl⟩
  have hend := hrun text [] _ h hstart
  rw [base32Decode, clean_eq h]
  exact ⟨_, (length_low _ _).trans_lt hend.few, hend.eq⟩

/-! ## The round trip -/

/-- **A secret comes back from its letters**, of which there are as many as its bits need. -/
theorem base32_round_trip (buf : Buffer) :
    base32Decode (base32Encode buf) = buf ∧
      (base32Encode buf).length = (8 * buf.length) ⌈/⌉ 5 := by
  obtain ⟨hletters, pad, hpad, hencoded⟩ := base32Encode_spec buf
  obtain ⟨rest, hrest, hdecoded⟩ := base32Decode_spec hletters
  constructor
  · have hbits : (base32Decode (base32Encode buf)).map UInt8.toBitVec = buf.map UInt8.toBitVec :=
      chunks_inj hrest (by simp; omega) (hdecoded.trans hencoded)
    exact List.map_injective_iff.mpr (fun _ _ => UInt8.eq_of_toBitVec_eq) hbits
  · have hlength := congrArg List.length hencoded
    simp only [length_chunks, List.length_append, List.length_map, List.length_replicate] at hlength
    rw [Nat.ceilDiv_eq_add_pred_div]
    omega

end Base32

end FleetTracking.Auth
