import FleetTracking.Protocol.AvlLayout
import Mathlib.Computability.Language

/-!
# The Grammar of AVL Data

Which byte strings are records and data arrays, said without the reader, and that the reader takes
exactly these.

1. `block`, `counted`: the languages of bytes that the formats are made of.
2. `Reader.Recognizes`: the reader takes the words of a language, and fails only where the buffer
   ends.
3. `record`, `dataArray`: the grammar.
4. `recognizes_record`, `recognizes_records`: the readers of the parts.
-/

namespace FleetTracking.Protocol

/-! ## Languages of bytes -/

/-- `n` bytes. -/
def block (n : Nat) : Language UInt8 := {w | w.length = n}

/-- A count of `size` bytes, then as many words. -/
def counted (size : Nat) (L : Language UInt8) : Language UInt8 :=
  {w | ∃ count body, count.length = size ∧ body ∈ L ^ Buffer.toNatBE count ∧ w = count ++ body}

theorem mem_block {n : Nat} {w : Buffer} : w ∈ block n ↔ w.length = n := Iff.rfl

theorem block_add (m n : Nat) : block (m + n) = block m * block n := by
  ext w
  rw [Language.mem_mul, mem_block]
  constructor
  · intro hlength
    refine ⟨w.take m, ?_, w.drop m, ?_, List.take_append_drop m w⟩
    · rw [mem_block, List.length_take]
      omega
    · rw [mem_block, List.length_drop]
      omega
  · rintro ⟨a, ha, b, hb, rfl⟩
    rw [List.length_append, mem_block.mp ha, mem_block.mp hb]

theorem block_zero : block 0 = 1 := by
  ext w
  rw [mem_block, Language.mem_one, List.length_eq_zero_iff]

/-- So many single bytes. -/
theorem block_one_pow (n : Nat) : block 1 ^ n = block n := by
  induction n with
  | zero => rw [pow_zero, block_zero]
  | succ n ih => rw [pow_succ, ih, ← block_add]

/-! ## Readers of a language -/

namespace Reader

/-- The reader takes a word of the language off the front of the buffer, or runs out of bytes. It
may also take less than a word, but only the last bytes there are. -/
structure Recognizes {α : Type} (x : Reader α) (L : Language UInt8) : Prop where
  complete : ∀ w ∈ L, ∀ rest, ∃ a, x (w ++ rest) = .ok (a, rest)
  sound : ∀ buf a rest, x buf = .ok (a, rest) → rest ≠ [] → ∃ w ∈ L, buf = w ++ rest
  ends : ∀ a rest, x [] = .ok (a, rest) → rest = []
  fails : ∀ buf e, x buf = .error e → e = Buffer.outOfBounds

section Rules

variable {α β : Type} {x : Reader α} {f : α → Reader β} {L M : Language UInt8}

theorem recognizes_pure (a : α) : Recognizes (pure a : Reader α) 1 where
  complete w hw rest := by
    obtain rfl := (Language.mem_one w).mp hw
    exact ⟨a, rfl⟩
  sound buf a' rest h _ := by
    cases h
    exact ⟨[], Language.nil_mem_one, rfl⟩
  ends a' rest h := by
    cases h
    rfl
  fails buf e h := by cases h

theorem recognizes_uint (size : Nat) : Recognizes (uint size) (block size) where
  complete w hw rest := by
    have hlength : w.length = size := hw
    refine ⟨Buffer.toNatBE w, ?_⟩
    rw [uint, if_pos (by simp [hlength]), List.take_left' hlength, List.drop_left' hlength]
  sound buf n rest h _ := by
    rw [uint] at h
    split at h
    case isTrue hlong =>
      cases h
      refine ⟨buf.take size, ?_, (List.take_append_drop size buf).symm⟩
      rw [mem_block, List.length_take, Nat.min_eq_left hlong]
    case isFalse => cases h
  ends n rest h := by
    rw [uint] at h
    split at h
    · cases h
      simp
    · cases h
  fails buf e h := by
    rw [uint] at h
    split at h
    · cases h
    · exact (Except.error.inj h).symm

/-- Bytes are taken as far as there are any. -/
theorem recognizes_bytes (n : Nat) : Recognizes (bytes n) (block n) where
  complete w hw rest := by
    have hlength : w.length = n := hw
    exact ⟨w, by rw [bytes, List.take_left' hlength, List.drop_left' hlength]⟩
  sound buf a rest h hrest := by
    cases h
    have hlong : n < buf.length := by
      by_contra hshort
      exact hrest (List.drop_of_length_le (by omega))
    refine ⟨buf.take n, ?_, (List.take_append_drop n buf).symm⟩
    rw [mem_block, List.length_take, Nat.min_eq_left (by omega)]
  ends a rest h := by
    cases h
    exact List.drop_nil
  fails buf e h := by cases h

theorem Recognizes.map {γ : Type} (g : α → γ) (hx : Recognizes x L) : Recognizes (g <$> x) L := by
  -- a mapped reader consumes what the reader does and fails where it fails
  have hmap : ∀ buf, (g <$> x) buf = (x buf).map fun p => (g p.1, p.2) := by
    intro buf
    show StateT.map g x buf = _
    rw [StateT.map]
    cases x buf <;> rfl
  constructor
  · intro w hw rest
    obtain ⟨a, ha⟩ := hx.complete w hw rest
    exact ⟨g a, by rw [hmap, ha]; rfl⟩
  · intro buf b rest h hrest
    rw [hmap] at h
    cases hread : x buf with
    | error e =>
      rw [hread] at h
      cases h
    | ok p =>
      rw [hread] at h
      cases h
      exact hx.sound buf p.1 p.2 hread hrest
  · intro b rest h
    rw [hmap] at h
    cases hread : x [] with
    | error e =>
      rw [hread] at h
      cases h
    | ok p =>
      rw [hread] at h
      cases h
      exact hx.ends p.1 p.2 hread
  · intro buf e h
    rw [hmap] at h
    cases hread : x buf with
    | error e' =>
      rw [hread] at h
      cases h
      exact hx.fails buf e hread
    | ok p =>
      rw [hread] at h
      cases h

/-- One reader after the other, where the second language does not depend on what is read. -/
theorem Recognizes.bind (hx : Recognizes x L) (hf : ∀ a, Recognizes (f a) M) :
    Recognizes (x >>= f) (L * M) where
  complete w hw rest := by
    obtain ⟨u, hu, v, hv, rfl⟩ := Language.mem_mul.mp hw
    obtain ⟨a, ha⟩ := hx.complete u hu (v ++ rest)
    obtain ⟨b, hb⟩ := (hf a).complete v hv rest
    exact ⟨b, by rw [List.append_assoc, bind_of_ok ha, hb]⟩
  sound buf b rest h hrest := by
    obtain ⟨a, mid, ha, hb⟩ := bind_ok h
    have hmid : mid ≠ [] := by
      rintro rfl
      exact hrest ((hf a).ends b rest hb)
    obtain ⟨u, hu, rfl⟩ := hx.sound buf a mid ha hmid
    obtain ⟨v, hv, rfl⟩ := (hf a).sound mid b rest hb hrest
    exact ⟨u ++ v, Language.append_mem_mul hu hv, (List.append_assoc u v rest).symm⟩
  ends b rest h := by
    obtain ⟨a, mid, ha, hb⟩ := bind_ok h
    obtain rfl := hx.ends a mid ha
    exact (hf a).ends b rest hb
  fails buf e h := by
    rcases bind_error h with h | ⟨a, mid, _, h⟩
    · exact hx.fails buf e h
    · exact (hf a).fails mid e h

/-- A number, then words whose language depends on it. -/
theorem recognizes_counted {M : Nat → Language UInt8} (size : Nat) {f : Nat → Reader β}
    (hf : ∀ n, Recognizes (f n) (M n)) : Recognizes (uint size >>= f)
      {w | ∃ count body, count.length = size ∧ body ∈ M (Buffer.toNatBE count) ∧
        w = count ++ body} where
  complete w hw rest := by
    obtain ⟨count, body, hcount, hbody, rfl⟩ := hw
    -- the count is read first and says which body follows
    have hread : uint size (count ++ (body ++ rest)) =
        .ok (Buffer.toNatBE count, body ++ rest) := by
      rw [uint, if_pos (by simp [hcount]), List.take_left' hcount, List.drop_left' hcount]
    obtain ⟨b, hb⟩ := (hf _).complete body hbody rest
    exact ⟨b, by rw [List.append_assoc, bind_of_ok hread, hb]⟩
  sound buf b rest h hrest := by
    obtain ⟨n, mid, hn, hb⟩ := bind_ok h
    rw [uint] at hn
    split at hn
    case isTrue hlong =>
      cases hn
      obtain ⟨body, hbody, hmid⟩ := (hf _).sound _ b rest hb hrest
      refine ⟨buf.take size ++ body, ⟨buf.take size, body, ?_, hbody, rfl⟩, ?_⟩
      · rw [List.length_take, Nat.min_eq_left hlong]
      · rw [List.append_assoc, ← hmid, List.take_append_drop]
    case isFalse => cases hn
  ends b rest h := by
    obtain ⟨n, mid, hn, hb⟩ := bind_ok h
    obtain rfl := (recognizes_uint size).ends n mid hn
    exact (hf n).ends b rest hb
  fails buf e h := by
    rcases bind_error h with h | ⟨n, mid, _, h⟩
    · exact (recognizes_uint size).fails buf e h
    · exact (hf n).fails mid e h

end Rules

end Reader

/-! ## The grammar -/

section Layout

variable (extended : Bool)

/-- An element: its id and its value. -/
def element (width : Nat) : Language UInt8 := block (wordSize extended) * block width

/-- A group of elements. -/
def group (width : Nat) : Language UInt8 := counted (wordSize extended) (element extended width)

/-- An element of variable length: its id, its length and its bytes. -/
def variableElement : Language UInt8 := block 2 * counted 2 (block 1)

/-- The elements of variable length, in the extended codec only. -/
def variableGroup : Language UInt8 := if extended then counted 2 variableElement else 1

/-- A record: timestamp, priority, position and motion, event id, total, and the elements. -/
def record : Language UInt8 :=
  block 8 * block 1 * block 4 * block 4 * block 2 * block 2 * block 1 * block 2 *
    block (wordSize extended) * block (wordSize extended) *
    group extended 1 * group extended 2 * group extended 4 * group extended 8 *
    variableGroup extended

end Layout

/-- The codecs that are decoded. -/
def Supported (codec : UInt8) : Prop := codec.toNat = CODEC_8 ∨ codec.toNat = CODEC_8_EXT

/-- The words of so many records, in the codec. -/
def records (codec count : UInt8) : Language UInt8 :=
  record (codec.toNat == CODEC_8_EXT) ^ count.toNat

/-- A data array: codec id, count, as many complete records, and the same count. -/
def dataArray : Language UInt8 :=
  {w | ∃ codec count body, Supported codec ∧ body ∈ records codec count ∧
    w = codec :: count :: (body ++ [count])}

/-! ## The readers of the parts -/

namespace Codec8

open Reader

variable {extended : Bool}

theorem recognizes_word : Recognizes (word extended) (block (wordSize extended)) := by
  cases extended with
  | false => exact recognizes_uint 1
  | true => exact recognizes_uint 2

/-- One element after the other. -/
theorem recognizes_elements (width n : Nat) (values : JsRecord Nat) :
    Recognizes (readElements extended width n values) (element extended width ^ n) := by
  induction n generalizing values with
  | zero => exact recognizes_pure values
  | succ n ih =>
    rw [pow_succ', element, mul_assoc]
    refine recognizes_word.bind fun id => ?_
    refine (recognizes_uint width).bind fun v => ?_
    exact ih (values.set id v)

theorem recognizes_group (width : Nat) (values : JsRecord Nat) :
    Recognizes (readGroup extended width values) (group extended width) := by
  cases extended with
  | false => exact recognizes_counted 1 fun n => recognizes_elements width n values
  | true => exact recognizes_counted 2 fun n => recognizes_elements width n values

/-- A length, and so many bytes. -/
theorem recognizes_blob : Recognizes (do let len ← u16; bytes len) (counted 2 (block 1)) := by
  refine recognizes_counted 2 fun len => ?_
  rw [block_one_pow]
  exact recognizes_bytes len

theorem recognizes_variable (n : Nat) (values : JsRecord Buffer) :
    Recognizes (readVariable n values) (variableElement ^ n) := by
  induction n generalizing values with
  | zero => exact recognizes_pure values
  | succ n ih =>
    have hsplit : readVariable (n + 1) values = (do
        let id ← u16
        let v ← (do let len ← u16; bytes len)
        readVariable n (values.set id v)) := by
      simp only [readVariable, bind_assoc]
    rw [hsplit, pow_succ', variableElement, mul_assoc]
    refine (recognizes_uint 2).bind fun id => ?_
    exact recognizes_blob.bind fun v => ih (values.set id v)

/-- **A record** is read exactly where there is one. -/
theorem recognizes_record : Recognizes (readRecord extended) (record extended) := by
  simp only [record, mul_assoc]
  refine (recognizes_uint 8).bind fun timestamp => ?_
  refine (recognizes_uint 1).bind fun priority => ?_
  refine ((recognizes_uint 4).map _).bind fun longitude => ?_
  refine ((recognizes_uint 4).map _).bind fun latitude => ?_
  refine ((recognizes_uint 2).map _).bind fun altitude => ?_
  refine (recognizes_uint 2).bind fun angle => ?_
  refine (recognizes_uint 1).bind fun satellites => ?_
  refine (recognizes_uint 2).bind fun speed => ?_
  refine recognizes_word.bind fun eventId => ?_
  refine recognizes_word.bind fun total => ?_
  refine (recognizes_group 1 _).bind fun values => ?_
  refine (recognizes_group 2 values).bind fun values => ?_
  refine (recognizes_group 4 values).bind fun values => ?_
  refine (recognizes_group 8 values).bind fun values => ?_
  cases extended with
  | false => exact recognizes_pure _
  | true =>
    refine recognizes_counted 2 fun nx => ?_
    rw [← mul_one (variableElement ^ nx)]
    exact (recognizes_variable nx JsRecord.empty).bind fun variableIo => recognizes_pure _

/-- One record after the other. -/
theorem recognizes_records (n : Nat) :
    Recognizes (readRecords extended n) (record extended ^ n) := by
  induction n with
  | zero => exact recognizes_pure _
  | succ n ih =>
    rw [pow_succ', ← mul_one (record extended ^ n)]
    exact recognizes_record.bind fun r => ih.bind fun rs => recognizes_pure _

end Codec8

end FleetTracking.Protocol
