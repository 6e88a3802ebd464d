import Mathlib.Data.List.Nodup

/-!
# Hexadecimal Text

Bytes in hexadecimal, and a lenient reader: it takes both cases, and stops at the first pair that
is not of hexadecimal digits.

1. `toHex`, `fromHex`: the writer and the reader.
2. `Spells`, `fromHex_eq_iff`: what the reader finds in any text.
3. `fromHex_toHex`: what was written is read.
-/

namespace Hex

def digits : List Char := "0123456789abcdef".toList

/-- The digit of a value. -/
def digit (n : Nat) : Char := digits[n]?.getD '0'

/-- The value of a digit, of either case. -/
def nibble (c : Char) : Option Nat := digits.idxOf? c.toLower

def toHex (bytes : List UInt8) : List Char :=
  bytes.flatMap fun b => [digit (b.toNat / 16), digit (b.toNat % 16)]

/-- The bytes of the pairs that a text begins with. A code unit above `0xff` is no digit here, where
`Buffer.from` takes its low byte: of texts with such code units this reader says nothing. -/
def fromHex : List Char → List UInt8
  | a :: b :: text =>
    match nibble a, nibble b with
    | some high, some low => UInt8.ofNat (high * 16 + low) :: fromHex text
    | _, _ => []
  | _ => []

@[simp] theorem toHex_nil : toHex [] = [] := rfl

@[simp] theorem toHex_cons (b : UInt8) (bytes : List UInt8) :
    toHex (b :: bytes) = digit (b.toNat / 16) :: digit (b.toNat % 16) :: toHex bytes := rfl

@[simp] theorem length_toHex (bytes : List UInt8) : (toHex bytes).length = 2 * bytes.length := by
  induction bytes with
  | nil => rfl
  | cons b bytes ih =>
    simp only [toHex_cons, List.length_cons, ih]
    omega

/-! ## Digits -/

/-- A digit has a value if, in lower case, it is the digit of that value. -/
theorem nibble_eq_some_iff {c : Char} {n : Nat} :
    nibble c = some n ↔ n < 16 ∧ c.toLower = digit n := by
  have hnodup : digits.Nodup := by decide
  have hlength : digits.length = 16 := by decide
  rw [nibble, List.idxOf?_eq_some_iff]
  constructor
  · rintro ⟨hlt, heq, _⟩
    rw [hlength] at hlt
    refine ⟨hlt, ?_⟩
    rw [digit, List.getElem?_eq_getElem (hlength ▸ hlt), Option.getD_some]
    exact heq.symm
  · rintro ⟨hlt, heq⟩
    have hlt' : n < digits.length := hlength ▸ hlt
    rw [digit, List.getElem?_eq_getElem hlt', Option.getD_some] at heq
    refine ⟨hlt', heq.symm, fun j hj => ?_⟩
    rw [heq]
    intro hsame
    exact absurd (hnodup.getElem_inj_iff.mp hsame) (Nat.ne_of_lt hj)

theorem toLower_digit {n : Nat} (hn : n < 16) : (digit n).toLower = digit n := by
  have hall : ∀ n < 16, (digit n).toLower = digit n := by decide
  exact hall n hn

@[simp] theorem nibble_digit {n : Nat} (hn : n < 16) : nibble (digit n) = some n :=
  nibble_eq_some_iff.mpr ⟨hn, toLower_digit hn⟩

theorem high_lt (b : UInt8) : b.toNat / 16 < 16 := by
  have := b.toNat_lt
  omega

theorem low_lt (b : UInt8) : b.toNat % 16 < 16 := Nat.mod_lt _ (by decide)

/-- A byte from its digits. -/
theorem ofNat_digits (b : UInt8) : UInt8.ofNat (b.toNat / 16 * 16 + b.toNat % 16) = b := by
  rw [Nat.div_add_mod', UInt8.ofNat_toNat]

/-! ## Reading any text -/

/-- A text begins with a pair of hexadecimal digits. -/
def StartsWithPair (text : List Char) : Prop :=
  ∃ a b rest, text = a :: b :: rest ∧ (nibble a).isSome ∧ (nibble b).isSome

/-- A text begins with the bytes in hexadecimal, in any case, and no further pair follows. -/
def Spells (text : List Char) (bytes : List UInt8) : Prop :=
  ∃ pairs junk, text = pairs ++ junk ∧ pairs.map Char.toLower = toHex bytes ∧ ¬ StartsWithPair junk

/-- What a pair stands for, and the digits of what it stands for. -/
theorem toHex_pair {a b : Char} {high low : Nat} (ha : nibble a = some high)
    (hb : nibble b = some low) :
    toHex [UInt8.ofNat (high * 16 + low)] = [a.toLower, b.toLower] := by
  obtain ⟨hhigh, ha⟩ := nibble_eq_some_iff.mp ha
  obtain ⟨hlow, hb⟩ := nibble_eq_some_iff.mp hb
  have hbyte : (UInt8.ofNat (high * 16 + low)).toNat = high * 16 + low := by
    rw [UInt8.toNat_ofNat']
    omega
  have hdiv : (high * 16 + low) / 16 = high := by omega
  have hmod : (high * 16 + low) % 16 = low := by omega
  rw [toHex_cons, hbyte, hdiv, hmod, ha, hb, toHex_nil]

/-- The reader finds what the text spells. -/
theorem spells_fromHex (text : List Char) : Spells text (fromHex text) := by
  fun_induction fromHex text with
  | case1 a b text high low hb ha ih =>
    obtain ⟨pairs, junk, htext, hpairs, hjunk⟩ := ih
    refine ⟨a :: b :: pairs, junk, by rw [htext]; rfl, ?_, hjunk⟩
    have hpair := toHex_pair ha hb
    rw [toHex_cons, toHex_nil, List.cons.injEq, List.cons.injEq] at hpair
    rw [toHex_cons, List.map_cons, List.map_cons, hpairs, hpair.1, hpair.2.1]
  | case2 a b text hnone =>
    refine ⟨[], a :: b :: text, rfl, rfl, ?_⟩
    rintro ⟨a', b', rest, heq, ha, hb⟩
    obtain ⟨rfl, rfl, rfl⟩ : a = a' ∧ b = b' ∧ text = rest := by simpa using heq
    obtain ⟨high, hhigh⟩ := Option.isSome_iff_exists.mp ha
    obtain ⟨low, hlow⟩ := Option.isSome_iff_exists.mp hb
    exact hnone high low hhigh hlow
  | case3 text hshort =>
    refine ⟨[], text, rfl, rfl, ?_⟩
    rintro ⟨a, b, rest, heq, _⟩
    exact hshort a b rest heq

/-- A reader finds nothing where no pair begins. -/
theorem fromHex_of_not_startsWithPair {text : List Char} (h : ¬ StartsWithPair text) :
    fromHex text = [] := by
  fun_cases fromHex text with
  | case1 a b text high low hb ha =>
    exact absurd ⟨a, b, text, rfl, by rw [ha]; rfl, by rw [hb]; rfl⟩ h
  | case2 a b text hnone => rfl
  | case3 text hshort => rfl

theorem fromHex_of_spells {text : List Char} {bytes : List UInt8} (h : Spells text bytes) :
    fromHex text = bytes := by
  obtain ⟨pairs, junk, rfl, hpairs, hjunk⟩ := h
  induction bytes generalizing pairs with
  | nil =>
    rw [List.map_eq_nil_iff.mp hpairs]
    exact fromHex_of_not_startsWithPair hjunk
  | cons byte bytes ih =>
    obtain ⟨a, pairs, rfl, ha, hpairs⟩ := List.map_eq_cons_iff.mp hpairs
    obtain ⟨b, pairs, rfl, hb, hpairs⟩ := List.map_eq_cons_iff.mp hpairs
    have hhigh := nibble_eq_some_iff.mpr ⟨high_lt byte, ha⟩
    have hlow := nibble_eq_some_iff.mpr ⟨low_lt byte, hb⟩
    rw [List.cons_append, List.cons_append, fromHex, hhigh, hlow]
    simp only [ofNat_digits, ih pairs hpairs]

/-- **What the reader finds in any text.** -/
theorem fromHex_eq_iff {text : List Char} {bytes : List UInt8} :
    fromHex text = bytes ↔ Spells text bytes :=
  ⟨fun h => h ▸ spells_fromHex text, fromHex_of_spells⟩

/-- What is written is in lower case. -/
theorem toLower_of_mem_toHex {bytes : List UInt8} {c : Char} (hc : c ∈ toHex bytes) :
    c.toLower = c := by
  obtain ⟨b, _, hc⟩ := List.mem_flatMap.mp hc
  rcases List.mem_cons.mp hc with rfl | hc
  · exact toLower_digit (high_lt b)
  · rw [List.mem_singleton.mp hc]
    exact toLower_digit (low_lt b)

theorem spells_toHex (bytes : List UInt8) : Spells (toHex bytes) bytes := by
  refine ⟨toHex bytes, [], (List.append_nil _).symm, ?_, ?_⟩
  · exact (List.map_congr_left fun c hc => toLower_of_mem_toHex hc).trans (List.map_id _)
  · rintro ⟨a, b, rest, heq, _⟩
    cases heq

/-- **What was written is read.** -/
theorem fromHex_toHex (bytes : List UInt8) : fromHex (toHex bytes) = bytes :=
  fromHex_eq_iff.mpr (spells_toHex bytes)

end Hex
