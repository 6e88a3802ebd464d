import FleetTracking.Lib.Hex
import FleetTracking.Protocol.Reader

/-!
# Passwords

The stored form of a password, `scrypt$<saltHex>$<hashHex>`, and the check of a password against
it. The derivation of keys is a parameter.

1. `hashPassword`, `verifyPassword`: the functions.
2. `verifyPassword_hashPassword`: a stored password, and any other one, checked against what is
   stored.
3. `SpellsKey`, `verifyPassword_eq_true_iff`: what a string must be to let a password in.
4. `verifyPassword_false_iff`: exactly when a password is turned away.
-/

namespace FleetTracking.Auth.Password

open Hex
open FleetTracking.Protocol (Buffer)

/-! ## The functions -/

section Functions

-- `scryptSync(password, salt, keylen)`.
variable (scryptSync : String → Buffer → Nat → Buffer)

/-- `hashPassword`, with the sixteen random bytes of the salt. -/
def hashPassword (password : String) (salt : Buffer) : String :=
  let hash := scryptSync password salt 64
  String.ofList ("scrypt$".toList ++ toHex salt ++ '$' :: toHex hash)

def verifyPassword (password stored : String) : Bool :=
  match stored.toList.splitOn '$' with
  | scheme :: saltHex :: hashHex :: _ =>
    if scheme ≠ "scrypt".toList ∨ saltHex = [] ∨ hashHex = [] then false
    else
      let expected := fromHex hashHex
      let actual := scryptSync password (fromHex saltHex) expected.length
      -- `timingSafeEqual`, of buffers of one length
      expected.length = actual.length && expected == actual
  | _ => false

/-- What the derivation of keys is documented to do: the key has as many bytes as it is asked
for. -/
def KeyLengths : Prop :=
  ∀ password salt keylen, (scryptSync password salt keylen).length = keylen

end Functions

/-- The third part of a stored form. -/
def IsHashHex (hashHex : List Char) : Prop :=
  hashHex.length = 128 ∧ ∀ c ∈ hashHex, (nibble c).isSome

/-- A string that `hashPassword` cannot have produced: its third part, if it has one, is not of 128
hexadecimal digits. -/
def Malformed (stored : String) : Prop :=
  ∀ hashHex, (stored.toList.splitOn '$')[2]? = some hashHex → ¬ IsHashHex hashHex

variable {scryptSync : String → Buffer → Nat → Buffer}

/-! ## What is stored -/

theorem not_mem_toHex (bytes : Buffer) : '$' ∉ toHex bytes := by
  have hdigits : ∀ n < 16, '$' ≠ digit n := by decide
  intro hmem
  obtain ⟨b, _, hb⟩ := List.mem_flatMap.mp hmem
  rcases List.mem_cons.mp hb with heq | hb
  · exact hdigits _ (high_lt b) heq
  · exact hdigits _ (low_lt b) (List.mem_singleton.mp hb)

/-- The parts of what is stored. -/
theorem splitOn_hashPassword (password : String) (salt : Buffer) :
    (hashPassword scryptSync password salt).toList.splitOn '$' =
      ["scrypt".toList, toHex salt, toHex (scryptSync password salt 64)] := by
  have hscheme : '$' ∉ "scrypt".toList := by decide
  have htext : (hashPassword scryptSync password salt).toList =
      "scrypt".toList ++ '$' :: (toHex salt ++ '$' :: toHex (scryptSync password salt 64)) := by
    have hprefix : "scrypt$".toList = "scrypt".toList ++ ['$'] := by decide
    unfold hashPassword
    rw [String.toList_ofList, hprefix]
    simp only [List.append_assoc, List.cons_append, List.nil_append]
  rw [htext, List.splitOn_append_cons_self_of_not_mem hscheme,
    List.splitOn_append_cons_self_of_not_mem (not_mem_toHex salt),
    List.splitOn_eq_singleton (not_mem_toHex _)]

/-- What is stored is well formed. -/
theorem isHashHex_key (hkey : KeyLengths scryptSync) (password : String) (salt : Buffer) :
    IsHashHex (toHex (scryptSync password salt 64)) := by
  refine ⟨by rw [length_toHex, hkey], fun c hc => ?_⟩
  obtain ⟨b, _, hb⟩ := List.mem_flatMap.mp hc
  rcases List.mem_cons.mp hb with rfl | hb
  · simp [nibble_digit (high_lt b)]
  · simp [List.mem_singleton.mp hb, nibble_digit (low_lt b)]

/-- Buffers of which one has the length of the other are compared byte by byte. -/
theorem compare_eq (hkey : KeyLengths scryptSync) (password : String) (salt expected : Buffer) :
    (decide (expected.length = (scryptSync password salt expected.length).length) &&
      expected == scryptSync password salt expected.length) =
      decide (expected = scryptSync password salt expected.length) := by
  rw [hkey]
  simp [Bool.beq_eq_decide_eq]

/-- **A password against what is stored for another one**: it is let in if it has the same key, as
it has if it is the same. -/
theorem verifyPassword_hashPassword (hkey : KeyLengths scryptSync) (password password' : String)
    {salt : Buffer} (hsalt : salt ≠ []) :
    verifyPassword scryptSync password' (hashPassword scryptSync password salt) =
      decide (scryptSync password' salt 64 = scryptSync password salt 64) := by
  have hsaltHex : toHex salt ≠ [] := by
    intro h
    have hlength := congrArg List.length h
    rw [length_toHex] at hlength
    exact hsalt (List.length_eq_zero_iff.mp ((Nat.mul_eq_zero.mp hlength).resolve_left (by decide)))
  have hhashHex : toHex (scryptSync password salt 64) ≠ [] := by
    intro h
    have hlength := congrArg List.length h
    simp [hkey password salt 64] at hlength
  unfold verifyPassword
  rw [splitOn_hashPassword]
  simp only [ne_eq, not_true_eq_false, hsaltHex, hhashHex, or_self, if_false, fromHex_toHex,
    compare_eq hkey]
  rw [hkey password salt 64, decide_eq_decide]
  exact eq_comm

/-! ## What is let in -/

/-- The string is of three parts or more, for `scrypt`, and the pairs of hexadecimal digits that its
third part begins with spell a key of the password, of whatever length. -/
def SpellsKey (scryptSync : String → Buffer → Nat → Buffer) (password stored : String) : Prop :=
  ∃ saltHex hashHex rest keylen,
    stored.toList.splitOn '$' = "scrypt".toList :: saltHex :: hashHex :: rest ∧
      saltHex ≠ [] ∧ hashHex ≠ [] ∧
      Spells hashHex (scryptSync password (fromHex saltHex) keylen)

/-- **What lets a password in.** -/
theorem verifyPassword_eq_true_iff (hkey : KeyLengths scryptSync) (password stored : String) :
    verifyPassword scryptSync password stored = true ↔ SpellsKey scryptSync password stored := by
  unfold verifyPassword SpellsKey
  split
  case h_1 scheme saltHex hashHex rest hsplit =>
    by_cases hparts : scheme ≠ "scrypt".toList ∨ saltHex = [] ∨ hashHex = []
    · rw [if_pos hparts]
      refine iff_of_false Bool.false_ne_true ?_
      rintro ⟨saltHex', hashHex', rest', keylen, heq, hsalt, hhash, _⟩
      rw [hsplit] at heq
      obtain ⟨rfl, rfl, rfl, rfl⟩ : scheme = "scrypt".toList ∧ saltHex = saltHex' ∧
          hashHex = hashHex' ∧ rest = rest' := by simpa only [List.cons.injEq] using heq
      rcases hparts with h | h | h
      · exact h rfl
      · exact hsalt h
      · exact hhash h
    · obtain ⟨hscheme, hsalt, hhash⟩ := not_or.mp hparts |>.imp_right not_or.mp
      rw [if_neg hparts]
      simp only [compare_eq hkey, decide_eq_true_eq]
      constructor
      · intro heq
        refine ⟨saltHex, hashHex, rest, _, ?_, hsalt, hhash, fromHex_eq_iff.mp heq⟩
        rw [hsplit, not_not.mp hscheme]
      · rintro ⟨saltHex', hashHex', rest', keylen, heq, _, _, hspells⟩
        rw [hsplit] at heq
        obtain ⟨rfl, rfl, rfl, rfl⟩ : scheme = "scrypt".toList ∧ saltHex = saltHex' ∧
            hashHex = hashHex' ∧ rest = rest' := by simpa only [List.cons.injEq] using heq
        -- the length that is asked for is that of the bytes that are spelled
        have hread := fromHex_eq_iff.mpr hspells
        rw [hread, hkey]
  case h_2 stored' hshort =>
    refine iff_of_false Bool.false_ne_true ?_
    rintro ⟨saltHex, hashHex, rest, keylen, heq, _⟩
    exact hshort _ _ _ _ heq

/-- A third part that begins with no pair lets every password in: there is nothing to compare. -/
theorem spellsKey_of_not_startsWithPair (hkey : KeyLengths scryptSync) {stored : String}
    {saltHex hashHex : List Char} {rest : List (List Char)}
    (hsplit : stored.toList.splitOn '$' = "scrypt".toList :: saltHex :: hashHex :: rest)
    (hsalt : saltHex ≠ []) (hhash : hashHex ≠ []) (hnone : ¬ StartsWithPair hashHex)
    (password : String) : SpellsKey scryptSync password stored := by
  have hempty : scryptSync password (fromHex saltHex) 0 = [] :=
    List.length_eq_zero_iff.mp (hkey password (fromHex saltHex) 0)
  refine ⟨saltHex, hashHex, rest, 0, hsplit, hsalt, hhash, ?_⟩
  rw [hempty]
  exact ⟨[], hashHex, rfl, rfl, hnone⟩

/-- **When a password is turned away**, whatever the stored string is: exactly if its third part
does not begin with the spelling of one of the keys of the password. -/
theorem verifyPassword_false_iff (hkey : KeyLengths scryptSync) (stored password : String) :
    verifyPassword scryptSync password stored = false ↔
      ¬ SpellsKey scryptSync password stored := by
  rw [← verifyPassword_eq_true_iff hkey password stored, Bool.not_eq_true]

/-- A key of one byte, as `scrypt` derives it from the password `secret` and the salt `aa`. -/
def sampleScrypt (_ : String) (_ : Buffer) (keylen : Nat) : Buffer := List.replicate keylen 0xa9

/-- A hash that was cut to its first two digits does not let the password in if they are others than
those of its key. -/
theorem sample_turned_away : Malformed "scrypt$aa$00" ∧
    verifyPassword sampleScrypt "secret" "scrypt$aa$00" = false := by
  constructor
  · intro hashHex hthird
    have hhash : hashHex = "00".toList := by
      have hsplit : ("scrypt$aa$00".toList.splitOn '$')[2]? = some "00".toList := by decide
      exact Option.some.inj (hthird.symm.trans hsplit)
    rintro ⟨hlength, _⟩
    rw [hhash] at hlength
    exact absurd hlength (by decide)
  · apply (verifyPassword_false_iff (fun _ _ keylen => List.length_replicate) _ "secret").mpr
    rw [← verifyPassword_eq_true_iff (fun _ _ keylen => List.length_replicate)]
    decide +kernel

/-- **A hash of which nothing can be read lets every password in.** -/
theorem unreadable_hash_lets_in : ∃ stored, Malformed stored ∧
    ∀ scryptSync : String → Buffer → Nat → Buffer, KeyLengths scryptSync →
      ∀ password, verifyPassword scryptSync password stored = true := by
  have hsplit : "scrypt$aa$zz".toList.splitOn '$' =
      ["scrypt".toList, "aa".toList, "zz".toList] := by decide
  refine ⟨"scrypt$aa$zz", ?_, ?_⟩
  · intro hashHex hthird
    rw [hsplit] at hthird
    obtain rfl : "zz".toList = hashHex := Option.some.inj hthird
    rintro ⟨hlength, _⟩
    exact absurd hlength (by decide)
  · intro scryptSync hkey password
    rw [verifyPassword_eq_true_iff hkey]
    refine spellsKey_of_not_startsWithPair hkey hsplit (by decide) (by decide) ?_ password
    rintro ⟨a, b, rest, heq, ha, _⟩
    obtain ⟨rfl, rfl, rfl⟩ : 'z' = a ∧ 'z' = b ∧ [] = rest := by simpa using heq
    exact absurd ha (by decide)

end FleetTracking.Auth.Password
