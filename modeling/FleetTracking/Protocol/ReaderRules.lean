import FleetTracking.Protocol.Reader
import Mathlib.Data.List.Induction

/-!
# Rules for Readers

What a reader does with its input, put together from what its parts do.

1. `Reader.Reads`: the reader takes exactly these bytes and returns this value.
2. `Reader.Yields`: what holds of whatever the reader returns.
-/

namespace FleetTracking.Protocol

/-! ## Numbers -/

namespace Buffer

@[simp] theorem length_ofNatBE (size n : Nat) : (ofNatBE size n).length = size := by
  induction size generalizing n with
  | zero => rfl
  | succ size ih => simp [ofNatBE, ih]

theorem toNatBE_append_singleton (bytes : Buffer) (b : UInt8) :
    toNatBE (bytes ++ [b]) = toNatBE bytes * 256 + b.toNat := by
  simp [toNatBE]

theorem toNatBE_lt (bytes : Buffer) : toNatBE bytes < 256 ^ bytes.length := by
  induction bytes using List.reverseRecOn with
  | nil => decide
  | append_singleton bytes b ih =>
    have hbyte : b.toNat < 256 := b.toNat_lt
    rw [toNatBE_append_singleton, List.length_append, List.length_singleton, Nat.pow_succ]
    omega

/-- Bytes denote the low bits of a number. -/
theorem toNatBE_ofNatBE (size n : Nat) : toNatBE (ofNatBE size n) = n % 256 ^ size := by
  induction size generalizing n with
  | zero => rw [Nat.pow_zero, Nat.mod_one]; rfl
  | succ size ih =>
    have hlow : (UInt8.ofNat (n % 256)).toNat = n % 256 := by simp
    rw [ofNatBE, toNatBE_append_singleton, ih, hlow, Nat.pow_succ', Nat.mod_mul]
    omega

/-- `size` bytes that denote `n` in two's complement. -/
def ofIntBE (size : Nat) (n : Int) : Buffer := ofNatBE size (n % 2 ^ (8 * size)).toNat

end Buffer

namespace Reader

/-! ## One reader after the other -/

section Bind

variable {α β : Type} {x : Reader α} {f : α → Reader β}

/-- What one reader after the other returns. -/
theorem bind_ok {buf : Buffer} {b : β} {rest : Buffer} (h : (x >>= f) buf = .ok (b, rest)) :
    ∃ a mid, x buf = .ok (a, mid) ∧ f a mid = .ok (b, rest) := by
  change StateT.bind x f buf = _ at h
  rw [StateT.bind] at h
  cases hread : x buf with
  | error e =>
    rw [hread] at h
    cases h
  | ok p =>
    rw [hread] at h
    exact ⟨p.1, p.2, rfl, h⟩

theorem bind_error {buf : Buffer} {e : JsError} (h : (x >>= f) buf = .error e) :
    x buf = .error e ∨ ∃ a mid, x buf = .ok (a, mid) ∧ f a mid = .error e := by
  change StateT.bind x f buf = _ at h
  rw [StateT.bind] at h
  cases hread : x buf with
  | error e' =>
    rw [hread] at h
    cases h
    exact Or.inl rfl
  | ok p =>
    rw [hread] at h
    exact Or.inr ⟨p.1, p.2, rfl, h⟩

theorem bind_of_ok {buf mid : Buffer} {a : α} (h : x buf = .ok (a, mid)) :
    (x >>= f) buf = f a mid := by
  show StateT.bind x f buf = _
  rw [StateT.bind, h]
  rfl

theorem bind_of_error {buf : Buffer} {e : JsError} (h : x buf = .error e) :
    (x >>= f) buf = .error e := by
  show StateT.bind x f buf = _
  rw [StateT.bind, h]
  rfl

end Bind

/-! ## Bytes that are read -/

/-- The reader takes these bytes, whatever follows them, and returns `a`. -/
def Reads {α : Type} (x : Reader α) (bytes : Buffer) (a : α) : Prop :=
  ∀ rest, x (bytes ++ rest) = .ok (a, rest)

section Rules

variable {α β : Type} {x : Reader α} {f : α → Reader β} {bytes more : Buffer} {a : α} {b : β}

theorem reads_pure (a : α) : Reads (pure a : Reader α) [] a := fun _ => rfl

/-- One reader after the other. -/
theorem Reads.bind (hx : Reads x bytes a) (hf : Reads (f a) more b) :
    Reads (x >>= f) (bytes ++ more) b := by
  intro rest
  show StateT.bind x f _ = _
  rw [List.append_assoc, StateT.bind, hx (more ++ rest)]
  exact hf rest

theorem Reads.map (g : α → β) (hx : Reads x bytes a) : Reads (g <$> x) bytes (g a) := by
  intro rest
  show StateT.map g x _ = _
  rw [StateT.map, hx rest]
  rfl

theorem reads_low (size n : Nat) : Reads (uint size) (Buffer.ofNatBE size n) (n % 256 ^ size) := by
  intro rest
  have hlength := Buffer.length_ofNatBE size n
  rw [uint, if_pos (by simp), List.take_left' hlength, List.drop_left' hlength,
    Buffer.toNatBE_ofNatBE]

/-- A number that fits. -/
theorem reads_uint {size n : Nat} (h : n < 256 ^ size) :
    Reads (uint size) (Buffer.ofNatBE size n) n := by
  have hreads := reads_low size n
  rwa [Nat.mod_eq_of_lt h] at hreads

theorem reads_bytes (bytes : Buffer) : Reads (Reader.bytes bytes.length) bytes bytes := by
  intro rest
  rw [Reader.bytes, List.take_left, List.drop_left]

/-- A number in two's complement. -/
theorem reads_signed {size : Nat} {n : Int} (hsize : 0 < size) (hlow : -2 ^ (8 * size - 1) ≤ n)
    (hhigh : n < 2 ^ (8 * size - 1)) :
    Reads (signed (8 * size) <$> uint size) (Buffer.ofIntBE size n) n := by
  -- twice the bound is how many values there are
  have hdouble : 2 ^ (8 * size) = 2 * 2 ^ (8 * size - 1) := by
    have hbits : 8 * size = (8 * size - 1) + 1 := by omega
    rw [hbits, Nat.pow_succ', Nat.add_sub_cancel]
  have hcount : (2 : Int) ^ (8 * size) = 2 * 2 ^ (8 * size - 1) := by exact_mod_cast hdouble
  have hbound : ((2 ^ (8 * size - 1) : Nat) : Int) = 2 ^ (8 * size - 1) := by simp
  -- a negative number is written as one from the upper half
  have hwritten : n % 2 ^ (8 * size) = if 0 ≤ n then n else n + 2 ^ (8 * size) := by
    split
    · exact Int.emod_eq_of_lt (by omega) (by omega)
    · rw [← Int.add_emod_right]
      exact Int.emod_eq_of_lt (by omega) (by omega)
  have hfits : (n % 2 ^ (8 * size)).toNat < 256 ^ size := by
    have hbytes : 256 ^ size = 2 ^ (8 * size) := by rw [Nat.pow_mul]
    rw [hwritten, hbytes]
    split <;> omega
  have hvalue : signed (8 * size) (n % 2 ^ (8 * size)).toNat = n := by
    unfold signed
    rw [hwritten]
    split <;> split <;> omega
  have hreads := (reads_uint hfits).map (signed (8 * size))
  rw [hvalue] at hreads
  exact hreads

theorem reads_i16 {n : Int} (hlow : -2 ^ 15 ≤ n) (hhigh : n < 2 ^ 15) :
    Reads i16 (Buffer.ofIntBE 2 n) n := @reads_signed 2 n (by simp) hlow hhigh

theorem reads_i32 {n : Int} (hlow : -2 ^ 31 ≤ n) (hhigh : n < 2 ^ 31) :
    Reads i32 (Buffer.ofIntBE 4 n) n := @reads_signed 4 n (by simp) hlow hhigh

end Rules

/-! ## Values that are returned -/

/-- Whatever the reader returns satisfies `P`. -/
def Yields {α : Type} (x : Reader α) (P : α → Prop) : Prop :=
  ∀ buf a rest, x buf = .ok (a, rest) → P a

section Rules

variable {α β : Type} {x : Reader α} {f : α → Reader β} {P : α → Prop} {Q : β → Prop}

theorem yields_pure {a : α} (h : P a) : Yields (pure a : Reader α) P := by
  intro buf a' rest hread
  cases hread
  exact h

/-- One reader after the other. -/
theorem Yields.bind (hx : Yields x P) (hf : ∀ a, P a → Yields (f a) Q) : Yields (x >>= f) Q := by
  intro buf b rest hread
  change StateT.bind x f buf = _ at hread
  rw [StateT.bind] at hread
  cases hfirst : x buf with
  | error e =>
    rw [hfirst] at hread
    cases hread
  | ok p =>
    rw [hfirst] at hread
    exact hf p.1 (hx buf p.1 p.2 hfirst) p.2 b rest hread

theorem yields_throw {e : JsError} : Yields (throw e : Reader α) P := by
  intro buf a rest hread
  cases hread

/-- Nothing is returned after an error. -/
theorem yields_throw_bind {e : JsError} : Yields ((throw e : Reader α) >>= f) Q :=
  Yields.bind (P := fun _ => False) yields_throw fun _ h => h.elim

/-- Where it does not matter what the first one returns. -/
theorem Yields.after (hf : ∀ a, Yields (f a) Q) : Yields (x >>= f) Q :=
  Yields.bind (P := fun _ => True) (fun _ _ _ _ => trivial) fun a _ => hf a

theorem Yields.map {g : α → β} (hx : Yields x fun a => Q (g a)) : Yields (g <$> x) Q := by
  intro buf b rest hread
  change StateT.map g x buf = _ at hread
  rw [StateT.map] at hread
  cases hfirst : x buf with
  | error e =>
    rw [hfirst] at hread
    cases hread
  | ok p =>
    rw [hfirst] at hread
    cases hread
    exact hx buf p.1 p.2 hfirst

theorem yields_uint (size : Nat) : Yields (uint size) fun n => n < 256 ^ size := by
  intro buf n rest hread
  rw [uint] at hread
  split at hread
  case isTrue hlong =>
    cases hread
    have hlt := Buffer.toNatBE_lt (buf.take size)
    rwa [List.length_take, Nat.min_eq_left hlong] at hlt
  case isFalse => cases hread

theorem yields_i16 : Yields i16 fun n => -2 ^ 15 ≤ n ∧ n < 2 ^ 15 := by
  refine Yields.map fun buf n rest hread => ?_
  have hlt : n < 256 ^ 2 := yields_uint 2 buf n rest hread
  show -2 ^ 15 ≤ signed 16 n ∧ signed 16 n < 2 ^ 15
  unfold signed
  split <;> omega

end Rules

end Reader

end FleetTracking.Protocol
