import Mathlib.Algebra.Group.Int.Defs
import Mathlib.Algebra.Group.Nat.Defs
import Mathlib.Logic.Function.Iterate

/-!
# Buffers and the Sequential Reader

Byte buffers, the big-endian reads of Node's `Buffer`, the sequential `Reader` of the
codecs, and the errors the protocol package throws.
-/

namespace FleetTracking

/-- What JavaScript code throws: the class of the error and its message. -/
inductive JsError where
  | error (message : String)
  | rangeError (message : String)
  | teltonikaDecodeError (message : String)
  | codec12Error (message : String)
  | udpDecodeError (message : String)
  deriving DecidableEq, Repr

namespace Protocol

/-- A successful result, from its value. -/
theorem ok_of_toOption {α : Type} {x : Except JsError α} {a : α} (h : x.toOption = some a) :
    x = .ok a := by
  cases x with
  | error e => cases h
  | ok b => exact congrArg Except.ok (Option.some.inj h)

/-- A Node `Buffer`. -/
abbrev Buffer := List UInt8

namespace Buffer

/-- `buf.subarray(start, stop)`: clamped to the bytes there are. -/
def subarray (buf : Buffer) (start stop : Nat) : Buffer := (buf.take stop).drop start

/-- The number a big-endian byte sequence denotes. -/
def toNatBE (bytes : Buffer) : Nat := bytes.foldl (fun acc b => acc * 256 + b.toNat) 0

/-- `size` bytes that denote `n` (its low `8 * size` bits), most significant first. -/
def ofNatBE : (size n : Nat) → Buffer
  | 0, _ => []
  | size + 1, n => ofNatBE size (n / 256) ++ [UInt8.ofNat (n % 256)]

/-- The error of a read past the end of a buffer. -/
def outOfBounds : JsError := .rangeError "Attempt to access memory outside buffer bounds"

/-- `buf.readUIntBE(offset, size)`: also `readUInt8`, `readUInt16BE`, `readUInt32BE`,
`readBigUInt64BE`, for their sizes. -/
def readUIntBE (buf : Buffer) (offset size : Nat) : Except JsError Nat :=
  if offset + size ≤ buf.length then .ok (toNatBE (buf.subarray offset (offset + size)))
  else .error outOfBounds

/-- `buf.toString('ascii')`: the high bit of each byte is dropped. -/
def toAscii (buf : Buffer) : String :=
  String.ofList (buf.map fun b => Char.ofNat (b.toNat % 128))

/-- `Buffer.from(text, 'ascii')`: the low byte of each UTF-16 code unit. The texts sent to
a tracker are ASCII, for which this is their character code. -/
def ofAscii (text : String) : Buffer := text.toList.map fun c => UInt8.ofNat (c.toNat % 256)

/-- More bytes behind a part of the buffer. -/
theorem subarray_append {buf : Buffer} {stop : Nat} (start : Nat) (more : Buffer)
    (h : stop ≤ buf.length) : subarray (buf ++ more) start stop = buf.subarray start stop := by
  unfold Buffer.subarray
  rw [List.take_append_of_le_length h]

theorem readUIntBE_append {buf : Buffer} {offset size : Nat} (more : Buffer)
    (h : offset + size ≤ buf.length) :
    Buffer.readUIntBE (buf ++ more) offset size = buf.readUIntBE offset size := by
  unfold Buffer.readUIntBE
  rw [if_pos h, if_pos (by rw [List.length_append]; omega), Buffer.subarray_append offset more h]

/-- A byte of a part of the buffer. -/
theorem getD_of_subarray {buf rest : Buffer} {start stop : Nat} {b : UInt8}
    (h : buf.subarray start stop = b :: rest) : buf.getD start 0 = b := by
  have hb : (buf.subarray start stop)[0]? = some b := by
    rw [h]
    rfl
  unfold Buffer.subarray at hb
  rw [List.getElem?_drop, Nat.add_zero, List.getElem?_take] at hb
  split at hb
  · rw [List.getD_eq_getElem?_getD, hb]
    rfl
  · cases hb

end Buffer

/-- A sequential big-endian reader. Its state is what lies behind the offset; reading a
number there is not room for throws, taking bytes takes what there is. -/
abbrev Reader := StateT Buffer (Except JsError)

namespace Reader

/-- The unsigned number in the next `size` bytes. -/
def uint (size : Nat) : Reader Nat := fun buf =>
  if size ≤ buf.length then .ok (Buffer.toNatBE (buf.take size), buf.drop size)
  else .error Buffer.outOfBounds

/-- The two's complement reading of a number of `bits` bits. -/
def signed (bits n : Nat) : Int := if n < 2 ^ (bits - 1) then n else (n : Int) - 2 ^ bits

def u8 : Reader Nat := uint 1
def u16 : Reader Nat := uint 2
def u32 : Reader Nat := uint 4
def u64 : Reader Nat := uint 8
def i16 : Reader Int := signed 16 <$> u16
def i32 : Reader Int := signed 32 <$> u32

/-- `subarray` of the next `n` bytes, clamped at the end of the buffer. -/
def bytes (n : Nat) : Reader Buffer := fun buf => .ok (buf.take n, buf.drop n)

theorem u8_ok {buf rest : Buffer} {n : Nat} (h : u8 buf = .ok (n, rest)) :
    ∃ b, buf = b :: rest ∧ n = b.toNat := by
  unfold u8 uint at h
  cases buf with
  | nil => cases h
  | cons b bytes =>
    rw [if_pos (by simp)] at h
    cases h
    exact ⟨b, rfl, by simp [Buffer.toNatBE]⟩

end Reader

/-! ## Checksum -/

/-- One bit of CRC-16/IBM: polynomial 0xA001, reflected. -/
def crcBit (crc : BitVec 16) : BitVec 16 :=
  if crc &&& 1 ≠ 0 then (crc >>> 1) ^^^ 0xa001 else crc >>> 1

/-- One byte: the eight rounds of the inner loop. -/
def crcByte (crc : BitVec 16) (b : UInt8) : BitVec 16 :=
  Nat.iterate crcBit 8 (crc ^^^ b.toBitVec.setWidth 16)

/-- CRC-16/IBM of a data field. -/
def crc16IBM (data : Buffer) : Nat := (data.foldl crcByte 0).toNat

/-- Hexadecimal digits, as `n.toString(16)` writes them. -/
def hex (n : Nat) : String := String.ofList (Nat.toDigits 16 n)

end Protocol

end FleetTracking
