import OpenFlow.Wire.Reader
import OpenFlow.Wire.Writer

/-!
# Values of match fields

A value or mask of one, two, four or eight bytes is a word; one of any other
width is a string of bytes.  So the width alone fixes the form, and
`OxmValue.Fits v n` says that `v` has the form and the width of an `n`-byte
payload.
-/

namespace OpenFlow

/-- A value or a mask. -/
inductive OxmValue where
  | u8 (n : UInt8)
  | u16 (n : UInt16)
  | u32 (n : UInt32)
  | u64 (n : UInt64)
  | bytes (bs : Bytes)
  deriving DecidableEq, Repr

namespace OxmValue

/-- The all-zero value of a width. -/
def zero : Nat → OxmValue
  | 1 => u8 0
  | 2 => u16 0
  | 4 => u32 0
  | 8 => u64 0
  | n => bytes (Bytes.zeros n)

/-- The number of bytes of a value. -/
def length : OxmValue → Nat
  | u8 _ => 1
  | u16 _ => 2
  | u32 _ => 4
  | u64 _ => 8
  | bytes bs => bs.length

/-- Whether every bit is zero. -/
def isZero : OxmValue → Bool
  | u8 n => n == 0
  | u16 n => n == 0
  | u32 n => n == 0
  | u64 n => n == 0
  | bytes bs => bs.all (· == 0)

/-- The number a word holds; a string of bytes holds none. -/
def toUInt64? : OxmValue → Option UInt64
  | u8 n => some n.toUInt64
  | u16 n => some n.toUInt64
  | u32 n => some n.toUInt64
  | u64 n => some n
  | bytes _ => none

/-- The widths at which a value is a word. -/
def isWordWidth (n : Nat) : Bool := n == 1 || n == 2 || n == 4 || n == 8

/-- Whether a value has the form and the width of an `n`-byte payload. -/
def fits : OxmValue → Nat → Bool
  | u8 _, n => n == 1
  | u16 _, n => n == 2
  | u32 _, n => n == 4
  | u64 _, n => n == 8
  | bytes bs, n => bs.length == n && !isWordWidth n

/-- The form of an `n`-byte payload. -/
def ofBytes (bs : Bytes) : OxmValue :=
  match bs.length with
  | 1 => u8 (UInt8.ofNat (Bytes.value bs))
  | 2 => u16 (UInt16.ofNat (Bytes.value bs))
  | 4 => u32 (UInt32.ofNat (Bytes.value bs))
  | 8 => u64 (UInt64.ofNat (Bytes.value bs))
  | _ => bytes bs

/-- The bytes of a value. -/
def toBytes : OxmValue → Bytes
  | u8 n => [n]
  | u16 n => Bytes.ofUInt16 n
  | u32 n => Bytes.ofUInt32 n
  | u64 n => Bytes.ofUInt64 n
  | bytes bs => bs

/-- Write a value. -/
def write (v : OxmValue) : Writer := Writer.bytes v.toBytes

@[simp] theorem length_toBytes (v : OxmValue) : v.toBytes.length = v.length := by
  cases v <;> simp [toBytes, length]

/-- A value that fits a width is that long. -/
theorem length_of_fits {v : OxmValue} {n : Nat} (h : v.fits n) : v.length = n := by
  cases v <;> simp_all [fits, length]

/-- A payload of `n` bytes has the form that its width calls for. -/
theorem fits_ofBytes (bs : Bytes) : (ofBytes bs).fits bs.length := by
  unfold ofBytes
  split <;> simp_all [fits, isWordWidth]

end OxmValue
end OpenFlow
