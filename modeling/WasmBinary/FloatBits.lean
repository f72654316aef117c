/-!
# Floats as bit patterns

A floating-point constant is kept as its IEEE 754 bit pattern, so that every NaN payload and both zeros survive. Two constants
are compared as the numbers they stand for: a NaN differs from everything, itself included, and the two zeros are equal.
-/

namespace WasmBinary

/-- A 32-bit float, as its bit pattern. -/
structure F32 where
  /-- Sign, exponent and significand, highest bit first. -/
  bits : UInt32
  deriving DecidableEq, Repr, Inhabited

/-- A 64-bit float, as its bit pattern. -/
structure F64 where
  /-- Sign, exponent and significand, highest bit first. -/
  bits : UInt64
  deriving DecidableEq, Repr, Inhabited

namespace F32

/-- The bit pattern without its sign bit. -/
def magnitude (x : F32) : Nat := x.bits.toNat % 0x80000000

/-- A NaN has an exponent of ones and a significand that is not zero: its magnitude is above that of infinity. -/
def isNaN (x : F32) : Bool := 0x7f800000 < x.magnitude

/-- Either of the two zeros. -/
def isZero (x : F32) : Bool := x.magnitude = 0

/-- Equality of the numbers that two patterns stand for. -/
def ieeeEq (x y : F32) : Bool :=
  !x.isNaN && !y.isNaN && (x.bits == y.bits || (x.isZero && y.isZero))

end F32

namespace F64

/-- The bit pattern without its sign bit. -/
def magnitude (x : F64) : Nat := x.bits.toNat % 0x8000000000000000

/-- A NaN has an exponent of ones and a significand that is not zero: its magnitude is above that of infinity. -/
def isNaN (x : F64) : Bool := 0x7ff0000000000000 < x.magnitude

/-- Either of the two zeros. -/
def isZero (x : F64) : Bool := x.magnitude = 0

/-- Equality of the numbers that two patterns stand for. -/
def ieeeEq (x y : F64) : Bool :=
  !x.isNaN && !y.isNaN && (x.bits == y.bits || (x.isZero && y.isZero))

end F64

end WasmBinary
