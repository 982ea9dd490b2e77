import TrackedHeap.Number.Rounding

/-!
# Double-precision numbers

* `Double` : a 64-bit pattern;
* `Double.negative` : its sign bit;
* `Double.magnitude` : what the other bits stand for, a finite one counted in units of `2 ^ -1074`,
  the least positive double;
* `Double.ofParts` : a sign and the bits of a magnitude put together;
* `Double.nearestBits` : the bits of the finite magnitude nearest to a quotient, or of infinity.
-/

namespace TrackedHeap

/-- A double-precision number, by its 64 bits. -/
structure Double where
  bits : UInt64
  deriving DecidableEq, Repr

namespace Double

/-- What the bits below the sign stand for. A finite magnitude is counted in units of
`2 ^ -1074`. -/
inductive Magnitude where
  | finite (units : Nat)
  | infinite
  | nan
  deriving DecidableEq, Repr

def unitsPerOne : Nat := 1 <<< 1074

def negative (x : Double) : Bool :=
  1 <<< 63 ≤ x.bits.toNat

/-- The biased exponent: eleven bits. -/
def exponent (x : Double) : Nat :=
  (x.bits.toNat >>> 52) % (1 <<< 11)

/-- The fraction: the low 52 bits. -/
def fraction (x : Double) : Nat :=
  x.bits.toNat % (1 <<< 52)

/-- The magnitude that the exponent and the fraction stand for. -/
def magnitude (x : Double) : Magnitude :=
  if x.exponent = 2047 then
    if x.fraction = 0 then .infinite else .nan
  else if x.exponent = 0 then .finite x.fraction
  else .finite ((1 <<< 52 + x.fraction) <<< (x.exponent - 1))

/-- The bits of infinity, without a sign. -/
def infinityBits : Nat := 2047 <<< 52

/-- The bits of the quiet NaN with no other payload, without a sign. -/
def nanBits : Nat := infinityBits + 1 <<< 51

def ofParts (negative : Bool) (magnitudeBits : Nat) : Double :=
  ⟨UInt64.ofNat (if negative then 1 <<< 63 + magnitudeBits else magnitudeBits)⟩

/-- How many binary places above the unit the last bit of a magnitude stands, when it keeps 53
significant bits: none below `2 ^ 53` units. -/
def shiftFor (units : Nat) : Nat :=
  Nat.log2 units - 52

/-- The bits of the magnitude nearest to `num / den` units, the one with an even last bit of two
equally near ones, and infinity where the exponent would not fit. The sum carries a significand
that rounds up to `2 ^ 53` into the exponent. -/
def nearestBits (num den : Nat) : Nat :=
  let shift := shiftFor (num / den)
  min infinityBits (shift <<< 52 + Number.roundDiv num (den <<< shift))

end Double

end TrackedHeap
