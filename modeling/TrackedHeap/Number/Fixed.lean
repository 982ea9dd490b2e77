import TrackedHeap.Number.Double

/-!
# Doubles with six places

* `places`, `millionths` : a magnitude rounded to whole millionths;
* `fixedText` : a number of millionths with a point six digits from its end;
* `doubleText` : the text of a double. The sign bit gives the sign, also of zero, of a negative
  that rounds to zero, and of NaN.
-/

namespace TrackedHeap.Number

def places : Nat := 6

/-- A finite magnitude, counted in units, as the nearest number of millionths. -/
def millionths (units : Nat) : Nat :=
  roundDiv (units * Nat.pow 10 places) Double.unitsPerOne

/-- A number of millionths: the whole part, a point and six digits. -/
def fixedText (n : Nat) : List Char :=
  Nat.toDigits 10 (n / Nat.pow 10 places) ++
    '.' :: (Nat.toDigits 10 (n % Nat.pow 10 places)).leftpad places '0'

/-- A magnitude: fixed places, or the name of what is not finite. -/
def magnitudeText : Double.Magnitude → List Char
  | .finite units => fixedText (millionths units)
  | .infinite => ['i', 'n', 'f']
  | .nan => ['n', 'a', 'n']

/-- A double: a minus sign when the sign bit is set, then the magnitude. -/
def doubleText (x : Double) : List Char :=
  if x.negative then '-' :: magnitudeText x.magnitude else magnitudeText x.magnitude

/-- An integer: a minus sign when it is negative, then the digits without leading zeros. -/
def intText (n : Int) : List Char :=
  if n < 0 then '-' :: Nat.toDigits 10 n.natAbs else Nat.toDigits 10 n.natAbs

end TrackedHeap.Number
