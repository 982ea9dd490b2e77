import TrackedHeap.Number.Double

/-!
# Reading numbers

* `readDigits` : a non-empty run of digits;
* `readSigned`, `readUnsigned` : integers with an optional sign;
* `Numeral` : a decimal numeral, digits and a power of ten;
* `Numeral.read?` : its grammar, an optional fraction and an optional exponent;
* `Numeral.magnitudeBits` : the nearest double;
* `readDouble` : a numeral with an optional sign, or the name of an infinity or of NaN.
-/

namespace TrackedHeap.Number

/-- The value of a text that is digits throughout, and not empty. -/
def readDigits (text : List Char) : Option Nat :=
  if text ≠ [] ∧ text.all Char.isDigit then some (Nat.ofDigitChars 10 text 0) else none

/-- An integer: digits after at most one sign of either kind. -/
def readSigned : List Char → Option Int
  | '+' :: rest => (readDigits rest).map Int.ofNat
  | '-' :: rest => (readDigits rest).map fun n => -Int.ofNat n
  | text => (readDigits text).map Int.ofNat

/-- A natural number: digits after at most one plus sign. -/
def readUnsigned : List Char → Option Nat
  | '+' :: rest => readDigits rest
  | text => readDigits text

/-- A decimal numeral: `digits * 10 ^ exponent`. -/
structure Numeral where
  digits : Nat
  exponent : Int
  deriving DecidableEq, Repr

namespace Numeral

/-- The exponent part: nothing, or the letter e in either case and a signed integer. -/
def readExponent : List Char → Option Int
  | [] => some 0
  | c :: rest => if c = 'e' ∨ c = 'E' then readSigned rest else none

/-- A numeral: digits with at most one point among, before or after them, and an exponent part.
Every digit after the point lowers the power of ten by one. -/
def read? (text : List Char) : Option Numeral :=
  let whole := text.takeWhile Char.isDigit
  let rest := text.dropWhile Char.isDigit
  let (fraction, rest) :=
    match rest with
    | '.' :: rest => (rest.takeWhile Char.isDigit, rest.dropWhile Char.isDigit)
    | _ => ([], rest)
  match readDigits (whole ++ fraction), readExponent rest with
  | some digits, some exponent => some ⟨digits, exponent - fraction.length⟩
  | _, _ => none

/-- The position of the first digit: a numeral other than zero is at least `10 ^ (order - 1)` and
less than `10 ^ order`. -/
def order (n : Numeral) : Int :=
  (Nat.toDigits 10 n.digits).length + n.exponent

/-- The bits of the magnitude nearest to a numeral. From `10 ^ 310` on everything is beyond the
finite doubles, and below `10 ^ -330` nothing reaches half the least one. -/
def magnitudeBits (n : Numeral) : Nat :=
  if n.digits = 0 ∨ n.order < -330 then 0
  else if 310 < n.order then Double.infinityBits
  else
    Double.nearestBits (n.digits * Nat.pow 10 n.exponent.toNat * Double.unitsPerOne)
      (Nat.pow 10 (-n.exponent).toNat)

end Numeral

/-- A magnitude by name, in any case, or by a numeral. -/
def readMagnitude (text : List Char) : Option Nat :=
  let name := String.ofList (text.map Char.toLower)
  if name = "inf" ∨ name = "infinity" then some Double.infinityBits
  else if name = "nan" then some Double.nanBits
  else (Numeral.read? text).map Numeral.magnitudeBits

/-- A double: a magnitude after at most one sign. -/
def readDouble : List Char → Option Double
  | '+' :: rest => (readMagnitude rest).map (Double.ofParts false)
  | '-' :: rest => (readMagnitude rest).map (Double.ofParts true)
  | text => (readMagnitude text).map (Double.ofParts false)

end TrackedHeap.Number
