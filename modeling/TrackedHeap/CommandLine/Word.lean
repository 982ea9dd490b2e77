import TrackedHeap.Text.Utf8

/-!
# Words of a command line

* `Word` : what an argument looks like, the double dash, a long option, short options or anything
  else;
* `Word.ofBytes` : the form of an argument;
* `looksNumeric` : which short options look like a negative number.
-/

namespace TrackedHeap.CommandLine

/-- What an argument looks like. -/
inductive Word where
  /-- Two dashes: what follows are values. -/
  | doubleDash
  /-- Two dashes and a name, with the value after an equals sign. -/
  | long (name : Bytes) (attached : Option Bytes)
  /-- One dash and at least one letter. -/
  | short (first : UInt8) (rest : Bytes)
  /-- A value, or the name of a command. -/
  | plain
  deriving DecidableEq, Repr

def dash : UInt8 := 0x2d

def equals : UInt8 := 0x3d

/-- What follows the first equals sign of a long option. -/
def attachedValue (body : Bytes) : Option Bytes :=
  match body.dropWhile (· ≠ equals) with
  | [] => none
  | _ :: value => some value

def Word.ofBytes : Bytes → Word
  | [] => plain
  | [_] => plain
  | a :: b :: rest =>
    if a ≠ dash then plain
    else if b ≠ dash then short b rest
    else if rest = [] then doubleDash
    else long (rest.takeWhile (· ≠ equals)) (attachedValue rest)

def isDigitByte (b : UInt8) : Bool :=
  0x30 ≤ b && b ≤ 0x39

/-- Whether a byte is the letter before an exponent, in either case. -/
def isExponentMark (b : UInt8) : Bool :=
  b = 0x65 || b = 0x45

/-- Whether letters are a number without its sign: digits, at most one point, which is not first and
stands before any exponent, and at most one letter e of either case, which is neither first nor
last. -/
def looksNumeric (letters : Bytes) : Bool :=
  let mantissa := letters.takeWhile (!isExponentMark ·)
  let whole := mantissa.takeWhile (· ≠ 0x2e)
  let fraction := (mantissa.dropWhile (· ≠ 0x2e)).drop 1
  let exponent := letters.dropWhile (!isExponentMark ·)
  whole ≠ [] && whole.all isDigitByte && fraction.all isDigitByte &&
    match exponent with
    | [] => true
    | _ :: digits => digits ≠ [] && digits.all isDigitByte

end TrackedHeap.CommandLine
