import TrackedHeap.Number.Fixed
import TrackedHeap.Text.Utf8

/-!
# Value lines

Each printed value is a line of its own, given as the pieces in which it is written.

* `intLine`, `doubleLine` : the text of a number and a line feed;
* `stringLine` : the bytes of a string as they are and a line feed, or nothing at all;
* `bytesOf` : the pieces joined.
-/

namespace TrackedHeap.Output

/-- What is written for one value, cut into pieces that are written one after another. -/
abbrev Pieces := List Bytes

def lineFeed : UInt8 := 0x0a

def bytesOf (pieces : Pieces) : Bytes :=
  pieces.flatten

def intLine (n : Int32) : Pieces :=
  [Utf8.encode (Number.intText n.toInt), [lineFeed]]

def doubleLine (x : Double) : Pieces :=
  [Utf8.encode (Number.doubleText x), [lineFeed]]

/-- The bytes of a string and a line feed; nothing for an absent string. -/
def stringLine : Option Bytes → Pieces
  | none => []
  | some bytes => [bytes, [lineFeed]]

theorem bytesOf_stringLine_some (bytes : Bytes) :
    bytesOf (stringLine (some bytes)) = bytes ++ [lineFeed] := by
  simp [bytesOf, stringLine]

end TrackedHeap.Output
