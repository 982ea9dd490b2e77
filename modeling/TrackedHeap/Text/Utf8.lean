/-!
# UTF-8

* `encode` : the bytes of a text;
* `Piece` : one encoded character, or the longest start of one that breaks off;
* `pieces` : a byte string cut into pieces;
* `decode?` : the text of a byte string without broken pieces;
* `decodeLossy` : the text with one replacement character for every broken piece.
-/

namespace TrackedHeap

abbrev Bytes := List UInt8

namespace Utf8

def encode (text : List Char) : Bytes :=
  text.flatMap String.utf8EncodeChar

def ofString (text : String) : Bytes :=
  encode text.toList

/-- What the first byte of a character says of the rest: how many bytes follow, the bounds of the
first of those, and the leading bits of the code point. -/
structure Lead where
  following : Nat
  low : UInt8
  high : UInt8
  bits : Nat

/-- The lead that a byte announces, if a character can start with it. The narrower bounds exclude
overlong forms, surrogates and code points above 10FFFF. -/
def lead? (b : UInt8) : Option Lead :=
  let n := b.toNat
  if n < 0x80 then some ⟨0, 0x80, 0xbf, n⟩
  else if n < 0xc2 then none
  else if n < 0xe0 then some ⟨1, 0x80, 0xbf, n - 0xc0⟩
  else if n = 0xe0 then some ⟨2, 0xa0, 0xbf, 0⟩
  else if n = 0xed then some ⟨2, 0x80, 0x9f, 0xd⟩
  else if n < 0xf0 then some ⟨2, 0x80, 0xbf, n - 0xe0⟩
  else if n = 0xf0 then some ⟨3, 0x90, 0xbf, 0⟩
  else if n < 0xf4 then some ⟨3, 0x80, 0xbf, n - 0xf0⟩
  else if n = 0xf4 then some ⟨3, 0x80, 0x8f, 4⟩
  else none

/-- Reads up to `following` continuation bytes, the first within its own bounds. Gives the number
of bytes read and, unless one was missing, the code point. -/
def continuation : (following : Nat) → (low high : UInt8) → (bits : Nat) → Bytes →
    Nat × Option Nat
  | 0, _, _, bits, _ => (0, some bits)
  | _ + 1, _, _, _, [] => (0, none)
  | n + 1, low, high, bits, b :: rest =>
    if low ≤ b ∧ b ≤ high then
      let (read, code) := continuation n 0x80 0xbf (bits * 64 + (b.toNat - 0x80)) rest
      (read + 1, code)
    else (0, none)

/-- A piece of a byte string: one encoded character, or the longest start of one that breaks
off. -/
inductive Piece where
  | char (c : Char)
  | broken (bytes : Bytes)
  deriving DecidableEq, Repr

def Piece.bytes : Piece → Bytes
  | .char c => String.utf8EncodeChar c
  | .broken bytes => bytes

/-- The piece that starts with a byte, and how many of the bytes after it belong to it. -/
def pieceAt (b : UInt8) (rest : Bytes) : Piece × Nat :=
  match lead? b with
  | none => (.broken [b], 0)
  | some lead =>
    match continuation lead.following lead.low lead.high lead.bits rest with
    | (read, some code) => (.char (Char.ofNat code), read)
    | (read, none) => (.broken (b :: rest.take read), read)

/-- The pieces of a byte string, after the `skip` bytes at its head that belong to a piece already
given. -/
def piecesAfter : (skip : Nat) → Bytes → List Piece
  | _, [] => []
  | 0, b :: rest =>
    let (piece, read) := pieceAt b rest
    piece :: piecesAfter read rest
  | skip + 1, _ :: rest => piecesAfter skip rest

def pieces (bytes : Bytes) : List Piece :=
  piecesAfter 0 bytes

def Piece.char? : Piece → Option Char
  | .char c => some c
  | .broken _ => none

/-- The text that a byte string encodes, if it is well formed throughout. -/
def decode? (bytes : Bytes) : Option (List Char) :=
  (pieces bytes).mapM Piece.char?

def replacement : Char := '\ufffd'

/-- The text of a byte string, with one replacement character for each broken piece. -/
def decodeLossy (bytes : Bytes) : List Char :=
  (pieces bytes).map fun piece => piece.char?.getD replacement

end Utf8

end TrackedHeap
