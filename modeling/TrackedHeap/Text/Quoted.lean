import TrackedHeap.Text.Printable
import TrackedHeap.Text.Utf8

/-!
# Quoted text

Two quoted forms, each between double quotes.

* `quoteText` : a text, in which unprintable characters are written by their code points;
* `quoteBytes` : a byte string, in which control bytes and bytes outside UTF-8 are written by two
  hexadecimal digits, and unprintable characters above U+007F by their code points.
-/

namespace TrackedHeap.Text

def named (name : Char) : List Char :=
  ['\\', name]

/-- An escape by code point: the lower-case hexadecimal digits between braces. -/
def codePoint (c : Char) : List Char :=
  ['\\', 'u', '\x7b'] ++ Nat.toDigits 16 c.toNat ++ ['\x7d']

/-- An escape by byte: two lower-case hexadecimal digits. -/
def byteCode (b : UInt8) : List Char :=
  ['\\', 'x', (b.toNat / 16).digitChar, (b.toNat % 16).digitChar]

def enclose (body : List Char) : List Char :=
  '"' :: body ++ ['"']

/-! ## Texts -/

def escapeChar (c : Char) : List Char :=
  if c = '\x00' then named '0'
  else if c = '\t' then named 't'
  else if c = '\n' then named 'n'
  else if c = '\r' then named 'r'
  else if c = '"' then named '"'
  else if c = '\\' then named '\\'
  else if isPrintable c then [c]
  else codePoint c

/-- A text in quotes, every character recoverable and on one line. -/
def quoteText (text : List Char) : List Char :=
  enclose (text.flatMap escapeChar)

/-! ## Byte strings -/

/-- How an ASCII character of a byte string is written. -/
def escapeAscii (c : Char) : List Char :=
  if c = '\t' then named 't'
  else if c = '\n' then named 'n'
  else if c = '\r' then named 'r'
  else if c = '"' then named '"'
  else if c = '\x27' then named '\x27'
  else if c = '\\' then named '\\'
  else if isPrintable c then [c]
  else byteCode c.toNat.toUInt8

def escapePiece : Utf8.Piece → List Char
  | .char c =>
    if c.toNat < 0x80 then escapeAscii c
    else if isPrintable c then [c]
    else codePoint c
  | .broken bytes => bytes.flatMap byteCode

/-- A byte string in quotes, every byte recoverable and on one line. -/
def quoteBytes (bytes : Bytes) : List Char :=
  enclose ((Utf8.pieces bytes).flatMap escapePiece)

end TrackedHeap.Text
