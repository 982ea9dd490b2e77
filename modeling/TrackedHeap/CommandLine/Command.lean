import TrackedHeap.CommandLine.Word
import TrackedHeap.Memory.Request
import TrackedHeap.Number.Numeral

/-!
# Commands

* `ParseError` : why a command line is not a command to run;
* `Value`, `ValueKind` : the values that arguments stand for, and `ValueKind.read` the value of an
  argument;
* `Verb` : the commands by name, with what each takes (`Verb.signature`);
* `Command` : a command with its arguments.
-/

namespace TrackedHeap.CommandLine

/-- Why a command line is not a command to run. -/
inductive ParseError where
  | helpRequested
  | versionRequested
  | nothingGiven
  | missingCommand
  | unknownCommand
  | unknownArgument
  | repeatedArgument
  | unexpectedValue
  | missingValue
  | invalidUtf8
  | invalidValue
  | missingArgument
  deriving DecidableEq, Repr

/-- The status of a command line that only asks for help or the version is success. -/
def ParseError.exitCode : ParseError → UInt8
  | helpRequested => 0
  | versionRequested => 0
  | _ => 2

/-- The value of an argument. -/
inductive Value where
  | int (n : Int32)
  | double (x : Double)
  | text (s : String)
  | size (n : Size)
  deriving DecidableEq, Repr

/-- What kind of value an argument takes. -/
inductive ValueKind where
  | int
  | double
  | text
  | size
  deriving DecidableEq, Repr

def ValueKind.ofText? : ValueKind → List Char → Option Value
  | int, cs =>
    match Number.readSigned cs with
    | some n =>
      if Int32.minValue.toInt ≤ n ∧ n ≤ Int32.maxValue.toInt then some (.int (Int32.ofInt n))
      else none
    | none => none
  | double, cs => (Number.readDouble cs).map .double
  | text, cs => some (.text (String.ofList cs))
  | size, cs =>
    match Number.readUnsigned cs with
    | some n => if n < 1 <<< 64 then some (.size (UInt64.ofNat n)) else none
    | none => none

/-- The value of an argument, which must be UTF-8 whatever its kind. -/
def ValueKind.read (kind : ValueKind) (bytes : Bytes) : Except ParseError Value :=
  match Utf8.decode? bytes with
  | none => .error .invalidUtf8
  | some cs =>
    match kind.ofText? cs with
    | none => .error .invalidValue
    | some value => .ok value

/-- The commands by name. -/
inductive Verb where
  | printInt
  | printDouble
  | printString
  | concat
  | compare
  | alloc
  deriving DecidableEq, Repr

/-- What a command takes beside the options that every command has: at most one value in place, and
options with a value. -/
structure Signature where
  positional : Option ValueKind
  /-- Whether the value in place may start with the minus sign of a number. -/
  negativeNumbers : Bool
  options : List (String × ValueKind)

namespace Verb

def all : List Verb := [printInt, printDouble, printString, concat, compare, alloc]

def name : Verb → String
  | printInt => "print-int"
  | printDouble => "print-double"
  | printString => "print-string"
  | concat => "concat"
  | compare => "compare"
  | alloc => "alloc"

def signature : Verb → Signature
  | printInt => ⟨some .int, false, []⟩
  | printDouble => ⟨some .double, true, []⟩
  | printString => ⟨some .text, false, []⟩
  | concat => ⟨none, false, [("a", .text), ("b", .text)]⟩
  | compare => ⟨none, false, [("a", .text), ("b", .text)]⟩
  | alloc => ⟨some .size, false, [("count", .size)]⟩

def ofBytes? (bytes : Bytes) : Option Verb :=
  all.find? fun verb => Utf8.ofString verb.name = bytes

end Verb

/-- A command with its arguments. -/
inductive Command where
  | printInt (value : Int32)
  | printDouble (value : Double)
  | printString (value : Option String)
  | concat (a b : Option String)
  | compare (a b : Option String)
  | alloc (size : Size) (count : Option Size)
  deriving DecidableEq, Repr

/-- A command, and whether the command line turns tracking on. -/
structure Invocation where
  debugMemory : Bool
  command : Command
  deriving DecidableEq, Repr

end TrackedHeap.CommandLine
