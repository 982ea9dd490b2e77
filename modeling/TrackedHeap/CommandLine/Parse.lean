import TrackedHeap.CommandLine.Command

/-!
# Reading a command line

* `Pending` : an argument whose value is still to be read;
* `Progress` : what the words after a command have given so far;
* `Progress.resolve` : reads the pending value. Every word that starts something new does so first;
* `Progress.word` : one more word;
* `parseCommand` : the words after a command;
* `parse` : a whole command line.

Words are taken in order and the first fault is the one reported. A word that is no option of the
command, or one value too many, is reported before the value that is pending is looked at.
-/

namespace TrackedHeap.CommandLine

/-- An argument whose value is still to be read. -/
inductive Pending where
  | nothing
  | positional (bytes : Bytes)
  /-- An option, and its value once that has come. -/
  | option (name : String) (kind : ValueKind) (value : Option Bytes)
  deriving DecidableEq, Repr

/-- What the words after a command have given so far. -/
structure Progress where
  debugMemory : Bool
  /-- Only values follow. -/
  trailing : Bool
  /-- The value in place has come. -/
  filled : Bool
  pending : Pending
  positional : Option Value
  options : List (String × Value)
  deriving DecidableEq, Repr

namespace Progress

def start : Progress := ⟨false, false, false, .nothing, none, []⟩

/-- Keeps the value of an option, which may come once. -/
def setOption (p : Progress) (name : String) (kind : ValueKind) (bytes : Bytes) :
    Except ParseError Progress :=
  if p.options.any fun option => option.1 = name then .error .repeatedArgument
  else
    match kind.read bytes with
    | .ok value => .ok { p with options := (name, value) :: p.options }
    | .error e => .error e

def resolve (s : Signature) (p : Progress) : Except ParseError Progress :=
  match p.pending with
  | .nothing => .ok p
  | .positional bytes =>
    match s.positional with
    | none => .error .unknownArgument
    | some kind =>
      match kind.read bytes with
      | .ok value => .ok { p with pending := .nothing, positional := some value }
      | .error e => .error e
  | .option _ _ none => .error .missingValue
  | .option name kind (some bytes) => { p with pending := .nothing }.setOption name kind bytes

/-- The flag that turns tracking on, which may come once. -/
def setDebugMemory (s : Signature) (p : Progress) : Except ParseError Progress :=
  match p.resolve s with
  | .error e => .error e
  | .ok p =>
    if p.debugMemory then .error .repeatedArgument else .ok { p with debugMemory := true }

def help (s : Signature) (p : Progress) : Except ParseError Progress :=
  match p.resolve s with
  | .error e => .error e
  | .ok _ => .error .helpRequested

def option (s : Signature) (p : Progress) (name : String) (kind : ValueKind)
    (attached : Option Bytes) : Except ParseError Progress :=
  match p.resolve s with
  | .error e => .error e
  | .ok p =>
    match attached with
    | some bytes => p.setOption name kind bytes
    | none => .ok { p with pending := .option name kind none }

def long (s : Signature) (p : Progress) (name : Bytes) (attached : Option Bytes) :
    Except ParseError Progress :=
  if name = Utf8.ofString "debug-memory" then
    if attached.isSome then .error .unexpectedValue else p.setDebugMemory s
  else if name = Utf8.ofString "help" then
    if attached.isSome then .error .unexpectedValue else p.help s
  else
    match s.options.find? fun option => Utf8.ofString option.1 = name with
    | some (name, kind) => p.option s name kind attached
    | none => .error .unknownArgument

def place (s : Signature) (p : Progress) (bytes : Bytes) : Except ParseError Progress :=
  if s.positional.isNone ∨ p.filled then .error .unknownArgument
  else
    match p.resolve s with
    | .error e => .error e
    | .ok p => .ok { p with pending := .positional bytes, filled := true }

/-- A word that is no option: the value that an option waits for, or a value in place. -/
def plain (s : Signature) (p : Progress) (bytes : Bytes) : Except ParseError Progress :=
  match p.pending with
  | .option name kind none => .ok { p with pending := .option name kind (some bytes) }
  | _ => p.place s bytes

def word (s : Signature) (p : Progress) (bytes : Bytes) : Except ParseError Progress :=
  if p.trailing then p.place s bytes
  else
    match Word.ofBytes bytes with
    | .doubleDash => .ok { p with trailing := true }
    | .long name attached => p.long s name attached
    | .short first rest =>
      if s.negativeNumbers && !p.filled && looksNumeric (first :: rest) then p.plain s bytes
      else if first = 0x68 then p.help s
      else .error .unknownArgument
    | .plain => p.plain s bytes

def words (s : Signature) (p : Progress) : List Bytes → Except ParseError Progress
  | [] => p.resolve s
  | bytes :: rest =>
    match p.word s bytes with
    | .error e => .error e
    | .ok p => p.words s rest

def text? (p : Progress) (name : String) : Option String :=
  match p.options.lookup name with
  | some (.text s) => some s
  | _ => none

def size? (p : Progress) (name : String) : Option Size :=
  match p.options.lookup name with
  | some (.size n) => some n
  | _ => none

/-- The command that its words make, if nothing is missing. -/
def command (p : Progress) : Verb → Except ParseError Command
  | .printInt =>
    match p.positional with
    | some (.int n) => .ok (.printInt n)
    | _ => .error .missingArgument
  | .printDouble =>
    match p.positional with
    | some (.double x) => .ok (.printDouble x)
    | _ => .error .missingArgument
  | .printString =>
    match p.positional with
    | some (.text s) => .ok (.printString (some s))
    | _ => .ok (.printString none)
  | .concat => .ok (.concat (p.text? "a") (p.text? "b"))
  | .compare => .ok (.compare (p.text? "a") (p.text? "b"))
  | .alloc =>
    match p.positional with
    | some (.size n) => .ok (.alloc n (p.size? "count"))
    | _ => .error .missingArgument

end Progress

def parseCommand (verb : Verb) (debugMemory : Bool) (words : List Bytes) :
    Except ParseError Invocation :=
  match Progress.start.words verb.signature words with
  | .error e => .error e
  | .ok p =>
    match p.command verb with
    | .error e => .error e
    | .ok command => .ok ⟨debugMemory || p.debugMemory, command⟩

def helpName : Bytes := Utf8.ofString "help"

/-- Whether a word names a command, or the one that gives help. -/
def namesCommand (bytes : Bytes) : Bool :=
  bytes = helpName || (Verb.ofBytes? bytes).isSome

def parseHelp : List Bytes → ParseError
  | [] => .helpRequested
  | [name] => if namesCommand name then .helpRequested else .unknownCommand
  | _ => .unknownCommand

/-- The words up to the command, after the flag that turns tracking on if that has come. -/
def parseFrom (debugMemory : Bool) : List Bytes → Except ParseError Invocation
  | [] => .error (if debugMemory then .missingCommand else .nothingGiven)
  | bytes :: rest =>
    if bytes = helpName then .error (parseHelp rest)
    else
      match Verb.ofBytes? bytes with
      | some verb => parseCommand verb debugMemory rest
      | none =>
        match Word.ofBytes bytes with
        | .doubleDash =>
          match rest with
          | [] => .error (if debugMemory then .missingCommand else .nothingGiven)
          | next :: _ => .error (if namesCommand next then .unknownArgument else .unknownCommand)
        | .long name attached =>
          if name = Utf8.ofString "debug-memory" then
            if attached.isSome then .error .unexpectedValue
            else if debugMemory then .error .repeatedArgument
            else parseFrom true rest
          else if name = Utf8.ofString "help" then
            .error (if attached.isSome then .unexpectedValue else .helpRequested)
          else if name = Utf8.ofString "version" then
            .error (if attached.isSome then .unexpectedValue else .versionRequested)
          else .error .unknownArgument
        | .short first _ =>
          .error (if first = 0x68 then .helpRequested
            else if first = 0x56 then .versionRequested
            else .unknownArgument)
        | .plain => .error .unknownCommand

def parse (words : List Bytes) : Except ParseError Invocation :=
  parseFrom false words

end TrackedHeap.CommandLine
