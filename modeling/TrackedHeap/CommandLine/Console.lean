import TrackedHeap.CommandLine.Parse
import TrackedHeap.CommandLine.Run

/-!
# The program on a console

* `Host` : what the program takes from its host;
* `Console` : the status, the standard output and the standard error of one run;
* `console` : a command line with its host and environment, from its words to the status.
-/

namespace TrackedHeap.CommandLine

/-- What the program takes from its host: the allocator under all layers, and the texts in which the
parser of the command line speaks. -/
structure Host where
  base : Base
  texts : ParseError → String

/-- One run as the console shows it: its status, its standard output, and on the standard error the
diagnostic lines and the sentence of a failure. -/
structure Console where
  status : UInt8
  output : Bytes
  lines : List Line
  failure : Option String
  deriving DecidableEq, Repr

def Console.errorLines (c : Console) : List String :=
  c.lines.map Line.text ++ c.failure.toList

/-- A run that ends with the command line: help and the version go to the standard output. -/
def ParseError.console (e : ParseError) (host : Host) : Console :=
  if e.exitCode = 0 then ⟨0, Utf8.ofString (host.texts e ++ "\n"), [], none⟩
  else ⟨e.exitCode, [], [], some (host.texts e)⟩

def Report.console (r : Report) : Console :=
  match r.result with
  | .ok () => ⟨0, r.printed, r.trail.lines, none⟩
  | .error failure => ⟨1, r.printed, r.trail.lines, some ("Error: " ++ failure.message)⟩

def console (host : Host) (words : List Bytes) (default : Configuration) (value? : Option Bytes) :
    Console :=
  match parse words with
  | .error e => e.console host
  | .ok invocation => (invocation.execute host.base default value?).console

end TrackedHeap.CommandLine
