import TrackedHeap.CommandLine.Console

/-!
# The command line program

`main` takes the words and the environment from the host, and gives the host what the console
shows.
-/

namespace TrackedHeap.CommandLine

/-- Runs the program on a host. Memory is tracked only when the flag or the environment asks for
it. -/
def main (host : Host) (arguments : List String) : IO UInt32 := do
  let value? ← IO.getEnv debugMemoryVariable
  let words := arguments.map Utf8.ofString
  let shown := console host words ⟨false⟩ (value?.map Utf8.ofString)
  let output ← IO.getStdout
  output.write ⟨shown.output.toArray⟩
  output.flush
  shown.errorLines.forM IO.eprintln
  return shown.status.toUInt32

end TrackedHeap.CommandLine
