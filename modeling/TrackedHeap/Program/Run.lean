import TrackedHeap.Program.Step

/-!
# Runs of a program

* `Program.Entry` : what one statement of a run shows;
* `Program.perform` : one statement, also one that does not apply;
* `Program.run` : statements one after another.
-/

namespace TrackedHeap.Program

/-- What one statement of a run shows: what its call gave back, unless it does not apply, what it
printed, what is on record, and the ledger after it. -/
structure Entry where
  answer : Option Answer
  printed : Bytes
  trail : Trail
  ledger : Option Ledger
  deriving DecidableEq, Repr

def rejection (p : Program) : Entry :=
  ⟨none, [], .empty, p.manager.ledger?⟩

/-- One statement. A statement that does not apply changes nothing. -/
def perform (p : Program) (s : Statement) : Program × Entry :=
  match p.statement? s with
  | some r => (r.program, ⟨some r.answer, r.printed, r.trail, r.program.manager.ledger?⟩)
  | none => (p, p.rejection)

def run (p : Program) : List Statement → Program × List Entry
  | [] => (p, [])
  | s :: rest =>
    let (p, entry) := p.perform s
    let (p, entries) := p.run rest
    (p, entry :: entries)

end TrackedHeap.Program
