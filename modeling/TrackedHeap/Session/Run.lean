import TrackedHeap.Session.Step

/-!
# Runs of a session

* `Session.Entry` : what one step of a run shows;
* `Session.perform` : one step, also one that does not apply;
* `Session.run` : steps one after another.
-/

namespace TrackedHeap.Session

/-- What one step of a run shows: the reply, unless the operation does not apply, what is on record,
and the ledger of the manager after the step. -/
structure Entry where
  reply : Option Reply
  trail : Trail
  ledger : Option Ledger
  deriving DecidableEq, Repr

def ledger? (s : Session) (index : Nat) : Option Ledger :=
  s.managers[index]?.bind Manager.ledger?

def rejection (s : Session) (index : Nat) : Entry :=
  ⟨none, .empty, s.ledger? index⟩

/-- One step. A step that does not apply changes nothing. -/
def perform (s : Session) (step : Step) : Session × Entry :=
  match s.step? step with
  | some o => (o.session, ⟨some o.reply, o.trail, o.session.ledger? step.index⟩)
  | none => (s, s.rejection step.index)

def run (s : Session) : List Step → Session × List Entry
  | [] => (s, [])
  | step :: rest =>
    let (s, entry) := s.perform step
    let (s, entries) := s.run rest
    (s, entry :: entries)

theorem run_append (s : Session) (first second : List Step) :
    s.run (first ++ second) =
      (((s.run first).1.run second).1, (s.run first).2 ++ ((s.run first).1.run second).2) := by
  induction first generalizing s with
  | nil => rfl
  | cons step rest ih => simp [run, ih]

end TrackedHeap.Session
