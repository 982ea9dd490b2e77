import TrackedHeap.Proofs.Program.Diagnostics
import TrackedHeap.Proofs.Session.Story

/-!
# Events and lines of a program

* `Program.moments` : what the manager leaves on record in each statement, with the ledger after it;
* `follows_perform`, `chronicle_run` : a statement, and a run, is a story of the ledger, and its events
  and lines go together;
* `events_match_lines` : in sessions and in programs, events and lines tell one story.
-/

namespace TrackedHeap

namespace Program

def Entry.moment (entry : Entry) : Moment :=
  ⟨entry.trail, entry.ledger⟩

/-- What the manager leaves on record in each statement, with the ledger after it. -/
def moments (p : Program) (statements : List Statement) : List Moment :=
  (p.run statements).2.map Entry.moment

theorem moments_cons (p : Program) (s : Statement) (rest : List Statement) :
    p.moments (s :: rest) = (p.perform s).2.moment :: (p.perform s).1.moments rest := rfl

theorem lines_moments (p : Program) (statements : List Statement) :
    Moment.lines (p.moments statements) = p.diagnostics statements := by
  rw [Moment.lines, moments, List.flatMap_map]
  rfl

/-- **What a statement leaves on record leads from one ledger to the next**, its events and lines go
together, and each level shows what it is for. -/
theorem follows_perform {p : Program} {b : Base} {l : Ledger} (h : p.Writes b l) (s : Statement) :
    ∃ l', (p.perform s).1.Writes b l' ∧ (p.perform s).2.moment.Follows l l' ∧
      (p.perform s).2.trail.Matched ∧ (p.perform s).2.trail.Leveled := by
  have ledger := h.ledger?_eq
  obtain hperform | ⟨returned, effect, hperform⟩ := p.perform_cases s
  · rw [hperform, rejection, Entry.moment, ledger]
    exact ⟨l, h, .empty l, Trail.matched_empty, Trail.leveled_of_events_eq_nil rfl⟩
  rw [hperform, Entry.moment]
  dsimp only
  cases effect with
  | make named free asked given granted made =>
    have leveled := granted.leveled
    have matched := granted.matched
    rw [h.allocator] at granted
    obtain ⟨rfl, follows⟩ := granted.follows p.manager.sink
    refine ⟨_, ⟨rfl, h.working⟩, follows, ?_, leveled.pass _⟩
    rw [Sink.pass_of_isWorking h.working]
    exact matched
  | refuse asked given told =>
    rw [ledger]
    exact ⟨l, h, .of_refusal told l, Trail.matched_refusal told, Trail.leveled_refusal told⟩
  | @giveBack a slot found asked given =>
    have follows := Allocator.follows_released (b := b) (l := l) a (s.call.location p.heap)
      p.manager.sink
    have hallocator :
        (p.manager.allocator.released a (s.call.location p.heap)).1 = .layered b l.recordRelease 1 := by
      rw [h.allocator, Allocator.released_layered]
    have hledger : Manager.ledger? { p.manager with
        allocator := (p.manager.allocator.released a (s.call.location p.heap)).1 } =
          some l.recordRelease := by
      rw [Manager.ledger?, hallocator]
      rfl
    rw [← h.allocator] at follows
    refine ⟨l.recordRelease, ⟨hallocator, h.working⟩, ?_, ?_,
      (Allocator.leveled_released _).pass _⟩
    · rw [hledger]
      exact follows
    · rw [Sink.pass_of_isWorking h.working]
      exact Allocator.matched_released _
  | write offset bytes asked given found stored silent =>
    rw [ledger]
    exact ⟨l, ⟨h.allocator, h.working⟩, .empty l, Trail.matched_empty,
      Trail.leveled_of_events_eq_nil rfl⟩
  | report asked given reports =>
    rw [ledger]
    have nothing := p.manager.events_report
    refine ⟨l, h, .of_events_eq_nil nothing l, ?_, Trail.leveled_of_events_eq_nil nothing⟩
    rw [Manager.report, Allocator.report_eq_pass, Sink.pass_of_isWorking h.working]
    exact Allocator.matched_report _
  | still asked given silent nothing =>
    rw [ledger]
    exact ⟨l, h, .empty l, Trail.matched_empty, Trail.leveled_of_events_eq_nil rfl⟩

theorem chronicle_run {p : Program} {b : Base} {l : Ledger} (h : p.Writes b l)
    (statements : List Statement) :
    Chronicle l (p.moments statements) ∧
      ∀ m ∈ p.moments statements, m.trail.Matched ∧ m.trail.Leveled := by
  induction statements generalizing p l with
  | nil => exact ⟨.nil l, fun m hm => absurd hm List.not_mem_nil⟩
  | cons s rest ih =>
    obtain ⟨l', h', follows, record⟩ := follows_perform h s
    obtain ⟨chronicle, later⟩ := ih h'
    rw [moments_cons]
    refine ⟨.cons follows chronicle, fun m hm => ?_⟩
    rcases List.mem_cons.1 hm with rfl | hm
    · exact record
    · exact later m hm

end Program

/-- **Events and lines tell one story.** In a session, through a manager whose sink never fails, and
in a program that tracks its memory, the events of allocations and releases are the lines of
allocations and releases, in order and with the same sizes, addresses and locations. With a single
layer each release shows how many more allocations than releases there are up to it, which is the
live count of the ledger at that moment, and a warning with that number stands right before it if it
is negative, and nowhere else. With any number of layers the warnings are those of the releases that
show a negative number, one level below there are these and the refusals, and the most detailed level
shows everything. -/
theorem events_match_lines :
    (∀ (setups : List Setup) (i : Nat) (setup : Setup) (steps : List Session.Step),
      setups[i]? = some setup → setup.sink.isWorking = true →
      (∀ step ∈ steps, step.index = i → step.op ≠ .setFailing true) →
        let moments := (Session.start setups).moments i steps
        (Moment.events moments).filterMap Event.line? =
            ((Session.start setups).diagnostics i steps).filter Line.isMovement ∧
          Moment.Leveled moments ∧
          (setup.layers = 1 →
            Event.Counted (Moment.events moments) ∧
              ∀ m ∈ moments, ∀ address location live,
                .trackedRelease address location live ∈ m.trail.events →
                  ∃ ledger, m.ledger = some ledger ∧ ledger.liveAllocations = live)) ∧
    ∀ (base : Base) (default : Configuration) (value? : Option Bytes)
        (statements : List Program.Statement),
      (Program.start base default value?).1.manager.isTracking = true →
        let moments := (Program.start base default value?).1.moments statements
        (Moment.events moments).filterMap Event.line? =
            ((Program.start base default value?).1.diagnostics statements).filter Line.isMovement ∧
          Moment.Leveled moments ∧
          Event.Counted (Moment.events moments) ∧
          ∀ m ∈ moments, ∀ address location live,
            .trackedRelease address location live ∈ m.trail.events →
              ∃ ledger, m.ledger = some ledger ∧ ledger.liveAllocations = live := by
  refine ⟨fun setups i setup steps found working kept => ?_,
    fun base default value? statements tracking => ?_⟩
  · intro moments
    refine ⟨?_, Session.leveled_moments _ i steps, fun single => ?_⟩
    · rw [← Session.lines_moments]
      exact Moment.filterMap_events_eq
        (Session.matched_run (Session.works_start found working) kept)
    · have chronicle := Session.chronicle_run (Session.hasLedger_start found) single steps
      exact ⟨chronicle.counted, fun m hm _ _ _ release => chronicle.live_eq hm release⟩
  · intro moments
    obtain ⟨chronicle, records⟩ := Program.chronicle_run (Program.writes_start tracking) statements
    rw [← Program.lines_moments]
    exact ⟨Moment.filterMap_events_eq fun m hm => (records m hm).1,
      Moment.leveled_of_trails fun m hm => (records m hm).2, chronicle.counted,
      fun m hm _ _ _ release => chronicle.live_eq hm release⟩

/-- A layer over a base of small blocks is refused one, and is given back a block of another manager
after its own array. A program takes memory, reports and gives it back. -/
theorem events_match_lines_overdrawn :
    let setups : List Setup :=
      [⟨Base.unbounded.limited 16, 1, .writer false⟩, ⟨.unbounded, 0, .standardError⟩]
    let steps : List Session.Step :=
      [⟨1, .allocate (.block 7) .option .caller, some ⟨"x"⟩⟩,
        ⟨0, .allocate (.array 4 3) .result .caller, some ⟨"a"⟩⟩,
        ⟨0, .allocate (.block 17) .option .caller, some ⟨"b"⟩⟩,
        ⟨0, .release (some ⟨"a"⟩) .caller, none⟩, ⟨0, .release (some ⟨"x"⟩) .boundary, none⟩]
    let events : List Event :=
      [.trackedAllocation 12 ⟨"a"⟩ .caller, .blockRefused (.outOfMemory 17),
        .trackedRelease ⟨"a"⟩ .caller 0, .ledgerOverdrawn (-1),
        .trackedRelease ⟨"x"⟩ .boundary (-1)]
    let statements : List Program.Statement :=
      [⟨.malloc 5, some ⟨"a"⟩⟩, ⟨.printMemoryStats, none⟩, ⟨.free (some ⟨"a"⟩), none⟩]
    let program := (Program.start .unbounded ⟨true⟩ none).1
    let events' : List Event :=
      [.trackedAllocation 5 ⟨"a"⟩ .unknown, .trackedRelease ⟨"a"⟩ .unknown 0]
    (((Session.start setups).diagnostics 0 steps).filter Line.isMovement =
        [.alloc 12 ⟨"a"⟩ .caller, .free ⟨"a"⟩ .caller, .free ⟨"x"⟩ .boundary] ∧
      Event.Counted events ∧
      Moment.seen .debug ((Session.start setups).moments 0 steps) =
        [.blockRefused (.outOfMemory 17), .ledgerOverdrawn (-1)] ∧
      Moment.seen .warn ((Session.start setups).moments 0 steps) = [.ledgerOverdrawn (-1)]) ∧
    ((program.diagnostics statements).filter Line.isMovement =
        [.alloc 5 ⟨"a"⟩ .unknown, .free ⟨"a"⟩ .unknown] ∧
      Event.Counted events') := by
  intro setups steps events statements program events'
  constructor
  · have recorded : Moment.events ((Session.start setups).moments 0 steps) = events := rfl
    obtain ⟨lines, leveled, single⟩ := events_match_lines.1 setups 0
      ⟨Base.unbounded.limited 16, 1, .writer false⟩ steps rfl rfl (by decide)
    obtain ⟨counted, -⟩ := single rfl
    have debug := leveled.debug
    have warn := leveled.warn
    rw [recorded] at lines counted debug warn
    exact ⟨lines.symm, counted, debug, warn⟩
  · have recorded : Moment.events (program.moments statements) = events' := rfl
    obtain ⟨lines, -, counted, -⟩ := events_match_lines.2 .unbounded ⟨true⟩ none statements rfl
    rw [recorded] at lines counted
    exact ⟨lines.symm, counted⟩

end TrackedHeap
