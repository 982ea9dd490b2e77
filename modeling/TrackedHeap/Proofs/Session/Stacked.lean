import TrackedHeap.Proofs.Session.Accounting
import TrackedHeap.Proofs.Session.Diagnostics
import TrackedHeap.Proofs.Session.Parallel
import TrackedHeap.Proofs.Tracking.Order

/-!
# Stacks of layers

A stack of layers does what its outermost layer alone does, and writes each line once for every
layer.

* `Session.outer` : the session whose stacks are cut down to their outermost layers;
* `perform_outer` : a step does the same in both, and its lines are the same but for how often they
  are written;
* `diagnostics_outer` : the stream of a run from that of the outermost layer alone;
* `layerMarks_perform` : what the layers record in a step is what they record of its occurrence;
* `run_start_stacked` : in a run from the start all layers of a stack stay in step.
-/

namespace TrackedHeap

/-- The manager with the outermost of its layers alone. -/
def Manager.outer (m : Manager) : Manager :=
  { m with allocator := m.allocator.outer }

/-- The same base and sink with a single layer, if there is any. -/
def Setup.outer (p : Setup) : Setup :=
  { p with layers := min p.layers 1 }

/-- Lines that are related pass a sink together. -/
theorem Sink.lines_pass_eq {t u : Trail} {change : List Line → List Line} (nothing : change [] = [])
    (related : t.lines = change u.lines) (sink : Sink) :
    (sink.pass t).lines = change (sink.pass u).lines := by
  unfold Sink.pass
  split
  · exact related
  · exact nothing.symm

namespace Session

/-- The session whose stacks are cut down to their outermost layers. -/
def outer (s : Session) : Session :=
  s.mapManagers Manager.outer

theorem outer_start (setups : List Setup) :
    (start setups).outer = start (setups.map Setup.outer) := by
  simp only [outer, mapManagers, start, List.map_map]
  refine congrArg (Session.mk []) (List.map_congr_left fun p _ => ?_)
  exact congrArg (Manager.mk · p.sink) (Allocator.outer_stack p.base p.layers)

theorem outer_set (s : Session) (heap : Heap) (i : Nat) (m : Manager) (a : Allocator) :
    outer ⟨heap, s.managers.set i { m with allocator := a }⟩ =
      ⟨heap, s.outer.managers.set i { m.outer with allocator := a.outer }⟩ :=
  mapManagers_set Manager.outer heap s.managers i _

/-! ## Steps -/

section
variable {s : Session} {step : Step} {m : Manager} {n : Nat}

/-- What the layers of one manager write in a step, from what its outermost layer writes alone. -/
theorem lines_parallel_outer {o o' : Outcome} (parallel : Parallel s s.outer step m m.outer o o')
    (depth : m.allocator.depth = n) :
    o.trail.lines = o'.trail.lines.flatMap (Line.repeated n) := by
  subst depth
  have pass : ∀ {t u : Trail}, t.lines = u.lines.flatMap (Line.repeated m.allocator.depth) →
      (m.sink.pass t).lines = (m.sink.pass u).lines.flatMap (Line.repeated m.allocator.depth) :=
    fun related => Sink.lines_pass_eq rfl related m.sink
  cases parallel with
  | make granted granted' =>
    apply pass
    rw [granted.lines_eq, granted'.lines_eq, Manager.outer, Allocator.depth_outer]
    exact (Line.flatMap_repeated rfl).symm
  | giveBack a =>
    apply pass
    rw [Allocator.lines_released, Allocator.lines_released, Manager.outer, Allocator.depth_outer]
    exact (Line.flatMap_repeated rfl).symm
  | hold => rfl
  | redirect => rfl
  | still => rfl
  | tell => rfl
  | report =>
    dsimp only
    rw [Manager.report, Manager.report, Allocator.report_eq_pass m.sink,
      Allocator.report_eq_pass m.outer.sink]
    apply pass
    rw [Manager.outer]
    cases m.allocator <;> rfl

/-- A step leaves the same in both sessions. -/
theorem session_parallel_outer {o o' : Outcome}
    (parallel : Parallel s s.outer step m m.outer o o') : o'.session = o.session.outer := by
  cases parallel with
  | make granted granted' =>
    obtain ⟨u, hgranted⟩ := granted.outer
    obtain ⟨rfl, -⟩ := hgranted.unique granted'
    exact (outer_set s _ _ m _).symm
  | giveBack a =>
    have hreleased := Allocator.outer_released m.allocator a step.op.location
    have hset := outer_set s (s.heap.erase a) step.index m
      (m.allocator.released a step.op.location).1
    rw [← hreleased] at hset
    exact hset.symm
  | hold => rfl
  | redirect failing =>
    exact (mapManagers_set Manager.outer s.heap s.managers step.index
      { m with sink := .writer failing }).symm
  | still => rfl
  | tell => rfl
  | report => rfl

/-- **A step does the same in a stack and in its outermost layer alone**, and writes the same lines,
once for every layer. -/
theorem perform_outer (s : Session) (step : Step) :
    (s.perform step).1.outer = (s.outer.perform step).1 ∧
      ∀ n, (∀ m, s.managers[step.index]? = some m → m.allocator.depth = n) →
        (s.perform step).2.trail.lines =
          (s.outer.perform step).2.trail.lines.flatMap (Line.repeated n) := by
  obtain ⟨hs, ht⟩ | ⟨m, o, o', manager, parallel, hs, ht⟩ :=
    perform_mapManagers Manager.outer (fun m => m.allocator.core_outer.symm) (fun _ => rfl) s step
  · have ht : s.outer.perform step = _ := ht
    rw [hs, ht]
    exact ⟨rfl, fun _ _ => rfl⟩
  · have ht : s.outer.perform step = _ := ht
    rw [hs, ht]
    exact ⟨(session_parallel_outer parallel).symm,
      fun n depth => lines_parallel_outer parallel (depth m manager)⟩

end

/-! ## Which layer records what -/

/-- **What the layers record in a step is what they record of its occurrence**, with the ledger that
they then have. -/
theorem layerMarks_perform {s : Session} {step : Step} {p : Setup} {l : Ledger}
    (h : s.HasLedger step.index p l) :
    (s.perform step).2.trail.layerMarks =
      (step.occurrence? s.heap (s.perform step).2).toList.flatMap
        (Occurrence.marks p.layers
          (l.replay (s.movement? step.index step).toList).liveAllocations) := by
  rw [movement?, if_pos rfl]
  obtain hperform | ⟨o, effect, hperform⟩ := s.perform_cases step
  · rw [hperform]
    rfl
  rw [hperform]
  dsimp only
  cases effect with
  | make manager free asked given granted made named =>
    obtain ⟨sink, rfl⟩ := h.eq_layered manager
    rw [Step.occurrence?_of_made asked named made, Sink.layerMarks_pass, granted.layerMarks_eq,
      Allocator.depth_layered, Option.toList_some, List.flatMap_singleton]
  | refuse manager asked given refused told =>
    obtain ⟨rfl, rfl⟩ | ⟨rfl, rfl⟩ := told
    · rfl
    · refine Trail.layerMarks_eq_nil fun event mem => ?_
      rw [Trail.events_ofEvents] at mem
      rw [List.mem_singleton.1 mem, Manager.isOfLayer_refusal]
  | giveBack manager found asked given ends =>
    obtain ⟨sink, rfl⟩ := h.eq_layered manager
    have moved : step.movement? s.heap (some .done) = some .returned :=
      congrArg (Option.map fun _ => Movement.returned) given
    rw [Step.occurrence?_of_givenBack given, Sink.layerMarks_pass, Allocator.released_layered,
      Allocator.layerMarks_releaseRecord, moved]
    exact (List.flatMap_singleton _ _).symm
  | hold found asked given held =>
    rw [Step.occurrence?_eq_none asked given held.ne_report]
    rfl
  | redirect failing manager asked given redirects =>
    rw [Step.occurrence?_eq_none asked given (by simp [redirects])]
    rfl
  | still asked given quiet silent reports =>
    rw [Trail.layerMarks_eq_nil fun _ he => absurd (quiet ▸ he) List.not_mem_nil]
    by_cases report : step.op = .report
    · obtain ⟨_, _, rfl, rfl⟩ := reports report
      simp only [Step.occurrence?, if_pos report]
      cases s.ledger? step.index <;> rfl
    · rw [Step.occurrence?_eq_none asked given report]
      rfl

/-! ## Runs -/

/-- **The stream of a stack is that of its outermost layer alone**, each line written once for every
layer and each report once. -/
theorem diagnostics_outer {s : Session} {i : Nat} {p : Setup} {l : Ledger}
    (h : s.HasLedger i p l) (steps : List Step) :
    s.diagnostics i steps = (s.outer.diagnostics i steps).flatMap (Line.repeated p.layers) := by
  induction steps generalizing s l with
  | nil => rfl
  | cons step rest ih =>
    obtain ⟨hsession, hlines⟩ := perform_outer s step
    rw [diagnostics, diagnostics, List.flatMap_append]
    dsimp only
    rw [ih (hasLedger_perform h step), hsession]
    refine congrArg (· ++ _) ?_
    split
    · rename_i hindex
      subst hindex
      apply hlines
      intro m manager
      obtain ⟨sink, rfl⟩ := h.eq_layered manager
      exact Allocator.depth_layered p.base l p.layers
    · rfl

/-- **The layers of a stack stay in step.** The stream of a run from the start is the one of the
outermost layer alone with each line written once for every layer and each report once. In every
state that the run reaches, all layers have the ledger of the manager. What they record in a step
through the manager is what they record of its occurrence, an allocation from the innermost layer to
the outermost and a release from the outermost to the innermost, each with the live count that the
ledger has after the step. -/
theorem run_start_stacked {setups : List Setup} {i : Nat} {p : Setup} (setup : setups[i]? = some p)
    (tracking : 0 < p.layers) (steps : List Step) :
    let s := start setups
    let single := start (setups.map Setup.outer)
    s.diagnostics i steps = (single.diagnostics i steps).flatMap (Line.repeated p.layers) ∧
      ∀ k, let reached := (s.run (steps.take k)).1
        ∃ m l, reached.managers[i]? = some m ∧ reached.ledger? i = some l ∧
          m.allocator.ledgers = List.replicate p.layers l ∧
          ∀ step, steps[k]? = some step → step.index = i →
            ∃ entry l', (s.run steps).2[k]? = some entry ∧ entry.ledger = some l' ∧
              entry.trail.layerMarks = (step.occurrence? reached.heap entry).toList.flatMap
                (Occurrence.marks p.layers l'.liveAllocations) := by
  intro s single
  constructor
  · rw [diagnostics_outer (hasLedger_start setup), outer_start]
  · intro k reached
    have h := hasLedger_run (hasLedger_start setup) (steps.take k)
    have hledger := h.ledger?_eq
    obtain ⟨sink, manager⟩ := h
    refine ⟨_, _, manager, hledger.trans (if_pos tracking), Allocator.ledgers_layered _ _ _, ?_⟩
    rintro step hstep rfl
    have h := hasLedger_run (hasLedger_start setup) (steps.take k)
    have after := (hasLedger_perform h step).ledger?_eq
    refine ⟨(reached.perform step).2, _, ?_, ?_, layerMarks_perform h⟩
    · rw [getElem?_run, hstep]
      rfl
    · rw [perform_ledger, after, if_pos tracking]

/-- Three layers around a base with a limit record an array, a report and a release, and not what the
base refuses. -/
theorem run_start_stacked_three :
    let setups : List Setup := [⟨Base.unbounded.limited 64, 3, .writer false⟩]
    let steps : List Step :=
      [⟨0, .allocate (.array 4 3) .result .caller, some ⟨"a"⟩⟩,
        ⟨0, .allocate (.block 65) .option .caller, some ⟨"b"⟩⟩, ⟨0, .report, none⟩,
        ⟨0, .release (some ⟨"a"⟩) .boundary, none⟩]
    let alloc : Line := .alloc 12 ⟨"a"⟩ .caller
    let free : Line := .free ⟨"a"⟩ .boundary
    (start setups).diagnostics 0 steps =
        [alloc, alloc, alloc, .stats ⟨12, 1⟩, free, free, free] ∧
      (∃ m, ((start setups).run steps).1.managers[0]? = some m ∧
        m.allocator.ledgers = [⟨12, 0⟩, ⟨12, 0⟩, ⟨12, 0⟩]) ∧
      ∃ entry, ((start setups).run steps).2[3]? = some entry ∧ entry.trail.layerMarks =
        [⟨some 2, .trackedRelease ⟨"a"⟩ .boundary 0⟩, ⟨some 1, .trackedRelease ⟨"a"⟩ .boundary 0⟩,
          ⟨some 0, .trackedRelease ⟨"a"⟩ .boundary 0⟩] := by
  intro setups steps alloc free
  obtain ⟨written, reached⟩ :=
    run_start_stacked (show setups[0]? = some ⟨Base.unbounded.limited 64, 3, .writer false⟩ from rfl)
      (show 0 < 3 by decide) steps
  obtain ⟨m, l, manager, hledger, ledgers, -⟩ := reached 4
  obtain rfl : ⟨12, 0⟩ = l := Option.some.inj hledger
  obtain ⟨-, -, -, -, -, recorded⟩ := reached 3
  obtain ⟨entry, l', shown, after, marks⟩ := recorded _ rfl rfl
  obtain rfl : _ = entry := Option.some.inj shown
  obtain rfl : ⟨12, 0⟩ = l' := Option.some.inj after
  refine ⟨?_, ⟨m, manager, ledgers⟩, _, shown, marks⟩
  rw [written]
  rfl

end Session

end TrackedHeap
