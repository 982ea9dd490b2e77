import TrackedHeap.Proofs.Session.Accounting
import TrackedHeap.Proofs.Session.FailingWriter
import TrackedHeap.Proofs.Tracking.Story

/-!
# Events and lines of a session

* `Session.moments` : what a manager leaves on record in its steps, with the ledger after each;
* `follows_perform`, `chronicle_run` : a step, and a run, through a manager with a single layer is a
  story of its ledger;
* `leveled_moments` : what each level shows of a run is what it is for;
* `works_perform` : a sink goes on working unless it is made to fail;
* `matched_perform`, `matched_run` : while the sink works, events and lines go together in any number
  of layers.
-/

namespace TrackedHeap.Session

def Entry.moment (entry : Entry) : Moment :=
  ⟨entry.trail, entry.ledger⟩

/-- What the manager at an index leaves on record in its steps, with the ledger after each. -/
def moments (s : Session) (i : Nat) (steps : List Step) : List Moment :=
  (s.shown (·.index = i) steps).map Entry.moment

theorem lines_moments (s : Session) (i : Nat) (steps : List Step) :
    Moment.lines (s.moments i steps) = s.diagnostics i steps := by
  rw [diagnostics_eq_shown, Moment.lines, moments, List.flatMap_map]
  rfl

/-! ## A single layer -/

/-- **What a step leaves on record leads from one ledger to the next.** -/
theorem follows_perform {s : Session} {step : Step} {p : Setup} {l : Ledger}
    (h : s.HasLedger step.index p l) (single : p.layers = 1) :
    (s.perform step).2.moment.Follows l
      (l.replay (s.movement? step.index step).toList) := by
  have ledger : (s.perform step).2.ledger = _ :=
    (s.perform_ledger step).trans (hasLedger_perform h step).ledger?_eq
  rw [single, if_pos Nat.one_pos, movement?, if_pos rfl] at ledger
  rw [movement?, if_pos rfl, Entry.moment, ledger]
  obtain hperform | ⟨o, effect, hperform⟩ := s.perform_cases step
  · rw [hperform]
    exact .empty l
  rw [hperform]
  dsimp only
  cases effect with
  | make manager free asked given granted made =>
    obtain ⟨sink, rfl⟩ := h.eq_layered manager
    rw [single] at granted
    rw [Step.movement?_of_made asked made]
    obtain ⟨-, follows⟩ := granted.follows sink
    rw [← Request.ofNat_exact] at follows
    exact follows
  | refuse manager asked given refused told =>
    obtain ⟨rfl, rfl⟩ | ⟨rfl, rfl⟩ := told
    · exact .empty l
    · exact .of_refusal (Manager.error?_refusal _ _).1 l
  | giveBack manager found asked given ends =>
    obtain ⟨sink, rfl⟩ := h.eq_layered manager
    have moved : step.movement? s.heap (some .done) = some .returned :=
      congrArg (Option.map fun _ => Movement.returned) given
    rw [single, moved]
    exact Allocator.follows_released _ _ sink
  | hold found asked given =>
    rw [Step.movement?_eq_none asked given]
    exact .empty l
  | redirect failing manager asked given =>
    rw [Step.movement?_eq_none asked given]
    exact .empty l
  | still asked given quiet =>
    rw [Step.movement?_eq_none asked given]
    exact .of_events_eq_nil quiet l

theorem chronicle_run {s : Session} {i : Nat} {p : Setup} {l : Ledger} (h : s.HasLedger i p l)
    (single : p.layers = 1) (steps : List Step) : Chronicle l (s.moments i steps) := by
  induction steps generalizing s l with
  | nil => exact .nil l
  | cons step rest ih =>
    have after := hasLedger_perform h step
    rw [moments]
    by_cases hindex : step.index = i
    · subst hindex
      rw [shown_cons_of_pos s (decide_eq_true rfl)]
      exact .cons (follows_perform h single) (ih after)
    · rw [movement?, if_neg hindex] at after
      rw [shown_cons_of_neg s (decide_eq_false hindex)]
      exact ih after

/-! ## Levels -/

/-- **A step shows its overdrafts as warnings and its refusals one level below**, whatever the layers
and the sink. -/
theorem leveled_perform (s : Session) (step : Step) : (s.perform step).2.trail.Leveled := by
  obtain hperform | ⟨o, effect, hperform⟩ := s.perform_cases step
  · rw [hperform]
    exact Trail.leveled_of_events_eq_nil rfl
  rw [hperform]
  dsimp only
  cases effect with
  | make manager free asked given granted => exact granted.leveled.pass _
  | refuse manager asked given refused told =>
    obtain ⟨rfl, rfl⟩ | ⟨rfl, rfl⟩ := told
    · exact Trail.leveled_of_events_eq_nil rfl
    · exact Trail.leveled_refusal (Manager.error?_refusal _ _).1
  | giveBack => exact (Allocator.leveled_released _).pass _
  | hold => exact Trail.leveled_of_events_eq_nil rfl
  | redirect => exact Trail.leveled_of_events_eq_nil rfl
  | still asked given quiet => exact Trail.leveled_of_events_eq_nil quiet

theorem leveled_moments (s : Session) (i : Nat) (steps : List Step) :
    Moment.Leveled (s.moments i steps) := by
  refine Moment.leveled_of_trails fun m hm => ?_
  obtain ⟨entry, shown, rfl⟩ := List.mem_map.1 hm
  obtain ⟨s', step, rfl⟩ := exists_of_mem_shown shown
  exact leveled_perform s' step

/-! ## Sinks that work -/

theorem works_start {setups : List Setup} {i : Nat} {p : Setup} (setup : setups[i]? = some p)
    (working : p.sink.isWorking = true) : (start setups).works i = true := by
  rw [works, start, List.getElem?_map, setup]
  exact working

theorem isWorking_of_works {s : Session} {i : Nat} {m : Manager} (h : s.works i = true)
    (manager : s.managers[i]? = some m) : m.sink.isWorking = true := by
  rw [works, manager] at h
  exact h

theorem works_set_self {s : Session} {i : Nat} {m n : Manager} (manager : s.managers[i]? = some m)
    (working : n.sink.isWorking = true) (heap : Heap) :
    works ⟨heap, s.managers.set i n⟩ i = true := by
  unfold works
  rw [List.getElem?_set_self', manager]
  exact working

/-- A sink goes on working unless it is made to fail. -/
theorem works_perform {s : Session} {i : Nat} (h : s.works i = true) (step : Step)
    (kept : step.index = i → step.op ≠ .setFailing true) : (s.perform step).1.works i = true := by
  by_cases hindex : step.index = i
  · subst hindex
    obtain hperform | ⟨o, effect, hperform⟩ := s.perform_cases step
    · rw [hperform]
      exact h
    rw [hperform]
    cases effect with
    | make manager =>
      have working := isWorking_of_works h manager
      apply works_set_self manager
      exact working
    | refuse => exact h
    | giveBack manager =>
      have working := isWorking_of_works h manager
      apply works_set_self manager
      exact working
    | hold => exact h
    | redirect failing manager asked given redirects =>
      apply works_set_self manager
      cases failing with
      | true => exact absurd redirects (kept rfl)
      | false => rfl
    | still => exact h
  · unfold works
    rw [getElem?_managers_perform s hindex]
    exact h

/-- **While the sink works, the events and the lines of a step go together.** -/
theorem matched_perform {s : Session} {step : Step} (h : s.works step.index = true) :
    (s.perform step).2.trail.Matched := by
  obtain hperform | ⟨o, effect, hperform⟩ := s.perform_cases step
  · rw [hperform]
    exact Trail.matched_empty
  rw [hperform]
  dsimp only
  cases effect with
  | make manager free asked given granted =>
    rw [Sink.pass_of_isWorking (isWorking_of_works h manager)]
    exact granted.matched
  | refuse manager asked given refused told =>
    obtain ⟨rfl, rfl⟩ | ⟨rfl, rfl⟩ := told
    · exact Trail.matched_empty
    · exact Trail.matched_refusal (Manager.error?_refusal _ _).1
  | giveBack manager =>
    rw [Sink.pass_of_isWorking (isWorking_of_works h manager)]
    exact Allocator.matched_released _
  | hold => exact Trail.matched_empty
  | redirect => exact Trail.matched_empty
  | @still _ t asked given quiet silent reports =>
    by_cases report : step.op = .report
    · obtain ⟨m, manager, -, rfl⟩ := reports report
      rw [Manager.report, Allocator.report_eq_pass,
        Sink.pass_of_isWorking (isWorking_of_works h manager)]
      exact Allocator.matched_report _
    · show t.Matched
      rw [Trail.Matched, quiet, silent report]
      rfl

theorem matched_run {s : Session} {i : Nat} (h : s.works i = true) {steps : List Step}
    (kept : ∀ step ∈ steps, step.index = i → step.op ≠ .setFailing true) :
    ∀ m ∈ s.moments i steps, m.trail.Matched := by
  induction steps generalizing s with
  | nil => exact fun m hm => absurd hm List.not_mem_nil
  | cons step rest ih =>
    have later := ih (works_perform h step (kept step List.mem_cons_self))
      fun other hother => kept other (List.mem_cons_of_mem step hother)
    intro m hm
    rw [moments] at hm
    by_cases hindex : step.index = i
    · subst hindex
      rw [shown_cons_of_pos s (decide_eq_true rfl), List.map_cons] at hm
      obtain rfl | hm := List.mem_cons.1 hm
      · exact matched_perform h
      · exact later m hm
    · rw [shown_cons_of_neg s (decide_eq_false hindex)] at hm
      exact later m hm

end TrackedHeap.Session
