import TrackedHeap.Proofs.Session.Setup
import TrackedHeap.Proofs.Tracking.Bare

/-!
# Tracking is transparent

Taking the layers away from all managers of a session commutes with its steps, and so with its runs.

* `Session.bare` : the session with its managers bare;
* `Op.readsLedger` : the operations whose reply tells of a ledger, and `Op.bareReply` what they are
  told of a bare manager;
* `step?_bare`, `perform_bare`, `run_bare` : the commutation for a step and a run;
* `run_start_bare` : around any bases, any numbers of layers change no reply of any run but those
  that tell of a ledger, no memory, and nothing on record but what the layers leave there.
-/

namespace TrackedHeap

/-- An operation whose reply tells whether the manager keeps a ledger, or what stands in it. -/
def Op.readsLedger : Op → Bool
  | .ledger => true
  | .isTracking => true
  | .describeManager => true
  | _ => false

/-- The reply from a bare manager, when the one from the manager with its layers is given. -/
def Op.bareReply (op : Op) (reply : Reply) : Reply :=
  match op with
  | .ledger => .ledger none
  | .isTracking => .flag false
  | .describeManager => .text (Manager.fieldsOf none)
  | _ => reply

theorem Op.bareReply_of_not_readsLedger {op : Op} (h : op.readsLedger = false) (reply : Reply) :
    op.bareReply reply = reply := by
  unfold bareReply
  split
  · cases h
  · cases h
  · cases h
  · rfl

namespace Session

/-- The session with the layers of all managers taken away. -/
def bare (s : Session) : Session :=
  { s with managers := s.managers.map Manager.bare }

/-- The outcome of an operation, with the layers and their record taken away. -/
def bareOutcome (op : Op) (o : Outcome) : Outcome :=
  ⟨o.session.bare, op.bareReply o.reply, o.trail.bare⟩

theorem after_bare (s : Session) (index : Nat) {α : Type} (result : After α) :
    s.bare.after index result.bare = (s.after index result).bare := by
  simp only [after, bare, After.bare, List.map_set]

/-! ## Steps -/

variable (s : Session) (index : Nat) (m : Manager)

theorem allocate_bare (request : Request) (form : Form) (location : Location) (name : Address) :
    s.bare.allocate index m.bare request form location name =
      bareOutcome (.allocate request form location)
        (s.allocate index m request form location name) := by
  have hheap : s.bare.heap = s.heap := rfl
  cases form with
  | option => simp only [allocate, hheap, Manager.tryRequest_bare, after_bare]; rfl
  | result => simp only [allocate, hheap, Manager.request_bare, after_bare]; rfl

theorem release_bare (target : Option Address) (location : Location) (op : Op)
    (h : op.readsLedger = false) :
    s.bare.release index m.bare target location =
      bareOutcome op (s.release index m target location) := by
  have hheap : s.bare.heap = s.heap := rfl
  simp only [release, hheap, Manager.release_bare, after_bare, bareOutcome,
    Op.bareReply_of_not_readsLedger h]
  rfl

theorem build?_bare (name : Address) (result : After (Except AllocError (Option Size))) (op : Op)
    (h : op.readsLedger = false) :
    s.bare.build? index name result.bare = (s.build? index name result).map (bareOutcome op) := by
  have hreply : stringReply? result.bare.heap name result.bare.value =
      stringReply? result.heap name result.value := rfl
  unfold build?
  rw [hreply, after_bare]
  cases stringReply? result.heap name result.value with
  | none => rfl
  | some reply =>
    refine congrArg some ?_
    rw [bareOutcome, Op.bareReply_of_not_readsLedger h]
    rfl

/-- Looking something up that is the same for both, and then going on alike. -/
theorem bind_bare {α : Type} (found? : Option α) {next next' : α → Option Outcome} {op : Op}
    (goOn : ∀ found, next found = (next' found).map (bareOutcome op)) :
    found? >>= next = (found? >>= next').map (bareOutcome op) := by
  cases found? with
  | none => rfl
  | some found => exact goOn found

/-- **An operation does the same through a bare manager.** -/
theorem through?_bare (name : Option Address) (op : Op) :
    s.bare.through? index m.bare name op = (s.through? index m name op).map (bareOutcome op) := by
  have hheap : s.bare.heap = s.heap := rfl
  cases op with
  | allocate request form location =>
    exact bind_bare name fun name =>
      congrArg some (s.allocate_bare index m request form location name)
  | release target location =>
    rw [through?, through?, hheap]
    split
    · exact congrArg some (s.release_bare index m target location _ rfl)
    · rfl
  | makeString source =>
    rw [through?, through?, hheap]
    refine bind_bare name fun name => bind_bare _ fun text => ?_
    rw [Manager.makeString_bare]
    exact s.build?_bare index name _ _ rfl
  | concat first second =>
    rw [through?, through?, hheap]
    refine bind_bare name fun name => bind_bare _ fun a => bind_bare _ fun b => ?_
    rw [Manager.concat_bare]
    exact s.build?_bare index name _ _ rfl
  | compare first second =>
    rw [through?, through?, hheap]
    exact bind_bare _ fun a => bind_bare _ fun b => rfl
  | describe target =>
    rw [through?, through?, hheap]
    exact bind_bare _ fun view => rfl
  | releaseString target =>
    rw [through?, through?, hheap]
    refine bind_bare _ fun slot => ?_
    split
    · exact congrArg some (s.release_bare index m (some target) .caller _ rfl)
    · rfl
  | intoRaw target =>
    rw [through?, through?, hheap]
    exact bind_bare _ fun heap => rfl
  | rawToBlock target =>
    rw [through?, through?, hheap]
    exact bind_bare _ fun heap => rfl
  | rawToString target =>
    rw [through?, through?, hheap]
    exact bind_bare _ fun heap => bind_bare _ fun view => rfl
  | convertNull => rfl
  | write target offset bytes =>
    rw [through?, through?, hheap]
    exact bind_bare _ fun heap => rfl
  | read target offset length =>
    rw [through?, through?, hheap]
    exact bind_bare _ fun slot => bind_bare _ fun cells => rfl
  | size target =>
    rw [through?, through?, hheap]
    exact bind_bare _ fun slot => rfl
  | distinct first second =>
    rw [through?, through?, hheap]
    exact bind_bare _ fun a => bind_bare _ fun b => rfl
  | ledger => rfl
  | report =>
    rw [through?, through?, Manager.report_bare]
    rfl
  | isTracking => rfl
  | describeManager => rfl
  | setFailing failing =>
    have hsink : m.bare.sink = m.sink := rfl
    rw [through?, through?, hsink]
    rcases m.sink with _ | _
    · rfl
    · have hset : { s.bare with
            managers := s.bare.managers.set index { m.bare with sink := .writer failing } } =
          bare { s with managers := s.managers.set index { m with sink := .writer failing } } := by
        simp only [bare, List.map_set]
        rfl
      exact congrArg (fun t => some (Outcome.mk t .done .empty)) hset

theorem step?_bare (step : Step) :
    s.bare.step? step = (s.step? step).map (bareOutcome step.op) := by
  have hheap : s.bare.heap = s.heap := rfl
  have hmanagers : s.bare.managers[step.index]? = s.managers[step.index]?.map Manager.bare := by
    rw [bare, List.getElem?_map]
  rw [step?, step?, hheap]
  split
  · rw [operate?, operate?, hmanagers]
    rcases s.managers[step.index]? with _ | m
    · rfl
    · exact s.through?_bare step.index m step.name step.op
  · rfl

/-! ## Runs -/

/-- The entry of an operation, with the ledger, and what layers tell and leave on record, taken
away. -/
def bareEntry (op : Op) (entry : Entry) : Entry :=
  ⟨entry.reply.map op.bareReply, entry.trail.bare, none⟩

theorem ledger?_bare : s.bare.ledger? index = none := by
  rw [ledger?, bare, List.getElem?_map]
  rcases s.managers[index]? with _ | m <;> rfl

theorem perform_bare (step : Step) :
    s.bare.perform step = ((s.perform step).1.bare, bareEntry step.op (s.perform step).2) := by
  rw [perform, perform, step?_bare]
  rcases s.step? step with _ | o
  · rw [rejection, ledger?_bare]
    rfl
  · simp only [Option.map_some, bareOutcome, ledger?_bare]
    rfl

theorem run_bare (steps : List Step) :
    s.bare.run steps =
      ((s.run steps).1.bare,
        List.zipWith (fun step entry => bareEntry step.op entry) steps (s.run steps).2) := by
  induction steps generalizing s with
  | nil => rfl
  | cons step rest ih =>
    rw [run_cons, perform_bare, ih, run_cons, List.zipWith_cons_cons]

theorem start_bare (setups : List Setup) :
    start (setups.map Setup.bare) = (start setups).bare := by
  simp only [start, bare, List.map_map]
  congr 1
  apply List.map_congr_left
  intro p _
  change (⟨.base p.base.answers, p.sink⟩ : Manager) =
    ⟨.base (Allocator.stack p.base p.layers).core, p.sink⟩
  rw [Allocator.core_stack]

/-- **Tracking is transparent.** Of the run over bases in any numbers of layers and the run over the
bases alone, each step is told the same, unless it asks for the ledger; what is on record differs by
what the layers leave there; and the memory in use, with all it holds, is the same. -/
theorem run_start_bare (setups : List Setup) (steps : List Step) :
    let tracked := (start setups).run steps
    let plain := (start (setups.map Setup.bare)).run steps
    plain.1.heap = tracked.1.heap ∧
      plain.2.length = steps.length ∧ tracked.2.length = steps.length ∧
      ∀ (k : Nat) (step : Step) (entry entry' : Entry), steps[k]? = some step →
        tracked.2[k]? = some entry → plain.2[k]? = some entry' →
          (step.op.readsLedger = false → entry'.reply = entry.reply) ∧
            entry'.trail = entry.trail.bare := by
  intro tracked plain
  have hplain : plain = (tracked.1.bare,
      List.zipWith (fun step entry => bareEntry step.op entry) steps tracked.2) := by
    change (start (setups.map Setup.bare)).run steps = _
    rw [start_bare, run_bare]
  refine ⟨by rw [hplain]; rfl, length_run _ steps, length_run _ steps, ?_⟩
  intro k step entry entry' hstep hentry hentry'
  obtain rfl : bareEntry step.op entry = entry' := by
    rw [hplain, List.getElem?_zipWith, hstep, hentry] at hentry'
    exact Option.some.inj hentry'
  refine ⟨fun hop => ?_, rfl⟩
  rw [bareEntry]
  rcases entry.reply with _ | reply
  · rfl
  · exact congrArg some (Op.bareReply_of_not_readsLedger hop reply)

/-- What an allocator of small blocks refuses in two layers, it refuses alone. -/
theorem run_start_bare_refused :
    let setups : List Setup := [⟨Base.unbounded.limited 16, 2, .standardError⟩]
    let steps : List Step :=
      [⟨0, .allocate (.block 16) .result .caller, some ⟨"a"⟩⟩,
        ⟨0, .allocate (.block 17) .result .caller, some ⟨"b"⟩⟩]
    ∃ entry, ((start (setups.map Setup.bare)).run steps).2[1]? = some entry ∧
      entry.reply = some (.refused (.outOfMemory 17)) := by
  intro setups steps
  obtain ⟨-, -, -, heach⟩ := run_start_bare setups steps
  refine ⟨_, rfl, ?_⟩
  obtain ⟨hreply, -⟩ := heach 1 _ _ _ rfl rfl rfl
  exact hreply rfl

end Session

end TrackedHeap
