import TrackedHeap.Proofs.Program.Effect
import TrackedHeap.Proofs.Session.Refusal
import TrackedHeap.Proofs.Session.Setup

/-!
# Calls that are refused

* `Call.array?` : the array that a call asks for;
* `Program.Fails` : a call that gives back null and an error on record;
* `Program.Atomic` : a call that asks for memory fails with the errors that its base has to refuse
  with and with no other, and a failed one leaves nothing but that event;
* `Program.atomic_of_asked?` : all calls that ask for memory are so, in every program;
* `fails_exactly_when_refused` : the same for the calls of a program and the steps of a session.
-/

namespace TrackedHeap

/-- The array that a call asks for. -/
def Call.array? : Call → Option (Size × Size)
  | .allocArray elementSize count => some (elementSize, count)
  | _ => none

namespace Call
variable {heap : Heap} {call : Call} {debugFunctions : Bool}

theorem array?_of_request? {r : Request} (h : call.request? debugFunctions heap = some r) :
    call.array? = r.array? := by
  cases call with
  | malloc size =>
    obtain rfl := Option.some.inj h
    rfl
  | allocArray elementSize count =>
    obtain rfl := Option.some.inj h
    rfl
  | debugMalloc size file line =>
    rw [request?] at h
    split at h
    · obtain ⟨_, _, rfl⟩ := Option.map_eq_some_iff.1 h
      rfl
    · cases h
  | _ => cases h

theorem array?_of_texts? {parts : List CText} (h : call.texts? heap = some parts) :
    call.array? = none := by
  cases call with
  | allocString => rfl
  | concatString => rfl
  | _ => cases h

end Call

namespace Program

/-- The call gives back null and puts an error on record. -/
def Fails (p : Program) (s : Statement) (e : AllocError) : Prop :=
  (p.perform s).2.answer = some .null ∧
    ∃ event ∈ (p.perform s).2.trail.events, event.error? = some e

/-- A call that asks a base for bytes fails exactly when it must and leaves no trace when it
fails. -/
structure Atomic (p : Program) (s : Statement) (b : Base) (bytes : Nat) : Prop where
  fails_iff : ∀ e, p.Fails s e ↔ b.Refuses bytes s.call.array? e
  /-- The heap, and the manager with its ledger, are as before. -/
  unchanged : ∀ e, p.Fails s e →
    (p.perform s).1 = p ∧ (p.perform s).2.trail.lines = [] ∧ (p.perform s).2.printed = []
  recorded : ∀ e, p.Fails s e →
    ∃ event, (p.perform s).2.trail.events = [event] ∧ event.level = .debug ∧ event.error? = some e
  made : (∀ e, ¬ p.Fails s e) →
    (p.perform s).2.answer = some .pointer ∨ ∃ bytes, (p.perform s).2.answer = some (.text bytes)

section
variable {p : Program} {s : Statement} {name : Address}

theorem statement?_of_named (named : s.name = some name) (free : p.heap.isFree name = true) :
    p.statement? s = p.call? (some name) s.call := by
  have hall : (some name).all p.heap.isFree = true := free
  rw [statement?, named, if_pos hall]

theorem perform_of_statement? {r : Returned} (h : p.statement? s = some r) :
    p.perform s = (r.program, ⟨some r.answer, r.printed, r.trail, r.program.manager.ledger?⟩) := by
  rw [perform, h]

section Request
variable {r : Request} {b : Base}

/-- A call that makes something does not fail, and its base did not have to refuse. -/
theorem atomic_of_granted {returned : Returned} (array : s.call.array? = r.array?)
    (grant : b.answers r = .ok ()) (h : p.statement? s = some returned)
    (made : returned.answer = .pointer ∨ ∃ bytes, returned.answer = .text bytes) :
    p.Atomic s b r.exact := by
  have hanswer : (p.perform s).2.answer = some returned.answer := by rw [perform_of_statement? h]
  have hfails : ∀ e, ¬ p.Fails s e := by
    rintro e ⟨hnull, -⟩
    rw [hanswer] at hnull
    obtain hpointer | ⟨bytes, htext⟩ := made
    · rw [hpointer] at hnull
      cases hnull
    · rw [htext] at hnull
      cases hnull
  refine ⟨fun e => ⟨fun h => absurd h (hfails e), fun refuses => ?_⟩, fun e h => absurd h (hfails e),
    fun e h => absurd h (hfails e), fun _ => ?_⟩
  · rw [array] at refuses
    have herror : b.answers r = .error e := Base.answers_eq_error_iff.2 refuses
    rw [grant] at herror
    cases herror
  · rw [hanswer]
    obtain hpointer | ⟨bytes, htext⟩ := made
    · exact .inl (congrArg some hpointer)
    · exact .inr ⟨bytes, congrArg some htext⟩

/-- A call that is refused fails with the error of the base alone and leaves the program. -/
theorem atomic_of_refused {e : AllocError} {event : Event} (array : s.call.array? = r.array?)
    (refused : b.answers r = .error e) (h : p.statement? s = some ⟨p, .null, [], .ofEvents [event]⟩)
    (told : event.error? = some e ∧ event.level = .debug) : p.Atomic s b r.exact := by
  have hperform := perform_of_statement? h
  have hrefuses : ∀ e', b.Refuses r.exact s.call.array? e' ↔ e = e' := by
    intro e'
    rw [array, ← Base.answers_eq_error_iff, refused, Except.error.injEq]
  have hfails : ∀ e', p.Fails s e' ↔ e = e' := by
    intro e'
    unfold Fails
    rw [hperform]
    simp [told.1]
  refine ⟨fun e' => (hfails e').trans (hrefuses e').symm, fun e' _ => ?_, fun e' he' => ?_,
    fun none => absurd ((hfails e).2 rfl) (none e)⟩
  · rw [hperform]
    exact ⟨rfl, rfl, rfl⟩
  · obtain rfl := (hfails e').1 he'
    rw [hperform]
    exact ⟨event, rfl, told.2, told.1⟩

end Request

/-- **A call that asks for memory fails exactly when it must, and leaves no trace when it
fails.** -/
theorem atomic_of_asked? {b : Base} {bytes : Nat} (under : p.manager.allocator.core = b.answers)
    (named : s.name = some name) (free : p.heap.isFree name = true)
    (asked : s.call.asked? p.debugFunctions p.heap = some bytes) : p.Atomic s b bytes := by
  have hstatement := statement?_of_named named free
  unfold Call.asked? at asked
  split at asked
  · rename_i r request
    obtain rfl := Option.some.inj asked
    have array := Call.array?_of_request? request
    rw [call?_of_request? request] at hstatement
    obtain ⟨allocator, t, granted⟩ | ⟨e, refused⟩ :=
      p.manager.allocator.granted_or_refused r name (s.call.location p.heap)
    · rw [allocate_of_granted free granted] at hstatement
      exact atomic_of_granted array (under ▸ granted.core_ok) hstatement (.inl rfl)
    · rw [allocate_of_refused refused] at hstatement
      exact atomic_of_refused array (under ▸ refused) hstatement ⟨rfl, rfl⟩
  · rename_i text rest _ texts
    obtain rfl := Option.some.inj asked
    have fits := Call.fits_of_texts? texts
    have array : s.call.array? = (Request.block (totalLength (text :: rest) + 1)).array? :=
      Call.array?_of_texts? texts
    have hexact : (Request.block (totalLength (text :: rest) + 1)).exact =
        (joinedBytes (text :: rest)).length + 1 := (toNat_totalLength_succ fits).2
    rw [call?_of_texts? texts] at hstatement
    rw [← hexact]
    obtain ⟨allocator, t, granted⟩ | ⟨e, refused⟩ :=
      p.manager.allocator.granted_or_refused (.block (totalLength (text :: rest) + 1)) name
        (s.call.location p.heap)
    · rw [build?_of_granted free (List.cons_ne_nil _ _) fits granted] at hstatement
      exact atomic_of_granted array (under ▸ granted.core_ok) hstatement (.inr ⟨_, rfl⟩)
    · rw [build?_of_refused (List.cons_ne_nil _ _) refused] at hstatement
      exact atomic_of_refused array (under ▸ refused) hstatement ⟨rfl, rfl⟩
  · cases asked

/-- Joining no text at all gives back null and asks for nothing, whatever the base. -/
theorem perform_of_texts?_nil (named : s.name = some name) (free : p.heap.isFree name = true)
    (texts : s.call.texts? p.heap = some []) :
    p.perform s = (p, ⟨some .null, [], .empty, p.manager.ledger?⟩) := by
  have hstatement := statement?_of_named named free
  rw [call?_of_texts? texts, build?_nil] at hstatement
  exact perform_of_statement? hstatement

end

end Program

/-- **Memory is refused exactly when it must be, and a refusal leaves everything as it was.** In any
state, an operation that asks for bytes fails with an overflow when no size can hold the bytes of
its array, with the exhaustion of the base under all layers when that does not accept their number,
and never otherwise. Steps of a session tell of it by an error or by nothing, calls of a program by
null. Joining no text at all neither fails nor asks for anything. -/
theorem fails_exactly_when_refused :
    (∀ (s : Session) (step : Session.Step) (m : Manager) (name : Address),
      s.managers[step.index]? = some m → step.name = some name → s.heap.isFree name = true →
        (∀ (b : Base) (bytes : Nat), m.allocator.core = b.answers →
          step.op.asked? s.heap = some bytes → s.Atomic step b bytes) ∧
        (step.op.texts? s.heap = some [] →
          s.perform step = (s, ⟨some .absent, .empty, s.ledger? step.index⟩))) ∧
    ∀ (p : Program) (s : Program.Statement) (name : Address),
      s.name = some name → p.heap.isFree name = true →
        (∀ (b : Base) (bytes : Nat), p.manager.allocator.core = b.answers →
          s.call.asked? p.debugFunctions p.heap = some bytes → p.Atomic s b bytes) ∧
        (s.call.texts? p.heap = some [] →
          p.perform s = (p, ⟨some .null, [], .empty, p.manager.ledger?⟩)) := by
  refine ⟨fun s step m name manager named free => ⟨fun b bytes under asked => ?_, fun texts => ?_⟩,
    fun p s name named free => ⟨fun b bytes under asked => ?_, fun texts => ?_⟩⟩
  · exact Session.atomic_of_asked? manager under named free asked
  · exact Session.perform_of_texts?_nil manager named free texts
  · exact Program.atomic_of_asked? under named free asked
  · exact Program.perform_of_texts?_nil named free texts

/-- Under two layers an overflow is found though the base refuses everything, and a program is given
null for a byte more than its base has. -/
theorem fails_exactly_when_refused_twice :
    (Session.start [⟨⟨fun _ => false⟩, 2, .standardError⟩]).Fails
      ⟨0, .allocate (.array 0x8000000000000000 2) .option .caller, some ⟨"a"⟩⟩
      (.sizeOverflow 0x8000000000000000 2) ∧
    (Program.start (Base.unbounded.limited 64) ⟨true⟩ none).1.Fails ⟨.malloc 65, some ⟨"a"⟩⟩
      (.outOfMemory 65) := by
  constructor
  · obtain ⟨hasked, -⟩ := fails_exactly_when_refused.1
      (Session.start [⟨⟨fun _ => false⟩, 2, .standardError⟩])
      ⟨0, .allocate (.array 0x8000000000000000 2) .option .caller, some ⟨"a"⟩⟩ _ ⟨"a"⟩ rfl rfl rfl
    exact ((hasked ⟨fun _ => false⟩ _ rfl rfl).fails_iff _).2 (.overflow rfl (by decide))
  · obtain ⟨hasked, -⟩ := fails_exactly_when_refused.2
      (Program.start (Base.unbounded.limited 64) ⟨true⟩ none).1 ⟨.malloc 65, some ⟨"a"⟩⟩ ⟨"a"⟩ rfl
      rfl
    exact ((hasked _ _ rfl rfl).fails_iff _).2 (.outOfMemory (by decide) (by decide))

end TrackedHeap
