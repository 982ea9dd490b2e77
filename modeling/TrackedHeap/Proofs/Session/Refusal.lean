import TrackedHeap.Proofs.Session.Effect
import TrackedHeap.Proofs.Tracking.Refusal

/-!
# Steps that are refused

* `Op.form`, `Op.array?` : how an operation tells of a failure, and the array that it asks for;
* `Session.Fails` : a step whose caller is told of an error, by a reply or by an event;
* `Session.Atomic` : a step that asks for memory fails with the errors that its base has to refuse
  with and with no other, and a failed one leaves nothing but the event of its form;
* `atomic_of_asked?` : all steps that ask a base for memory are so, in every session and any layers;
* `perform_of_texts?_nil` : joining no text at all makes nothing and asks for nothing.
-/

namespace TrackedHeap

namespace Op

/-- How an operation tells of a refusal. Only plain memory can be asked for without an error. -/
def form : Op → Form
  | .allocate _ form _ => form
  | _ => .result

/-- The array that an operation asks for. -/
def array? : Op → Option (Size × Size)
  | .allocate request _ _ => request.array?
  | _ => none

theorem form_of_texts? {heap : Heap} {op : Op} {parts : List CText}
    (h : op.texts? heap = some parts) : op.form = .result := by
  unfold form
  split
  · cases h
  · rfl

theorem array?_of_texts? {heap : Heap} {op : Op} {parts : List CText}
    (h : op.texts? heap = some parts) : op.array? = none := by
  unfold array?
  split
  · cases h
  · rfl

end Op

namespace Session

/-- The caller is told of an error: by the reply, or by nothing as the reply and the error in an
event. -/
def Fails (s : Session) (step : Step) (e : AllocError) : Prop :=
  match step.op.form with
  | .result => (s.perform step).2.reply = some (.refused e)
  | .option => (s.perform step).2.reply = some .absent ∧
      ∃ event ∈ (s.perform step).2.trail.events, event.error? = some e

/-- A step that asks a base for bytes fails exactly when it must and leaves no trace when it
fails. -/
structure Atomic (s : Session) (step : Step) (b : Base) (bytes : Nat) : Prop where
  fails_iff : ∀ e, s.Fails step e ↔ b.Refuses bytes step.op.array? e
  /-- The heap, and all managers with the ledgers of all their layers, are as before. -/
  unchanged : ∀ e, s.Fails step e →
    (s.perform step).1 = s ∧ (s.perform step).2.trail.lines = []
  recorded : ∀ e, s.Fails step e →
    match step.op.form with
    | .result => (s.perform step).2.trail.events = []
    | .option => ∃ event, (s.perform step).2.trail.events = [event] ∧ event.level = .debug ∧
        event.error? = some e
  made : (∀ e, ¬ s.Fails step e) →
    (s.perform step).2.reply = some .block ∨ ∃ view, (s.perform step).2.reply = some (.string view)

section
variable {s : Session} {step : Step} {m : Manager} {name : Address}

theorem step?_of_named (manager : s.managers[step.index]? = some m) (named : step.name = some name)
    (free : s.heap.isFree name = true) :
    s.step? step = s.through? step.index m (some name) step.op := by
  have hall : (some name).all s.heap.isFree = true := free
  rw [step?, named, if_pos hall, operate?, manager]
  rfl

theorem perform_of_step? {o : Outcome} (h : s.step? step = some o) :
    s.perform step = (o.session, ⟨some o.reply, o.trail, o.session.ledger? step.index⟩) := by
  rw [perform, h]

/-- The step that joins texts is a call that may make a string. -/
theorem step?_of_texts? {parts : List CText} (manager : s.managers[step.index]? = some m)
    (named : step.name = some name) (free : s.heap.isFree name = true)
    (texts : step.op.texts? s.heap = some parts) :
    s.step? step = s.build? step.index name (m.assembled s.heap parts name .caller) := by
  rw [step?_of_named manager named free]
  unfold Op.texts? at texts
  split at texts
  · rename_i source hop
    obtain ⟨text, htext, rfl⟩ := Option.map_eq_some_iff.1 texts
    rw [hop, through?, ← Manager.makeString_eq_assembled]
    simp only [Option.bind_eq_bind, Option.bind_some, htext]
  · rename_i first second hop
    obtain ⟨a, ha, texts⟩ := Option.bind_eq_some_iff.1 texts
    obtain ⟨b, hb, rfl⟩ := Option.map_eq_some_iff.1 texts
    rw [hop, through?, ← Manager.concat_eq_assembled]
    simp only [Option.bind_eq_bind, Option.bind_some, ha, hb]
  · cases texts

theorem Fails.eq_of_reply {e : AllocError} (h : s.Fails step e) :
    (s.perform step).2.reply = some .absent ∨ (s.perform step).2.reply = some (.refused e) := by
  unfold Fails at h
  split at h
  · exact .inr h
  · exact .inl h.1

section Request
variable {r : Request} {b : Base}

/-- A step that makes something does not fail, and its base did not have to refuse. -/
theorem atomic_of_granted {o : Outcome} (array : step.op.array? = r.array?)
    (grant : b.answers r = .ok ()) (h : s.step? step = some o)
    (made : o.reply = .block ∨ ∃ view, o.reply = .string view) : s.Atomic step b r.exact := by
  have hreply : (s.perform step).2.reply = some o.reply := by rw [perform_of_step? h]
  have hfails : ∀ e, ¬ s.Fails step e := by
    intro e hfails
    have htold := hfails.eq_of_reply
    rw [hreply] at htold
    obtain hblock | ⟨view, hstring⟩ := made
    · rw [hblock] at htold
      simp at htold
    · rw [hstring] at htold
      simp at htold
  refine ⟨fun e => ⟨fun h => absurd h (hfails e), fun refuses => ?_⟩, fun e h => absurd h (hfails e),
    fun e h => absurd h (hfails e), fun _ => ?_⟩
  · rw [array] at refuses
    have herror : b.answers r = .error e := Base.answers_eq_error_iff.2 refuses
    rw [grant] at herror
    cases herror
  · rw [hreply]
    obtain hblock | ⟨view, hstring⟩ := made
    · exact .inl (congrArg some hblock)
    · exact .inr ⟨view, congrArg some hstring⟩

/-- A step that is refused fails with the error of the base alone and leaves the session. -/
theorem atomic_of_refused {e : AllocError} {reply : Reply} {events : List Event}
    (array : step.op.array? = r.array?) (refused : b.answers r = .error e)
    (h : s.step? step = some ⟨s, reply, .ofEvents events⟩)
    (told : match step.op.form with
      | .result => reply = .refused e ∧ events = []
      | .option => reply = .absent ∧ events = [Manager.refusal r e]) :
    s.Atomic step b r.exact := by
  obtain ⟨hrefusal, hlevel⟩ := Manager.error?_refusal r e
  have hperform := perform_of_step? h
  have hrefuses : ∀ e', b.Refuses r.exact step.op.array? e' ↔ e = e' := by
    intro e'
    rw [array, ← Base.answers_eq_error_iff, refused, Except.error.injEq]
  have hfails : ∀ e', s.Fails step e' ↔ e = e' := by
    intro e'
    unfold Fails
    rw [hperform]
    dsimp only
    split at told <;> obtain ⟨rfl, rfl⟩ := told
    · simp
    · simp [hrefusal]
  refine ⟨fun e' => (hfails e').trans (hrefuses e').symm, fun e' _ => ?_, fun e' he' => ?_,
    fun none => absurd ((hfails e).2 rfl) (none e)⟩
  · rw [hperform]
    exact ⟨rfl, rfl⟩
  · obtain rfl := (hfails e').1 he'
    rw [hperform]
    split at told <;> obtain ⟨rfl, rfl⟩ := told
    · rfl
    · exact ⟨_, rfl, hlevel, hrefusal⟩

end Request

/-- **A step that asks for memory fails exactly when it must, and leaves no trace when it
fails.** -/
theorem atomic_of_asked? {b : Base} {bytes : Nat} (manager : s.managers[step.index]? = some m)
    (under : m.allocator.core = b.answers) (named : step.name = some name)
    (free : s.heap.isFree name = true) (asked : step.op.asked? s.heap = some bytes) :
    s.Atomic step b bytes := by
  unfold Op.asked? at asked
  split at asked
  · rename_i request form location hop
    obtain rfl := Option.some.inj asked
    have hstep : s.step? step = some (s.allocate step.index m request form location name) := by
      rw [step?_of_named manager named free, hop]
      rfl
    have array : step.op.array? = request.array? := by rw [hop]; rfl
    have hform : step.op.form = form := by rw [hop]; rfl
    obtain ⟨allocator, t, granted⟩ | ⟨e, refused⟩ :=
      m.allocator.granted_or_refused request name location
    · rw [allocate_of_granted form granted] at hstep
      exact atomic_of_granted array (under ▸ granted.core_ok) hstep (.inl rfl)
    · rw [allocate_of_refused form manager refused] at hstep
      rw [under] at refused
      cases form with
      | option => exact atomic_of_refused array refused hstep (by rw [hform]; exact ⟨rfl, rfl⟩)
      | result => exact atomic_of_refused array refused hstep (by rw [hform]; exact ⟨rfl, rfl⟩)
  · split at asked
    · rename_i text rest texts
      obtain rfl := Option.some.inj asked
      have fits := Op.fits_of_texts? texts
      have hstep := step?_of_texts? manager named free texts
      have array := Op.array?_of_texts? texts
      have hform := Op.form_of_texts? texts
      have hexact : (Request.block (totalLength (text :: rest) + 1)).exact =
          (joinedBytes (text :: rest)).length + 1 := (toNat_totalLength_succ fits).2
      rw [← hexact]
      obtain ⟨allocator, t, granted⟩ | ⟨e, refused⟩ :=
        m.allocator.granted_or_refused (.block (totalLength (text :: rest) + 1)) name .caller
      · rw [build?_of_granted free (List.cons_ne_nil _ _) fits granted] at hstep
        exact atomic_of_granted array (under ▸ granted.core_ok) hstep (.inr ⟨_, rfl⟩)
      · rw [build?_of_refused manager (List.cons_ne_nil _ _) refused] at hstep
        rw [under] at refused
        exact atomic_of_refused array refused hstep (by rw [hform]; exact ⟨rfl, rfl⟩)
    · cases asked

/-- Joining no text at all makes nothing and asks for nothing, whatever the base. -/
theorem perform_of_texts?_nil (manager : s.managers[step.index]? = some m)
    (named : step.name = some name) (free : s.heap.isFree name = true)
    (texts : step.op.texts? s.heap = some []) :
    s.perform step = (s, ⟨some .absent, .empty, s.ledger? step.index⟩) := by
  have hstep := step?_of_texts? manager named free texts
  rw [build?_nil manager] at hstep
  exact perform_of_step? hstep

end

end Session

end TrackedHeap
