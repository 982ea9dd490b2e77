import TrackedHeap.Proofs.Session.Diagnostics
import TrackedHeap.Proofs.Session.Parallel

/-!
# Managers do not interfere

What a manager does in a run depends on its own steps alone, as long as no other step names the
memory that they name.

* `own i steps` : the steps that go through one manager, in their order;
* `Separate` : steps through different managers name different addresses;
* `SameFor i used s t` : sessions in which one manager and the memory at some addresses are the same;
* `sameFor_perform`, `SameFor.perform_left` : a step through the manager shows the same in both and
  keeps them so, and so does a step elsewhere in one of them;
* `run_alone` : a manager shows in a run what it shows in a run of its own steps alone;
* `run_start_interleaved` : the order in which the steps of different managers follow one another
  does not matter to any of them.
-/

namespace TrackedHeap.Session

/-- The steps through the manager at an index. -/
def own (i : Nat) (steps : List Step) : List Step :=
  steps.filter (·.index = i)

/-- No address is named by steps through different managers. -/
def Separate (steps : List Step) : Prop :=
  ∀ step ∈ steps, ∀ other ∈ steps, step.index ≠ other.index →
    ∀ a ∈ step.addresses, a ∉ other.addresses

instance (steps : List Step) : Decidable (Separate steps) :=
  inferInstanceAs (Decidable (∀ step ∈ steps, ∀ other ∈ steps, step.index ≠ other.index →
    ∀ a ∈ step.addresses, a ∉ other.addresses))

theorem mem_own {i : Nat} {steps : List Step} {step : Step} :
    step ∈ own i steps ↔ step ∈ steps ∧ step.index = i := by
  rw [own, List.mem_filter, decide_eq_true_iff]

theorem own_cons_self (step : Step) (rest : List Step) :
    own step.index (step :: rest) = step :: own step.index rest :=
  List.filter_cons_of_pos (decide_eq_true rfl)

theorem own_cons_of_ne {i : Nat} {step : Step} (other : step.index ≠ i) (rest : List Step) :
    own i (step :: rest) = own i rest :=
  List.filter_cons_of_neg (by simpa using other)

/-! ## Sessions that are the same for a manager -/

/-- The manager at an index is the same in two sessions, and so is the memory at some addresses. -/
structure SameFor (i : Nat) (used : List Address) (s t : Session) : Prop where
  manager : s.managers[i]? = t.managers[i]?
  heap : Heap.AgreeOn used s.heap t.heap

variable {s t : Session} {i : Nat} {used : List Address}

theorem SameFor.refl (i : Nat) (used : List Address) (s : Session) : SameFor i used s s :=
  ⟨rfl, fun _ _ => rfl⟩

theorem SameFor.ledger?_eq (same : SameFor i used s t) : s.ledger? i = t.ledger? i := by
  rw [ledger?, ledger?, same.manager]

theorem SameFor.set (same : SameFor i used s t) {h h' : Heap} (heap : Heap.AgreeOn used h h')
    (m : Manager) :
    SameFor i used ⟨h, s.managers.set i m⟩ ⟨h', t.managers.set i m⟩ := by
  refine ⟨?_, heap⟩
  dsimp only
  rw [List.getElem?_set_self', List.getElem?_set_self', same.manager]

/-- Parallel outcomes through one and the same manager are the same for it. -/
theorem SameFor.parallel {step : Step} {m : Manager} {o o' : Outcome}
    (same : SameFor step.index used s t) (parallel : Parallel s t step m m o o') :
    o.reply = o'.reply ∧ o.trail = o'.trail ∧ SameFor step.index used o.session o'.session := by
  cases parallel with
  | make granted granted' =>
    obtain ⟨rfl, rfl⟩ := granted.unique granted'
    exact ⟨rfl, rfl, same.set (same.heap.insert _ _) _⟩
  | giveBack a => exact ⟨rfl, rfl, same.set (same.heap.erase a) _⟩
  | hold a slot reply => exact ⟨rfl, rfl, same.manager, same.heap.update a fun _ => slot⟩
  | redirect failing redirects => exact ⟨rfl, rfl, same.set same.heap _⟩
  | still reply quiet => exact ⟨rfl, rfl, same⟩
  | tell reads told => exact ⟨told rfl, rfl, same⟩
  | report => exact ⟨rfl, rfl, same⟩

/-- **A step shows the same in two sessions that are the same for its manager.** -/
theorem sameFor_perform {step : Step} (same : SameFor step.index used s t)
    (named : ∀ a ∈ step.addresses, a ∈ used) :
    (s.perform step).2 = (t.perform step).2 ∧
      SameFor step.index used (s.perform step).1 (t.perform step).1 := by
  cases left : s.managers[step.index]? with
  | none =>
    rw [perform_of_no_manager left, perform_of_no_manager (same.manager ▸ left), rejection,
      rejection, same.ledger?_eq]
    exact ⟨rfl, same⟩
  | some m =>
    have alike : Alike s t step m m :=
      ⟨left, same.manager ▸ left, same.heap.mono named, rfl, rfl⟩
    obtain ⟨hs, ht⟩ | ⟨o, o', parallel, hs, ht⟩ := perform_parallel alike
    · rw [hs, ht, rejection, rejection, same.ledger?_eq]
      exact ⟨rfl, same⟩
    · obtain ⟨hreply, htrail, after⟩ := same.parallel parallel
      rw [hs, ht, hreply, htrail, after.ledger?_eq]
      exact ⟨rfl, after⟩

/-- A step elsewhere leaves the manager and its memory as they were. -/
theorem SameFor.perform_left {step : Step} (same : SameFor i used s t) (other : step.index ≠ i)
    (foreign : ∀ a ∈ step.addresses, a ∉ used) : SameFor i used (s.perform step).1 t := by
  constructor
  · rw [getElem?_managers_perform s other, same.manager]
  · intro a ha
    rw [find?_perform s fun named => foreign a named ha]
    exact same.heap a ha

/-! ## Runs -/

/-- **A manager shows in a run what it shows in a run of its own steps alone.** -/
theorem run_alone {steps : List Step} (same : SameFor i used s t)
    (named : ∀ step ∈ steps, step.index = i → ∀ a ∈ step.addresses, a ∈ used)
    (foreign : ∀ step ∈ steps, step.index ≠ i → ∀ a ∈ step.addresses, a ∉ used) :
    s.shown (·.index = i) steps = (t.run (own i steps)).2 ∧
      SameFor i used (s.run steps).1 (t.run (own i steps)).1 := by
  induction steps generalizing s t with
  | nil => exact ⟨rfl, same⟩
  | cons step rest ih =>
    have named' := fun other hother => named other (List.mem_cons_of_mem step hother)
    have foreign' := fun other hother => foreign other (List.mem_cons_of_mem step hother)
    rw [run_cons]
    by_cases hindex : step.index = i
    · subst hindex
      obtain ⟨hentry, after⟩ := sameFor_perform same (named step List.mem_cons_self rfl)
      obtain ⟨hshown, last⟩ := ih after named' foreign'
      rw [shown_cons_of_pos s (decide_eq_true rfl), own_cons_self, run_cons, hentry, hshown]
      exact ⟨rfl, last⟩
    · have after := same.perform_left hindex (foreign step List.mem_cons_self hindex)
      rw [shown_cons_of_neg s (decide_eq_false hindex), own_cons_of_ne hindex]
      exact ih after named' foreign'

/-- Memory at an address that no step names stays as it is. -/
theorem find?_run_of_unnamed {steps : List Step} {a : Address}
    (unnamed : ∀ step ∈ steps, a ∉ step.addresses) :
    (s.run steps).1.heap.find? a = s.heap.find? a := by
  induction steps generalizing s with
  | nil => rfl
  | cons step rest ih =>
    rw [run_cons, ih fun other hother => unnamed other (List.mem_cons_of_mem step hother),
      find?_perform s (unnamed step List.mem_cons_self)]

/-- The addresses that the steps through a manager name. -/
def namedBy (i : Nat) (steps : List Step) : List Address :=
  (own i steps).flatMap Step.addresses

theorem mem_namedBy {i : Nat} {steps : List Step} {a : Address} :
    a ∈ namedBy i steps ↔ ∃ step ∈ steps, step.index = i ∧ a ∈ step.addresses := by
  simp only [namedBy, List.mem_flatMap, mem_own, and_assoc]

/-- Among separate steps, a manager shows what it shows alone. -/
theorem Separate.run_alone {steps : List Step} (separate : Separate steps) (s : Session) (i : Nat) :
    s.shown (·.index = i) steps = (s.run (own i steps)).2 ∧
      SameFor i (namedBy i steps) (s.run steps).1 (s.run (own i steps)).1 := by
  apply Session.run_alone (SameFor.refl i _ s)
  · intro step hstep hindex a ha
    exact mem_namedBy.2 ⟨step, hstep, hindex, ha⟩
  · intro step hstep hindex a ha used
    obtain ⟨other, hother, rfl, ha'⟩ := mem_namedBy.1 used
    exact separate step hstep other hother hindex a ha ha'

theorem mem_of_own_eq {steps steps' : List Step} (orders : ∀ i, own i steps = own i steps')
    {step : Step} (h : step ∈ steps') : step ∈ steps := by
  have hown := mem_own.2 ⟨h, rfl⟩
  rw [← orders step.index] at hown
  exact (mem_own.1 hown).1

/-- A step leaves on no other stream a line. -/
theorem diagnostics_take_succ {steps : List Step} {k : Nat} {step : Step}
    (hstep : steps[k]? = some step) (other : step.index ≠ i) :
    s.diagnostics i (steps.take (k + 1)) = s.diagnostics i (steps.take k) := by
  rw [List.take_add_one, hstep, diagnostics_eq_shown, diagnostics_eq_shown, shown_append,
    Option.toList_some, shown_cons_of_neg _ (decide_eq_false other), shown, List.append_nil]

/-- **Managers do not interfere.** When the steps through different managers name different memory,
then in any two orders that keep the order of each manager's own steps, every manager shows in each
of its steps the same reply, the same record and the same ledger; and in the end all managers are the
same, with the ledgers of all their layers, and all memory. A step leaves all other managers as they
were, and their streams, and the memory that their steps name. -/
theorem run_start_interleaved (setups : List Setup) (steps steps' : List Step)
    (separate : Separate steps) (orders : ∀ i, own i steps = own i steps') :
    let s := start setups
    (∀ i, s.shown (·.index = i) steps = s.shown (·.index = i) steps') ∧
      (s.run steps).1.managers = (s.run steps').1.managers ∧
      (∀ a, (s.run steps).1.heap.find? a = (s.run steps').1.heap.find? a) ∧
      ∀ (k : Nat) (step : Step) (i : Nat), steps[k]? = some step → step.index ≠ i →
        let before := (s.run (steps.take k)).1
        let after := (s.run (steps.take (k + 1))).1
        after.managers[i]? = before.managers[i]? ∧
          s.diagnostics i (steps.take (k + 1)) = s.diagnostics i (steps.take k) ∧
          ∀ a ∈ namedBy i steps, after.heap.find? a = before.heap.find? a := by
  intro s
  have separate' : Separate steps' := fun step hstep other hother =>
    separate step (mem_of_own_eq orders hstep) other (mem_of_own_eq orders hother)
  have alone := separate.run_alone s
  have alone' := separate'.run_alone s
  refine ⟨fun i => ?_, List.ext_getElem? fun i => ?_, fun a => ?_, ?_⟩
  · rw [(alone i).1, (alone' i).1, orders i]
  · rw [(alone i).2.manager, (alone' i).2.manager, orders i]
  · by_cases unnamed : ∀ step ∈ steps, a ∉ step.addresses
    · have unnamed' : ∀ step ∈ steps', a ∉ step.addresses :=
        fun step hstep => unnamed step (mem_of_own_eq orders hstep)
      rw [find?_run_of_unnamed unnamed, find?_run_of_unnamed unnamed']
    · -- Some step names the address, and its manager alone decides what is there.
      push Not at unnamed
      obtain ⟨step, hstep, ha⟩ := unnamed
      have used : a ∈ namedBy step.index steps := mem_namedBy.2 ⟨step, hstep, rfl, ha⟩
      have used' : a ∈ namedBy step.index steps' := by
        rw [namedBy, ← orders]
        exact used
      rw [(alone step.index).2.heap a used, (alone' step.index).2.heap a used', orders]
  · intro k step i hstep other before after
    have hafter : after = (before.perform step).1 := run_take_succ hstep
    refine ⟨?_, diagnostics_take_succ hstep other, fun a ha => ?_⟩
    · rw [hafter, getElem?_managers_perform before other]
    · obtain ⟨owner, howner, rfl, hnamed⟩ := mem_namedBy.1 ha
      rw [hafter, find?_perform before fun named =>
        separate step (List.mem_of_getElem? hstep) owner howner other a named hnamed]

/-- One manager joins a string with itself, is refused a block and reports, and the other takes and
gives back an array, step by step in turns or one after the other. -/
theorem run_start_interleaved_pair :
    let setups : List Setup :=
      [⟨Base.unbounded.limited 16, 2, .writer false⟩, ⟨.unbounded, 1, .standardError⟩]
    let string : Step := ⟨0, .makeString (.text ⟨[104, 105], by decide, by decide⟩), some ⟨"a"⟩⟩
    let joined : Step := ⟨0, .concat (.held ⟨"a"⟩) (.held ⟨"a"⟩), some ⟨"b"⟩⟩
    let refused : Step := ⟨0, .allocate (.block 17) .option .caller, some ⟨"c"⟩⟩
    let report : Step := ⟨0, .report, none⟩
    let array : Step := ⟨1, .allocate (.array 4 3) .result .caller, some ⟨"x"⟩⟩
    let release : Step := ⟨1, .release (some ⟨"x"⟩) .caller, none⟩
    let steps := [string, array, joined, refused, release, report]
    let steps' := [array, release, string, joined, refused, report]
    let s := start setups
    (Separate steps ∧ ∀ i, own i steps = own i steps') ∧
      s.shown (·.index = 0) steps' = s.shown (·.index = 0) steps ∧
      (s.run steps').1.ledger? 0 = some ⟨8, 2⟩ ∧ (s.run steps').1.ledger? 1 = some ⟨12, 0⟩ := by
  intro setups string joined refused report array release steps steps' s
  have separate : Separate steps := by decide
  have orders : ∀ i, own i steps = own i steps' := by
    intro i
    match i with
    | 0 => rfl
    | 1 => rfl
    | i + 2 => rfl
  obtain ⟨shown, managers, -, -⟩ := run_start_interleaved setups steps steps' separate orders
  refine ⟨⟨separate, orders⟩, (shown 0).symm, ?_, ?_⟩
  · rw [ledger?, ← managers]
    rfl
  · rw [ledger?, ← managers]
    rfl

end TrackedHeap.Session
