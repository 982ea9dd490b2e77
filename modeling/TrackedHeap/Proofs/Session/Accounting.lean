import TrackedHeap.Proofs.Session.Effect
import TrackedHeap.Proofs.Session.Setup
import TrackedHeap.Proofs.Tracking.Layers
import TrackedHeap.Proofs.Tracking.Movement

/-!
# Ledgers over runs

* `Step.movement?` : how a step moves the ledger of the manager that it goes through, read off what
  was asked and what the caller was told;
* `Session.movements` : the history of one manager in a run of them all;
* `Session.HasLedger` : a manager that stands in its layers, each with the same ledger;
* `hasLedger_perform`, `hasLedger_run` : a step, and a run, replays its movements in that ledger;
* `ledger?_run_start` : from its start, a ledger adds up the history of its manager.
-/

namespace TrackedHeap.Session

/-! ## Movements -/

/-- How a step moves the ledger of its manager. Memory is taken when the caller is told of a new
block or string, and given back when a release of something is done. -/
def Step.movement? (step : Step) (heap : Heap) : Option Reply → Option Movement
  | some .block => (step.op.asked? heap).map .taken
  | some (.string _) => (step.op.asked? heap).map .taken
  | some .done => step.op.givenBack?.map fun _ => .returned
  | _ => none

/-- How a step moves the ledger of the manager at an index. -/
def movement? (s : Session) (index : Nat) (step : Step) : Option Movement :=
  if step.index = index then step.movement? s.heap (s.perform step).2.reply else none

def movements (s : Session) (index : Nat) : List Step → List Movement
  | [] => []
  | step :: rest => (s.movement? index step).toList ++ (s.perform step).1.movements index rest

theorem length_movements_le (s : Session) (index : Nat) (steps : List Step) :
    (s.movements index steps).length ≤ steps.length := by
  induction steps generalizing s with
  | nil => exact Nat.le_refl 0
  | cons step rest ih =>
    have hrest := ih (s.perform step).1
    have hone : (s.movement? index step).toList.length ≤ 1 := by
      cases s.movement? index step <;> simp
    rw [movements, List.length_append, List.length_cons]
    omega

theorem movements_append (s : Session) (index : Nat) (first second : List Step) :
    s.movements index (first ++ second) =
      s.movements index first ++ (s.run first).1.movements index second := by
  induction first generalizing s with
  | nil => rfl
  | cons step rest ih => rw [List.cons_append, movements, ih, movements, run_cons, List.append_assoc]

theorem Step.movement?_eq_none {step : Step} {heap : Heap} (asked : step.op.asked? heap = none)
    (given : step.op.givenBack? = none) (reply : Option Reply) :
    step.movement? heap reply = none := by
  unfold Step.movement?
  rw [asked, given]
  split <;> rfl

theorem Step.movement?_of_made {step : Step} {heap : Heap} {name : Address} {r : Request}
    {slot : Slot} {reply : Reply} (asked : step.op.asked? heap = some r.exact)
    (made : Made name r slot reply) : step.movement? heap (some reply) = some (.taken r.exact) := by
  cases made with
  | block => exact congrArg (Option.map Movement.taken) asked
  | string => exact congrArg (Option.map Movement.taken) asked

/-! ## Steps -/

/-- The manager at an index has the base and the layers of a setup, all with the given ledger. -/
def HasLedger (s : Session) (index : Nat) (p : Setup) (l : Ledger) : Prop :=
  ∃ sink, s.managers[index]? = some ⟨.layered p.base l p.layers, sink⟩

theorem HasLedger.ledger?_eq {s : Session} {index : Nat} {p : Setup} {l : Ledger}
    (h : s.HasLedger index p l) : s.ledger? index = if 0 < p.layers then some l else none := by
  obtain ⟨sink, manager⟩ := h
  rw [ledger?, manager]
  exact Allocator.ledger?_layered p.base l p.layers

theorem HasLedger.eq_layered {s : Session} {index : Nat} {p : Setup} {l : Ledger} {m : Manager}
    (h : s.HasLedger index p l) (manager : s.managers[index]? = some m) :
    ∃ sink, m = ⟨.layered p.base l p.layers, sink⟩ := by
  obtain ⟨sink, manager'⟩ := h
  exact ⟨sink, Option.some.inj (manager.symm.trans manager')⟩

theorem hasLedger_set_self {s : Session} {index : Nat} {m : Manager}
    (manager : s.managers[index]? = some m) (heap : Heap) (p : Setup) (l : Ledger) (sink : Sink) :
    HasLedger ⟨heap, s.managers.set index ⟨.layered p.base l p.layers, sink⟩⟩ index p l := by
  obtain ⟨hindex, _⟩ := List.getElem?_eq_some_iff.1 manager
  exact ⟨sink, List.getElem?_set_self hindex⟩

/-- **A step replays its movement in every ledger of the manager that it goes through**, and in no
other. -/
theorem hasLedger_perform {s : Session} {index : Nat} {p : Setup} {l : Ledger}
    (h : s.HasLedger index p l) (step : Step) :
    (s.perform step).1.HasLedger index p (l.replay (s.movement? index step).toList) := by
  rw [movement?]
  by_cases hindex : step.index = index
  · subst hindex
    rw [if_pos rfl]
    obtain hperform | ⟨o, effect, hperform⟩ := s.perform_cases step
    · rw [hperform]
      exact h
    rw [hperform]
    dsimp only
    cases effect with
    | make manager free asked given granted made =>
      rw [Step.movement?_of_made asked made]
      obtain ⟨sink, rfl⟩ := h.eq_layered manager
      obtain ⟨rfl, -⟩ := granted.layered_eq
      rw [← Request.ofNat_exact]
      exact hasLedger_set_self manager _ p _ sink
    | refuse manager asked given refused told =>
      obtain ⟨rfl, -⟩ | ⟨rfl, -⟩ := told
      · exact h
      · exact h
    | giveBack manager found asked given ends =>
      have moved : step.movement? s.heap (some .done) = some .returned :=
        congrArg (Option.map fun _ => Movement.returned) given
      rw [moved]
      obtain ⟨sink, rfl⟩ := h.eq_layered manager
      rw [Allocator.released_layered]
      exact hasLedger_set_self manager _ p _ sink
    | hold found asked given held =>
      rw [Step.movement?_eq_none asked given]
      exact h
    | redirect failing manager asked given =>
      rw [Step.movement?_eq_none asked given]
      obtain ⟨sink, rfl⟩ := h.eq_layered manager
      exact hasLedger_set_self manager _ p _ _
    | still asked given quiet =>
      rw [Step.movement?_eq_none asked given]
      exact h
  · -- A step through another manager leaves this one as it is.
    rw [if_neg hindex]
    obtain ⟨sink, manager⟩ := h
    exact ⟨sink, (getElem?_managers_perform s hindex).trans manager⟩

/-! ## Runs -/

theorem hasLedger_run {s : Session} {index : Nat} {p : Setup} {l : Ledger}
    (h : s.HasLedger index p l) (steps : List Step) :
    (s.run steps).1.HasLedger index p (l.replay (s.movements index steps)) := by
  induction steps generalizing s l with
  | nil => exact h
  | cons step rest ih =>
    rw [movements, Ledger.replay_append]
    exact ih (hasLedger_perform h step)

theorem hasLedger_start {setups : List Setup} {i : Nat} {p : Setup} (setup : setups[i]? = some p) :
    (start setups).HasLedger i p .empty := by
  refine ⟨p.sink, ?_⟩
  rw [start, List.getElem?_map, setup, ← Allocator.stack_eq_layered]
  rfl

/-- The ledger of a manager after a run from the start, from the totals of its history. -/
theorem ledger?_run_start_eq {setups : List Setup} {i : Nat} {p : Setup}
    (setup : setups[i]? = some p) (tracking : 0 < p.layers) (steps : List Step) :
    ((start setups).run steps).1.ledger? i =
      some ⟨UInt64.ofNat (Movement.totalBytes ((start setups).movements i steps)),
        Int64.ofInt (Movement.balance ((start setups).movements i steps))⟩ := by
  have hrun := (hasLedger_run (hasLedger_start setup) steps).ledger?_eq
  rw [hrun, if_pos tracking, Ledger.replay_eq, Ledger.empty, UInt64.zero_add, Int64.zero_add]

/-- **A ledger is the account of its manager's history**, whatever else the run does: the exact
number of bytes taken modulo `2 ^ 64`, and how much more often memory was taken than given back, as
a signed word. While the bytes fit in the word, they are exact and never fewer than before. -/
theorem ledger?_run_start {setups : List Setup} {i : Nat} {p : Setup}
    (setup : setups[i]? = some p) (tracking : 0 < p.layers) (steps : List Step) :
    let history := (start setups).movements i steps
    ∃ ledger, ((start setups).run steps).1.ledger? i = some ledger ∧
      ledger.cumulativeBytes.toNat = Movement.totalBytes history % 2 ^ 64 ∧
      ledger.liveAllocations =
        Int64.ofInt (Movement.takings history - Movement.returns history) ∧
      (Movement.totalBytes history < 2 ^ 64 →
        ledger.cumulativeBytes.toNat = Movement.totalBytes history ∧
          ∀ (k : Nat) (earlier : Ledger),
            ((start setups).run (steps.take k)).1.ledger? i = some earlier →
              earlier.cumulativeBytes ≤ ledger.cumulativeBytes) := by
  intro history
  refine ⟨_, ledger?_run_start_eq setup tracking steps, UInt64.toNat_ofNat', rfl, fun hfits => ?_⟩
  have hexact : (UInt64.ofNat (Movement.totalBytes history)).toNat = Movement.totalBytes history :=
    UInt64.toNat_ofNat_of_lt' hfits
  refine ⟨hexact, fun k earlier hearlier => ?_⟩
  rw [ledger?_run_start_eq setup tracking] at hearlier
  obtain rfl := Option.some.inj hearlier
  -- The history up to step `k` is the start of the whole one.
  have hsplit : history =
      (start setups).movements i (steps.take k) ++
        ((start setups).run (steps.take k)).1.movements i (steps.drop k) := by
    rw [← movements_append, List.take_append_drop]
  have hle : Movement.totalBytes ((start setups).movements i (steps.take k)) ≤
      Movement.totalBytes history := by
    rw [hsplit, Movement.totalBytes_append]
    exact Nat.le_add_right _ _
  rw [UInt64.le_iff_toNat_le, UInt64.toNat_ofNat_of_lt' (Nat.lt_of_le_of_lt hle hfits)]
  exact Nat.le_trans hle (Nat.le_of_eq hexact.symm)

/-- A ledger that takes an array and a string, and is given back a block of another manager. -/
theorem ledger?_run_start_mixed :
    let setups : List Setup := [⟨.unbounded, 2, .standardError⟩, ⟨.unbounded, 0, .standardError⟩]
    let steps : List Step :=
      [⟨0, .allocate (.array 4 3) .result .caller, some ⟨"a"⟩⟩,
        ⟨1, .allocate (.block 7) .option .caller, some ⟨"b"⟩⟩,
        ⟨0, .makeString (.text ⟨[104, 105], by decide, by decide⟩), some ⟨"c"⟩⟩,
        ⟨0, .release (some ⟨"b"⟩) .caller, none⟩]
    ∃ ledger, ((start setups).run steps).1.ledger? 0 = some ledger ∧
      ledger.cumulativeBytes.toNat = 15 ∧ ledger.liveAllocations = 1 := by
  intro setups steps
  have history : (start setups).movements 0 steps = [.taken 12, .taken 3, .returned] := rfl
  obtain ⟨ledger, hledger, -, hlive, hfits⟩ :=
    ledger?_run_start (show setups[0]? = some ⟨.unbounded, 2, .standardError⟩ from rfl)
      (show 0 < 2 by decide) steps
  rw [history] at hlive hfits
  refine ⟨ledger, hledger, (hfits ?_).1, hlive⟩
  decide

end TrackedHeap.Session
