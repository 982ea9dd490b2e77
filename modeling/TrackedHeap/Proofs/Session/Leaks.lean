import TrackedHeap.Proofs.Session.Ownership

/-!
# Leaks and overdrawn ledgers

In a run of fewer than `2 ^ 63` steps no live count wraps, so it is the balance of its manager's
history.

* `Session.live` : the live count of a manager as a number;
* `toInt_liveAllocations_eq_balance` : it is exact;
* `overdrawn_mem_perform` : a step warns when it is a release after which the count is negative;
* `toInt_liveAllocations_eq_outstanding` : the count of a manager that is given back only its own is
  what is outstanding of it;
* `sum_live_eq_length` : the counts of all managers add up to the memory in use;
* `liveAllocations_run_start` : leaks are found, and none is reported that is not there.
-/

namespace TrackedHeap

theorem Allocator.overdrawn_mem_releaseTrail {sink : Sink} {layer : Nat} {l : Ledger} {a : Address}
    {location : Location} {live : Int64} :
    .ledgerOverdrawn live ∈ (releaseTrail sink layer l a location).events ↔
      l.liveAllocations = live ∧ live < 0 := by
  have written : (emit sink (.free a location)).events = [] := rfl
  rw [releaseTrail, Trail.events_append, Trail.events_ofLayer, written, List.append_nil]
  by_cases h : l.liveAllocations < 0
  · have hoverdrawn : l.isOverdrawn = true := decide_eq_true h
    rw [if_pos hoverdrawn]
    simp only [List.singleton_append, List.mem_cons, Event.ledgerOverdrawn.injEq, reduceCtorEq,
      List.not_mem_nil, or_false]
    constructor
    · rintro rfl
      exact ⟨rfl, h⟩
    · rintro ⟨rfl, -⟩
      rfl
  · have hoverdrawn : ¬ l.isOverdrawn = true := fun h' => h (of_decide_eq_true h')
    rw [if_neg hoverdrawn]
    constructor
    · intro warned
      rcases List.mem_singleton.1 warned
    · rintro ⟨rfl, h'⟩
      exact absurd h' h

namespace Session

/-! ## Ledgers of a run -/

theorem length_managers_run_start (setups : List Setup) (steps : List Step) :
    ((start setups).run steps).1.managers.length = setups.length := by
  have hkeeps : ∀ (s : Session) (step : Step), s.managers.length = setups.length →
      (s.perform step).1.managers.length = setups.length := by
    intro s step hs
    rw [length_managers_perform, hs]
  exact run_keeps hkeeps (List.length_map _) steps

theorem setup_of_ledger? {setups : List Setup} {steps : List Step} {i : Nat} {ledger : Ledger}
    (h : ((start setups).run steps).1.ledger? i = some ledger) :
    ∃ p, setups[i]? = some p ∧ 0 < p.layers := by
  obtain ⟨m, manager, -⟩ := Option.bind_eq_some_iff.1 h
  have hi := index_lt_of_manager manager
  rw [length_managers_run_start] at hi
  have setup : setups[i]? = some setups[i] := List.getElem?_eq_getElem hi
  refine ⟨setups[i], setup, Nat.pos_of_ne_zero fun hzero => ?_⟩
  have hnone := (hasLedger_run (hasLedger_start setup) steps).ledger?_eq
  rw [h, hzero] at hnone
  cases hnone

/-- A live count does not wrap in fewer than `2 ^ 63` steps. -/
theorem toInt_liveAllocations_eq_balance {setups : List Setup} {steps : List Step}
    (short : steps.length < 2 ^ 63) {i : Nat} {ledger : Ledger}
    (h : ((start setups).run steps).1.ledger? i = some ledger) :
    ledger.liveAllocations.toInt = Movement.balance ((start setups).movements i steps) := by
  obtain ⟨p, setup, tracking⟩ := setup_of_ledger? h
  rw [ledger?_run_start_eq setup tracking] at h
  obtain rfl := Option.some.inj h
  have hmovements := (start setups).length_movements_le i steps
  have hbalance := Movement.natAbs_balance_le ((start setups).movements i steps)
  apply Int64.toInt_ofInt_of_le
  · omega
  · omega

/-! ## Warnings -/

/-- A warning is on record when a release leaves the ledger of the manager that takes it
overdrawn. -/
theorem Effect.overdrawn_mem {s : Session} {step : Step} {o : Outcome} (effect : Effect s step o)
    (layered : ∀ m, s.managers[step.index]? = some m → ∃ p l, s.HasLedger step.index p l)
    (live : Int64) :
    .ledgerOverdrawn live ∈ o.trail.events ↔
      o.reply = .done ∧ step.op.givenBack?.isSome = true ∧
        ∃ ledger, o.session.ledger? step.index = some ledger ∧
          ledger.liveAllocations = live ∧ live < 0 := by
  cases effect with
  | make manager free asked given granted made =>
    rw [given]
    obtain ⟨p, l, h⟩ := layered _ manager
    obtain ⟨sink, rfl⟩ := h.eq_layered manager
    obtain ⟨-, rfl⟩ := granted.layered_eq
    rw [Sink.events_pass]
    simp [Trail.events, Allocator.allocationRecord]
  | refuse manager asked given refused told =>
    rw [given]
    obtain ⟨-, rfl⟩ | ⟨-, rfl⟩ := told
    · simp
    · unfold Manager.refusal
      split <;> simp
  | @giveBack _ a _ manager found asked given ends =>
    obtain ⟨p, l, h⟩ := layered _ manager
    obtain ⟨sink, rfl⟩ := h.eq_layered manager
    have hledger :=
      (hasLedger_set_self manager (s.heap.erase a) p l.recordRelease sink).ledger?_eq
    rw [Allocator.released_layered, given]
    dsimp only
    rw [hledger, Sink.events_pass, Allocator.mem_events_releaseRecord,
      Allocator.overdrawn_mem_releaseTrail]
    by_cases tracking : 0 < p.layers
    · simp [tracking]
    · simp [tracking]
  | hold found asked given held =>
    rw [given]
    simp
  | redirect failing manager asked given =>
    rw [given]
    simp
  | still asked given quiet =>
    rw [given, quiet]
    simp

/-- Every step of a run warns when it is a release after which its own ledger is overdrawn. -/
theorem overdrawn_mem_perform {setups : List Setup} (steps : List Step) (step : Step)
    (live : Int64) :
    let entry := (((start setups).run steps).1.perform step).2
    .ledgerOverdrawn live ∈ entry.trail.events ↔
      entry.reply = some .done ∧ step.op.givenBack?.isSome = true ∧
        ∃ ledger, entry.ledger = some ledger ∧ ledger.liveAllocations = live ∧ live < 0 := by
  intro entry
  obtain hperform | ⟨o, effect, hperform⟩ := ((start setups).run steps).1.perform_cases step
  · have hentry : entry = _ := congrArg Prod.snd hperform
    rw [hentry]
    simp [rejection]
  · have hentry : entry = _ := congrArg Prod.snd hperform
    rw [hentry]
    dsimp only
    rw [effect.overdrawn_mem, Option.some.injEq]
    intro m manager
    have hi := index_lt_of_manager manager
    rw [length_managers_run_start] at hi
    exact ⟨_, _, hasLedger_run (hasLedger_start (List.getElem?_eq_getElem hi)) steps⟩

/-! ## Live counts -/

/-- The live count of a manager as a number, zero where none is kept. -/
def live (s : Session) (index : Nat) : Int :=
  ((s.ledger? index).map fun ledger => ledger.liveAllocations.toInt).getD 0

/-- The makers of memory before any is made. -/
def Owners.none : Owners := fun _ => .none

/-- **What a manager counts is what is outstanding of it**, if it is given back only its own. -/
theorem toInt_liveAllocations_eq_outstanding {setups : List Setup} {steps : List Step}
    (short : steps.length < 2 ^ 63) (own : (start setups).ReturnsOwn .none steps) {i : Nat}
    {ledger : Ledger} (h : ((start setups).run steps).1.ledger? i = some ledger) :
    ledger.liveAllocations.toInt =
      ((start setups).run steps).1.outstanding ((start setups).owners .none steps) i := by
  have hbalance := balance_add_outstanding (s := start setups) List.nodup_nil own i
  have hstart : (start setups).outstanding .none i = 0 := rfl
  rw [hstart] at hbalance
  rw [toInt_liveAllocations_eq_balance short h, ← hbalance]
  exact (add_zero _).symm

/-- **The counts of all managers add up to the memory in use**, whoever gives it back. -/
theorem sum_live_eq_length {setups : List Setup} {steps : List Step}
    (short : steps.length < 2 ^ 63) (tracking : ∀ p ∈ setups, 0 < p.layers) :
    ∑ i ∈ Finset.range setups.length, ((start setups).run steps).1.live i =
      ((start setups).run steps).1.heap.length := by
  have hsum := sum_balance_add_length (s := start setups) List.nodup_nil steps
  have hlength : (start setups).managers.length = setups.length := List.length_map _
  have hstart : (start setups).heap.length = 0 := rfl
  rw [hlength, hstart] at hsum
  rw [← hsum]
  refine (Finset.sum_congr rfl fun i hi => ?_).trans (add_zero _).symm
  rw [Finset.mem_range] at hi
  have setup : setups[i]? = some setups[i] := List.getElem?_eq_getElem hi
  have hledger := ledger?_run_start_eq setup (tracking _ (List.getElem_mem hi)) steps
  rw [live, hledger]
  exact toInt_liveAllocations_eq_balance short hledger

/-- A ledger of a manager that is given back only its own is never overdrawn. -/
theorem overdrawn_not_mem_perform {setups : List Setup} {steps : List Step}
    (short : steps.length < 2 ^ 63) (own : (start setups).ReturnsOwn .none steps) {k : Nat}
    {step : Step} (hstep : steps[k]? = some step) (live : Int64) :
    .ledgerOverdrawn live ∉
      (((start setups).run (steps.take k)).1.perform step).2.trail.events := by
  intro warned
  -- A warning shows a negative count, but what is outstanding is a number of addresses.
  obtain ⟨-, -, ledger, hledger, rfl, hlive⟩ := (overdrawn_mem_perform _ _ _).1 warned
  rw [perform_ledger, ← run_take_succ hstep] at hledger
  have hlength : (steps.take (k + 1)).length < 2 ^ 63 := by
    rw [List.length_take]
    omega
  have hcount := toInt_liveAllocations_eq_outstanding hlength (own.take (k + 1)) hledger
  rw [Int64.lt_iff_toInt_lt, hcount] at hlive
  exact absurd hlive (Int.not_lt.2 (Int.natCast_nonneg _))

/-- **Leaks are found, and none is reported that is not there.** When every manager is given back
only what it made, each live count is the memory in use that its manager made, so a balanced ledger
is one of which nothing is outstanding, and no step warns. When memory is given back to any manager
and all keep a ledger, their live counts add up to the memory in use, and the steps that warn are
the releases after which the count of the manager that takes them is negative. -/
theorem liveAllocations_run_start (setups : List Setup) (steps : List Step)
    (short : steps.length < 2 ^ 63) :
    let run := (start setups).run steps
    let owner := (start setups).owners .none steps
    run.1.heap.addresses.Nodup ∧
      ((start setups).ReturnsOwn .none steps →
        (∀ (i : Nat) (p : Setup), setups[i]? = some p → 0 < p.layers →
          ∃ ledger, run.1.ledger? i = some ledger ∧
            ledger.liveAllocations.toInt = run.1.outstanding owner i ∧
            (ledger.isBalanced = true ↔ run.1.outstanding owner i = 0)) ∧
        ∀ entry ∈ run.2, ∀ live, .ledgerOverdrawn live ∉ entry.trail.events) ∧
      ((∀ p ∈ setups, 0 < p.layers) →
        ∑ i ∈ Finset.range setups.length, run.1.live i = run.1.heap.length ∧
        ∀ (k : Nat) (step : Step) (entry : Entry), steps[k]? = some step →
          run.2[k]? = some entry →
            ((∃ live, .ledgerOverdrawn live ∈ entry.trail.events) ↔
              entry.reply = some .done ∧ step.op.givenBack?.isSome = true ∧
                ∃ ledger, entry.ledger = some ledger ∧ ledger.liveAllocations.toInt < 0)) := by
  intro run owner
  refine ⟨nodup_run_start setups steps, fun own => ⟨?_, ?_⟩, fun tracking => ⟨?_, ?_⟩⟩
  · intro i p setup layers
    have hledger := ledger?_run_start_eq setup layers steps
    have hcount := toInt_liveAllocations_eq_outstanding short own hledger
    refine ⟨_, hledger, hcount, ?_⟩
    rw [Ledger.isBalanced, beq_iff_eq, ← Int64.toInt_inj, hcount, Int64.toInt_zero]
    exact Int.natCast_eq_zero
  · intro entry hentry live
    obtain ⟨k, hk⟩ := List.mem_iff_getElem?.1 hentry
    rw [getElem?_run] at hk
    obtain ⟨step, hstep, rfl⟩ := Option.map_eq_some_iff.1 hk
    exact overdrawn_not_mem_perform short own hstep live
  · exact sum_live_eq_length short tracking
  · intro k step entry hstep hentry
    rw [getElem?_run, hstep] at hentry
    obtain rfl := Option.some.inj hentry
    constructor
    · rintro ⟨live, warned⟩
      obtain ⟨hreply, hgiven, ledger, hledger, rfl, hlive⟩ := (overdrawn_mem_perform _ _ _).1 warned
      exact ⟨hreply, hgiven, ledger, hledger, Int64.lt_iff_toInt_lt.1 hlive⟩
    · rintro ⟨hreply, hgiven, ledger, hledger, hlive⟩
      exact ⟨_, (overdrawn_mem_perform _ _ _).2
        ⟨hreply, hgiven, ledger, hledger, rfl, Int64.lt_iff_toInt_lt.2 hlive⟩⟩

/-- A string that its maker turns into a block and takes back is no leak. A block that another
manager takes back is one for its maker, and the other one warns. -/
theorem liveAllocations_run_start_string :
    let setups : List Setup := [⟨.unbounded, 1, .standardError⟩, ⟨.unbounded, 2, .standardError⟩]
    let own : List Step :=
      [⟨0, .makeString (.text ⟨[104, 105], by decide, by decide⟩), some ⟨"a"⟩⟩,
        ⟨1, .intoRaw ⟨"a"⟩, none⟩, ⟨1, .rawToBlock ⟨"a"⟩, none⟩,
        ⟨0, .release (some ⟨"a"⟩) .caller, none⟩]
    let foreign : List Step :=
      [⟨0, .allocate (.block 7) .option .caller, some ⟨"b"⟩⟩,
        ⟨1, .release (some ⟨"b"⟩) .caller, none⟩]
    (∃ ledger, ((start setups).run own).1.ledger? 0 = some ledger ∧ ledger.isBalanced = true) ∧
      ∃ entry, ((start setups).run foreign).2[1]? = some entry ∧
        ∃ live, .ledgerOverdrawn live ∈ entry.trail.events := by
  intro setups own foreign
  constructor
  · obtain ⟨-, hleaks, -⟩ := liveAllocations_run_start setups own (by decide)
    obtain ⟨ledger, hledger, -, hbalanced⟩ := (hleaks (by decide)).1 0 _ rfl (by decide)
    exact ⟨ledger, hledger, hbalanced.2 rfl⟩
  · obtain ⟨-, -, hall⟩ := liveAllocations_run_start setups foreign (by decide)
    obtain ⟨-, hwarns⟩ := hall (by decide)
    refine ⟨_, rfl, (hwarns 1 _ _ rfl rfl).2 ⟨rfl, rfl, _, rfl, ?_⟩⟩
    decide

end Session

end TrackedHeap
