import TrackedHeap.Proofs.Tracking.Calls

/-!
# Layers in step

All layers of a stack are asked for the same, so they stay alike: one ledger describes each of them.

* `Allocator.ledgers` : the ledgers of all layers. Every layer records an allocation, and a release,
  once (`Granted.ledgers_eq`, `ledgers_released`), and writes the same line (`Granted.lines_eq`,
  `lines_released`);
* `Granted.trail_eq` : the layers record an allocation from the innermost to the outermost;
* `Allocator.layered b l n` : the base `b` in `n` layers, each with the ledger `l`. A stack starts
  as one, with empty ledgers (`stack_eq_layered`);
* `Granted.layered_eq`, `released_layered` : a request and a release keep the layers alike, and say what
  every ledger becomes and what is left on record (`allocationRecord`, `releaseRecord`), of a release
  from the outermost layer to the innermost.
-/

namespace TrackedHeap.Allocator

/-- The ledgers of all layers, the outermost first. -/
def ledgers : Allocator → List Ledger
  | base _ => []
  | tracked inner ledger => ledger :: inner.ledgers

theorem ledger?_eq_head? (a : Allocator) : a.ledger? = a.ledgers.head? := by
  cases a <;> rfl

/-! ## Any layers -/

/-- What a number of layers put on record for an allocation, the innermost first. -/
def allocationRecord (n : Nat) (size : Size) (address : Address) (location : Location) : Trail :=
  ⟨(List.range n).map fun inside => ⟨some inside, .trackedAllocation size address location⟩,
    List.replicate n (.alloc size address location)⟩

theorem allocationRecord_succ (n : Nat) (size : Size) (address : Address) (location : Location) :
    allocationRecord n size address location ++
        allocationTrail .standardError n size address location =
      allocationRecord (n + 1) size address location := by
  rw [allocationRecord, allocationRecord, List.range_succ, List.map_append, List.replicate_succ']
  rfl

section
variable {r : Request} {address : Address} {location : Location} {a a' : Allocator} {t : Trail}

/-- Every layer records the allocation once. -/
theorem Granted.ledgers_eq (granted : Granted r address location a a' t) :
    a'.ledgers = a.ledgers.map (·.recordAllocation r.product) := by
  induction granted with
  | base => rfl
  | tracked _ _ ih => rw [ledgers, ledgers, ih, List.map_cons]

/-- **The inner layers record an allocation before the outer ones**, all of them the same, and write
the same line. -/
theorem Granted.trail_eq (granted : Granted r address location a a' t) :
    t = allocationRecord a.depth r.product address location := by
  induction granted with
  | base => rfl
  | tracked _ _ ih => rw [ih, allocationRecord_succ, depth]

theorem Granted.lines_eq (granted : Granted r address location a a' t) :
    t.lines = List.replicate a.depth (.alloc r.product address location) := by
  rw [granted.trail_eq, allocationRecord]

variable (a address location)

/-- Every layer records the release once. -/
theorem ledgers_released :
    (a.released address location).1.ledgers = a.ledgers.map Ledger.recordRelease := by
  induction a with
  | base answers => rfl
  | tracked inner l ih => rw [released_tracked, ledgers, ih, ledgers, List.map_cons]

theorem lines_released :
    (a.released address location).2.lines = List.replicate a.depth (.free address location) := by
  induction a with
  | base answers => rfl
  | tracked inner l ih =>
    rw [released_tracked, Trail.lines_append, ih, depth, List.replicate_succ]
    rfl

end

/-! ## Layers that are alike -/

/-- A base in a number of layers that all have the same ledger. -/
def layered (b : Base) (l : Ledger) : Nat → Allocator
  | 0 => base b.answers
  | n + 1 => tracked (layered b l n) l

/-- What a number of layers put on record for a release, the outermost first, when every ledger then
stands as given. -/
def releaseRecord (n : Nat) (l : Ledger) (address : Address) (location : Location) : Trail :=
  ⟨(List.range n).reverse.flatMap fun inside =>
      (releaseTrail .standardError inside l address location).marks,
    List.replicate n (.free address location)⟩

theorem stack_eq_layered (b : Base) (n : Nat) : stack b n = layered b Ledger.empty n := by
  induction n with
  | zero => rfl
  | succ n ih => rw [stack, layered, ih]

section
variable (b : Base) (l : Ledger) (n : Nat)

theorem core_layered : (layered b l n).core = b.answers := by
  induction n with
  | zero => rfl
  | succ n ih => exact ih

theorem depth_layered : (layered b l n).depth = n := by
  induction n with
  | zero => rfl
  | succ n ih => rw [layered, depth, ih]

theorem ledger?_layered : (layered b l n).ledger? = if 0 < n then some l else none := by
  cases n with
  | zero => rfl
  | succ n => rw [if_pos (Nat.succ_pos n)]; rfl

theorem ledgers_layered : (layered b l n).ledgers = List.replicate n l := by
  induction n with
  | zero => rfl
  | succ n ih => rw [layered, ledgers, ih, List.replicate_succ]

/-- A request that the base grants is recorded in every ledger. -/
theorem granted_layered {r : Request} (grant : b.answers r = .ok ()) (address : Address)
    (location : Location) :
    Granted r address location (layered b l n) (layered b (l.recordAllocation r.product) n)
      (allocationRecord n r.product address location) := by
  induction n with
  | zero => exact .base grant
  | succ n ih =>
    have granted := Granted.tracked l ih
    rwa [depth_layered, allocationRecord_succ] at granted

/-- Every layer records the release, with what is then in its ledger. -/
theorem released_layered (address : Address) (location : Location) :
    (layered b l n).released address location =
      (layered b l.recordRelease n, releaseRecord n l.recordRelease address location) := by
  induction n with
  | zero => rfl
  | succ n ih =>
    rw [layered, released_tracked, ih, depth_layered, releaseRecord, releaseRecord, List.range_succ,
      List.reverse_append, List.reverse_singleton, List.singleton_append, List.flatMap_cons,
      List.replicate_succ]
    rfl

end

/-- What a granted request leaves of layers that are alike. -/
theorem Granted.layered_eq {b : Base} {l : Ledger} {n : Nat} {r : Request} {address : Address}
    {location : Location} {a' : Allocator} {t : Trail}
    (granted : Granted r address location (layered b l n) a' t) :
    a' = layered b (l.recordAllocation r.product) n ∧
      t = allocationRecord n r.product address location := by
  have grant := granted.core_ok
  rw [core_layered] at grant
  exact granted.unique (granted_layered b l n grant address location)

/-- A warning is on record of a release when the ledgers are then overdrawn, and its count is
theirs. -/
theorem mem_events_releaseRecord {n : Nat} {l : Ledger} {address : Address} {location : Location}
    {e : Event} :
    e ∈ (releaseRecord n l address location).events ↔
      0 < n ∧ e ∈ (releaseTrail .standardError 0 l address location).events := by
  have hevents : ∀ inside, (releaseTrail .standardError inside l address location).events =
      (releaseTrail .standardError 0 l address location).events := by
    intro inside
    rw [releaseTrail, releaseTrail, Trail.events_append, Trail.events_append, Trail.events_ofLayer,
      Trail.events_ofLayer]
  rw [Trail.events, releaseRecord, List.map_flatMap, List.mem_flatMap]
  constructor
  · rintro ⟨inside, mem, he⟩
    refine ⟨Nat.zero_lt_of_lt (List.mem_range.1 (List.mem_reverse.1 mem)), ?_⟩
    rw [← hevents inside]
    exact he
  · rintro ⟨positive, he⟩
    exact ⟨0, List.mem_reverse.2 (List.mem_range.2 positive), he⟩

end TrackedHeap.Allocator
