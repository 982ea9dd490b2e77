import TrackedHeap.Proofs.Tracking.Bare
import TrackedHeap.Proofs.Tracking.Decoded
import TrackedHeap.Proofs.Tracking.Layers

/-!
# Layers one by one

* `Allocator.outer` : the outermost layer alone around the base, which does the same
  (`Granted.outer`, `outer_released`);
* `Line.repeated` : a line as a number of layers write it between them;
* `Trail.layerMarks` : the marks of a record that are of layers;
* `Occurrence.marks` : the order in which layers record an occurrence, an allocation from the innermost
  layer to the outermost and a release from the outermost to the innermost. It is the order in which
  they do (`Granted.layerMarks_eq`, `layerMarks_releaseRecord`).
-/

namespace TrackedHeap

/-- A line as a number of layers write it between them. A report is the outermost layer's alone. -/
def Line.repeated (n : Nat) : Line → List Line
  | stats ledger => [stats ledger]
  | line => List.replicate n line

/-- A line that each of the layers writes, from the one line that the outermost layer writes. -/
theorem Line.flatMap_repeated {n : Nat} {line : Line}
    (each : line.repeated n = List.replicate n line) :
    (List.replicate (min n 1) line).flatMap (repeated n) = List.replicate n line := by
  cases n with
  | zero => rfl
  | succ n =>
    have hmin : min (n + 1) 1 = 1 := Nat.min_eq_right (Nat.succ_pos n)
    rw [hmin, List.replicate_one, List.flatMap_singleton, each]

/-! ## The outermost layer -/

namespace Allocator

/-- The outermost layer alone around the base. -/
def outer : Allocator → Allocator
  | base answers => base answers
  | tracked inner ledger => tracked (base inner.core) ledger

theorem core_outer (a : Allocator) : a.outer.core = a.core := by
  cases a <;> rfl

theorem depth_outer (a : Allocator) : a.outer.depth = min a.depth 1 := by
  cases a with
  | base answers => rfl
  | tracked inner l => exact (Nat.min_eq_right (Nat.succ_pos inner.depth)).symm

theorem outer_stack (b : Base) (n : Nat) : (stack b n).outer = stack b (min n 1) := by
  cases n with
  | zero => rfl
  | succ n =>
    rw [Nat.min_eq_right (Nat.succ_pos n), stack, outer, core_stack]
    rfl

section
variable {r : Request} {address : Address} {location : Location} {a a' : Allocator} {t : Trail}

/-- The outermost layer alone grants the same. -/
theorem Granted.outer (granted : Granted r address location a a' t) :
    ∃ u, Granted r address location a.outer a'.outer u := by
  cases granted with
  | base grant => exact ⟨_, .base grant⟩
  | tracked l granted =>
    have alone : Granted r address location _ _ _ := .tracked l (.base granted.core_ok)
    rw [Allocator.outer, Allocator.outer, granted.core_eq]
    exact ⟨_, alone⟩

theorem outer_released (a : Allocator) (address : Address) (location : Location) :
    (a.outer.released address location).1 = (a.released address location).1.outer := by
  cases a with
  | base answers => rfl
  | tracked inner l =>
    rw [Allocator.outer, released_tracked, released_tracked, Allocator.outer, core_released]
    rfl

end

end Allocator

/-! ## Which layer records what -/

/-- The marks of a record that are of layers. -/
def Trail.layerMarks (t : Trail) : List Mark :=
  t.marks.filter (·.event.isOfLayer)

theorem Trail.layerMarks_eq_nil {t : Trail} (quiet : ∀ e ∈ t.events, e.isOfLayer = false) :
    t.layerMarks = [] :=
  List.filter_eq_nil_iff.2 fun mark mem =>
    Bool.eq_false_iff.1 (quiet mark.event (List.mem_map_of_mem mem))

theorem Sink.layerMarks_pass (sink : Sink) (t : Trail) :
    (sink.pass t).layerMarks = t.layerMarks := by
  rw [Trail.layerMarks, marks_pass, Trail.layerMarks]

/-- How a number of layers record an occurrence after which the live count of each stands as given:
an allocation from the innermost layer to the outermost, and a release from the outermost to the
innermost, with a warning first when the count is negative. Each layer is known by the number of layers
inside it. -/
def Occurrence.marks (n : Nat) (live : Int64) : Occurrence → List Mark
  | allocated bytes address location =>
    (List.range n).map fun inside =>
      ⟨some inside, .trackedAllocation (UInt64.ofNat bytes) address location⟩
  | released address location =>
    (List.range n).reverse.flatMap fun inside =>
      (if live < 0 then [⟨some inside, .ledgerOverdrawn live⟩] else []) ++
        [⟨some inside, .trackedRelease address location live⟩]
  | reported _ _ => []

namespace Allocator
variable {r : Request} {address : Address} {location : Location}

/-- **The inner layers record an allocation before the outer ones.** -/
theorem Granted.layerMarks_eq {a a' : Allocator} {t : Trail}
    (granted : Granted r address location a a' t) (live : Int64) :
    t.layerMarks = (Occurrence.allocated r.exact address location).marks a.depth live := by
  rw [granted.trail_eq, Trail.layerMarks, Occurrence.marks, Request.ofNat_exact, allocationRecord]
  refine List.filter_eq_self.2 fun mark mem => ?_
  obtain ⟨_, _, rfl⟩ := List.mem_map.1 mem
  rfl

theorem marks_releaseTrail (inside : Nat) (l : Ledger) :
    (releaseTrail .standardError inside l address location).marks =
      (if l.liveAllocations < 0 then [⟨some inside, .ledgerOverdrawn l.liveAllocations⟩] else []) ++
        [⟨some inside, .trackedRelease address location l.liveAllocations⟩] := by
  unfold releaseTrail Ledger.isOverdrawn
  by_cases short : l.liveAllocations < 0
  · rw [if_pos short, if_pos (decide_eq_true short)]
    rfl
  · rw [if_neg short, if_neg (Bool.eq_false_iff.1 (decide_eq_false short))]
    rfl

/-- **The outer layers record a release before the inner ones**, all with one live count. -/
theorem layerMarks_releaseRecord (n : Nat) (l : Ledger) (address : Address) (location : Location) :
    (releaseRecord n l address location).layerMarks =
      (Occurrence.released address location).marks n l.liveAllocations := by
  have hmarks : (releaseRecord n l address location).marks =
      (Occurrence.released address location).marks n l.liveAllocations := by
    simp only [releaseRecord, marks_releaseTrail]
    rfl
  rw [Trail.layerMarks, hmarks, Occurrence.marks]
  refine List.filter_eq_self.2 fun mark mem => ?_
  obtain ⟨_, _, mem⟩ := List.mem_flatMap.1 mem
  obtain warning | release := List.mem_append.1 mem
  · split at warning
    · rw [List.mem_singleton.1 warning]
      rfl
    · cases warning
  · rw [List.mem_singleton.1 release]
    rfl

end Allocator

end TrackedHeap
