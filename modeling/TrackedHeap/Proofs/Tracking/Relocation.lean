import TrackedHeap.Proofs.Tracking.Calls

/-!
# Requests from other places

Where a request or a release comes from decides nothing. It only appears in the record.

* `Line.unlocated`, `Trail.unlocated` : a line, and the lines of a record, without their location;
* `Allocator.Granted.elsewhere`, `Allocator.released_elsewhere` : the same request or release from
  another place does the same, and leaves the same lines without it. No refusal names a place.
-/

namespace TrackedHeap

/-- A line without its location. -/
def Line.unlocated : Line → Line
  | .alloc size address _ => .alloc size address .unknown
  | .free address _ => .free address .unknown
  | .stats ledger => .stats ledger

/-- The lines of a record without their locations. -/
def Trail.unlocated (t : Trail) : List Line :=
  t.lines.map Line.unlocated

theorem Trail.unlocated_append (a b : Trail) : (a ++ b).unlocated = a.unlocated ++ b.unlocated := by
  rw [unlocated, lines_append, List.map_append]
  rfl

theorem Sink.unlocated_pass (sink : Sink) {t t' : Trail} (h : t.unlocated = t'.unlocated) :
    (sink.pass t).unlocated = (sink.pass t').unlocated := by
  unfold pass
  split
  · exact h
  · rfl

namespace Allocator
variable {address : Address} {location : Location}

theorem Granted.elsewhere {r : Request} {a a' : Allocator} {t : Trail}
    (granted : Granted r address location a a' t) (other : Location) :
    ∃ t', Granted r address other a a' t' ∧ t'.unlocated = t.unlocated := by
  induction granted with
  | base grant => exact ⟨_, .base grant, rfl⟩
  | tracked l _ ih =>
    obtain ⟨t', granted', hlines⟩ := ih
    refine ⟨_, .tracked l granted', ?_⟩
    rw [Trail.unlocated_append, Trail.unlocated_append, hlines]
    rfl

theorem released_elsewhere (a : Allocator) (address : Address) (location other : Location) :
    (a.released address location).1 = (a.released address other).1 ∧
      (a.released address location).2.unlocated = (a.released address other).2.unlocated := by
  induction a with
  | base answers => exact ⟨rfl, rfl⟩
  | tracked inner l ih =>
    obtain ⟨hinner, hlines⟩ := ih
    rw [released_tracked, released_tracked, hinner, Trail.unlocated_append, Trail.unlocated_append,
      hlines]
    exact ⟨rfl, rfl⟩

end Allocator

end TrackedHeap
