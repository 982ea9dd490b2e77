import TrackedHeap.Manager.Basic

/-!
# Calls through layers

A call goes down to the base, which alone decides and alone touches the heap, and every layer adds to
the record. What that comes to, layers and sinks of any kind:

* `Sink.pass` : what of a record is left when the sink takes or loses its lines. The working sink keeps
  all (`pass_standardError`);
* `Allocator.core` : the answers of the base under all layers;
* `Granted` : a request that the base grants and every layer records, with the record that a working
  sink keeps;
* `request_of_granted`, `request_of_refused` : what a request leaves in the two cases, of which one
  holds (`granted_or_refused`);
* `Allocator.released`, `release_eq` : what a release leaves;
* `Manager.request_of_granted`, `Manager.request_of_refused`, `Manager.release_some`,
  `Manager.release_none` : the same for managers.
-/

namespace TrackedHeap

/-! ## Records and sinks -/

/-- A record without its lines. -/
def Trail.unheard (t : Trail) : Trail := ⟨t.marks, []⟩

namespace Sink

/-- What is left of a record that a working sink would keep: all of it, or all but the lines. -/
def pass (sink : Sink) (t : Trail) : Trail :=
  if sink.isWorking then t else t.unheard

theorem pass_of_isWorking {sink : Sink} (working : sink.isWorking = true) (t : Trail) :
    sink.pass t = t :=
  if_pos working

theorem pass_standardError (t : Trail) : standardError.pass t = t := rfl

theorem pass_eq_self {t : Trail} (silent : t.lines = []) (sink : Sink) : sink.pass t = t := by
  obtain ⟨marks, lines⟩ := t
  obtain rfl : lines = [] := silent
  unfold pass
  split <;> rfl

theorem pass_append (sink : Sink) (t u : Trail) :
    sink.pass (t ++ u) = sink.pass t ++ sink.pass u := by
  unfold pass
  split <;> rfl

theorem marks_pass (sink : Sink) (t : Trail) : (sink.pass t).marks = t.marks := by
  unfold pass
  split <;> rfl

theorem events_pass (sink : Sink) (t : Trail) : (sink.pass t).events = t.events := by
  rw [Trail.events, marks_pass, Trail.events]

end Sink

namespace Allocator

/-- A line is heard or lost. -/
theorem emit_eq_pass (sink : Sink) (line : Line) : emit sink line = sink.pass ⟨[], [line]⟩ := by
  unfold emit Sink.write Sink.pass
  cases sink.isWorking <;> rfl

theorem allocationTrail_eq_pass (sink : Sink) (layer : Nat) (size : Size) (address : Address)
    (location : Location) :
    allocationTrail sink layer size address location =
      sink.pass (allocationTrail .standardError layer size address location) := by
  rw [allocationTrail, allocationTrail, Sink.pass_append, emit_eq_pass, emit_eq_pass,
    Sink.pass_standardError, Sink.pass_eq_self (t := .ofLayer ..) rfl]

theorem releaseTrail_eq_pass (sink : Sink) (layer : Nat) (l : Ledger) (address : Address)
    (location : Location) :
    releaseTrail sink layer l address location =
      sink.pass (releaseTrail .standardError layer l address location) := by
  rw [releaseTrail, releaseTrail, Sink.pass_append, emit_eq_pass, emit_eq_pass,
    Sink.pass_standardError, Sink.pass_eq_self (t := .ofLayer ..) rfl]

theorem report_eq_pass (sink : Sink) (a : Allocator) :
    a.report sink = sink.pass (a.report .standardError) := by
  cases a with
  | base answers => exact (Sink.pass_eq_self (t := .empty) rfl sink).symm
  | tracked inner l => rw [report, report, emit_eq_pass, emit_eq_pass, Sink.pass_standardError]

/-! ## Requests -/

/-- The answers of the base under all layers. -/
def core : Allocator → Answers
  | base answers => answers
  | tracked inner _ => inner.core

/-- A request that the base grants and every layer records, the innermost first. -/
inductive Granted (r : Request) (address : Address) (location : Location) :
    Allocator → Allocator → Trail → Prop
  | base {answers : Answers} (grant : answers r = .ok ()) :
    Granted r address location (base answers) (base answers) .empty
  | tracked {inner inner' : Allocator} {t : Trail} (l : Ledger)
      (granted : Granted r address location inner inner' t) :
    Granted r address location (tracked inner l) (tracked inner' (l.recordAllocation r.product))
      (t ++ allocationTrail .standardError inner.depth r.product address location)

section
variable {r : Request} {address : Address} {location : Location} {a a' a'' : Allocator}
  {t u : Trail}

/-- The base grants a request, and then all layers do, or it refuses it with an error. -/
theorem granted_or_refused (a : Allocator) (r : Request) (address : Address)
    (location : Location) :
    (∃ a' t, Granted r address location a a' t) ∨ ∃ e, a.core r = .error e := by
  induction a with
  | base answers =>
    cases h : answers r with
    | ok => exact .inl ⟨_, _, .base h⟩
    | error e => exact .inr ⟨e, h⟩
  | tracked inner l ih =>
    obtain ⟨inner', t, granted⟩ | refused := ih
    · exact .inl ⟨_, _, .tracked l granted⟩
    · exact .inr refused

theorem Granted.core_ok (granted : Granted r address location a a' t) : a.core r = .ok () := by
  induction granted with
  | base grant => exact grant
  | tracked _ _ ih => exact ih

theorem Granted.core_eq (granted : Granted r address location a a' t) : a'.core = a.core := by
  induction granted with
  | base => rfl
  | tracked _ _ ih => exact ih

theorem exists_granted (grant : a.core r = .ok ()) (address : Address) (location : Location) :
    ∃ a' t, Granted r address location a a' t := by
  obtain granted | ⟨e, refused⟩ := a.granted_or_refused r address location
  · exact granted
  · rw [grant] at refused
    cases refused

/-- What a granted request leaves is determined. -/
theorem Granted.unique (granted : Granted r address location a a' t)
    (granted' : Granted r address location a a'' u) : a' = a'' ∧ t = u := by
  induction granted generalizing a'' u with
  | base => cases granted'; exact ⟨rfl, rfl⟩
  | tracked l _ ih =>
    obtain _ | ⟨_, granted'⟩ := granted'
    obtain ⟨rfl, rfl⟩ := ih granted'
    exact ⟨rfl, rfl⟩

/-- **A granted request puts the block into the heap**, and all layers record it. -/
theorem request_of_granted (granted : Granted r address location a a' t) (sink : Sink)
    (heap : Heap) :
    a.request sink r address location heap =
      ⟨.ok (), a', heap.insert address ⟨.block, .ofRequest r⟩, sink.pass t⟩ := by
  induction granted with
  | base grant =>
    rw [request, grant, Sink.pass_eq_self rfl]
  | tracked l _ ih =>
    rw [request, ih, Sink.pass_append, ← allocationTrail_eq_pass]

/-- **A refused request changes nothing and leaves nothing**, in any number of layers. -/
theorem request_of_refused {e : AllocError} (refused : a.core r = .error e) (sink : Sink)
    (address : Address) (location : Location) (heap : Heap) :
    a.request sink r address location heap = ⟨.error e, a, heap, .empty⟩ := by
  induction a with
  | base answers =>
    have refused : answers r = .error e := refused
    rw [request, refused]
  | tracked inner l ih => rw [request, ih refused]

end

/-! ## Releases -/

/-- The allocator that a release leaves, and the record that a working sink keeps. -/
def released (a : Allocator) (address : Address) (location : Location) : Allocator × Trail :=
  let after := a.release .standardError location [] (some address)
  (after.allocator, after.trail)

theorem released_base (answers : Answers) (address : Address) (location : Location) :
    (base answers).released address location = (base answers, .empty) := rfl

theorem released_tracked (inner : Allocator) (l : Ledger) (address : Address)
    (location : Location) :
    (tracked inner l).released address location =
      (tracked (inner.released address location).1 l.recordRelease,
        releaseTrail .standardError inner.depth l.recordRelease address location ++
          (inner.released address location).2) := rfl

theorem core_released (a : Allocator) (address : Address) (location : Location) :
    (a.released address location).1.core = a.core := by
  induction a with
  | base answers => rfl
  | tracked inner l ih => exact ih

/-- **A release takes the memory out of the heap**, and all layers record it. -/
theorem release_eq (a : Allocator) (sink : Sink) (location : Location) (heap : Heap)
    (address : Address) :
    a.release sink location heap (some address) =
      ⟨(), (a.released address location).1, heap.erase address,
        sink.pass (a.released address location).2⟩ := by
  induction a with
  | base answers => rw [release, released_base, Sink.pass_eq_self rfl]
  | tracked inner l ih =>
    rw [release, ih, released_tracked, Sink.pass_append, ← releaseTrail_eq_pass]

/-- Without an address a release stops at the outermost layer. -/
theorem release_none (a : Allocator) (sink : Sink) (location : Location) (heap : Heap) :
    a.release sink location heap none = ⟨(), a, heap, .empty⟩ := by
  cases a <;> rfl

end Allocator

/-! ## Managers -/

namespace Manager
variable {m : Manager} {heap : Heap} {r : Request} {address : Address} {location : Location}

theorem request_of_granted {allocator : Allocator} {t : Trail}
    (granted : Allocator.Granted r address location m.allocator allocator t) :
    m.request heap r address location =
      ⟨.ok (), { m with allocator }, heap.insert address ⟨.block, .ofRequest r⟩,
        m.sink.pass t⟩ := by
  rw [request, Allocator.request_of_granted granted, afterCall]

theorem request_of_refused {e : AllocError} (refused : m.allocator.core r = .error e) :
    m.request heap r address location = ⟨.error e, m, heap, .empty⟩ := by
  rw [request, Allocator.request_of_refused refused, afterCall]

theorem release_some (m : Manager) (heap : Heap) (address : Address) (location : Location) :
    m.release heap (some address) location =
      ⟨(), { m with allocator := (m.allocator.released address location).1 },
        heap.erase address, m.sink.pass (m.allocator.released address location).2⟩ := by
  rw [release, Allocator.release_eq, afterCall]

theorem release_none (m : Manager) (heap : Heap) (location : Location) :
    m.release heap none location = ⟨(), m, heap, .empty⟩ := by
  rw [release, Allocator.release_none, afterCall]

end Manager

end TrackedHeap
