import TrackedHeap.Manager.Strings
import TrackedHeap.Proofs.Tracking.Calls

/-!
# Managers without their layers

Taking the layers away commutes with everything a manager does: a call on the bare manager gives
what the call on the manager with its layers gives, less what the layers leave on record.

* `Allocator.bare`, `Manager.bare` : the base under all layers, alone;
* `Trail.bare` : a record without the events and lines of layers (`Event.isOfLayer`);
* `Allocator.request_bare`, `Allocator.release_bare` : the commutation for one allocator, by
  induction on its layers. The heap that a call leaves is the same, so the layers hand every call on;
* `Manager.request_bare`, `Manager.tryRequest_bare`, `Manager.release_bare`,
  `Manager.makeString_bare`, `Manager.concat_bare` : the same for the calls of a manager.
-/

namespace TrackedHeap

/-! ## Records -/

/-- An event that only a layer leaves on record. -/
def Event.isOfLayer : Event → Bool
  | .trackedAllocation .. => true
  | .trackedRelease .. => true
  | .ledgerOverdrawn _ => true
  | _ => false

theorem Manager.isOfLayer_refusal (r : Request) (e : AllocError) :
    (refusal r e).isOfLayer = false := by
  cases r <;> rfl

/-- A record without what layers leave there. Every diagnostic line is a layer's. -/
def Trail.bare (t : Trail) : Trail :=
  ⟨t.marks.filter fun mark => !mark.event.isOfLayer, []⟩

theorem Trail.bare_append (t u : Trail) : (t ++ u).bare = t.bare ++ u.bare := by
  change bare ⟨t.marks ++ u.marks, t.lines ++ u.lines⟩ = ⟨_ ++ _, [] ++ []⟩
  rw [bare, List.filter_append]
  rfl

/-! ## Allocators -/

namespace Allocator

/-- The base under all layers, without a layer. -/
def bare (a : Allocator) : Allocator :=
  base a.core

/-- What a call on an allocator leaves, without the layers and their record. -/
def After.bare {α : Type} (after : After α) : After α :=
  ⟨after.value, after.allocator.bare, after.heap, after.trail.bare⟩

theorem core_stack (b : Base) (n : Nat) : (stack b n).core = b.answers := by
  induction n with
  | zero => rfl
  | succ n ih => exact ih

theorem bare_allocationTrail (sink : Sink) (layer : Nat) (size : Size) (address : Address)
    (location : Location) : (allocationTrail sink layer size address location).bare = .empty := rfl

theorem bare_releaseTrail (sink : Sink) (layer : Nat) (l : Ledger) (address : Address)
    (location : Location) : (releaseTrail sink layer l address location).bare = .empty := by
  unfold releaseTrail
  split <;> rfl

section
variable (sink : Sink) (a : Allocator) (location : Location) (heap : Heap)

/-- **The base alone decides a request and fills the heap**, and the layers add nothing but their
record. -/
theorem request_bare (r : Request) (address : Address) :
    a.bare.request sink r address location heap =
      (a.request sink r address location heap).bare := by
  induction a with
  | base answers =>
    rw [bare, core, request]
    cases answers r <;> rfl
  | tracked inner l ih =>
    have hbare : (tracked inner l).bare = inner.bare := rfl
    rw [hbare, ih, request]
    obtain ⟨value, inner', heap', t⟩ := inner.request sink r address location heap
    cases value with
    | error e => rfl
    | ok =>
      dsimp only
      rw [After.bare, After.bare, Trail.bare_append, bare_allocationTrail, Trail.append_empty]
      rfl

/-- **The base alone takes memory back**, and the layers add nothing but their record. -/
theorem release_bare (target : Option Address) :
    a.bare.release sink location heap target = (a.release sink location heap target).bare := by
  induction a with
  | base answers => cases target <;> rfl
  | tracked inner l ih =>
    have hbare : (tracked inner l).bare = inner.bare := rfl
    cases target with
    | none => rfl
    | some address =>
      rw [hbare, ih, release, After.bare, After.bare, Trail.bare_append, bare_releaseTrail]
      rfl

end

theorem report_bare (sink : Sink) (a : Allocator) :
    a.bare.report sink = (a.report sink).bare := by
  cases a <;> rfl

end Allocator

/-! ## Managers -/

/-- The manager without its layers. -/
def Manager.bare (m : Manager) : Manager :=
  { m with allocator := m.allocator.bare }

/-- What a call leaves, without the layers and their record. -/
def After.bare {α : Type} (result : After α) : After α :=
  ⟨result.value, result.manager.bare, result.heap, result.trail.bare⟩

namespace Manager
variable (m : Manager) (heap : Heap) (address : Address) (location : Location)

theorem afterCall_bare {α : Type} (after : Allocator.After α) :
    m.bare.afterCall after.bare = (m.afterCall after).bare := rfl

theorem request_bare (r : Request) :
    m.bare.request heap r address location = (m.request heap r address location).bare := by
  rw [request, request, ← afterCall_bare, ← Allocator.request_bare]
  rfl

theorem tryRequest_bare (r : Request) :
    m.bare.tryRequest heap r address location = (m.tryRequest heap r address location).bare := by
  unfold tryRequest
  rw [request_bare]
  obtain ⟨value, m', heap', t⟩ := m.request heap r address location
  cases value with
  | ok => rfl
  | error e =>
    change After.mk _ _ _ (t.bare ++ _) = After.mk _ _ _ (t ++ _).bare
    rw [Trail.bare_append]
    cases r <;> rfl

theorem release_bare (target : Option Address) :
    m.bare.release heap target location = (m.release heap target location).bare := by
  rw [release, release, ← afterCall_bare, ← Allocator.release_bare]
  rfl

theorem joined_bare (parts : List CText) :
    m.bare.joined heap parts address location = (m.joined heap parts address location).bare := by
  unfold joined
  dsimp only
  rw [request_bare]
  obtain ⟨value, m', heap', t⟩ := m.request heap (.block (totalLength parts + 1)) address location
  cases value <;> rfl

theorem present_bare (result : After (Except AllocError Size)) :
    present result.bare = (present result).bare := rfl

theorem makeString_bare (source : Option CText) :
    m.bare.makeString heap source address location =
      (m.makeString heap source address location).bare := by
  cases source with
  | none => rfl
  | some text => rw [makeString, joined_bare, present_bare]; rfl

theorem concat_bare (first second : Option CText) :
    m.bare.concat heap first second address location =
      (m.concat heap first second address location).bare := by
  cases first with
  | none =>
    cases second with
    | none => rfl
    | some text => exact makeString_bare m heap address location (some text)
  | some a =>
    cases second with
    | none => exact makeString_bare m heap address location (some a)
    | some b => rw [concat, joined_bare, present_bare]; rfl

/-- A bare manager keeps no ledger, so it writes no report. -/
theorem report_bare : m.bare.report = m.report.bare :=
  Allocator.report_bare m.sink m.allocator

end Manager

end TrackedHeap
