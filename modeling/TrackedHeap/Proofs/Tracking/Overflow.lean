import Mathlib.Data.List.Forall2
import TrackedHeap.Proofs.Tracking.Layers
import TrackedHeap.Proofs.Tracking.Refusal

/-!
# Overflow under layers

A layer multiplies without a check of its own. That its product is exact it owes to the allocator
inside it, which has refused every array that no size can hold. What the layers need of the allocator
below them is the contract `Answers.ReportsOverflow` alone, so that allocator may be of any kind.

* `Allocator.request_overflow` : layers hand the contract on to what is around them;
* `Allocator.RecordsExactly` : layers that record and write one exact number of bytes;
* `Allocator.recordsExactly_of_granted` : so they do for every array that is granted.
-/

namespace TrackedHeap.Allocator

/-- Layers hand the contract on, and change nothing when they do. -/
theorem request_overflow {a : Allocator} (contract : a.core.ReportsOverflow)
    {elementSize count : Size} (large : 2 ^ 64 ≤ elementSize.toNat * count.toNat) (sink : Sink)
    (address : Address) (location : Location) (heap : Heap) :
    a.request sink (.array elementSize count) address location heap =
      ⟨.error (.sizeOverflow elementSize count), a, heap, .empty⟩ :=
  request_of_refused (contract elementSize count large) sink address location heap

/-- Layers that all record and write the exact number of bytes of one array. -/
structure RecordsExactly (a : Allocator) (sink : Sink) (elementSize count : Size)
    (address : Address) (location : Location) (after : After (Except AllocError Unit)) : Prop where
  fits : elementSize.toNat * count.toNat < 2 ^ 64
  product : (elementSize * count).toNat = elementSize.toNat * count.toNat
  recorded : List.Forall₂ (fun l l' : Ledger =>
    l'.cumulativeBytes.toNat =
        (l.cumulativeBytes.toNat + elementSize.toNat * count.toNat) % 2 ^ 64 ∧
      l'.liveAllocations = l.liveAllocations + 1) a.ledgers after.allocator.ledgers
  lines : sink.isWorking = true → after.trail.lines.map Line.text = List.replicate a.depth
    ("ALLOC: " ++ (elementSize.toNat * count.toNat).repr ++ " bytes at " ++ address.text ++ " (" ++
      location.text ++ ")")
  events : after.trail.events = List.replicate a.depth
    (.trackedAllocation (elementSize * count) address location)

section
variable {a : Allocator} {sink : Sink} {elementSize count : Size} {address : Address}
  {location : Location} {heap : Heap}

/-- **The product of every layer is exact** when the allocator under the layers keeps the contract and
the array is granted. -/
theorem recordsExactly_of_granted (contract : a.core.ReportsOverflow)
    (ok : (a.request sink (.array elementSize count) address location heap).value = .ok ()) :
    RecordsExactly a sink elementSize count address location
      (a.request sink (.array elementSize count) address location heap) := by
  obtain ⟨a', t, granted⟩ | ⟨e, refused⟩ :=
    a.granted_or_refused (.array elementSize count) address location
  · rw [request_of_granted granted]
    have fits : elementSize.toNat * count.toNat < 2 ^ 64 := contract.fits granted.core_ok
    have product : (elementSize * count).toNat = elementSize.toNat * count.toNat :=
      Request.toNat_product (r := .array elementSize count) fits
    refine ⟨fits, product, ?_, fun working => ?_, ?_⟩
    · rw [granted.ledgers_eq]
      refine List.forall₂_map_right_iff.2 (List.forall₂_same.2 fun l _ => ⟨?_, rfl⟩)
      rw [Ledger.recordAllocation, UInt64.toNat_add, Request.product, product]
    · rw [Sink.pass_of_isWorking working, granted.lines_eq, List.map_replicate, Line.text,
        Request.product, Size.text, product]
    · rw [Sink.events_pass, granted.trail_eq, Trail.events, allocationRecord, List.map_map]
      exact List.map_const'.trans (congrArg (List.replicate · _) List.length_range)
  · rw [request_of_refused refused] at ok
    cases ok

end

/-- Around an allocator without the contract, a layer records what is left of a product that wraps. -/
example :
    let after := (tracked (base fun _ => .ok ()) .empty).request .standardError
      (.array 0x100000000 0x100000000) ⟨"a"⟩ .boundary []
    after.allocator.ledgers = [⟨0, 1⟩] ∧ after.trail.lines = [.alloc 0 ⟨"a"⟩ .boundary] :=
  ⟨rfl, rfl⟩

end TrackedHeap.Allocator
