import TrackedHeap.Program.Run
import TrackedHeap.Proofs.Memory.TextOrder

/-!
# Comparing texts

* `CText.IsTextOrder` : a comparison that gives the sign found where two memories are read in step,
  that orders all texts, and that tells an absent text from all others;
* `Program.perform_compareString` : a call that compares two memories gives the comparison of their
  texts and does nothing else;
* `Program.compareString_isTextOrder` : that comparison is one.
-/

namespace TrackedHeap

/-- A comparison of texts that may be absent: a total order on those that are there, by their bytes,
and one that tells an absent text from all others. -/
structure CText.IsTextOrder (compare : Option CText → Option CText → Int) : Prop where
  /-- The sign that is found where two memories with the texts are read in step. -/
  scan : ∀ (a b : CText) (r r' : Region), r.Holds a.bytes → r'.Holds b.bytes →
    ∀ v, r.Scan r' 0 v ↔ v = compare (some a) (some b)
  sign : ∀ a b : CText, compare (some a) (some b) = -1 ∨ compare (some a) (some b) = 0 ∨
    compare (some a) (some b) = 1
  eq_zero_iff : ∀ a b : CText, compare (some a) (some b) = 0 ↔ a.bytes = b.bytes
  swap : ∀ a b : CText, compare (some b) (some a) = -compare (some a) (some b)
  trans : ∀ a b c : CText, compare (some a) (some b) ≤ 0 → compare (some b) (some c) ≤ 0 →
    compare (some a) (some c) ≤ 0 ∧
      (compare (some a) (some b) < 0 ∨ compare (some b) (some c) < 0 →
        compare (some a) (some c) < 0)
  /-- A common start makes no difference. -/
  append : ∀ (start : Bytes) (a b joined joined' : CText), joined.bytes = start ++ a.bytes →
    joined'.bytes = start ++ b.bytes →
      compare (some joined) (some joined') = compare (some a) (some b)
  absent : ∀ a b : Option CText, a = none ∨ b = none →
    compare a b = if a = none ∧ b = none then 0 else 1
  equivalence : Equivalence fun a b => compare a b = 0

namespace Program

/-- Comparing two memories that hold texts changes and records nothing. -/
theorem perform_compareString {p : Program} {x y : Address} {slot slot' : Slot} {a b : CText}
    (found : p.heap.find? x = some slot) (found' : p.heap.find? y = some slot')
    (left : slot.region.Holds a.bytes) (right : slot'.region.Holds b.bytes) :
    p.perform ⟨.compareString (.held x) (.held y), none⟩ =
      (p, ⟨some (.number (CText.compare (some a) (some b))), [], .empty, p.manager.ledger?⟩) := by
  have hleft : (Operand.held x).upToNul? p.heap = some (some a) := by
    simp only [Operand.upToNul?, Operand.resolve?, found, Region.text?_eq_some_iff.2 left,
      CText.ofBytes?_bytes, Option.bind_eq_bind, Option.bind_some, Option.pure_def]
  have hright : (Operand.held y).upToNul? p.heap = some (some b) := by
    simp only [Operand.upToNul?, Operand.resolve?, found', Region.text?_eq_some_iff.2 right,
      CText.ofBytes?_bytes, Option.bind_eq_bind, Option.bind_some, Option.pure_def]
  simp only [perform, statement?, call?, hleft, hright, Option.all_none, if_true,
    Option.bind_eq_bind, Option.bind_some, Option.pure_def, answer]

/-- **Comparing texts gives the sign of their first difference, and that is an order.** Two memories
that hold texts are compared by a call just so, whatever lies behind their NULs. -/
theorem compareString_isTextOrder :
    CText.IsTextOrder CText.compare ∧
      ∀ (p : Program) (x y : Address) (slot slot' : Slot) (a b : CText),
        p.heap.find? x = some slot → p.heap.find? y = some slot' →
        slot.region.Holds a.bytes → slot'.region.Holds b.bytes →
          ∃ v, slot.region.Scan slot'.region 0 v ∧
            p.perform ⟨.compareString (.held x) (.held y), none⟩ =
              (p, ⟨some (.number v), [], .empty, p.manager.ledger?⟩) := by
  refine ⟨?_, fun p x y slot slot' a b found found' left right => ?_⟩
  · constructor
    case scan =>
      intro a b r r' left right v
      exact Region.scan_iff left right
    case sign =>
      intro a b
      rw [CText.compare]
      cases CText.order a.bytes b.bytes
      · exact .inl rfl
      · exact .inr (.inl rfl)
      · exact .inr (.inr rfl)
    case eq_zero_iff =>
      intro a b
      rw [CText.compare_eq_zero_iff, Option.some.injEq]
      exact ⟨fun h => h ▸ rfl, CText.ext⟩
    case swap =>
      intro a b
      rw [CText.compare, CText.compare, CText.order_swap, CText.sign_swap]
    case trans =>
      intro a b c
      exact CText.compare_trans
    case append =>
      intro start a b joined joined' hjoined hjoined'
      rw [CText.compare, CText.compare, hjoined, hjoined', CText.order_append_left]
    case absent =>
      intro a b habsent
      cases a with
      | none => cases b <;> simp [CText.compare]
      | some a => cases b <;> simp_all [CText.compare]
    case equivalence =>
      simp only [CText.compare_eq_zero_iff]
      exact eq_equivalence
  · exact ⟨_, (Region.scan_iff left right).2 rfl, perform_compareString found found' left right⟩

/-- Bytes count as unsigned, and what lies behind a NUL does not count. -/
theorem compareString_isTextOrder_unsigned :
    let left : Region := ⟨4, [some 0x61, some 0xc3, some 0, none], none⟩
    let right : Region := ⟨3, [some 0x61, some 0x7a, some 0], none⟩
    let p : Program := ⟨false, [(⟨"a"⟩, ⟨.raw, left⟩), (⟨"b"⟩, ⟨.raw, right⟩)], .plain .unbounded⟩
    left.Scan right 0 1 ∧
      (p.perform ⟨.compareString (.held ⟨"a"⟩) (.held ⟨"b"⟩), none⟩).2.answer =
        some (.number 1) := by
  intro left right p
  have hleft : left.Holds [0x61, 0xc3] := Region.text?_eq_some_iff.1 (by decide)
  have hright : right.Holds [0x61, 0x7a] := Region.text?_eq_some_iff.1 (by decide)
  obtain ⟨order, calls⟩ := compareString_isTextOrder
  have hscan : left.Scan right 0 1 :=
    (order.scan ⟨[0x61, 0xc3], by decide, by decide⟩ ⟨[0x61, 0x7a], by decide, by decide⟩
      left right hleft hright 1).2 (by decide)
  obtain ⟨v, hv, hperform⟩ := calls p ⟨"a"⟩ ⟨"b"⟩ ⟨.raw, left⟩ ⟨.raw, right⟩
    ⟨[0x61, 0xc3], by decide, by decide⟩ ⟨[0x61, 0x7a], by decide, by decide⟩ rfl rfl hleft hright
  rw [hperform, hv.unique hscan]
  exact ⟨hscan, rfl⟩

end Program

end TrackedHeap
