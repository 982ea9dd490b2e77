import TrackedHeap.Proofs.Session.Refusal
import TrackedHeap.Proofs.Text.Escapes

/-!
# Descriptions of strings

* `StringView.Shows` : the value that a string shows among its fields, which its bytes alone decide
  (`shows_iff`);
* `Session.perform_describe` : a string is described by the bytes that lie in its memory;
* `StringView.fields_lossless` : the value shows all bytes, on one line and between quotes of its
  own.
-/

namespace TrackedHeap

open Text

namespace StringView

/-- What a string shows as its value. -/
def Shows (view : StringView) (value : String) : Prop :=
  view.fields = "OwnedString \x7b ptr: " ++ view.address.text ++ ", value: " ++ value ++ " \x7d"

theorem shows_iff {view : StringView} {value : String} :
    view.Shows value ↔ value = String.ofList (quoteBytes view.bytes) := by
  unfold Shows fields
  generalize String.ofList (quoteBytes view.bytes) = shown
  rw [String.append_left_inj, String.append_right_inj]
  exact eq_comm

/-- A value from which all bytes are read back. It is well-formed text without control characters,
in quotes of its own: every other quote, and every backslash, belongs to an escape. -/
structure Lossless (bytes : Bytes) (value : String) : Prop where
  reads : readBytes? value.toList = some bytes
  wellFormed : Utf8.decode? (Utf8.ofString value) = some value.toList
  visible : ∀ c ∈ value.toList, ¬IsControl c
  quoted : ∃ body, value.toList = '"' :: body ++ ['"'] ∧ Escaped body

theorem lossless_quoteBytes (bytes : Bytes) :
    Lossless bytes (String.ofList (quoteBytes bytes)) where
  reads := by rw [String.toList_ofList, readBytes?_quoteBytes]
  wellFormed := Utf8.decode?_encode _
  visible c hc := by
    have quote : ¬IsControl '"' := by decide
    rw [String.toList_ofList, quoteBytes, enclose] at hc
    rcases List.mem_append.1 hc with hc | hc
    · rcases List.mem_cons.1 hc with rfl | hc
      · exact quote
      · exact (writes_quoteBytes bytes).visible c hc
    · rw [List.mem_singleton.1 hc]
      exact quote
  quoted := ⟨_, String.toList_ofList, (writes_quoteBytes bytes).escaped⟩

end StringView

/-- A string is described by the bytes that lie in its memory. -/
theorem Session.perform_describe {s : Session} {i : Nat} {a : Address} {slot : Slot} {length : Size}
    {bytes : Bytes} (index_lt : i < s.managers.length) (found : s.heap.find? a = some slot)
    (string : slot.HoldsString length bytes) :
    s.perform ⟨i, .describe a, none⟩ =
      (s, ⟨some (.description ⟨a, length, bytes, bytes ++ [0]⟩), .empty, s.ledger? i⟩) := by
  have manager : s.managers[i]? = some s.managers[i] := List.getElem?_eq_getElem index_lt
  have hstep : s.step? ⟨i, .describe a, none⟩ =
      some ⟨s, .description ⟨a, length, bytes, bytes ++ [0]⟩, .empty⟩ := by
    simp only [step?, Option.all_none, if_true, operate?, manager, through?,
      view?_of_holdsString found string, Option.bind_eq_bind, Option.bind_some, Option.pure_def]
    rfl
  rw [perform_of_step? hstep]

/-- **The description of a string loses none of its bytes.** One reader gets them back from the
value that is shown, so strings with different bytes show different values. -/
theorem StringView.fields_lossless :
    (∀ view : StringView, ∃ value, view.Shows value ∧ Lossless view.bytes value) ∧
      (∀ (view view' : StringView) (value : String), view.Shows value → view'.Shows value →
        view.bytes = view'.bytes) ∧
      ∀ (s : Session) (i : Nat) (a : Address) (slot : Slot) (length : Size) (bytes : Bytes),
        i < s.managers.length → s.heap.find? a = some slot → slot.HoldsString length bytes →
          s.perform ⟨i, .describe a, none⟩ =
            (s, ⟨some (.description ⟨a, length, bytes, bytes ++ [0]⟩), .empty, s.ledger? i⟩) := by
  refine ⟨fun view => ⟨_, shows_iff.2 rfl, lossless_quoteBytes view.bytes⟩, ?_,
    fun _ _ _ _ _ _ index_lt found string => Session.perform_describe index_lt found string⟩
  intro view view' value shows shows'
  have same := (shows_iff.1 shows).symm.trans (shows_iff.1 shows')
  have read := (lossless_quoteBytes view.bytes).reads
  rw [same, (lossless_quoteBytes view'.bytes).reads] at read
  exact (Option.some.inj read).symm

/-- A byte that no character starts with, beside a quote, a backslash and a letter of two bytes. -/
theorem StringView.fields_lossless_broken :
    let view : StringView := ⟨⟨"1"⟩, 6, [0xff, 0x61, 0x22, 0x5c, 0xc3, 0xa9], []⟩
    let value : String := "\"\\xffa\\\"\\\\é\""
    view.Shows value ∧ readBytes? value.toList = some view.bytes := by
  intro view value
  have shows : view.Shows value := shows_iff.2 (by decide +kernel)
  obtain ⟨value', shows', lossless⟩ := fields_lossless.1 view
  have same : value' = value := (shows_iff.1 shows').trans (shows_iff.1 shows).symm
  exact ⟨shows, same ▸ lossless.reads⟩

end TrackedHeap
