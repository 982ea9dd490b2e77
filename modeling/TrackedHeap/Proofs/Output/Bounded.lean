import TrackedHeap.Memory.CText
import TrackedHeap.Output.Bounded

/-!
# What a writer that fills up keeps

* `Bounded.writeAll_append_of_le`, `Bounded.writeAll_append_of_lt` : bytes written in two parts, by
  whether the first of them fits;
* `Bounded.writePieces_eq` : pieces end as all their bytes at once, so it makes no difference where
  they are cut;
* `Value` : what can be printed, with its pieces and its whole line (`bytesOf_pieces`);
* `Bounded.Keeps` : the start of a line for which there is room is kept, and the write fails exactly
  when something of the line is left over;
* `Bounded.writePieces_value` : so it is for every value, capacity and way to cut its line.
-/

namespace TrackedHeap.Output

/-! ## Pieces -/

namespace Bounded
variable {w : Bounded}

theorem room_ofCapacity (capacity : Nat) : (ofCapacity capacity).room = capacity := rfl

theorem writeAll_of_le {piece : Bytes} (fits : piece.length ≤ w.room) :
    w.writeAll piece = (⟨w.capacity, w.written ++ piece⟩, .complete) := by
  rw [writeAll, List.take_of_length_le fits, if_pos fits]

theorem writeAll_of_lt {piece : Bytes} (large : w.room < piece.length) :
    w.writeAll piece = (⟨w.capacity, w.written ++ piece.take w.room⟩, .writeZero) := by
  rw [writeAll, if_neg (Nat.not_le.2 large)]

/-- What was written is taken off the room. -/
theorem room_append (w : Bounded) (piece : Bytes) :
    room ⟨w.capacity, w.written ++ piece⟩ = w.room - piece.length := by
  rw [room, room, List.length_append, Nat.sub_add_eq]

/-- After a part that fits, the rest goes into the room that is left. -/
theorem writeAll_append_of_le {first : Bytes} (fits : first.length ≤ w.room) (rest : Bytes) :
    w.writeAll (first ++ rest) = writeAll ⟨w.capacity, w.written ++ first⟩ rest := by
  have left : (first ++ rest).length ≤ w.room ↔ rest.length ≤ w.room - first.length := by
    rw [List.length_append]
    omega
  rw [writeAll, writeAll, room_append, List.take_append, List.take_of_length_le fits,
    List.append_assoc]
  simp only [left]

/-- After a part that does not fit, nothing of the rest is written. -/
theorem writeAll_append_of_lt {first : Bytes} (large : w.room < first.length) (rest : Bytes) :
    w.writeAll (first ++ rest) = w.writeAll first := by
  have larger : w.room < (first ++ rest).length := by
    rw [List.length_append]
    omega
  rw [writeAll_of_lt large, writeAll_of_lt larger, List.take_append_of_le_length (Nat.le_of_lt large)]

/-- **It makes no difference where bytes are cut into pieces.** By induction on the pieces, with what
is already written, and so the room that is left, changing from one to the next. -/
theorem writePieces_eq (w : Bounded) (pieces : Pieces) :
    w.writePieces pieces = w.writeAll (bytesOf pieces) := by
  induction pieces generalizing w with
  | nil =>
    have empty : ([] : Bytes).length ≤ w.room := Nat.zero_le w.room
    rw [writePieces, bytesOf, List.flatten_nil, writeAll_of_le empty, List.append_nil]
  | cons piece rest ih =>
    rw [writePieces, bytesOf, List.flatten_cons]
    by_cases fits : piece.length ≤ w.room
    · rw [writeAll_of_le fits, writeAll_append_of_le fits]
      exact ih _
    · have large := Nat.not_le.1 fits
      rw [writeAll_append_of_lt large, writeAll_of_lt large]

/-- A line as a writer keeps it that had nothing before: as much as there is room for, with a failure
exactly when that is not all. -/
structure Keeps (capacity : Nat) (line : Bytes) (after : Bounded × WriteResult) : Prop where
  written : after.1 = ⟨capacity, line.take (min capacity line.length)⟩
  writeZero_iff : after.2 = .writeZero ↔ capacity < line.length

theorem keeps_writePieces {capacity : Nat} {line : Bytes} {pieces : Pieces}
    (cut : bytesOf pieces = line) :
    Keeps capacity line ((ofCapacity capacity).writePieces pieces) := by
  rw [writePieces_eq, cut]
  by_cases fits : line.length ≤ (ofCapacity capacity).room
  · rw [writeAll_of_le fits]
    rw [room_ofCapacity] at fits
    refine ⟨?_, iff_of_false (nomatch ·) (Nat.not_lt.2 fits)⟩
    rw [Nat.min_eq_right fits, List.take_length]
    rfl
  · have large := Nat.not_le.1 fits
    rw [writeAll_of_lt large]
    rw [room_ofCapacity] at large ⊢
    refine ⟨?_, iff_of_true rfl large⟩
    rw [Nat.min_eq_left (Nat.le_of_lt large)]
    rfl

end Bounded

/-! ## Values -/

/-- What can be printed. -/
inductive Value where
  | int (n : Int32)
  | double (x : Double)
  | string (text? : Option CText)

namespace Value

/-- The pieces in which a value is written. -/
def pieces : Value → Pieces
  | int n => intLine n
  | double x => doubleLine x
  | string text? => stringLine (text?.map CText.bytes)

/-- All that is written for a value where nothing limits it: its text and a line feed, and nothing for
an absent string. -/
def line : Value → Bytes
  | int n => Utf8.encode (Number.intText n.toInt) ++ [lineFeed]
  | double x => Utf8.encode (Number.doubleText x) ++ [lineFeed]
  | string none => []
  | string (some text) => text.bytes ++ [lineFeed]

theorem bytesOf_pieces (value : Value) : bytesOf value.pieces = value.line := by
  match value with
  | int n => simp [bytesOf, pieces, intLine, line]
  | double x => simp [bytesOf, pieces, doubleLine, line]
  | string none => rfl
  | string (some text) => exact bytesOf_stringLine_some text.bytes

end Value

/-- **A writer that fills up keeps the start of a line**, and fails exactly when the line, with its
line feed, is longer than it can hold; whatever the value, and wherever its line is cut. -/
theorem Bounded.writePieces_value (value : Value) (capacity : Nat) :
    Keeps capacity value.line ((ofCapacity capacity).writePieces value.pieces) ∧
      ∀ pieces : Pieces, bytesOf pieces = value.line →
        Keeps capacity value.line ((ofCapacity capacity).writePieces pieces) :=
  ⟨keeps_writePieces value.bytesOf_pieces, fun _ cut => keeps_writePieces cut⟩

/-- A string whose line feed alone does not fit, in pieces that end elsewhere. -/
theorem Bounded.writePieces_value_lineFeed :
    let pieces : Pieces := [[0x61], [], [0x62, lineFeed]]
    bytesOf pieces = (Value.string (some ⟨[0x61, 0x62], by decide, by decide⟩)).line ∧
      (ofCapacity 2).writePieces pieces = (⟨2, [0x61, 0x62]⟩, .writeZero) := by
  intro pieces
  have kept := (writePieces_value (.string (some ⟨[0x61, 0x62], by decide, by decide⟩)) 2).2
    pieces rfl
  exact ⟨rfl, Prod.ext kept.written (kept.writeZero_iff.2 (by decide))⟩

/-- No room is enough for an absent string, and not for an empty one. -/
example : ((Bounded.ofCapacity 0).writePieces (Value.string none).pieces).2 = .complete ∧
    ((Bounded.ofCapacity 0).writePieces (Value.string (some ⟨[], by decide, by decide⟩)).pieces).2 =
      .writeZero := by
  decide

end TrackedHeap.Output
