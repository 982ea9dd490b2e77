import TrackedHeap.Proofs.Text.Utf8
import TrackedHeap.Text.Quoted

/-!
# Reading quoted text back

One reader undoes both quoted forms.

* `Reading` : where a reader is, outside an escape or how far inside one;
* `Reading.step?` : takes it on by a character and gives the bytes that are complete then;
* `readBytes?` : the bytes of a quoted text;
* `IsControl`, `Escaped` : a control character, and a text whose quotes and backslashes all belong
  to escapes;
* `Writes` : a text that reads as some bytes, is escaped throughout and holds no control character.
  Every escape is one (`writes_named`, `writes_byteCode`, `writes_codePoint`), and so is what each
  quoted form makes of its parts (`writes_escapeChar`, `writes_escapePiece`);
* `readBytes?_quoteBytes`, `writes_quoteText` : quoting loses nothing.
-/

namespace TrackedHeap.Text

/-! ## The reader -/

/-- Where a reader of quoted text is. -/
inductive Reading where
  | start
  | plain
  | escape
  /-- Before the two digits of a byte. -/
  | byte
  /-- Before the second digit of a byte. -/
  | byteAfter (high : Nat)
  | brace
  /-- Inside the braces of a code point, whose digits so far have a value. -/
  | code (n : Nat)
  | closed
  deriving DecidableEq

/-- The value of a lower-case hexadecimal digit. -/
def hexDigit? (c : Char) : Option Nat :=
  (List.range 16).find? fun d => d.digitChar = c

/-- The character that an escape by name stands for. -/
def namedChar? : Char → Option Char
  | '0' => some '\x00'
  | 't' => some '\t'
  | 'n' => some '\n'
  | 'r' => some '\r'
  | '"' => some '"'
  | '\x27' => some '\x27'
  | '\\' => some '\\'
  | _ => none

namespace Reading

/-- Reads one character, and gives the bytes that are complete with it. -/
def step? : Reading → Char → Option (Reading × Bytes)
  | start, c => if c = '"' then some (plain, []) else none
  | plain, c =>
    if c = '"' then some (closed, [])
    else if c = '\\' then some (escape, [])
    else some (plain, String.utf8EncodeChar c)
  | escape, c =>
    match namedChar? c with
    | some named => some (plain, String.utf8EncodeChar named)
    | none =>
      if c = 'x' then some (byte, [])
      else if c = 'u' then some (brace, [])
      else none
  | byte, c => (hexDigit? c).map fun d => (byteAfter d, [])
  | byteAfter high, c => (hexDigit? c).map fun d => (plain, [UInt8.ofNat (high * 16 + d)])
  | brace, c => if c = '\x7b' then some (code 0, []) else none
  | code n, c =>
    if c = '\x7d' then some (plain, String.utf8EncodeChar (Char.ofNat n))
    else (hexDigit? c).map fun d => (code (n * 16 + d), [])
  | closed, _ => none

/-- Reads a text from where the reader is to where it ends. -/
def run? (reading : Reading) : List Char → Option (Reading × Bytes)
  | [] => some (reading, [])
  | c :: rest => do
    let (next, bytes) ← reading.step? c
    let (last, more) ← next.run? rest
    return (last, bytes ++ more)

theorem run?_cons {reading next last : Reading} {c : Char} {rest : List Char} {bytes more : Bytes}
    (h : reading.step? c = some (next, bytes)) (h' : next.run? rest = some (last, more)) :
    reading.run? (c :: rest) = some (last, bytes ++ more) := by
  rw [run?, h]
  simp only [Option.bind_eq_bind, Option.bind_some, h', Option.pure_def]

theorem run?_append {reading next last : Reading} {text rest : List Char} {bytes more : Bytes}
    (h : reading.run? text = some (next, bytes)) (h' : next.run? rest = some (last, more)) :
    reading.run? (text ++ rest) = some (last, bytes ++ more) := by
  induction text generalizing reading bytes with
  | nil =>
    obtain ⟨rfl, rfl⟩ := Prod.mk.inj (Option.some.inj h)
    exact h'
  | cons c text ih =>
    obtain ⟨⟨after, first⟩, hstep, h⟩ := Option.bind_eq_some_iff.1 h
    obtain ⟨⟨next', second⟩, hrun, h⟩ := Option.bind_eq_some_iff.1 h
    obtain ⟨rfl, rfl⟩ := Prod.mk.inj (Option.some.inj h)
    rw [List.cons_append, List.append_assoc]
    exact run?_cons hstep (ih hrun)

end Reading

/-- The bytes of a quoted text. -/
def readBytes? (text : List Char) : Option Bytes :=
  match Reading.start.run? text with
  | some (.closed, bytes) => some bytes
  | _ => none

/-! ## Digits -/

theorem hexDigit?_digitChar {d : Nat} (h : d < 16) : hexDigit? d.digitChar = some d := by
  have digits : ∀ d < 16, hexDigit? d.digitChar = some d := by decide
  exact digits d h

theorem digitChar_ne_brace {d : Nat} (h : d < 16) : d.digitChar ≠ '\x7d' := by
  have digits : ∀ d < 16, d.digitChar ≠ '\x7d' := by decide
  exact digits d h

open Reading in
/-- The digits of a number are read as its value. -/
theorem run?_toDigits (n : Nat) : (code 0).run? (Nat.toDigits 16 n) = some (code n, []) := by
  have digit : ∀ {m d : Nat}, d < 16 →
      (code m).run? [d.digitChar] = some (code (m * 16 + d), []) := by
    intro m d h
    have hstep : (code m).step? d.digitChar = some (code (m * 16 + d), []) := by
      rw [step?, if_neg (digitChar_ne_brace h), hexDigit?_digitChar h, Option.map_some]
    exact run?_cons hstep rfl
  induction n using Nat.strongRecOn with
  | ind n ih =>
    by_cases small : n < 16
    · rw [Nat.toDigits_of_lt_base small, digit small, Nat.zero_mul, Nat.zero_add]
    · rw [Nat.toDigits_of_base_le (by omega) (by omega)]
      have last := run?_append (ih (n / 16) (by omega)) (digit (Nat.mod_lt n (by omega)))
      rwa [Nat.div_add_mod'] at last

theorem exists_digitChar_of_mem_toDigits {n : Nat} {c : Char} (h : c ∈ Nat.toDigits 16 n) :
    ∃ d < 16, c = d.digitChar := by
  induction n using Nat.strongRecOn with
  | ind n ih =>
    by_cases small : n < 16
    · rw [Nat.toDigits_of_lt_base small, List.mem_singleton] at h
      exact ⟨n, small, h⟩
    · rw [Nat.toDigits_of_base_le (by omega) (by omega), List.mem_append, List.mem_singleton] at h
      rcases h with h | h
      · exact ih (n / 16) (by omega) h
      · exact ⟨n % 16, Nat.mod_lt n (by omega), h⟩

/-! ## Escaped text -/

/-- The code points of control characters, in ASCII and in the block after it. -/
def IsControl (c : Char) : Prop :=
  c.toNat < 0x20 ∨ (0x7f ≤ c.toNat ∧ c.toNat < 0xa0)

instance (c : Char) : Decidable (IsControl c) :=
  inferInstanceAs (Decidable (_ ∨ _))

theorem not_isControl_of_isPrintable {c : Char} (h : isPrintable c = true) : ¬IsControl c := by
  have shown : hiddenRanges.contains c.toNat = false := by simpa [isPrintable] using h
  rintro (low | ⟨low, high⟩)
  · have hidden : hiddenRanges.contains c.toNat = true :=
      Ranges.contains_cons_of_mem _ (Nat.zero_le _) (by omega)
    exact Bool.false_ne_true (shown.symm.trans hidden)
  · have hidden : hiddenRanges.contains c.toNat = true := by
      rw [hiddenRanges, Ranges.contains, if_neg (by omega),
        Ranges.contains_cons_of_mem _ low (by omega), Bool.or_true]
    exact Bool.false_ne_true (shown.symm.trans hidden)

/-- A character that stands for itself between quotes. -/
def IsOrdinary (c : Char) : Prop :=
  c ≠ '"' ∧ c ≠ '\\' ∧ ¬IsControl c

instance (c : Char) : Decidable (IsOrdinary c) :=
  inferInstanceAs (Decidable (_ ∧ _))

theorem isOrdinary_digitChar {d : Nat} (h : d < 16) : IsOrdinary d.digitChar := by
  have digits : ∀ d < 16, IsOrdinary d.digitChar := by decide
  exact digits d h

/-- A text whose quotes and backslashes all belong to escapes: a backslash takes the character after
it along. -/
inductive Escaped : List Char → Prop
  | nil : Escaped []
  | char {c : Char} {text : List Char} (quote : c ≠ '"') (backslash : c ≠ '\\')
    (rest : Escaped text) : Escaped (c :: text)
  | escape (c : Char) {text : List Char} (rest : Escaped text) : Escaped ('\\' :: c :: text)

namespace Escaped

theorem append {text rest : List Char} (h : Escaped text) (h' : Escaped rest) :
    Escaped (text ++ rest) := by
  induction h with
  | nil => exact h'
  | char quote backslash _ ih => exact .char quote backslash ih
  | escape c _ ih => exact .escape c ih

theorem of_isOrdinary {text : List Char} (h : ∀ c ∈ text, IsOrdinary c) : Escaped text := by
  induction text with
  | nil => exact .nil
  | cons c rest ih =>
    have hc := h c List.mem_cons_self
    exact .char hc.1 hc.2.1 (ih fun c' hc' => h c' (List.mem_cons_of_mem _ hc'))

end Escaped

/-! ## What is written -/

/-- A text that reads as some bytes, escaped throughout and without control characters. -/
structure Writes (text : List Char) (bytes : Bytes) : Prop where
  reads : Reading.plain.run? text = some (.plain, bytes)
  escaped : Escaped text
  visible : ∀ c ∈ text, ¬IsControl c

theorem Writes.nil : Writes [] [] :=
  ⟨rfl, .nil, by simp⟩

theorem Writes.append {text rest : List Char} {bytes more : Bytes} (h : Writes text bytes)
    (h' : Writes rest more) : Writes (text ++ rest) (bytes ++ more) where
  reads := Reading.run?_append h.reads h'.reads
  escaped := h.escaped.append h'.escaped
  visible c hc := (List.mem_append.1 hc).elim (h.visible c) (h'.visible c)

/-- A text is written part by part. -/
theorem Writes.flatMap {α : Type} {write : α → List Char} {bytesOf : α → Bytes}
    (h : ∀ part, Writes (write part) (bytesOf part)) (parts : List α) :
    Writes (parts.flatMap write) (parts.flatMap bytesOf) := by
  induction parts with
  | nil => exact .nil
  | cons part rest ih =>
    rw [List.flatMap_cons, List.flatMap_cons]
    exact (h part).append ih

section
open Reading

theorem writes_char {c : Char} (ordinary : IsOrdinary c) :
    Writes [c] (String.utf8EncodeChar c) where
  reads := by
    have hstep : plain.step? c = some (plain, String.utf8EncodeChar c) := by
      rw [step?, if_neg ordinary.1, if_neg ordinary.2.1]
    rw [run?_cons hstep rfl, List.append_nil]
  escaped := .of_isOrdinary (by simpa using ordinary)
  visible := by simpa using ordinary.2.2

/-- An escape is a backslash, one character that is no control, and ordinary ones. -/
theorem writes_escape {c : Char} {rest : List Char} {bytes : Bytes} (visible : ¬IsControl c)
    (ordinary : ∀ d ∈ rest, IsOrdinary d)
    (reads : escape.run? (c :: rest) = some (plain, bytes)) : Writes ('\\' :: c :: rest) bytes where
  reads := by
    have hstep : plain.step? '\\' = some (escape, []) := rfl
    exact run?_cons hstep reads
  escaped := .escape c (.of_isOrdinary ordinary)
  visible := by
    have backslash : ¬IsControl '\\' := by decide
    simpa using ⟨backslash, visible, fun d hd => (ordinary d hd).2.2⟩

theorem writes_named {name c : Char} (h : namedChar? name = some c) (visible : ¬IsControl name) :
    Writes (named name) (String.utf8EncodeChar c) := by
  have hstep : escape.step? name = some (plain, String.utf8EncodeChar c) := by
    rw [step?, h]
  refine writes_escape visible (by simp) ?_
  rw [run?_cons hstep rfl, List.append_nil]

theorem writes_byteCode (b : UInt8) : Writes (byteCode b) [b] := by
  have high : b.toNat / 16 < 16 := by have := b.toNat_lt; omega
  have low : b.toNat % 16 < 16 := Nat.mod_lt _ (by omega)
  have hhigh : byte.step? (b.toNat / 16).digitChar = some (byteAfter (b.toNat / 16), []) := by
    rw [step?, hexDigit?_digitChar high, Option.map_some]
  have hlow : (byteAfter (b.toNat / 16)).step? (b.toNat % 16).digitChar = some (plain, [b]) := by
    rw [step?, hexDigit?_digitChar low, Option.map_some, Nat.div_add_mod', UInt8.ofNat_toNat]
  have hletter : escape.step? 'x' = some (byte, []) := by decide
  refine writes_escape (by decide) ?_ (run?_cons hletter (run?_cons hhigh (run?_cons hlow rfl)))
  intro d hd
  rw [List.mem_cons, List.mem_singleton] at hd
  rcases hd with rfl | rfl
  · exact isOrdinary_digitChar high
  · exact isOrdinary_digitChar low

theorem writes_codePoint (c : Char) : Writes (codePoint c) (String.utf8EncodeChar c) := by
  have hclose : (code c.toNat).run? ['\x7d'] = some (plain, String.utf8EncodeChar c) := by
    have hstep : (code c.toNat).step? '\x7d' = some (plain, String.utf8EncodeChar c) := by
      rw [step?, if_pos rfl, Char.ofNat_toNat]
    rw [run?_cons hstep rfl, List.append_nil]
  have hopen : escape.run? ['u', '\x7b'] = some (code 0, []) := by decide
  have hread := run?_append (run?_append hopen (run?_toDigits c.toNat)) hclose
  refine writes_escape (by decide) ?_ hread
  intro d hd
  rcases List.mem_append.1 hd with hd | hd
  · rcases List.mem_cons.1 hd with rfl | hd
    · decide
    · obtain ⟨n, small, rfl⟩ := exists_digitChar_of_mem_toDigits hd
      exact isOrdinary_digitChar small
  · rw [List.mem_singleton.1 hd]
    decide

end

/-! ## Quoted forms -/

/-- A character is written by a name if it is the one with that name. -/
theorem writes_named_or {c standsFor name : Char} {other : List Char}
    (h : namedChar? name = some standsFor) (visible : ¬IsControl name)
    (otherwise : c ≠ standsFor → Writes other (String.utf8EncodeChar c)) :
    Writes (if c = standsFor then named name else other) (String.utf8EncodeChar c) := by
  split
  case isTrue same => exact same ▸ writes_named h visible
  case isFalse different => exact otherwise different

theorem writes_escapeChar (c : Char) : Writes (escapeChar c) (String.utf8EncodeChar c) := by
  refine writes_named_or rfl (by decide) fun _ => ?_
  refine writes_named_or rfl (by decide) fun _ => ?_
  refine writes_named_or rfl (by decide) fun _ => ?_
  refine writes_named_or rfl (by decide) fun _ => ?_
  refine writes_named_or rfl (by decide) fun quote => ?_
  refine writes_named_or rfl (by decide) fun backslash => ?_
  split
  case isTrue printable =>
    exact writes_char ⟨quote, backslash, not_isControl_of_isPrintable printable⟩
  case isFalse => exact writes_codePoint c

theorem utf8EncodeChar_of_lt {c : Char} (h : c.toNat < 0x80) :
    String.utf8EncodeChar c = [c.toNat.toUInt8] := by
  have small : (c.toNat.toUInt8).toNat = c.toNat := Nat.mod_eq_of_lt (by omega)
  have encoded := Utf8.encode_one (a := c.toNat.toUInt8) (by omega)
  rwa [small, Char.ofNat_toNat] at encoded

theorem writes_escapeAscii {c : Char} (h : c.toNat < 0x80) :
    Writes (escapeAscii c) (String.utf8EncodeChar c) := by
  refine writes_named_or rfl (by decide) fun _ => ?_
  refine writes_named_or rfl (by decide) fun _ => ?_
  refine writes_named_or rfl (by decide) fun _ => ?_
  refine writes_named_or rfl (by decide) fun quote => ?_
  refine writes_named_or rfl (by decide) fun _ => ?_
  refine writes_named_or rfl (by decide) fun backslash => ?_
  split
  case isTrue printable =>
    exact writes_char ⟨quote, backslash, not_isControl_of_isPrintable printable⟩
  case isFalse => exact utf8EncodeChar_of_lt h ▸ writes_byteCode c.toNat.toUInt8

/-- Quotes and backslashes are ASCII. -/
theorem isOrdinary_of_isPrintable {c : Char} (printable : isPrintable c = true)
    (large : 0x80 ≤ c.toNat) : IsOrdinary c := by
  refine ⟨?_, ?_, not_isControl_of_isPrintable printable⟩
  · rintro rfl
    exact absurd large (by decide)
  · rintro rfl
    exact absurd large (by decide)

theorem writes_escapePiece (piece : Utf8.Piece) : Writes (escapePiece piece) piece.bytes := by
  cases piece with
  | char c =>
    rw [escapePiece]
    split
    case isTrue small => exact writes_escapeAscii small
    case isFalse large =>
      split
      case isTrue printable =>
        exact writes_char (isOrdinary_of_isPrintable printable (Nat.not_lt.1 large))
      case isFalse => exact writes_codePoint c
  | broken bytes =>
    have written := Writes.flatMap writes_byteCode bytes
    rwa [List.flatMap_singleton'] at written

/-- The closing quote ends the text. -/
theorem Writes.run?_closed {body : List Char} {bytes : Bytes} (h : Writes body bytes) :
    Reading.plain.run? (body ++ ['"']) = some (.closed, bytes) := by
  have hclose : Reading.plain.run? ['"'] = some (.closed, []) := rfl
  have hbody := Reading.run?_append h.reads hclose
  rwa [List.append_nil] at hbody

/-- What stands between quotes is read back. -/
theorem readBytes?_enclose {body : List Char} {bytes : Bytes} (h : Writes body bytes) :
    readBytes? (enclose body) = some bytes := by
  have hread : Reading.start.run? (enclose body) = some (.closed, [] ++ bytes) :=
    Reading.run?_cons rfl h.run?_closed
  rw [readBytes?, hread, List.nil_append]

theorem writes_quoteBytes (bytes : Bytes) :
    Writes ((Utf8.pieces bytes).flatMap escapePiece) bytes := by
  have written := Writes.flatMap writes_escapePiece (Utf8.pieces bytes)
  rwa [Utf8.flatMap_bytes_pieces] at written

/-- **Quoted bytes are read back**, whether they are text or not. -/
theorem readBytes?_quoteBytes (bytes : Bytes) : readBytes? (quoteBytes bytes) = some bytes :=
  readBytes?_enclose (writes_quoteBytes bytes)

theorem writes_quoteText (text : List Char) :
    Writes (text.flatMap escapeChar) (Utf8.encode text) :=
  Writes.flatMap writes_escapeChar text

end TrackedHeap.Text
