import TrackedHeap.Proofs.CommandLine.Effect
import TrackedHeap.Proofs.CommandLine.Words
import TrackedHeap.Proofs.Number.Integers

/-!
# A printed integer on the command line

The command for integers does not declare that its value may start with the minus sign of a number, as
the one for doubles does. So the text of a negative integer is short options to it, which it does not
have, and only behind two dashes is it a value.

* `ofBytes_intText`, `ofBytes_intText_of_neg` : the text of an integer as a word;
* `read_intText` : every integer is read back from its text;
* `console_printInt_printed` : what an integer prints, given back as the value, is printed again when
  it is not negative, and rejected when it is.
-/

namespace TrackedHeap.CommandLine

/-! ## Texts of integers as words -/

/-- The digits of a number start with no dash, and with no letter. -/
theorem exists_encode_toDigits_eq_cons (n : Nat) :
    ∃ first rest, Utf8.encode (Nat.toDigits 10 n) = first :: rest ∧ isDigitByte first = true := by
  obtain ⟨first, rest, hcons⟩ := List.exists_cons_of_ne_nil (encode_toDigits_ne_nil n)
  refine ⟨first, rest, hcons, ?_⟩
  have hdigits := all_isDigitByte_encode fun c hc => Number.isDigit_of_mem_toDigits (n := n) hc
  rw [hcons] at hdigits
  exact hdigits first List.mem_cons_self

theorem ofBytes_intText {n : Int} (h : 0 ≤ n) :
    Word.ofBytes (Utf8.encode (Number.intText n)) = .plain := by
  obtain ⟨first, rest, hcons, hfirst⟩ := exists_encode_toDigits_eq_cons n.natAbs
  rw [Number.intText, if_neg (by omega), hcons]
  exact ofBytes_of_ne_dash (ne_of_isDigitByte hfirst rfl) rest

/-- The text of a negative integer looks like short options, the first of them a digit. -/
theorem ofBytes_intText_of_neg {n : Int} (h : n < 0) :
    ∃ first rest, Word.ofBytes (Utf8.encode (Number.intText n)) = .short first rest ∧
      isDigitByte first = true := by
  obtain ⟨first, rest, hcons, hfirst⟩ := exists_encode_toDigits_eq_cons n.natAbs
  refine ⟨first, rest, ?_, hfirst⟩
  rw [Number.intText, if_pos h, encode_cons_minus, hcons]
  exact ofBytes_dash (ne_of_isDigitByte hfirst rfl) rest

/-- Every integer is read back from its text, whatever its sign. -/
theorem read_intText (n : Int32) :
    ValueKind.int.read (Utf8.encode (Number.intText n.toInt)) = .ok (.int n) := by
  have hrange : Int32.minValue.toInt ≤ n.toInt ∧ n.toInt ≤ Int32.maxValue.toInt :=
    ⟨n.minValue_le_toInt, n.toInt_le⟩
  simp only [ValueKind.read, Utf8.decode?_encode, ValueKind.ofText?, Number.readSigned_intText,
    if_pos hrange, Int32.ofInt_toInt]

/-- Short options are no value of a command without negative numbers, and it has none of its own but
the one for help. -/
theorem Progress.word_short {s : Signature} (positive : s.negativeNumbers = false) {bytes : Bytes}
    {first : UInt8} {rest : Bytes} (hshort : Word.ofBytes bytes = .short first rest)
    (hfirst : isDigitByte first = true) (debugMemory : Bool) :
    word s ⟨debugMemory, false, false, .nothing, none, []⟩ bytes = .error .unknownArgument := by
  have hhelp : first ≠ 0x68 := ne_of_isDigitByte hfirst rfl
  simp only [word, if_neg Bool.false_ne_true, hshort, positive, Bool.false_and, if_neg hhelp]

/-! ## On the console -/

theorem bytesOf_intLine (n : Int32) :
    Output.bytesOf (Output.intLine n) =
      Utf8.encode (Number.intText n.toInt) ++ [Output.lineFeed] := by
  simp [Output.bytesOf, Output.intLine]

theorem Command.run_printInt (n : Int32) (base : Base) (l : Ledger) (layers : Nat) :
    ∃ left, (printInt n).run (.onHost base l layers) [] = left ∧
      left.printed = Output.bytesOf (Output.intLine n) ∧ left.result = .ok () := by
  rw [run, printed_onHost]
  exact ⟨_, rfl, rfl, rfl⟩

/-- **What an integer prints, its decimal numeral, is read back as that integer, whatever its sign;
but on a command line only an integer that is not negative is printed again.** The text of a negative
one is rejected wherever the flag stands, and nothing is printed. Behind two dashes every integer is
printed again. The host does not matter. -/
theorem console_printInt_printed {default c : Configuration} {value? : Option Bytes} (host : Host)
    (valid : Configuration.ofVariable default value? = .ok c) (n : Int32) (place : FlagPlace) :
    let printed := Output.bytesOf (Output.intLine n)
    let shown := console host (valueWords .printInt printed.dropLast place) default value?
    printed = Utf8.encode n.toInt.repr.toList ++ [Output.lineFeed] ∧
      ValueKind.int.read printed.dropLast = .ok (.int n) ∧
      (0 ≤ n → shown.Prints printed) ∧
      (n < 0 → shown = ParseError.unknownArgument.console host) ∧
      ∀ flag,
        (console host (flagWords flag ++ trailingWords .printInt printed.dropLast) default
          value?).Prints printed := by
  intro printed shown
  have hprinted : printed = _ := bytesOf_intLine n
  have hargument : printed.dropLast = Utf8.encode (Number.intText n.toInt) := by
    rw [hprinted, List.dropLast_concat]
  have positional : Verb.printInt.signature.positional = some .int := rfl
  have hread := read_intText n
  have hrun := Command.run_printInt n host.base .empty
  refine ⟨?_, ?_, fun nonneg => ?_, fun neg => ?_, fun flag => ?_⟩
  · rw [hprinted, Number.intText_eq]
  · rw [hargument, hread]
  · have hplain := ofBytes_intText (Int32.le_iff_toInt_le.1 nonneg)
    have hparse := parse_valueWords (Progress.word_plain positional hplain) positional hread
      (fun _ => rfl) place
    rw [← hargument] at hparse
    exact console_prints hparse valid hrun
  · obtain ⟨first, rest, hshort, hfirst⟩ := ofBytes_intText_of_neg (Int32.lt_iff_toInt_lt.1 neg)
    have positive : Verb.printInt.signature.negativeNumbers = false := rfl
    have hparse := parse_valueWords_of_error (Progress.word_short positive hshort hfirst) place
    rw [← hargument] at hparse
    exact console_of_error hparse host default value?
  · have hparse := parseFrom_trailingWords positional hread rfl flag
    rw [← hargument, ← parse_flagWords] at hparse
    exact console_prints hparse valid hrun

/-- The least integer is rejected as a value, and printed behind two dashes. -/
theorem console_printInt_printed_least :
    let host : Host := ⟨.unbounded, fun _ => ""⟩
    (console host (valueWords .printInt (Utf8.ofString "-2147483648") .afterValue) ⟨false⟩
        (some (Utf8.ofString "off"))).status = 2 ∧
      (console host (flagWords true ++ trailingWords .printInt (Utf8.ofString "-2147483648"))
        ⟨false⟩ (some (Utf8.ofString "off"))).output = Utf8.ofString "-2147483648\n" := by
  intro host
  have valid : Configuration.ofVariable ⟨false⟩ (some (Utf8.ofString "off")) = .ok ⟨false⟩ := by
    decide +kernel
  have hline : Output.bytesOf (Output.intLine (-2147483648)) = Utf8.ofString "-2147483648\n" := by
    decide +kernel
  have hword : (Output.bytesOf (Output.intLine (-2147483648))).dropLast =
      Utf8.ofString "-2147483648" := by
    rw [hline]
    decide +kernel
  obtain ⟨-, -, -, rejected, printed⟩ :=
    console_printInt_printed host valid (-2147483648) .afterValue
  rw [← hword, ← hline, rejected (by decide)]
  exact ⟨rfl, (printed true).output⟩

/-- Not every integer is printed again: `-5` is rejected. -/
theorem not_console_printInt_printed :
    ¬ ∀ n : Int32,
      (console ⟨.unbounded, fun _ => ""⟩
        (valueWords .printInt (Output.bytesOf (Output.intLine n)).dropLast .nowhere) ⟨false⟩
        none).Prints (Output.bytesOf (Output.intLine n)) := by
  intro h
  have hstatus := (h (-5)).status
  revert hstatus
  decide +kernel

end TrackedHeap.CommandLine
