import TrackedHeap.Proofs.CommandLine.Words
import TrackedHeap.Proofs.Number.RoundTrip

/-!
# A printed double on the command line

* `IsValue` : words that the command for doubles takes as its value, though they may start with a
  dash;
* `isValue_doubleText` : the text of a finite double is such a word, also of a negative one;
* `parse_printDouble`, `console_printDouble` : what the command lines of a double are read as, and
  what they show;
* `console_printDouble_printed` : what a finite double prints, given back as the value, is printed
  again.
-/

namespace TrackedHeap.CommandLine

/-! ## Words -/

/-- A word that the command for doubles takes as its value: no option, or short options that look
like a negative number. -/
def IsValue (bytes : Bytes) : Prop :=
  Word.ofBytes bytes = .plain ∨
    ∃ first rest, Word.ofBytes bytes = .short first rest ∧ looksNumeric (first :: rest) = true

/-! ## Texts of doubles as words -/

theorem isExponentMark_of_isDigitByte {b : UInt8} (h : isDigitByte b = true) :
    isExponentMark b = false := by
  simp only [isDigitByte, Bool.and_eq_true, decide_eq_true_eq, UInt8.le_iff_toNat_le] at h
  have hupper : b.toNat ≤ 57 := h.2
  simp only [isExponentMark, Bool.or_eq_false_iff, decide_eq_false_iff_not]
  constructor
  · rintro rfl
    contradiction
  · rintro rfl
    contradiction

/-- Digits around a point look like a number. -/
theorem looksNumeric_of_digits {whole fraction : Bytes} (nonempty : whole ≠ [])
    (hwhole : ∀ b ∈ whole, isDigitByte b = true) (hfraction : ∀ b ∈ fraction, isDigitByte b = true) :
    looksNumeric (whole ++ 0x2e :: fraction) = true := by
  have hmark : ∀ b ∈ whole ++ 0x2e :: fraction, (!isExponentMark b) = true := by
    intro b hb
    rw [Bool.not_eq_true']
    obtain hb | hb := List.mem_append.1 hb
    · exact isExponentMark_of_isDigitByte (hwhole b hb)
    obtain rfl | hb := List.mem_cons.1 hb
    · rfl
    · exact isExponentMark_of_isDigitByte (hfraction b hb)
  have hpoint : ∀ b ∈ whole, decide (b ≠ 0x2e) = true := fun b hb =>
    decide_eq_true (ne_of_isDigitByte (hwhole b hb) rfl)
  have hmantissa : (whole ++ 0x2e :: fraction).takeWhile (!isExponentMark ·) =
      whole ++ 0x2e :: fraction := List.takeWhile_eq_self_iff.2 hmark
  have hexponent : (whole ++ 0x2e :: fraction).dropWhile (!isExponentMark ·) = [] :=
    List.dropWhile_eq_nil_iff.2 hmark
  have htake : (whole ++ 0x2e :: fraction).takeWhile (· ≠ 0x2e) = whole :=
    Text.takeWhile_append_cons hpoint rfl fraction
  have hdrop : (whole ++ 0x2e :: fraction).dropWhile (· ≠ 0x2e) = 0x2e :: fraction :=
    Text.dropWhile_append_cons hpoint rfl fraction
  simp only [looksNumeric, hmantissa, hexponent, htake, hdrop, List.drop_succ_cons, List.drop_zero,
    List.all_eq_true.2 hwhole, List.all_eq_true.2 hfraction, Bool.and_true, decide_eq_true_eq]
  exact nonempty

/-- A fixed text is encoded as digits around a point. -/
theorem encode_fixedText (n : Nat) :
    ∃ whole fraction, Utf8.encode (Number.fixedText n) = whole ++ 0x2e :: fraction ∧ whole ≠ [] ∧
      (∀ b ∈ whole, isDigitByte b = true) ∧ ∀ b ∈ fraction, isDigitByte b = true := by
  refine ⟨Utf8.encode (Nat.toDigits 10 (n / Nat.pow 10 Number.places)),
    Utf8.encode (Number.fractionText (n % Nat.pow 10 Number.places)), ?_, ?_,
    all_isDigitByte_encode fun c hc => Number.isDigit_of_mem_toDigits hc,
    all_isDigitByte_encode fun c hc => Number.isDigit_of_mem_fractionText hc⟩
  · rw [Number.fixedText_eq, Utf8.encode, List.flatMap_append, List.flatMap_cons]
    rfl
  · exact encode_toDigits_ne_nil _

/-- What a finite double prints is taken as a value, also after a minus sign. -/
theorem isValue_doubleText {x : Double} {units : Nat} (finite : x.magnitude = .finite units) :
    IsValue (Utf8.encode (Number.doubleText x)) := by
  obtain ⟨whole, fraction, hencode, nonempty, hwhole, hfraction⟩ :=
    encode_fixedText (Number.millionths units)
  obtain ⟨b, whole, rfl⟩ := List.exists_cons_of_ne_nil nonempty
  have hb : b ≠ dash := ne_of_isDigitByte (hwhole b List.mem_cons_self) rfl
  rw [Number.doubleText, finite, Number.magnitudeText]
  cases x.negative with
  | true =>
    rw [if_pos rfl, encode_cons_minus, hencode]
    exact .inr ⟨b, whole ++ 0x2e :: fraction, ofBytes_dash hb _,
      looksNumeric_of_digits nonempty hwhole hfraction⟩
  | false =>
    rw [if_neg Bool.false_ne_true, hencode]
    exact .inl (ofBytes_of_ne_dash hb _)

/-! ## Command lines -/

namespace Progress

/-- A value in place is kept, to be read when the next word comes or the words end. -/
theorem word_value {bytes : Bytes} (value : IsValue bytes) (debugMemory : Bool) :
    word Verb.printDouble.signature ⟨debugMemory, false, false, .nothing, none, []⟩ bytes =
      .ok ⟨debugMemory, false, true, .positional bytes, none, []⟩ := by
  obtain h | ⟨first, rest, h, hnumeric⟩ := value
  · have positional : Verb.printDouble.signature.positional = some .double := rfl
    exact word_plain positional h debugMemory
  · simp only [word, h, hnumeric, if_neg Bool.false_ne_true]
    rfl

end Progress

/-- The command line of a double is read as the command with that double. -/
theorem parse_printDouble {bytes : Bytes} {y : Double} (value : IsValue bytes)
    (hread : ValueKind.double.read bytes = .ok (.double y)) (place : FlagPlace) :
    parse (valueWords .printDouble bytes place) = .ok ⟨place ≠ .nowhere, .printDouble y⟩ := by
  have positional : Verb.printDouble.signature.positional = some .double := rfl
  exact parse_valueWords (Progress.word_value value) positional hread (fun _ => rfl) place

/-- With any valid configuration the double is printed and the status is success. -/
theorem console_printDouble {bytes : Bytes} {y : Double} {default c : Configuration}
    {value? : Option Bytes} (host : Host) (value : IsValue bytes)
    (hread : ValueKind.double.read bytes = .ok (.double y)) (place : FlagPlace)
    (valid : Configuration.ofVariable default value? = .ok c) :
    let shown := console host (valueWords .printDouble bytes place) default value?
    shown.status = 0 ∧ shown.failure = none ∧
      shown.output = Output.bytesOf (Output.doubleLine y) := by
  rw [console, parse_printDouble value hread]
  simp only [Invocation.execute, configure, valid, Command.run, Command.printed, Report.console]
  exact ⟨trivial, trivial, rfl⟩

/-! ## Round trip -/

theorem dropLast_doubleLine (x : Double) :
    (Output.bytesOf (Output.doubleLine x)).dropLast = Utf8.encode (Number.doubleText x) := by
  simp [Output.bytesOf, Output.doubleLine]

/-- **What a finite double prints, given back without its line feed, is printed again**, on any host,
with any valid configuration and wherever the flag stands. From `2 ^ 33` on it is read as the same
double. -/
theorem console_printDouble_printed {x : Double} {units : Nat} {default c : Configuration}
    {value? : Option Bytes} (host : Host) (finite : x.magnitude = .finite units)
    (valid : Configuration.ofVariable default value? = .ok c) (place : FlagPlace) :
    let printed := Output.bytesOf (Output.doubleLine x)
    let shown := console host (valueWords .printDouble printed.dropLast place) default value?
    shown.status = 0 ∧ shown.failure = none ∧ shown.output = printed ∧
      (2 ^ 33 * Double.unitsPerOne ≤ units →
        ValueKind.double.read printed.dropLast = .ok (.double x)) := by
  obtain ⟨y, hy, htext, hlarge⟩ := Number.readDouble_doubleText finite
  have hread : ValueKind.double.read (Utf8.encode (Number.doubleText x)) = .ok (.double y) := by
    simp only [ValueKind.read, Utf8.decode?_encode, ValueKind.ofText?, hy, Option.map_some]
  obtain ⟨hstatus, hfailure, houtput⟩ :=
    console_printDouble host (isValue_doubleText finite) hread place valid
  intro printed shown
  have hprinted : printed.dropLast = Utf8.encode (Number.doubleText x) := dropLast_doubleLine x
  refine ⟨?_, ?_, ?_, fun large => ?_⟩
  · rw [← hstatus, ← hprinted]
  · rw [← hfailure, ← hprinted]
  · have hline : Output.doubleLine y = Output.doubleLine x := by
      rw [Output.doubleLine, htext, Output.doubleLine]
    rw [hline, ← hprinted] at houtput
    exact houtput
  · rw [hprinted, hread, hlarge large]

/-- The greatest negative double prints as a zero with its sign, and that is printed again. -/
theorem console_printDouble_printed_negative :
    let host : Host := ⟨.unbounded, fun _ => ""⟩
    (console host (valueWords .printDouble (Utf8.ofString "-0.000000") .afterValue) ⟨false⟩
      (some (Utf8.ofString "off"))).output = Utf8.ofString "-0.000000\n" := by
  intro host
  have finite : (Double.mk 0x8000000000000001).magnitude = .finite 1 := by decide
  have valid : Configuration.ofVariable ⟨false⟩ (some (Utf8.ofString "off")) = .ok ⟨false⟩ := by
    decide +kernel
  have hline : Output.bytesOf (Output.doubleLine ⟨0x8000000000000001⟩) =
      Utf8.ofString "-0.000000\n" := by
    decide +kernel
  have hword : (Output.bytesOf (Output.doubleLine ⟨0x8000000000000001⟩)).dropLast =
      Utf8.ofString "-0.000000" := by
    rw [hline]
    decide +kernel
  obtain ⟨-, -, houtput, -⟩ := console_printDouble_printed host finite valid .afterValue
  rw [← hword, ← hline]
  exact houtput

end TrackedHeap.CommandLine
