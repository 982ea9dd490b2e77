import TrackedHeap.Proofs.CommandLine.Effect
import TrackedHeap.Proofs.CommandLine.Words
import TrackedHeap.Text.Utf8.Lemmas

/-!
# Text operands on the command line

An argument that is a text has to be UTF-8. So the command line admits fewer texts than memory holds,
and agrees on those that it admits with what the texts make in memory.

* `CText.IsUtf8` : the texts that a command line admits;
* `stringWords`, `operandWords` : the command lines of one text, and of two texts that are options;
* `Reads` : how an operand, present or absent, is read as an argument;
* `parseFrom_operandWords` : the command that two operands make;
* `console_texts` : what the commands for texts print, for all texts.
-/

namespace TrackedHeap

/-- Whether a text is the encoding of characters. -/
def CText.IsUtf8 (t : CText) : Prop :=
  (Utf8.decode? t.bytes).isSome = true

namespace CommandLine

/-! ## Operands -/

/-- The word that gives an option of one letter its value. -/
def operandWord (letter : UInt8) (t : CText) : Bytes :=
  dash :: dash :: letter :: equals :: t.bytes

/-- The command line of a command with two texts. -/
def operandWords (verb : Verb) (a b : Option CText) : List Bytes :=
  verb.word :: (a.toList.map (operandWord 0x61) ++ b.toList.map (operandWord 0x62))

/-- The command line that prints a text, which stands behind two dashes. -/
def stringWords : Option CText → List Bytes
  | none => [Verb.printString.word]
  | some t => trailingWords .printString t.bytes

/-- How an operand is read, as an argument that is the same text in memory. -/
inductive Reads : Option CText → Option String → Prop
  | absent : Reads none none
  | present {t : CText} {s : String} (read : ValueKind.text.read t.bytes = .ok (.text s))
      (held : toText (some s) = .ok (some t)) : Reads (some t) (some s)

theorem Reads.toText_eq {a : Option CText} {s : Option String} (h : Reads a s) :
    toText s = .ok a := by
  cases h with
  | absent => rfl
  | present _ held => exact held

theorem exists_reads {a : Option CText} (utf8 : ∀ t ∈ a.toList, t.IsUtf8) : ∃ s, Reads a s := by
  cases a with
  | none => exact ⟨none, .absent⟩
  | some t =>
    obtain ⟨text, hdecode⟩ := Option.isSome_iff_exists.1 (utf8 t List.mem_cons_self)
    have hbytes : Utf8.ofString (String.ofList text) = t.bytes := by
      rw [Utf8.ofString, String.toList_ofList, Utf8.encode_of_decode? hdecode]
    refine ⟨some (String.ofList text), .present ?_ ?_⟩
    · simp only [ValueKind.read, hdecode, ValueKind.ofText?]
    · rw [toText, hbytes, CText.ofBytes?_bytes]

/-- An operand that is not UTF-8 is present, and not read. -/
theorem read_of_not_isUtf8 {a : Option CText} (broken : ¬ ∀ t ∈ a.toList, t.IsUtf8) :
    ∃ t, a = some t ∧ ValueKind.text.read t.bytes = .error .invalidUtf8 := by
  rw [not_forall₂] at broken
  obtain ⟨t, ht, hdecode⟩ := broken
  rw [CText.IsUtf8, Option.not_isSome_iff_eq_none] at hdecode
  refine ⟨t, Option.mem_toList.1 ht, ?_⟩
  rw [ValueKind.read, hdecode]

/-! ## Reading operands -/

/-- What a command with two texts takes. -/
def pairSignature : Signature :=
  ⟨none, false, [("a", .text), ("b", .text)]⟩

theorem find?_a : pairSignature.options.find? (fun option => Utf8.ofString option.1 = [0x61]) =
    some ("a", .text) := by
  decide

theorem find?_b : pairSignature.options.find? (fun option => Utf8.ofString option.1 = [0x62]) =
    some ("b", .text) := by
  decide

theorem ofBytes_operandWord {letter : UInt8} (h : letter ≠ equals) (t : CText) :
    Word.ofBytes (operandWord letter t) = .long [letter] (some t.bytes) := by
  have hname : ∀ b ∈ [letter], decide (b ≠ equals) = true := fun b hb => by
    rw [List.mem_singleton.1 hb]
    exact decide_eq_true h
  have hfirst : (letter :: equals :: t.bytes).takeWhile (· ≠ equals) = [letter] :=
    Text.takeWhile_append_cons hname rfl t.bytes
  have hrest : (letter :: equals :: t.bytes).dropWhile (· ≠ equals) = equals :: t.bytes :=
    Text.dropWhile_append_cons hname rfl t.bytes
  rw [operandWord, Word.ofBytes, if_neg (not_not_intro rfl), if_neg (not_not_intro rfl),
    if_neg (List.cons_ne_nil _ _), attachedValue, hfirst, hrest]

namespace Progress

/-- What options alone have given to a command. -/
def given (options : List (String × Value)) : Progress :=
  ⟨false, false, false, .nothing, none, options⟩

theorem start_eq : start = given [] := rfl

theorem debugMemory_given (options : List (String × Value)) :
    (given options).debugMemory = false := rfl

theorem resolve_given (s : Signature) (options : List (String × Value)) :
    (given options).resolve s = .ok (given options) := rfl

/-- What is kept of a text under its name. -/
def kept (name : String) (text : Option String) : List (String × Value) :=
  text.toList.map fun text => (name, .text text)

/-- The first operand leaves the name of the second one free. -/
theorem any_kept (text : Option String) :
    (kept "a" text).any (fun option => option.1 = "b") = false := by
  cases text <;> rfl

theorem text?_given (s s' : Option String) :
    (given (kept "b" s' ++ kept "a" s)).text? "a" = s ∧
      (given (kept "b" s' ++ kept "a" s)).text? "b" = s' := by
  cases s <;> cases s' <;> exact ⟨rfl, rfl⟩

section
variable {letter : UInt8} {name : String} {options : List (String × Value)}
  (h : letter ≠ equals)
  (hfind : pairSignature.options.find? (fun option => Utf8.ofString option.1 = [letter]) =
    some (name, .text))

include h hfind

/-- An option of one letter with its value is read at once. -/
theorem word_operandWord (t : CText) :
    word pairSignature (given options) (operandWord letter t) =
      (given options).setOption name .text t.bytes := by
  have hflag : [letter] ≠ Utf8.ofString "debug-memory" := fun e =>
    absurd (congrArg List.length e) (by decide : 1 ≠ (Utf8.ofString "debug-memory").length)
  have hhelp : [letter] ≠ Utf8.ofString "help" := fun e =>
    absurd (congrArg List.length e) (by decide : 1 ≠ (Utf8.ofString "help").length)
  simp only [word, given, if_neg Bool.false_ne_true, ofBytes_operandWord h, long, if_neg hflag,
    if_neg hhelp, hfind, option, resolve_nothing]

variable (fresh : options.any (fun option => option.1 = name) = false)

include fresh

/-- An operand that is read is kept under its name. -/
theorem words_operand {a : Option CText} {s : Option String} (reads : Reads a s)
    (rest : List Bytes) :
    words pairSignature (given options) (a.toList.map (operandWord letter) ++ rest) =
      words pairSignature (given (kept name s ++ options)) rest := by
  cases reads with
  | absent => rfl
  | @present t s read _ =>
    have hset : (given options).setOption name .text t.bytes =
        .ok (given ((name, .text s) :: options)) := by
      rw [setOption, given, fresh, read]
      rfl
    simp only [Option.toList_some, List.map_cons, List.map_nil, List.cons_append, List.nil_append,
      words, word_operandWord h hfind, hset, kept]

/-- An operand that is not UTF-8 is the fault that is reported. -/
theorem words_operand_of_not_isUtf8 {a : Option CText} (broken : ¬ ∀ t ∈ a.toList, t.IsUtf8)
    (rest : List Bytes) :
    words pairSignature (given options) (a.toList.map (operandWord letter) ++ rest) =
      .error .invalidUtf8 := by
  obtain ⟨t, rfl, hread⟩ := read_of_not_isUtf8 broken
  have hset : (given options).setOption name .text t.bytes = .error .invalidUtf8 := by
    rw [setOption, given, fresh, hread]
    rfl
  simp only [Option.toList_some, List.map_cons, List.map_nil, List.cons_append, List.nil_append,
    words, word_operandWord h hfind, hset]

end

end Progress

section
variable {verb : Verb} (hsignature : verb.signature = pairSignature) (flag : Bool)
  {a b : Option CText}

include hsignature

/-- Two operands that are read make the command with their texts. -/
theorem parseFrom_operandWords {make : Option String → Option String → Command}
    (makes : ∀ p : Progress, p.command verb = .ok (make (p.text? "a") (p.text? "b")))
    {s s' : Option String} (ha : Reads a s) (hb : Reads b s') :
    parseFrom flag (operandWords verb a b) = .ok ⟨flag, make s s'⟩ := by
  have fresh : ([] : List (String × Value)).any (fun option => option.1 = "a") = false := rfl
  have hfirst := Progress.words_operand (by decide) find?_a fresh ha
    (b.toList.map (operandWord 0x62) ++ [])
  have hsecond := Progress.words_operand (by decide) find?_b (Progress.any_kept s) hb []
  rw [List.append_nil, List.append_nil] at hfirst
  rw [List.append_nil, Progress.words, Progress.resolve_given] at hsecond
  obtain ⟨htext, htext'⟩ := Progress.text?_given s s'
  rw [operandWords, parseFrom_word, parseCommand, hsignature, Progress.start_eq, hfirst, hsecond]
  simp only [makes, htext, htext', Progress.debugMemory_given, Bool.or_false]

/-- An operand that is not UTF-8 is the fault that is reported. -/
theorem parseFrom_operandWords_of_not_isUtf8
    (broken : ¬ ∀ t ∈ a.toList ++ b.toList, t.IsUtf8) :
    parseFrom flag (operandWords verb a b) = .error .invalidUtf8 := by
  have fresh : ([] : List (String × Value)).any (fun option => option.1 = "a") = false := rfl
  have hwords : Progress.words pairSignature (Progress.given [])
      (a.toList.map (operandWord 0x61) ++ (b.toList.map (operandWord 0x62) ++ [])) =
        .error .invalidUtf8 := by
    by_cases utf8 : ∀ t ∈ a.toList, t.IsUtf8
    · obtain ⟨s, ha⟩ := exists_reads utf8
      rw [Progress.words_operand (by decide) find?_a fresh ha, List.append_nil]
      refine Progress.words_operand_of_not_isUtf8 (by decide) find?_b (Progress.any_kept s) ?_ []
      exact fun utf8' => broken fun t ht => (List.mem_append.1 ht).elim (utf8 t) (utf8' t)
    · exact Progress.words_operand_of_not_isUtf8 (by decide) find?_a fresh utf8 _
  rw [List.append_nil] at hwords
  rw [operandWords, parseFrom_word, parseCommand, hsignature, Progress.start_eq, hwords]

end

/-! ## Running -/

/-- The line that joins two texts; nothing when both are absent. -/
def joinedLine : Option CText → Option CText → Bytes
  | none, none => []
  | a, b => joinedBytes (a.toList ++ b.toList) ++ [Output.lineFeed]

theorem joinedLine_of_ne_nil {a b : Option CText} (nonempty : a.toList ++ b.toList ≠ []) :
    joinedLine a b = joinedBytes (a.toList ++ b.toList) ++ [Output.lineFeed] := by
  cases a with
  | some a => rfl
  | none =>
    cases b with
    | some b => rfl
    | none => exact absurd rfl nonempty

/-- The size of the memory that two texts are joined in, with the NUL. -/
def joinedSize (a b : Option CText) : Size :=
  UInt64.ofNat ((joinedBytes (a.toList ++ b.toList)).length + 1)

theorem joinRequest_eq (a b : Option CText) :
    Command.joinRequest a b = .block (joinedSize a b) := by
  rw [Command.joinRequest, totalLength_succ_eq, joinedSize]

section
variable {a b : Option CText} {s s' : Option String} (base : Base) (l : Ledger) (layers : Nat)

theorem Command.run_printString (reads : Reads a s) :
    ∃ left, (printString s).run (.onHost base l layers) [] = left ∧
      left.printed = Output.bytesOf (Output.stringLine (a.map CText.bytes)) ∧
      left.result = .ok () := by
  rw [run, reads.toText_eq]
  exact ⟨_, printed_onHost base l layers _, rfl, rfl⟩

theorem Command.run_compare (ha : Reads a s) (hb : Reads b s') :
    ∃ left, (compare s s').run (.onHost base l layers) [] = left ∧
      left.printed = Output.bytesOf (Output.intLine (Int32.ofInt (CText.compare a b))) ∧
      left.result = .ok () := by
  rw [run, ha.toText_eq, hb.toText_eq]
  exact ⟨_, printed_onHost base l layers _, rfl, rfl⟩

theorem answers_joinRequest (accepted : base.accepts (joinedSize a b) = true) :
    base.answers (Command.joinRequest a b) = .ok () := by
  rw [joinRequest_eq]
  exact if_pos accepted

theorem answers_joinRequest_of_refused (refused : base.accepts (joinedSize a b) = false) :
    base.answers (Command.joinRequest a b) = .error (.outOfMemory (joinedSize a b)) := by
  rw [joinRequest_eq]
  exact if_neg (Bool.eq_false_iff.1 refused)

theorem Command.run_concat_of_refused (ha : Reads a s) (hb : Reads b s')
    (nonempty : a.toList ++ b.toList ≠ []) (refused : base.accepts (joinedSize a b) = false) :
    (concat s s').run (.onHost base l layers) [] =
      ⟨.onHost base l layers, [], [], .empty,
        .error (.concatenation (.outOfMemory (joinedSize a b)))⟩ := by
  rw [run, ha.toText_eq, hb.toText_eq]
  exact runConcat_of_refused base l layers nonempty (answers_joinRequest_of_refused base refused)

theorem Command.run_concat (ha : Reads a s) (hb : Reads b s')
    (room : a.toList ++ b.toList = [] ∨ base.accepts (joinedSize a b) = true) :
    ∃ left, (concat s s').run (.onHost base l layers) [] = left ∧ left.printed = joinedLine a b ∧
      left.result = .ok () := by
  rw [run, ha.toText_eq, hb.toText_eq]
  by_cases nonempty : a.toList ++ b.toList = []
  · obtain ⟨hnone, hnone'⟩ := List.append_eq_nil_iff.1 nonempty
    rw [Option.toList_eq_nil_iff.1 hnone, Option.toList_eq_nil_iff.1 hnone']
    exact ⟨_, runConcat_nothing base l layers, rfl, rfl⟩
  · have grant := answers_joinRequest base (room.resolve_left nonempty)
    rw [joinedLine_of_ne_nil nonempty]
    exact ⟨_, runConcat_of_granted base l layers nonempty grant, rfl, rfl⟩

end

/-! ## On the console -/

theorem parseFrom_stringWords {a : Option CText} {s : Option String} (reads : Reads a s)
    (flag : Bool) : parseFrom flag (stringWords a) = .ok ⟨flag, .printString s⟩ := by
  have positional : Verb.printString.signature.positional = some .text := rfl
  cases reads with
  | absent =>
    rw [stringWords, parseFrom_word]
    cases flag <;> rfl
  | present read _ => exact parseFrom_trailingWords positional read rfl flag

theorem parseFrom_stringWords_of_not_isUtf8 {a : Option CText}
    (broken : ¬ ∀ t ∈ a.toList, t.IsUtf8) (flag : Bool) :
    parseFrom flag (stringWords a) = .error .invalidUtf8 := by
  have positional : Verb.printString.signature.positional = some .text := rfl
  obtain ⟨t, rfl, hread⟩ := read_of_not_isUtf8 broken
  exact parseFrom_trailingWords_of_error positional hread flag

/-- **The commands for texts print what the texts make in memory, if all of them are UTF-8.** A text
is printed as its bytes, two texts are joined as their bytes and compared as they are in memory, and
only a join that the host has no memory for fails, whatever it refuses. A text that is not UTF-8 is
rejected, and nothing is printed. -/
theorem console_texts {default c : Configuration} {value? : Option Bytes} (host : Host)
    (valid : Configuration.ofVariable default value? = .ok c) (flag : Bool) (a b : Option CText) :
    let shown := fun words => console host (flagWords flag ++ words) default value?
    ((∀ t ∈ a.toList, t.IsUtf8) →
        (shown (stringWords a)).Prints
          (Output.bytesOf (Output.stringLine (a.map CText.bytes)))) ∧
      ((∀ t ∈ a.toList ++ b.toList, t.IsUtf8) →
        (a.toList ++ b.toList = [] ∨ host.base.accepts (joinedSize a b) = true →
          (shown (operandWords .concat a b)).Prints (joinedLine a b)) ∧
        (a.toList ++ b.toList ≠ [] → host.base.accepts (joinedSize a b) = false →
          shown (operandWords .concat a b) = ⟨1, [], [], some ("Error: " ++
            (Failure.concatenation (.outOfMemory (joinedSize a b))).message)⟩) ∧
        (shown (operandWords .compare a b)).Prints
          (Output.bytesOf (Output.intLine (Int32.ofInt (CText.compare a b))))) ∧
      ((¬ ∀ t ∈ a.toList, t.IsUtf8) →
        shown (stringWords a) = ParseError.invalidUtf8.console host) ∧
      ((¬ ∀ t ∈ a.toList ++ b.toList, t.IsUtf8) →
        shown (operandWords .concat a b) = ParseError.invalidUtf8.console host ∧
          shown (operandWords .compare a b) = ParseError.invalidUtf8.console host) := by
  intro shown
  have hconcat : Verb.concat.signature = pairSignature := rfl
  have hcompare : Verb.compare.signature = pairSignature := rfl
  refine ⟨fun utf8 => ?_, fun utf8 => ?_, fun broken => ?_, fun broken => ?_⟩
  · obtain ⟨s, reads⟩ := exists_reads utf8
    have hparse := parseFrom_stringWords reads flag
    rw [← parse_flagWords] at hparse
    exact console_prints hparse valid (Command.run_printString host.base .empty · reads)
  · obtain ⟨s, ha⟩ := exists_reads fun t ht => utf8 t (List.mem_append_left _ ht)
    obtain ⟨s', hb⟩ := exists_reads fun t ht => utf8 t (List.mem_append_right _ ht)
    have hparse := parseFrom_operandWords hconcat flag (fun _ => rfl) ha hb
    have hparse' := parseFrom_operandWords hcompare flag (fun _ => rfl) ha hb
    rw [← parse_flagWords] at hparse hparse'
    refine ⟨fun room => ?_, fun nonempty refused => ?_, ?_⟩
    · exact console_prints hparse valid (Command.run_concat host.base .empty · ha hb room)
    · exact console_fails hparse valid
        (Command.run_concat_of_refused host.base .empty · ha hb nonempty refused)
    · exact console_prints hparse' valid (Command.run_compare host.base .empty · ha hb)
  · have hparse := parseFrom_stringWords_of_not_isUtf8 broken flag
    rw [← parse_flagWords] at hparse
    exact console_of_error hparse host default value?
  · have hparse := parseFrom_operandWords_of_not_isUtf8 hconcat flag broken
    have hparse' := parseFrom_operandWords_of_not_isUtf8 hcompare flag broken
    rw [← parse_flagWords] at hparse hparse'
    exact ⟨console_of_error hparse host default value?, console_of_error hparse' host default value?⟩

/-- A text that looks like an option is joined with one of two bytes for a character, and one byte
alone that is no character is rejected. -/
theorem console_texts_joined :
    let host : Host := ⟨.unbounded, fun _ => ""⟩
    let option : CText := ⟨Utf8.ofString "--a=", by decide, by decide⟩
    let accented : CText := ⟨Utf8.ofString "é", by decide, by decide⟩
    let broken : CText := ⟨[0xff], by decide, by decide⟩
    let shown := fun words =>
      console host (flagWords true ++ words) ⟨false⟩ (some (Utf8.ofString "off"))
    (shown (operandWords .concat (some option) (some accented))).output =
        Utf8.ofString "--a=é\n" ∧
      (shown (operandWords .compare (some broken) (some accented))).status = 2 := by
  intro host option accented broken shown
  have valid : Configuration.ofVariable ⟨false⟩ (some (Utf8.ofString "off")) = .ok ⟨false⟩ := by
    decide +kernel
  have utf8 : ∀ t ∈ (some option).toList ++ (some accented).toList, t.IsUtf8 := by
    unfold CText.IsUtf8
    decide
  have notUtf8 : ¬ ∀ t ∈ (some broken).toList ++ (some accented).toList, t.IsUtf8 := by
    unfold CText.IsUtf8
    decide
  obtain ⟨-, reads, -, -⟩ := console_texts host valid true (some option) (some accented)
  obtain ⟨-, -, -, rejects⟩ := console_texts host valid true (some broken) (some accented)
  refine ⟨?_, ?_⟩
  · rw [((reads utf8).1 (.inr rfl)).output]
    decide
  · exact congrArg Console.status (rejects notUtf8).2

/-- Not every text is printed: one byte that is no character is rejected. -/
theorem not_console_texts :
    ¬ ∀ a : Option CText,
      (console ⟨.unbounded, fun _ => ""⟩ (stringWords a) ⟨false⟩ none).Prints
        (Output.bytesOf (Output.stringLine (a.map CText.bytes))) := by
  intro h
  have hstatus := (h (some ⟨[0xff], by decide, by decide⟩)).status
  revert hstatus
  decide +kernel

end CommandLine

end TrackedHeap
