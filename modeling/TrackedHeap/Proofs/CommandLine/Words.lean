import TrackedHeap.CommandLine.Console
import TrackedHeap.Proofs.Number.FixedTexts
import TrackedHeap.Proofs.Text.Utf8

/-!
# Words of command lines

* `all_isDigitByte_encode` : digits are encoded as one byte each;
* `Verb.word`, `debugMemoryWord`, `doubleDashWord` : the words that are no values;
* `FlagPlace`, `valueWords` : the command lines that give a command one value in place, and
  `parse_valueWords` what they are read as;
* `trailingWords` : the command line that gives the value behind two dashes, where it may look like
  anything (`parseFrom_trailingWords`);
* `flagWords` : the words before a command.
-/

namespace TrackedHeap.CommandLine

/-! ## The form of words -/

/-- Words that do not start with a dash are values. -/
theorem ofBytes_of_ne_dash {b : UInt8} (h : b ≠ dash) (rest : Bytes) :
    Word.ofBytes (b :: rest) = .plain := by
  cases rest with
  | nil => rfl
  | cons c rest => rw [Word.ofBytes, if_pos h]

theorem ofBytes_dash {b : UInt8} (h : b ≠ dash) (rest : Bytes) :
    Word.ofBytes (dash :: b :: rest) = .short b rest := by
  rw [Word.ofBytes, if_neg (not_not_intro rfl), if_pos h]

theorem encode_cons_minus (text : List Char) : Utf8.encode ('-' :: text) = dash :: Utf8.encode text :=
  rfl

/-- A digit is encoded as one byte. -/
theorem encodeChar_of_isDigit {c : Char} (h : c.isDigit = true) :
    ∃ b, String.utf8EncodeChar c = [b] ∧ isDigitByte b = true := by
  simp only [Char.isDigit, Bool.and_eq_true, decide_eq_true_eq] at h
  obtain ⟨lower, upper⟩ := h
  have hlower : 48 ≤ c.val.toNat := lower
  have hupper : c.val.toNat ≤ 57 := upper
  refine ⟨UInt8.ofNat c.val.toNat, ?_, ?_⟩
  · unfold String.utf8EncodeChar
    simp only
    rw [if_pos (by omega)]
  · have hb := Utf8.toNat_ofNat (n := c.val.toNat) (by omega)
    simp only [isDigitByte, Bool.and_eq_true, decide_eq_true_eq, UInt8.le_iff_toNat_le, hb]
    exact ⟨hlower, hupper⟩

theorem all_isDigitByte_encode {text : List Char} (h : ∀ c ∈ text, c.isDigit = true) :
    ∀ b ∈ Utf8.encode text, isDigitByte b = true := by
  intro b hb
  obtain ⟨c, hc, hb⟩ := List.mem_flatMap.1 hb
  obtain ⟨b', hencode, hdigit⟩ := encodeChar_of_isDigit (h c hc)
  rw [hencode] at hb
  rwa [List.mem_singleton.1 hb]

theorem ne_of_isDigitByte {b c : UInt8} (h : isDigitByte b = true) (hc : isDigitByte c = false) :
    b ≠ c := by
  rintro rfl
  rw [h] at hc
  cases hc

theorem encode_toDigits_ne_nil (n : Nat) : Utf8.encode (Nat.toDigits 10 n) ≠ [] := by
  intro hempty
  have hdecode := Utf8.decode?_encode (Nat.toDigits 10 n)
  rw [hempty] at hdecode
  exact Nat.toDigits_ne_nil (Option.some.inj hdecode).symm

/-! ## Words that are no values -/

def debugMemoryWord : Bytes := Utf8.ofString "--debug-memory"

def doubleDashWord : Bytes := [dash, dash]

def Verb.word (verb : Verb) : Bytes := Utf8.ofString verb.name

theorem ofBytes_debugMemoryWord :
    Word.ofBytes debugMemoryWord = .long (Utf8.ofString "debug-memory") none := by
  decide

theorem Verb.ofBytes?_word (verb : Verb) : ofBytes? verb.word = some verb := by
  cases verb <;> decide

theorem parseFrom_debugMemoryWord (words : List Bytes) :
    parseFrom false (debugMemoryWord :: words) = parseFrom true words := by
  have hhelp : debugMemoryWord ≠ helpName := by decide
  have hverb : Verb.ofBytes? debugMemoryWord = none := by decide
  rw [parseFrom.eq_def]
  simp only [if_neg hhelp, hverb, ofBytes_debugMemoryWord, Option.isSome_none,
    if_neg Bool.false_ne_true, if_true]

theorem parseFrom_word (verb : Verb) (debugMemory : Bool) (words : List Bytes) :
    parseFrom debugMemory (verb.word :: words) = parseCommand verb debugMemory words := by
  have hhelp : verb.word ≠ helpName := by cases verb <;> decide
  rw [parseFrom.eq_def]
  simp only [if_neg hhelp, Verb.ofBytes?_word]

/-- The words before a command. -/
def flagWords (flag : Bool) : List Bytes :=
  if flag then [debugMemoryWord] else []

theorem parse_flagWords (flag : Bool) (words : List Bytes) :
    parse (flagWords flag ++ words) = parseFrom flag words := by
  cases flag with
  | false => rfl
  | true => exact parseFrom_debugMemoryWord words

/-! ## One value in place -/

/-- Where the flag that turns tracking on stands on the command line of one value. -/
inductive FlagPlace where
  | nowhere
  | beforeCommand
  | beforeValue
  | afterValue
  deriving DecidableEq, Repr

/-- The command line of a command with one value. -/
def valueWords (verb : Verb) (argument : Bytes) : FlagPlace → List Bytes
  | .nowhere => [verb.word, argument]
  | .beforeCommand => [debugMemoryWord, verb.word, argument]
  | .beforeValue => [verb.word, debugMemoryWord, argument]
  | .afterValue => [verb.word, argument, debugMemoryWord]

/-- The command line of a command with one value behind two dashes. -/
def trailingWords (verb : Verb) (argument : Bytes) : List Bytes :=
  [verb.word, doubleDashWord, argument]

namespace Progress

theorem word_debugMemoryWord (s : Signature) (debugMemory filled : Bool) (pending : Pending)
    (value : Option Value) (options : List (String × Value)) :
    word s ⟨debugMemory, false, filled, pending, value, options⟩ debugMemoryWord =
      setDebugMemory s ⟨debugMemory, false, filled, pending, value, options⟩ := by
  simp only [word, ofBytes_debugMemoryWord, if_neg Bool.false_ne_true]
  rfl

theorem resolve_nothing (s : Signature) (debugMemory trailing filled : Bool) (value : Option Value)
    (options : List (String × Value)) :
    resolve s ⟨debugMemory, trailing, filled, .nothing, value, options⟩ =
      .ok ⟨debugMemory, trailing, filled, .nothing, value, options⟩ := rfl

theorem resolve_positional {s : Signature} {kind : ValueKind} (positional : s.positional = some kind)
    {bytes : Bytes} {value : Value} (hread : kind.read bytes = .ok value)
    (debugMemory trailing : Bool) :
    resolve s ⟨debugMemory, trailing, true, .positional bytes, none, []⟩ =
      .ok ⟨debugMemory, trailing, true, .nothing, some value, []⟩ := by
  simp only [resolve, positional, hread]

/-- Behind two dashes every word is a value in place. -/
theorem word_trailing {s : Signature} {kind : ValueKind} (positional : s.positional = some kind)
    (debugMemory : Bool) (bytes : Bytes) :
    word s ⟨debugMemory, true, false, .nothing, none, []⟩ bytes =
      .ok ⟨debugMemory, true, true, .positional bytes, none, []⟩ := by
  have hplace : ¬ (s.positional.isNone = true ∨ false = true) := by
    rw [positional]
    simp
  simp only [word, if_true, place, if_neg hplace, resolve_nothing]

theorem word_plain {s : Signature} {kind : ValueKind} (positional : s.positional = some kind)
    {bytes : Bytes} (hplain : Word.ofBytes bytes = .plain) (debugMemory : Bool) :
    word s ⟨debugMemory, false, false, .nothing, none, []⟩ bytes =
      .ok ⟨debugMemory, false, true, .positional bytes, none, []⟩ := by
  have hplace : ¬ (s.positional.isNone = true ∨ false = true) := by
    rw [positional]
    simp
  simp only [word, if_neg Bool.false_ne_true, hplain, plain, place, if_neg hplace, resolve_nothing]

end Progress

section
variable {verb : Verb} {kind : ValueKind} {bytes : Bytes} {value : Value} {command : Command}

/-- A value that a command takes and reads makes the command with that value. -/
theorem parse_valueWords
    (takes : ∀ d, Progress.word verb.signature ⟨d, false, false, .nothing, none, []⟩ bytes =
      .ok ⟨d, false, true, .positional bytes, none, []⟩)
    (positional : verb.signature.positional = some kind) (hread : kind.read bytes = .ok value)
    (makes : ∀ d, Progress.command ⟨d, false, true, .nothing, some value, []⟩ verb = .ok command)
    (place : FlagPlace) :
    parse (valueWords verb bytes place) = .ok ⟨place ≠ .nowhere, command⟩ := by
  have hresolve := fun d => Progress.resolve_positional positional hread d false
  cases place with
  | nowhere =>
    rw [parse, valueWords, parseFrom_word, parseCommand]
    simp only [Progress.start, Progress.words, takes, hresolve, makes]
    rfl
  | beforeCommand =>
    rw [parse, valueWords, parseFrom_debugMemoryWord, parseFrom_word, parseCommand]
    simp only [Progress.start, Progress.words, takes, hresolve, makes]
    rfl
  | beforeValue =>
    rw [parse, valueWords, parseFrom_word, parseCommand]
    simp only [Progress.start, Progress.words, Progress.word_debugMemoryWord,
      Progress.setDebugMemory, Progress.resolve_nothing, if_neg Bool.false_ne_true, takes, hresolve,
      makes]
    rfl
  | afterValue =>
    rw [parse, valueWords, parseFrom_word, parseCommand]
    simp only [Progress.start, Progress.words, Progress.word_debugMemoryWord,
      Progress.setDebugMemory, Progress.resolve_nothing, if_neg Bool.false_ne_true, takes, hresolve,
      makes]
    rfl

/-- A word that a command does not take in the place of its value is the fault that is reported. -/
theorem parse_valueWords_of_error {e : ParseError}
    (refuses : ∀ d,
      Progress.word verb.signature ⟨d, false, false, .nothing, none, []⟩ bytes = .error e)
    (place : FlagPlace) : parse (valueWords verb bytes place) = .error e := by
  cases place with
  | nowhere =>
    rw [parse, valueWords, parseFrom_word, parseCommand]
    simp only [Progress.start, Progress.words, refuses]
  | beforeCommand =>
    rw [parse, valueWords, parseFrom_debugMemoryWord, parseFrom_word, parseCommand]
    simp only [Progress.start, Progress.words, refuses]
  | beforeValue =>
    rw [parse, valueWords, parseFrom_word, parseCommand]
    simp only [Progress.start, Progress.words, Progress.word_debugMemoryWord,
      Progress.setDebugMemory, Progress.resolve_nothing, if_neg Bool.false_ne_true, refuses]
  | afterValue =>
    rw [parse, valueWords, parseFrom_word, parseCommand]
    simp only [Progress.start, Progress.words, refuses]

/-- The word behind two dashes is the value, whatever it looks like. -/
theorem words_trailing (positional : verb.signature.positional = some kind) :
    Progress.start.words verb.signature [doubleDashWord, bytes] =
      Progress.resolve verb.signature ⟨false, true, true, .positional bytes, none, []⟩ := by
  have hdash : Word.ofBytes doubleDashWord = .doubleDash := rfl
  have hword := Progress.word_trailing positional false bytes
  rw [Progress.words, Progress.start, Progress.word, hdash]
  simp only [if_neg Bool.false_ne_true, Progress.words, hword]

theorem parseFrom_trailingWords (positional : verb.signature.positional = some kind)
    (hread : kind.read bytes = .ok value)
    (makes : Progress.command ⟨false, true, true, .nothing, some value, []⟩ verb = .ok command)
    (flag : Bool) : parseFrom flag (trailingWords verb bytes) = .ok ⟨flag, command⟩ := by
  have hresolve := Progress.resolve_positional positional hread false true
  rw [trailingWords, parseFrom_word, parseCommand, words_trailing positional, hresolve]
  simp only [makes, Bool.or_false]

theorem parseFrom_trailingWords_of_error (positional : verb.signature.positional = some kind)
    {e : ParseError} (hread : kind.read bytes = .error e) (flag : Bool) :
    parseFrom flag (trailingWords verb bytes) = .error e := by
  rw [trailingWords, parseFrom_word, parseCommand, words_trailing positional]
  simp only [Progress.resolve, positional, hread]

end

end TrackedHeap.CommandLine
