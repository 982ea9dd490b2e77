import TrackedHeap.Proofs.Configuration
import TrackedHeap.Proofs.Text.Escapes
import TrackedHeap.Proofs.Tracking.Decoded

/-!
# The message for a rejected value

A quoted text ends at its own closing quote, whatever it holds and whatever comes after it. So the
first quote of a message is where the value begins, and one reader finds the value in every message.

* `Reading.split?` : reads up to the closing quote, and gives what is left of the text;
* `quotedIn?_append` : the first quoted text among other text is read back;
* `IsShown` : a text of printable characters alone, as every quoted text is (`isShown_quoteText`);
* `ConfigError.Quotes` : a text on one line from which a value is read back;
* `ConfigError.message_quotes` : the message for every value is one, and so is what is on record for
  it, whatever the environment holds.
-/

namespace TrackedHeap

namespace Text

/-! ## Quoted text among other text -/

namespace Reading

/-- Reads up to the closing quote. Gives the bytes of what is quoted, and what stands after it. -/
def split? : Reading → List Char → Option (Bytes × List Char)
  | closed, rest => some ([], rest)
  | _, [] => none
  | reading, c :: rest => do
    let (next, bytes) ← reading.step? c
    let (more, after) ← next.split? rest
    return (bytes ++ more, after)

theorem split?_cons {reading next : Reading} {c : Char} {rest after : List Char}
    {bytes more : Bytes} (h : reading.step? c = some (next, bytes))
    (h' : next.split? rest = some (more, after)) :
    reading.split? (c :: rest) = some (bytes ++ more, after) := by
  cases reading
  case closed => cases h
  all_goals
    rw [split?, h]
    · simp only [Option.bind_eq_bind, Option.bind_some, h', Option.pure_def]
    · exact nofun

/-- What is read as a whole is read the same with anything after it. -/
theorem split?_append {reading : Reading} {text : List Char} {bytes : Bytes}
    (h : reading.run? text = some (closed, bytes)) (rest : List Char) :
    reading.split? (text ++ rest) = some (bytes, rest) := by
  induction text generalizing reading bytes with
  | nil =>
    obtain ⟨rfl, rfl⟩ := Prod.mk.inj (Option.some.inj h)
    rw [List.nil_append, split?]
  | cons c text ih =>
    obtain ⟨⟨next, first⟩, hstep, h⟩ := Option.bind_eq_some_iff.1 h
    obtain ⟨⟨last, more⟩, hrun, h⟩ := Option.bind_eq_some_iff.1 h
    obtain ⟨rfl, rfl⟩ := Prod.mk.inj (Option.some.inj h)
    rw [List.cons_append]
    exact split?_cons hstep (ih hrun)

end Reading

/-- The text that the first quote in a text begins. -/
def quotedIn? (text : List Char) : Option (List Char) := do
  let (_, quoted) ← cut? '"' text
  let (bytes, _) ← Reading.plain.split? quoted
  Utf8.decode? bytes

/-- **The first quoted text among other text is read back**, whatever it holds and whatever stands
after it. -/
theorem quotedIn?_append {before : List Char} (unquoted : '"' ∉ before) (text after : List Char) :
    quotedIn? (before ++ quoteText text ++ after) = some text := by
  have hsplit := Reading.split?_append (writes_quoteText text).run?_closed after
  have htext : before ++ quoteText text ++ after =
      before ++ '"' :: (text.flatMap escapeChar ++ ['"'] ++ after) :=
    List.append_assoc _ _ _
  rw [htext, quotedIn?, cut?_append unquoted]
  simp only [Option.bind_eq_bind, Option.bind_some, hsplit, Utf8.decode?_encode]

/-! ## Printable text -/

/-- A text of printable characters alone. -/
def IsShown (text : List Char) : Prop :=
  ∀ c ∈ text, isPrintable c = true

theorem IsShown.append {text rest : List Char} (h : IsShown text) (h' : IsShown rest) :
    IsShown (text ++ rest) :=
  List.forall_mem_append.2 ⟨h, h'⟩

/-- In ASCII all characters but the controls are printable. -/
theorem isPrintable_of_ascii {c : Char} (low : 0x20 ≤ c.toNat) (high : c.toNat < 0x7f) :
    isPrintable c = true := by
  have shown : hiddenRanges.contains c.toNat = false := by
    rw [hiddenRanges, Ranges.contains, if_neg (Nat.not_lt_zero _),
      Ranges.contains_cons_of_lt _ high, Bool.or_false]
    exact decide_eq_false (by omega)
  rw [isPrintable, shown, Bool.not_false]

/-- A fixed text is checked by its characters alone, not over all that there are. -/
theorem isShown_of_ascii {text : List Char}
    (h : (text.all fun c => 0x20 ≤ c.toNat ∧ c.toNat < 0x7f) = true) : IsShown text := by
  intro c hc
  obtain ⟨low, high⟩ := of_decide_eq_true (List.all_eq_true.1 h c hc)
  exact isPrintable_of_ascii low high

theorem isShown_codePoint (c : Char) : IsShown (codePoint c) := by
  have hopen : IsShown ['\\', 'u', '\x7b'] := isShown_of_ascii (by decide)
  have hclose : IsShown ['\x7d'] := isShown_of_ascii (by decide)
  have digits : ∀ d < 16, 0x20 ≤ d.digitChar.toNat ∧ d.digitChar.toNat < 0x7f := by decide
  refine (hopen.append fun d hd => ?_).append hclose
  obtain ⟨n, small, rfl⟩ := exists_digitChar_of_mem_toDigits hd
  exact isPrintable_of_ascii (digits n small).1 (digits n small).2

/-- A character that is written by a name, or in another way, is shown if both ways are. -/
theorem isShown_named_or {c standsFor name : Char} {other : List Char}
    (shown : isPrintable name = true) (otherwise : c ≠ standsFor → IsShown other) :
    IsShown (if c = standsFor then named name else other) := by
  split
  case isTrue =>
    have backslash : isPrintable '\\' = true := rfl
    exact List.forall_mem_cons.2 ⟨backslash, List.forall_mem_singleton.2 shown⟩
  case isFalse different => exact otherwise different

theorem isShown_escapeChar (c : Char) : IsShown (escapeChar c) := by
  refine isShown_named_or rfl fun _ => ?_
  refine isShown_named_or rfl fun _ => ?_
  refine isShown_named_or rfl fun _ => ?_
  refine isShown_named_or rfl fun _ => ?_
  refine isShown_named_or rfl fun _ => ?_
  refine isShown_named_or rfl fun _ => ?_
  split
  case isTrue printable => exact List.forall_mem_singleton.2 printable
  case isFalse => exact isShown_codePoint c

theorem isShown_quoteText (text : List Char) : IsShown (quoteText text) := by
  have quote : IsShown ['"'] := isShown_of_ascii (by decide)
  refine quote.append (IsShown.append (fun d hd => ?_) quote)
  obtain ⟨c, _, hd⟩ := List.mem_flatMap.1 hd
  exact isShown_escapeChar c d hd

end Text

open Text

/-! ## Messages -/

namespace ConfigError

/-- The value that a text quotes, the first if there are more. -/
def quotedValue? (text : String) : Option String :=
  (quotedIn? text.toList).map String.ofList

/-- A text that quotes a value: the value is read back, and every character of the text is printable,
so none is a line feed or another control. -/
structure Quotes (value text : String) : Prop where
  read : quotedValue? text = some value
  shown : IsShown text.toList
  visible : ∀ c ∈ text.toList, ¬IsControl c

theorem quotes_of_shown {before after : String} (value : String) (unquoted : '"' ∉ before.toList)
    (hbefore : IsShown before.toList) (hafter : IsShown after.toList) :
    Quotes value (before ++ String.ofList (quoteText value.toList) ++ after) := by
  have hlist : (before ++ String.ofList (quoteText value.toList) ++ after).toList =
      before.toList ++ quoteText value.toList ++ after.toList := by
    rw [String.toList_append, String.toList_append, String.toList_ofList]
  have shown : IsShown (before.toList ++ quoteText value.toList ++ after.toList) :=
    (hbefore.append (isShown_quoteText value.toList)).append hafter
  refine ⟨?_, hlist ▸ shown, fun c hc => not_isControl_of_isPrintable (shown c (hlist ▸ hc))⟩
  rw [quotedValue?, hlist, quotedIn?_append unquoted, Option.map_some, String.ofList_toList]

/-- What stands behind the value in its message. -/
def afterValue : String :=
  " for " ++ (debugMemoryVariable ++ " (expected 1/0, true/false, yes/no or on/off)")

theorem message_eq (value : String) :
    (invalidValue value).message =
      "invalid value " ++ String.ofList (quoteText value.toList) ++ afterValue := by
  have hmessage : (invalidValue value).message =
      "invalid value " ++ String.ofList (quoteText value.toList) ++ " for " ++
        debugMemoryVariable ++ " (expected 1/0, true/false, yes/no or on/off)" := rfl
  rw [hmessage, String.append_assoc, String.append_assoc, afterValue]

/-- A message quotes its value, behind any text without a quote too. -/
theorem quotes_append_message (before value : String) (unquoted : '"' ∉ before.toList)
    (shown : IsShown before.toList) : Quotes value (before ++ (invalidValue value).message) := by
  rw [message_eq, ← String.append_assoc, ← String.append_assoc]
  refine quotes_of_shown value ?_ ?_ (isShown_of_ascii (by decide))
  · rw [String.toList_append]
    exact List.not_mem_append unquoted (by decide)
  · rw [String.toList_append]
    exact shown.append (isShown_of_ascii (by decide))

theorem text_environmentIgnored (error : ConfigError) :
    (Event.environmentIgnored error).text =
      "WARN ignoring runtime configuration from environment err=" ++ error.message := by
  have hopening : Level.warn.text ++ " " ++
      "ignoring runtime configuration from environment err=" =
        "WARN ignoring runtime configuration from environment err=" := by decide
  have htext : (Event.environmentIgnored error).text = Level.warn.text ++ " " ++
      ("ignoring runtime configuration from environment err=" ++ error.message) := rfl
  rw [htext, ← String.append_assoc, hopening]

/-- What is on record for a rejected value: one warning, in which the value can be read. -/
theorem quotes_of_mem_events {default : Configuration} {value? : Option Bytes} {e : Event}
    (h : e ∈ (Configuration.ofVariableLossy default value?).2.events) :
    ∃ value, value? = some (Utf8.ofString value) ∧
      e.text = "WARN ignoring runtime configuration from environment err=" ++
        (invalidValue value).message ∧ Quotes value e.text := by
  cases hread : Configuration.ofVariable default value? with
  | ok c =>
    rw [(default.consumed value?).lossy_ok c hread] at h
    cases h
  | error error =>
    rw [(default.consumed value?).lossy_error error hread] at h
    obtain rfl := List.mem_singleton.1 h
    by_cases htext : ∃ text : String, value? = some (Utf8.ofString text)
    · obtain ⟨value, rfl⟩ := htext
      obtain ⟨rfl, -, -⟩ := ((default.readsWords value).error_iff error).1 hread
      have htext := text_environmentIgnored (invalidValue value)
      refine ⟨value, rfl, htext, ?_⟩
      rw [htext]
      exact quotes_append_message _ value (by decide) (isShown_of_ascii (by decide))
    · rw [default.ofVariable_of_forall_ne (not_exists.1 htext)] at hread
      cases hread

/-- **The message for a rejected value quotes it without loss and on one line.** One reader finds the
value in every message, and in the warning that the environment causes, even if the value looks like
the end of the message. -/
theorem message_quotes :
    (∀ value : String, Quotes value (invalidValue value).message) ∧
      (∀ value value' : String, value ≠ value' →
        (invalidValue value).message ≠ (invalidValue value').message) ∧
      ∀ (default : Configuration) (value? : Option Bytes),
        ∀ e ∈ (Configuration.ofVariableLossy default value?).2.events,
          ∃ value, value? = some (Utf8.ofString value) ∧
            e.text = "WARN ignoring runtime configuration from environment err=" ++
              (invalidValue value).message ∧ Quotes value e.text := by
  have quotes : ∀ value : String, Quotes value (invalidValue value).message := by
    intro value
    have hquotes := quotes_append_message "" value (by decide) (isShown_of_ascii (by decide))
    rwa [String.empty_append] at hquotes
  refine ⟨quotes, fun value value' different same => different ?_, fun _ _ _ h =>
    quotes_of_mem_events h⟩
  have hread := (quotes value).read
  rw [same, (quotes value').read] at hread
  exact (Option.some.inj hread).symm

/-- A value that ends like the message, with a line feed, and one that looks like its escape. -/
theorem message_quotes_imitation :
    let value := "\" for \\n\n"
    let imitation := "\" for \\n\\n"
    value ≠ imitation ∧ (invalidValue value).message ≠ (invalidValue imitation).message ∧
      quotedValue? (invalidValue value).message = some value ∧
      Event.environmentIgnored (invalidValue value) ∈
        (Configuration.ofVariableLossy ⟨false⟩ (some (Utf8.ofString value))).2.events ∧
      '\n' ∉ (Event.environmentIgnored (invalidValue value)).text.toList := by
  intro value imitation
  have different : value ≠ imitation := by decide
  have recorded : Event.environmentIgnored (invalidValue value) ∈
      (Configuration.ofVariableLossy ⟨false⟩ (some (Utf8.ofString value))).2.events := by
    decide +kernel
  obtain ⟨quotes, distinct, events⟩ := message_quotes
  obtain ⟨_, _, _, quoted⟩ := events ⟨false⟩ _ _ recorded
  exact ⟨different, distinct _ _ different, (quotes value).read, recorded,
    fun h => quoted.visible _ h (by decide)⟩

end ConfigError

end TrackedHeap
