import TrackedHeap.CommandLine.Run
import TrackedHeap.Proofs.Text.Utf8
import TrackedHeap.Proofs.Text.Words

/-!
# The words of the environment variable

* `Switch.Names` : a text that is one of some words, in either case, between white space. These are
  the texts that reading takes (`Switch.names_iff`);
* `Configuration.ReadsWords` : which texts say on and which say off, and what becomes of all others;
* `Configuration.Consumed` : what callers that cannot fail, and the command line, make of a value;
* `ofVariable_readsWords` : both, for every default and every value of the variable.
-/

namespace TrackedHeap

open Text

/-! ## Words -/

namespace Switch

/-- One of some words, in either case of its letters, between characters of white space. -/
def Names (words : List String) (text : List Char) : Prop :=
  ∃ before variant after, text = before ++ variant ++ after ∧
    (∀ c ∈ before, c.toNat ∈ whiteSpace) ∧ (∀ c ∈ after, c.toNat ∈ whiteSpace) ∧
    ∃ word ∈ words, List.Forall₂ SameLetter variant word.toList

/-- The word that a value comes to once its blanks and its case are gone. -/
def wordOf (text : List Char) : List Char :=
  (trim text).map Char.toLower

/-- Words of ASCII characters that come to themselves, and have no upper case. -/
def Plain (words : List String) : Prop :=
  ∀ word ∈ words, wordOf word.toList = word.toList ∧ word.toList.map Char.toLower = word.toList ∧
    (word.toList.all fun c => c.toNat < 128) = true

instance (words : List String) : Decidable (Plain words) :=
  inferInstanceAs (Decidable (∀ word ∈ words, _))

theorem plain_onWords : Plain onWords := by decide

theorem plain_offWords : Plain offWords := by decide

theorem wordOf_between {before after : List Char} (text : List Char)
    (hbefore : ∀ c ∈ before, c.toNat ∈ whiteSpace) (hafter : ∀ c ∈ after, c.toNat ∈ whiteSpace) :
    wordOf (before ++ text ++ after) = wordOf text := by
  rw [wordOf, wordOf, trim_between text (fun c hc => isBlank_iff_mem_whiteSpace.2 (hbefore c hc))
    fun c hc => isBlank_iff_mem_whiteSpace.2 (hafter c hc)]

theorem wordOf_eq_of_forall₂ {s t : List Char} (h : List.Forall₂ SameLetter s t) :
    wordOf s = wordOf t := by
  rw [wordOf, wordOf, ← trim_map_toLower, ← trim_map_toLower, forall₂_sameLetter_iff.1 h]

/-- Trimming and lower case bring a text to a word exactly when the text names it. -/
theorem names_iff {words : List String} (plain : Plain words) {text : List Char} :
    Names words text ↔ ∃ word ∈ words, wordOf text = word.toList := by
  constructor
  · rintro ⟨before, variant, after, rfl, hbefore, hafter, word, hword, same⟩
    refine ⟨word, hword, ?_⟩
    rw [wordOf_between variant hbefore hafter, wordOf_eq_of_forall₂ same, (plain word hword).1]
  · rintro ⟨word, hword, h⟩
    obtain ⟨before, after, htext, hbefore, hafter⟩ := exists_trim text
    refine ⟨before, trim text, after, htext,
      fun c hc => isBlank_iff_mem_whiteSpace.1 (hbefore c hc),
      fun c hc => isBlank_iff_mem_whiteSpace.1 (hafter c hc), word, hword, ?_⟩
    rw [forall₂_sameLetter_iff, (plain word hword).2.1]
    exact h

/-- Beyond ASCII a text that names a word has white space only. -/
theorem Names.mem_whiteSpace {words : List String} (plain : Plain words) {text : List Char}
    (h : Names words text) {c : Char} (hc : c ∈ text) (large : 128 ≤ c.toNat) :
    c.toNat ∈ whiteSpace := by
  obtain ⟨before, variant, after, rfl, hbefore, hafter, word, hword, same⟩ := h
  rcases List.mem_append.1 hc with hc | hc
  · rcases List.mem_append.1 hc with hc | hc
    · exact hbefore c hc
    · have lowered : c.toLower ∈ word.toList := by
        rw [← (plain word hword).2.1, ← forall₂_sameLetter_iff.1 same]
        exact List.mem_map_of_mem hc
      have small : c.toLower.toNat < 128 :=
        of_decide_eq_true (List.all_eq_true.1 (plain word hword).2.2 _ lowered)
      rw [toNat_toLower] at small
      split at small <;> omega
  · exact hafter c hc

theorem read?_eq (text : String) :
    read? text =
      if String.ofList (wordOf text.toList) ∈ onWords then some true
      else if String.ofList (wordOf text.toList) ∈ offWords then some false else none := rfl

theorem ofList_mem_iff {words : List String} (plain : Plain words) {text : List Char} :
    String.ofList (wordOf text) ∈ words ↔ Names words text := by
  rw [names_iff plain]
  constructor
  · intro h
    exact ⟨_, h, String.toList_ofList.symm⟩
  · rintro ⟨word, hword, h⟩
    rwa [h, String.ofList_toList]

/-- No text names both settings. -/
theorem not_names_both (text : List Char) : ¬(Names onWords text ∧ Names offWords text) := by
  rw [names_iff plain_onWords, names_iff plain_offWords]
  rintro ⟨⟨on, hon, h⟩, off, hoff, h'⟩
  have distinct : ∀ on ∈ onWords, ∀ off ∈ offWords, on.toList ≠ off.toList := by decide
  exact distinct on hon off hoff (h.symm.trans h')

theorem read?_eq_some_true_iff {text : String} :
    read? text = some true ↔ Names onWords text.toList := by
  rw [read?_eq, ← ofList_mem_iff plain_onWords]
  grind

theorem read?_eq_some_false_iff {text : String} :
    read? text = some false ↔ Names offWords text.toList := by
  have both := not_names_both text.toList
  rw [← ofList_mem_iff plain_onWords, ← ofList_mem_iff plain_offWords] at both
  rw [read?_eq, ← ofList_mem_iff plain_offWords]
  grind

theorem read?_eq_none_iff {text : String} :
    read? text = none ↔ ¬Names onWords text.toList ∧ ¬Names offWords text.toList := by
  rw [← read?_eq_some_true_iff, ← read?_eq_some_false_iff]
  cases read? text with
  | none => simp
  | some on => cases on <;> simp

end Switch

/-! ## Values of the variable -/

namespace Configuration

theorem ofVariable_ofString (default : Configuration) (text : String) :
    ofVariable default (some (Utf8.ofString text)) =
      match Switch.read? text with
      | some debugMemory => .ok ⟨debugMemory⟩
      | none => .error (.invalidValue text) := by
  rw [ofVariable, Option.bind_some, Utf8.ofString, Utf8.decode?_encode]
  cases h : Switch.read? text <;> simp only [String.ofList_toList, h]

theorem toOption_ofVariable (default : Configuration) (text : String) :
    (ofVariable default (some (Utf8.ofString text))).toOption =
      (Switch.read? text).map Configuration.mk := by
  rw [ofVariable_ofString]
  cases Switch.read? text <;> constructor

/-- A value that no text encodes is as good as no value. -/
theorem ofVariable_of_forall_ne (default : Configuration) {value? : Option Bytes}
    (h : ∀ text : String, value? ≠ some (Utf8.ofString text)) :
    ofVariable default value? = .ok default := by
  have undecoded : value?.bind Utf8.decode? = none := by
    cases value? with
    | none => rfl
    | some bytes =>
      cases hdecode : Utf8.decode? bytes with
      | none => exact hdecode
      | some text =>
        refine absurd ?_ (h (String.ofList text))
        rw [Utf8.ofString, String.toList_ofList, Utf8.encode_of_decode? hdecode]
  rw [ofVariable, undecoded]

/-- Which texts say on and which say off. Every other text is an error that holds it as it was, and
neither white space at the ends nor the case of ASCII letters makes a difference. -/
structure ReadsWords (default : Configuration) (text : String) : Prop where
  on_iff : ofVariable default (some (Utf8.ofString text)) = .ok ⟨true⟩ ↔
    Switch.Names ["1", "true", "yes", "on"] text.toList
  off_iff : ofVariable default (some (Utf8.ofString text)) = .ok ⟨false⟩ ↔
    Switch.Names ["0", "false", "no", "off"] text.toList
  error_iff : ∀ error, ofVariable default (some (Utf8.ofString text)) = .error error ↔
    error = .invalidValue text ∧ ¬Switch.Names ["1", "true", "yes", "on"] text.toList ∧
      ¬Switch.Names ["0", "false", "no", "off"] text.toList
  exclusive : ¬(Switch.Names ["1", "true", "yes", "on"] text.toList ∧
    Switch.Names ["0", "false", "no", "off"] text.toList)
  spaced : ∀ before after : String, (∀ c ∈ before.toList, c.toNat ∈ whiteSpace) →
    (∀ c ∈ after.toList, c.toNat ∈ whiteSpace) →
    (ofVariable default (some (Utf8.ofString (before ++ text ++ after)))).toOption =
      (ofVariable default (some (Utf8.ofString text))).toOption
  cased : ∀ variant : String, List.Forall₂ SameLetter variant.toList text.toList →
    (ofVariable default (some (Utf8.ofString variant))).toOption =
      (ofVariable default (some (Utf8.ofString text))).toOption
  foreign : ∀ c ∈ text.toList, 128 ≤ c.toNat → c.toNat ∉ whiteSpace →
    ofVariable default (some (Utf8.ofString text)) = .error (.invalidValue text)

theorem read?_congr {s t : String} (h : Switch.wordOf s.toList = Switch.wordOf t.toList) :
    Switch.read? s = Switch.read? t := by
  rw [Switch.read?_eq, Switch.read?_eq, h]

theorem readsWords (default : Configuration) (text : String) : default.ReadsWords text where
  on_iff := by
    rw [ofVariable_ofString]
    refine Iff.trans ?_ Switch.read?_eq_some_true_iff
    cases Switch.read? text <;> simp
  off_iff := by
    rw [ofVariable_ofString]
    refine Iff.trans ?_ Switch.read?_eq_some_false_iff
    cases Switch.read? text <;> simp
  error_iff error := by
    rw [ofVariable_ofString]
    refine Iff.trans ?_ (and_congr_right fun _ => Switch.read?_eq_none_iff)
    cases Switch.read? text <;> simp [eq_comm]
  exclusive := Switch.not_names_both text.toList
  spaced before after hbefore hafter := by
    rw [toOption_ofVariable, toOption_ofVariable]
    refine congrArg _ (read?_congr ?_)
    rw [String.toList_append, String.toList_append]
    exact Switch.wordOf_between text.toList hbefore hafter
  cased variant same := by
    rw [toOption_ofVariable, toOption_ofVariable]
    exact congrArg _ (read?_congr (Switch.wordOf_eq_of_forall₂ same))
  foreign c hc large beyond := by
    have unread : Switch.read? text = none :=
      Switch.read?_eq_none_iff.2
        ⟨fun h => beyond (h.mem_whiteSpace Switch.plain_onWords hc large),
          fun h => beyond (h.mem_whiteSpace Switch.plain_offWords hc large)⟩
    rw [ofVariable_ofString, unread]

/-! ## Callers -/

theorem isTracking_ofConfiguration (base : Base) (c : Configuration) :
    (Manager.ofConfiguration base c).isTracking = c.debugMemory := by
  cases c with
  | mk debugMemory => cases debugMemory <;> rfl

/-- What callers make of a value. Where it is an error, one that cannot fail keeps the default and
records one warning, and the command line fails; on every host the manager tracks exactly when the
configuration says so. -/
structure Consumed (default : Configuration) (value? : Option Bytes) : Prop where
  lossy_ok : ∀ c, ofVariable default value? = .ok c → ofVariableLossy default value? = (c, .empty)
  lossy_error : ∀ error, ofVariable default value? = .error error →
    ofVariableLossy default value? = (default, .ofEvents [.environmentIgnored error])
  tracking : ∀ base, (Manager.ofVariable base default value?).1.isTracking =
    (ofVariableLossy default value?).1.debugMemory
  warnings : ∀ base, Event.atLeast .warn (Manager.ofVariable base default value?).2.events =
    match ofVariable default value? with
    | .ok _ => []
    | .error error => [.environmentIgnored error]
  command_ok : ∀ (flag : Bool) c, ofVariable default value? = .ok c →
    CommandLine.configure default value? flag = .ok ⟨c.debugMemory || flag⟩
  command_error : ∀ (flag : Bool) error, ofVariable default value? = .error error →
    CommandLine.configure default value? flag = .error (.configuration error)

theorem consumed (default : Configuration) (value? : Option Bytes) :
    default.Consumed value? where
  lossy_ok c h := by rw [ofVariableLossy, h]
  lossy_error error h := by rw [ofVariableLossy, h]
  tracking base := isTracking_ofConfiguration base _
  warnings base := by
    simp only [Manager.ofVariable, ofVariableLossy]
    cases ofVariable default value? <;> exact Eq.refl _
  command_ok flag c h := by rw [CommandLine.configure, h]
  command_error flag error h := by rw [CommandLine.configure, h]

/-- **The variable is read by its words alone.** Of the values that are text, those that name a word
say on or off and all others are errors; every other value, and none, leaves the default. Every
caller goes by what is read. -/
theorem ofVariable_readsWords (default : Configuration) :
    (∀ text : String, default.ReadsWords text) ∧
      (∀ value? : Option Bytes, (∀ text : String, value? ≠ some (Utf8.ofString text)) →
        ofVariable default value? = .ok default) ∧
      ∀ value? : Option Bytes, default.Consumed value? :=
  ⟨default.readsWords, fun _ h => default.ofVariable_of_forall_ne h, default.consumed⟩

/-- A byte that starts no character leaves the default. With a no-break space before it and a line
feed after it `TrUe` still says on; with a long s `yes` says nothing, and is recorded as it was. -/
theorem ofVariable_readsWords_longS :
    ofVariable ⟨true⟩ (some [0xff]) = .ok ⟨true⟩ ∧
      ofVariable ⟨false⟩ (some (Utf8.ofString "\u00a0TrUe\n")) = .ok ⟨true⟩ ∧
      ofVariable ⟨false⟩ (some (Utf8.ofString " Ye\u017f ")) = .error (.invalidValue " Ye\u017f ") ∧
      ofVariableLossy ⟨false⟩ (some (Utf8.ofString " Ye\u017f ")) =
        (⟨false⟩, .ofEvents [.environmentIgnored (.invalidValue " Ye\u017f ")]) := by
  obtain ⟨reads, undecoded, consumed⟩ := ofVariable_readsWords ⟨false⟩
  have long := (reads " Ye\u017f ").foreign '\u017f' (by decide) (by decide) (by decide)
  refine ⟨(ofVariable_readsWords ⟨true⟩).2.1 _ fun text h => ?_, ?_, long,
    (consumed _).lossy_error _ long⟩
  · have decoded : Utf8.decode? [0xff] = some text.toList := by
      rw [Option.some.inj h, Utf8.ofString, Utf8.decode?_encode]
    have broken : Utf8.decode? [0xff] = none := by decide
    exact nomatch broken.symm.trans decoded
  · refine (reads _).on_iff.2 ⟨['\u00a0'], "TrUe".toList, ['\n'], by decide,
      List.forall_mem_singleton.2 (by decide), List.forall_mem_singleton.2 (by decide),
      "true", by decide, ?_⟩
    rw [forall₂_sameLetter_iff]
    decide

end Configuration

end TrackedHeap
