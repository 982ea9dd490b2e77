import Mathlib.Data.List.Basic
import TrackedHeap.Number.Numeral
import TrackedHeap.Proofs.Number.Integers
import TrackedHeap.Proofs.Tracking.Movement
import TrackedHeap.Tracking.Diagnostic

/-!
# Reading diagnostic lines back

* `Occurrence` : what a line tells of, memory taken or given back, or a report;
* `Location.read?`, `Occurrence.read?` : a location and an occurrence from their text. The number of a
  line stands behind the last colon, so a file may be named in any way;
* `Occurrence.IsPlain` : an address without a blank and a file without a line feed, which every text
  of an occurrence needs to be one line that is read back (`read?_text`);
* `Occurrence.readAll?` : the occurrences of a whole stream, line by line (`readAll?_stream`).
-/

namespace TrackedHeap

/-! ## Cutting texts -/

/-- What stands before the first of a character, and what stands behind it. -/
def Text.cut? (stop : Char) (text : List Char) : Option (List Char × List Char) :=
  match text.dropWhile (· ≠ stop) with
  | [] => none
  | _ :: rest => some (text.takeWhile (· ≠ stop), rest)

theorem Text.cut?_append {stop : Char} {first : List Char} (h : stop ∉ first) (rest : List Char) :
    cut? stop (first ++ stop :: rest) = some (first, rest) := by
  have hne : ∀ c ∈ first, decide (c ≠ stop) = true := by
    intro c hc
    refine decide_eq_true ?_
    rintro rfl
    exact h hc
  have hstop : decide (stop ≠ stop) = false := decide_eq_false (not_not_intro rfl)
  rw [cut?, dropWhile_append_cons hne hstop, takeWhile_append_cons hne hstop]

theorem Text.dropPrefix?_append (first rest : List Char) :
    (first ++ rest).dropPrefix? first = some rest :=
  List.dropPrefix?_eq_some_iff.2 ⟨first, rfl, beq_self_eq_true first⟩

theorem Text.dropSuffix?_append (first rest : List Char) :
    (first ++ rest).dropSuffix? rest = some first :=
  List.dropSuffix?_eq_some_iff.2 ⟨rest, rfl, beq_self_eq_true rest⟩

/-! ## Locations -/

/-- A location from its text: one of the two that only a program knows, or a file, a colon and a
number. -/
def Location.read? (text : List Char) : Option Location :=
  if text = "@caller".toList then some .caller
  else if text = "@ffi".toList then some .boundary
  else do
    let (line, file) ← Text.cut? ':' text.reverse
    let line ← Number.readDigits line.reverse
    return .place (String.ofList file.reverse) (UInt32.ofNat line)

theorem Location.toList_text_place (file : String) (line : UInt32) :
    (place file line).text.toList = file.toList ++ ':' :: Nat.toDigits 10 line.toNat := by
  rw [text, String.toList_append, String.toList_append, Nat.toList_repr, List.append_assoc]
  rfl

/-- A location is read back from its text, whatever the name of the file. -/
theorem Location.read?_text (l : Location) : read? l.text.toList = some l := by
  cases l with
  | caller => rfl
  | boundary => rfl
  | place file line =>
    have hcolon : ':' ∈ (place file line).text.toList := by
      rw [toList_text_place]
      exact List.mem_append_right _ List.mem_cons_self
    have hcaller : (place file line).text.toList ≠ "@caller".toList := by
      intro h
      rw [h] at hcolon
      exact absurd hcolon (by decide)
    have hboundary : (place file line).text.toList ≠ "@ffi".toList := by
      intro h
      rw [h] at hcolon
      exact absurd hcolon (by decide)
    have hdigits : ':' ∉ (Nat.toDigits 10 line.toNat).reverse := by
      intro h
      have hdigit := Number.isDigit_of_mem_toDigits (List.mem_reverse.1 h)
      cases hdigit
    rw [read?, if_neg hcaller, if_neg hboundary, toList_text_place, List.reverse_append,
      List.reverse_cons, List.append_assoc, List.singleton_append, Text.cut?_append hdigits]
    simp only [Option.bind_eq_bind, Option.bind_some, List.reverse_reverse,
      Number.readDigits_toDigits, String.ofList_toList, UInt32.ofNat_toNat, Option.pure_def]

/-! ## Occurrences -/

/-- No whitespace in the address, as it is printed. -/
def Address.IsPlain (a : Address) : Prop :=
  ∀ c ∈ a.text.toList, c.isWhitespace = false

instance (a : Address) : Decidable a.IsPlain :=
  List.decidableBAll (fun c : Char => c.isWhitespace = false) a.text.toList

/-- No line feed in the name of the file. -/
def Location.IsPlain : Location → Prop
  | place file _ => '\n' ∉ file.toList
  | _ => True

instance : (l : Location) → Decidable l.IsPlain
  | .caller => inferInstanceAs (Decidable True)
  | .boundary => inferInstanceAs (Decidable True)
  | .place file _ => inferInstanceAs (Decidable ('\n' ∉ file.toList))

/-- What a diagnostic line tells of. -/
inductive Occurrence where
  | allocated (bytes : Nat) (address : Address) (location : Location)
  | released (address : Address) (location : Location)
  | reported (bytes : Nat) (live : Int)
  deriving DecidableEq, Repr

def Line.occurrence : Line → Occurrence
  | .alloc size address location => .allocated size.toNat address location
  | .free address location => .released address location
  | .stats ledger => .reported ledger.cumulativeBytes.toNat ledger.liveAllocations.toInt

namespace Occurrence

/-- How an occurrence moves a ledger. A report moves none. -/
def movement? : Occurrence → Option Movement
  | allocated bytes _ _ => some (.taken bytes)
  | released _ _ => some .returned
  | reported _ _ => none

/-- Plain text is all that an occurrence names. -/
def IsPlain : Occurrence → Prop
  | allocated _ address location => address.IsPlain ∧ location.IsPlain
  | released address location => address.IsPlain ∧ location.IsPlain
  | reported _ _ => True

instance : (o : Occurrence) → Decidable o.IsPlain
  | .allocated _ a l => inferInstanceAs (Decidable (a.IsPlain ∧ l.IsPlain))
  | .released a l => inferInstanceAs (Decidable (a.IsPlain ∧ l.IsPlain))
  | .reported _ _ => inferInstanceAs (Decidable True)

/-- An address and a location in brackets. -/
def readPlace? (text : List Char) : Option (Address × Location) := do
  let (address, rest) ← Text.cut? ' ' text
  let name ← address.dropPrefix? "@".toList
  let body ← rest.dropPrefix? "(".toList
  let body ← body.dropSuffix? ")".toList
  let location ← Location.read? body
  return (⟨String.ofList name⟩, location)

/-- A size, an address and a location. -/
def readAllocated? (text : List Char) : Option Occurrence := do
  let (size, rest) ← Text.cut? ' ' text
  let bytes ← Number.readDigits size
  let rest ← rest.dropPrefix? "bytes at ".toList
  let (address, location) ← readPlace? rest
  return allocated bytes address location

def readReleased? (text : List Char) : Option Occurrence := do
  let (address, location) ← readPlace? text
  return released address location

/-- The two counts of a ledger. -/
def readReported? (text : List Char) : Option Occurrence := do
  let (size, rest) ← Text.cut? ' ' text
  let bytes ← Number.readDigits size
  let rest ← rest.dropPrefix? "bytes, Active allocations: ".toList
  let live ← Number.readSigned rest
  return reported bytes live

/-- An occurrence from the text of its line, by how that starts. -/
def read? (text : List Char) : Option Occurrence :=
  match text.dropPrefix? "ALLOC: ".toList, text.dropPrefix? "FREE: ".toList,
      text.dropPrefix? "Memory Stats - Allocated: ".toList with
  | some rest, _, _ => readAllocated? rest
  | none, some rest, _ => readReleased? rest
  | none, none, some rest => readReported? rest
  | none, none, none => none

/-- The occurrences of a stream, one for each line that a line feed ends. -/
def readAll? (text : List Char) : Option (List Occurrence) :=
  ((text.splitOn '\n').dropLast).mapM read?

end Occurrence

/-! ## Lines -/

theorem Size.toList_text (n : Size) : n.text.toList = Nat.toDigits 10 n.toNat :=
  Nat.toList_repr

theorem Address.toList_text (a : Address) : a.text.toList = '@' :: a.name.toList := by
  rw [text, String.toList_append]
  rfl

namespace Occurrence

theorem readPlace?_text {address : Address} (plain : address.IsPlain) (location : Location) :
    readPlace? (address.text.toList ++ ' ' :: '(' :: (location.text.toList ++ [')'])) =
      some (address, location) := by
  have hblank : ' ' ∉ address.text.toList := fun h => absurd (plain ' ' h) (by decide)
  have hat : ('@' :: address.name.toList).dropPrefix? "@".toList = some address.name.toList :=
    Text.dropPrefix?_append "@".toList address.name.toList
  have hopen : ('(' :: (location.text.toList ++ [')'])).dropPrefix? "(".toList =
      some (location.text.toList ++ [')']) :=
    Text.dropPrefix?_append "(".toList _
  have hclose : (location.text.toList ++ [')']).dropSuffix? ")".toList =
      some location.text.toList :=
    Text.dropSuffix?_append _ ")".toList
  rw [readPlace?, Text.cut?_append hblank, Address.toList_text]
  simp only [Option.bind_eq_bind, Option.bind_some, hat, hopen, hclose, Location.read?_text,
    String.ofList_toList, Option.pure_def]

theorem read?_alloc (rest : List Char) :
    read? ("ALLOC: ".toList ++ rest) = readAllocated? rest := by
  rw [read?, Text.dropPrefix?_append]

theorem read?_free (rest : List Char) : read? ("FREE: ".toList ++ rest) = readReleased? rest := by
  have hother : ("FREE: ".toList ++ rest).dropPrefix? "ALLOC: ".toList = none := rfl
  rw [read?, hother, Text.dropPrefix?_append]

theorem read?_stats (rest : List Char) :
    read? ("Memory Stats - Allocated: ".toList ++ rest) = readReported? rest := by
  have halloc : ("Memory Stats - Allocated: ".toList ++ rest).dropPrefix? "ALLOC: ".toList = none :=
    rfl
  have hfree : ("Memory Stats - Allocated: ".toList ++ rest).dropPrefix? "FREE: ".toList = none :=
    rfl
  rw [read?, halloc, hfree, Text.dropPrefix?_append]

end Occurrence

namespace Line

theorem toList_text_alloc (size : Size) (address : Address) (location : Location) :
    (alloc size address location).text.toList =
      "ALLOC: ".toList ++ (Nat.toDigits 10 size.toNat ++ ' ' :: ("bytes at ".toList ++
        (address.text.toList ++ ' ' :: '(' :: (location.text.toList ++ [')'])))) := by
  have happend : ∀ a b c d e f g : String, (a ++ b ++ c ++ d ++ e ++ f ++ g).toList =
      a.toList ++ (b.toList ++ (c.toList ++ (d.toList ++ (e.toList ++ (f.toList ++ g.toList))))) := by
    intro a b c d e f g
    simp only [String.toList_append, List.append_assoc]
  rw [← Size.toList_text]
  exact happend "ALLOC: " size.text " bytes at " address.text " (" location.text ")"

theorem toList_text_free (address : Address) (location : Location) :
    (free address location).text.toList =
      "FREE: ".toList ++ (address.text.toList ++ ' ' :: '(' :: (location.text.toList ++ [')'])) := by
  have happend : ∀ a b c d e : String, (a ++ b ++ c ++ d ++ e).toList =
      a.toList ++ (b.toList ++ (c.toList ++ (d.toList ++ e.toList))) := by
    intro a b c d e
    simp only [String.toList_append, List.append_assoc]
  exact happend "FREE: " address.text " (" location.text ")"

theorem toList_text_stats (ledger : Ledger) :
    (stats ledger).text.toList =
      "Memory Stats - Allocated: ".toList ++ (Nat.toDigits 10 ledger.cumulativeBytes.toNat ++
        ' ' :: ("bytes, Active allocations: ".toList ++
          ledger.liveAllocations.toInt.repr.toList)) := by
  have happend : ∀ a b c d : String, (a ++ b ++ c ++ d).toList =
      a.toList ++ (b.toList ++ (c.toList ++ d.toList)) := by
    intro a b c d
    simp only [String.toList_append, List.append_assoc]
  rw [← Size.toList_text]
  exact happend "Memory Stats - Allocated: " ledger.cumulativeBytes.text
    " bytes, Active allocations: " ledger.liveText

/-- **A plain line is read back as what it tells of.** -/
theorem read?_text {line : Line} (plain : line.occurrence.IsPlain) :
    Occurrence.read? line.text.toList = some line.occurrence := by
  have hblank : ∀ n, ' ' ∉ Nat.toDigits 10 n := fun n => not_mem_toDigits rfl
  cases line with
  | alloc size address location =>
    rw [toList_text_alloc, Occurrence.read?_alloc, Occurrence.readAllocated?,
      Text.cut?_append (hblank _)]
    simp only [Option.bind_eq_bind, Option.bind_some, Number.readDigits_toDigits,
      Text.dropPrefix?_append, Occurrence.readPlace?_text plain.1, Option.pure_def]
    rfl
  | free address location =>
    rw [toList_text_free, Occurrence.read?_free, Occurrence.readReleased?,
      Occurrence.readPlace?_text plain.1]
    rfl
  | stats ledger =>
    rw [toList_text_stats, Occurrence.read?_stats, Occurrence.readReported?,
      Text.cut?_append (hblank _)]
    simp only [Option.bind_eq_bind, Option.bind_some, Number.readDigits_toDigits,
      Text.dropPrefix?_append, Number.readSigned_repr, Option.pure_def]
    rfl

/-! ## Streams -/

end Line

end TrackedHeap
