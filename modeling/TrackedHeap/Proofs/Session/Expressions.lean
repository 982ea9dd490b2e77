import TrackedHeap.Proofs.Session.Growth

/-!
# Joins in any brackets

* `Expression` : operands joined in any brackets, and which strings that are made on the way are
  given back at which join;
* `Expression.bytes?`, `Expression.space` : the text that an expression stands for, and the memory
  that its joins take;
* `Evaluation` : what an evaluation has come to. `Evaluation.join` : one join of two of them, and
  `Expression.evaluate` : all joins, one after another through one manager;
* `Evaluation.Yields` : the value reads as a text, and what is gained are the strings that are not
  given back;
* `Expression.yields` : every evaluation yields the text of its expression.
-/

namespace TrackedHeap

/-- Operands joined in any brackets. Each join carries the name of the string that it may make, and
the names of strings that are given back after it, of those made on the way and used up. -/
inductive Expression where
  | operand (operand : Operand)
  | join (left right : Expression) (name : Address) (gone : List Address)

/-- What an evaluation has come to: its value, the address of that if the evaluation has made it,
and the strings made on the way that are used up and not given back yet. -/
structure Evaluation where
  session : Session
  value : Operand
  made : Option Address
  spent : List Address

/-- The address of a string that a caller is told of. -/
def Reply.made? : Reply → Option Address
  | string view => some view.address
  | _ => none

namespace Evaluation

/-- The strings that an evaluation has made and that are not given back. -/
def held (x : Evaluation) : List Address :=
  x.made.toList ++ x.spent

/-- Joins the values of two evaluations, one after the other, and gives back some of the strings
that are used up then. -/
def join (x y : Evaluation) (index : Nat) (name : Address) (gone : List Address) : Evaluation :=
  let after := y.session.perform ⟨index, .concat x.value y.value, some name⟩
  let made := after.2.reply.bind Reply.made?
  let spent := x.held ++ y.held
  ⟨after.1.releaseAll index (spent.filter (· ∈ gone)), made.elim .absent .held, made,
    spent.filter (· ∉ gone)⟩

end Evaluation

namespace Expression

/-- The names of all joins. -/
def names : Expression → List Address
  | operand _ => []
  | join left right name _ => left.names ++ right.names ++ [name]

/-- The text that an expression stands for. -/
def bytes? (heap : Heap) : Expression → Option (Option Bytes)
  | operand o => o.bytes? heap
  | join left right _ _ =>
    (left.bytes? heap).bind fun a => (right.bytes? heap).map fun b => joinedText a b

/-- The memory that all joins of an expression take between them. -/
def space (heap : Heap) : Expression → Nat
  | operand _ => 0
  | join left right name gone =>
    left.space heap + right.space heap +
      textSpace (((join left right name gone).bytes? heap).getD none)

/-- The joins of an expression one after another, through the manager at an index. -/
def evaluate (index : Nat) : Expression → Session → Evaluation
  | operand o, s => ⟨s, o, none, []⟩
  | join left right name gone, s =>
    let x := left.evaluate index s
    x.join (right.evaluate index x.session) index name gone

/-- The value of an expression is one that its evaluation makes, or nothing. -/
def IsMade : Expression → Prop
  | operand o => o = .absent
  | join .. => True

end Expression

/-! ## Evaluation -/

/-- An evaluation has come to a value that reads as a text, and has gained the strings that it has
not given back. -/
structure Evaluation.Yields (x : Evaluation) (index : Nat) (s : Session) (e : Expression)
    (text : Option Bytes) : Prop where
  value : x.value.bytes? x.session.heap = some text
  grown : Session.Grown index s x.session x.held (e.space s.heap)
  named : ∀ a ∈ x.held, a ∈ e.names
  made : e.IsMade → x.value = x.made.elim .absent .held ∧ x.made.isSome = text.isSome

section
variable {index n : Nat} {s s' : Session} {held : List Address} {left right : Expression}
  {name : Address} {gone : List Address} {text a b : Option Bytes}

theorem Expression.bytes?_join {heap : Heap}
    (read : (join left right name gone).bytes? heap = some text) :
    ∃ a b, left.bytes? heap = some a ∧ right.bytes? heap = some b ∧ text = joinedText a b := by
  obtain ⟨a, ha, read⟩ := Option.bind_eq_some_iff.1 read
  obtain ⟨b, hb, rfl⟩ := Option.map_eq_some_iff.1 read
  exact ⟨a, b, ha, hb, rfl⟩

/-- An expression stands for the same text after a gain, and its joins take the same memory. -/
theorem Session.Grown.expression (grown : s.Grown index s' held n) {e : Expression}
    (read : e.bytes? s.heap = some text) :
    e.bytes? s'.heap = some text ∧ e.space s'.heap = e.space s.heap := by
  induction e generalizing text with
  | operand o => exact ⟨grown.bytes? read, rfl⟩
  | join left right name gone ihl ihr =>
    obtain ⟨a, b, ha, hb, rfl⟩ := Expression.bytes?_join read
    obtain ⟨ha', hspace⟩ := ihl ha
    obtain ⟨hb', hspace'⟩ := ihr hb
    have read' : (Expression.join left right name gone).bytes? s'.heap = some (joinedText a b) := by
      rw [Expression.bytes?, ha', hb']
      rfl
    refine ⟨read', ?_⟩
    rw [Expression.space, Expression.space, hspace, hspace', read, read']

/-- A join comes to what its caller is told of. -/
theorem Evaluation.join_eq {x y : Evaluation}
    (reply : (y.session.perform ⟨index, .concat x.value y.value, some name⟩).2.reply =
      some (text.elim .absent fun bytes =>
        .string ⟨name, UInt64.ofNat bytes.length, bytes, bytes ++ [0]⟩)) :
    let made := text.map fun _ => name
    let spent := x.held ++ y.held
    x.join y index name gone =
      ⟨(y.session.perform ⟨index, .concat x.value y.value, some name⟩).1.releaseAll index
          (spent.filter (· ∈ gone)),
        made.elim .absent .held, made, spent.filter (· ∉ gone)⟩ := by
  intro made spent
  rw [join]
  simp only [reply]
  cases text <;> rfl

/-- What is given back first, and what is left. -/
theorem perm_filter_append (spent made gone : List Address) :
    (spent ++ made).Perm (spent.filter (· ∈ gone) ++ (made ++ spent.filter (· ∉ gone))) := by
  have split := (List.filter_append_perm (· ∈ gone) spent).symm
  simp only [← decide_not] at split
  refine (split.append_right _).trans ?_
  rw [List.append_assoc]
  exact List.perm_append_comm.append_left _

/-- A join of two evaluations makes a string of both texts, if there is any. -/
theorem Evaluation.Yields.join {x y : Evaluation} (first : x.Yields index s left a)
    (second : y.Yields index x.session right b) (serves : s.Serves index n)
    (free : s.heap.isFree name = true) (apart : name ∉ left.names ++ right.names)
    (readl : left.bytes? s.heap = some a) (readr : right.bytes? s.heap = some b)
    (fits : textLength (joinedText a b) ≤ n) :
    (x.join y index name gone).Yields index s (.join left right name gone) (joinedText a b) := by
  have both := first.grown.trans second.grown
  have named : ∀ c ∈ x.held ++ y.held, c ∈ left.names ++ right.names := by
    intro c hc
    rcases List.mem_append.1 hc with hc | hc
    · exact List.mem_append_left _ (first.named c hc)
    · exact List.mem_append_right _ (second.named c hc)
  have free' : y.session.heap.isFree name = true := by
    rw [both.isFree_of_not_mem fun h => apart (named name h), free]
  have read : (Expression.join left right name gone).bytes? s.heap = some (joinedText a b) := by
    rw [Expression.bytes?, readl, readr]
    rfl
  obtain ⟨reply, joined, reads⟩ := Session.grown_concat (both.serves serves) free'
    (second.grown.bytes? first.value) second.value fits
  have total := both.trans joined
  obtain ⟨grown, kept⟩ := (total.perm (perm_filter_append _ _ gone)).releaseAll
  have apart' := (List.nodup_append'.1 total.nodup).2.2
  rw [Evaluation.join_eq reply]
  constructor
  case value =>
    -- What is given back has been used up, so it is not the new string.
    rw [← reads, Operand.bytes?, Operand.bytes?, Operand.string?_congr]
    intro c hc
    refine kept c fun used => apart' (List.mem_of_mem_filter used) ?_
    cases htext : joinedText a b with
    | none =>
      rw [htext] at hc
      cases hc
    | some bytes =>
      rw [htext] at hc
      obtain rfl := Operand.held.inj hc
      exact List.mem_cons_self
  case grown =>
    rw [Expression.space, read, ← (first.grown.expression readr).2]
    exact grown
  case named =>
    intro c hc
    rw [Expression.names]
    rcases List.mem_append.1 hc with hc | hc
    · obtain ⟨_, -, rfl⟩ := Option.map_eq_some_iff.1 (Option.mem_toList.1 hc)
      exact List.mem_append_right _ List.mem_cons_self
    · exact List.mem_append_left _ (named c (List.mem_of_mem_filter hc))
  case made => exact fun _ => ⟨rfl, Option.isSome_map⟩

/-- **An evaluation reads as the texts of its operands**, one after another, whatever is given back
on the way. -/
theorem Expression.yields {e : Expression} (serves : s.Serves index n) (nodup : e.names.Nodup)
    (free : ∀ name ∈ e.names, s.heap.isFree name = true) (read : e.bytes? s.heap = some text)
    (fits : textLength text ≤ n) : (e.evaluate index s).Yields index s e text := by
  induction e generalizing s text with
  | operand o =>
    obtain ⟨m, manager, -⟩ := serves
    refine ⟨read, .refl manager, fun a ha => absurd ha List.not_mem_nil, fun made => ?_⟩
    obtain rfl : o = .absent := made
    obtain rfl := Option.some.inj read
    exact ⟨rfl, rfl⟩
  | join left right name gone ihl ihr =>
    obtain ⟨a, b, readl, readr, rfl⟩ := bytes?_join read
    have length := textLength_joinedText a b
    rw [names, List.nodup_append'] at nodup
    obtain ⟨nodup, -, apart⟩ := nodup
    obtain ⟨nodupl, nodupr, disjoint⟩ := List.nodup_append'.1 nodup
    simp only [names, List.mem_append, or_imp, forall_and] at free
    obtain ⟨⟨freel, freer⟩, free⟩ := free
    have first := ihl serves nodupl freel readl (by omega)
    have second := ihr (s := (left.evaluate index s).session) (first.grown.serves serves) nodupr ?_
      (first.grown.expression readr).1 (by omega)
    · exact first.join second serves (free name List.mem_cons_self)
        (fun h => apart h List.mem_cons_self) readl readr fits
    · intro c hc
      rw [first.grown.isFree_of_not_mem fun h => disjoint (first.named c h) hc]
      exact freer c hc

end

end TrackedHeap
