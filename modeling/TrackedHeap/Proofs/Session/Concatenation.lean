import TrackedHeap.Proofs.Memory.TextOrder
import TrackedHeap.Proofs.Session.Expressions

/-!
# Joining as a monoid

* `Session.Ready` : expressions that can be evaluated one after another;
* `Session.compared` : two expressions are evaluated and their values compared. They compare as
  equal exactly when they stand for one text (`compared_eq_zero_iff`);
* `Expression.operands`, `bytes?_eq` : the text of an expression is that of its operands in order,
  whatever the brackets, and absent ones do not matter (`bytes?_congr`);
* `Turn`, `Expression.foldLeft`, `Expression.foldRight` : a list of operands joined from either end;
* `Session.Settled` : an evaluation has gained its value and nothing else;
* `Session.JoinsAsMonoid`, `concat_isMonoid` : joining is a monoid up to comparison.
-/

namespace TrackedHeap

namespace Session

/-- Expressions that can be evaluated one after another through a manager: their names are free and
all different, and the manager has memory for the text of each. -/
structure Ready (s : Session) (index : Nat) (es : List Expression) : Prop where
  nodup : (es.flatMap Expression.names).Nodup
  free : ∀ e ∈ es, ∀ name ∈ e.names, s.heap.isFree name = true
  texts : ∀ e ∈ es, ∃ text, e.bytes? s.heap = some text ∧ s.Serves index (textLength text)

/-- Two expressions are evaluated one after the other, and then their values compared. -/
def compared (s : Session) (index : Nat) (e e' : Expression) : Option Reply :=
  let x := e.evaluate index s
  let y := e'.evaluate index x.session
  (y.session.perform ⟨index, .compare x.value y.value, none⟩).2.reply

variable {s : Session} {index : Nat} {e e' : Expression} {es : List Expression}
  {text text' : Option Bytes}

theorem perform_compare {m : Manager} {first second : Operand} {a b : Option CText}
    (manager : s.managers[index]? = some m) (left : first.string? s.heap = some a)
    (right : second.string? s.heap = some b) :
    s.perform ⟨index, .compare first second, none⟩ =
      (s, ⟨some (.order (CText.compare a b)), .empty, s.ledger? index⟩) := by
  have hstep : s.step? ⟨index, .compare first second, none⟩ =
      some (s.answer (.order (CText.compare a b))) := by
    simp only [step?, Option.all_none, if_true, operate?, manager, through?, left, right,
      Option.bind_eq_bind, Option.bind_some, Option.pure_def]
  exact perform_of_step? hstep

/-- Operands that can be read compare as equal exactly when they read as one text. -/
theorem reply_compare_eq_zero_iff {m : Manager} {first second : Operand}
    (manager : s.managers[index]? = some m) (left : first.bytes? s.heap = some text)
    (right : second.bytes? s.heap = some text') :
    (s.perform ⟨index, .compare first second, none⟩).2.reply = some (.order 0) ↔ text = text' := by
  obtain ⟨a, ha, rfl⟩ := Option.map_eq_some_iff.1 left
  obtain ⟨b, hb, rfl⟩ := Option.map_eq_some_iff.1 right
  rw [perform_compare manager ha hb, Option.some.injEq, Reply.order.injEq,
    CText.compare_eq_zero_iff]
  exact (Option.map_injective fun _ _ => CText.ext).eq_iff.symm

/-- The first of some expressions is evaluated, and the others can be after it. -/
theorem Ready.evaluate (ready : s.Ready index (e :: es)) (read : e.bytes? s.heap = some text) :
    (e.evaluate index s).Yields index s e text ∧ (e.evaluate index s).session.Ready index es := by
  obtain ⟨text', read', serves⟩ := ready.texts e List.mem_cons_self
  obtain rfl := Option.some.inj (read.symm.trans read')
  have nodup := ready.nodup
  rw [List.flatMap_cons, List.nodup_append'] at nodup
  obtain ⟨nodup, nodups, apart⟩ := nodup
  have yields :=
    Expression.yields serves nodup (ready.free e List.mem_cons_self) read (Nat.le_refl _)
  refine ⟨yields, nodups, fun e' he' name hname => ?_, fun e' he' => ?_⟩
  · have hnew : name ∉ (e.evaluate index s).held :=
      fun h => apart (yields.named name h) (List.mem_flatMap.2 ⟨e', he', hname⟩)
    rw [yields.grown.isFree_of_not_mem hnew]
    exact ready.free e' (List.mem_cons_of_mem e he') name hname
  · obtain ⟨text', read', serves'⟩ := ready.texts e' (List.mem_cons_of_mem e he')
    exact ⟨text', (yields.grown.expression read').1, yields.grown.serves serves'⟩

/-- **Two expressions compare as equal exactly when they stand for one text.** -/
theorem compared_eq_zero_iff (ready : s.Ready index [e, e']) :
    s.compared index e e' = some (.order 0) ↔ e.bytes? s.heap = e'.bytes? s.heap := by
  obtain ⟨text, read, ⟨_, manager, -⟩⟩ := ready.texts e List.mem_cons_self
  obtain ⟨text', read', -⟩ := ready.texts e' (List.mem_cons_of_mem e List.mem_cons_self)
  obtain ⟨first, ready'⟩ := ready.evaluate read
  obtain ⟨second, -⟩ := ready'.evaluate (first.grown.expression read').1
  obtain ⟨m, manager', -⟩ := (first.grown.trans second.grown).manager manager
  rw [compared, read, read', Option.some.injEq]
  exact reply_compare_eq_zero_iff manager' (second.grown.bytes? first.value) second.value

/-- The value of an expression is absent exactly when its text is. -/
theorem value_eq_absent_iff (made : e.IsMade) (ready : s.Ready index (e :: es)) :
    (e.evaluate index s).value = .absent ↔ e.bytes? s.heap = some none := by
  obtain ⟨text, read, -⟩ := ready.texts e List.mem_cons_self
  obtain ⟨value, present⟩ := (ready.evaluate read).1.made made
  rw [value, read, Option.some.injEq]
  cases hmade : (e.evaluate index s).made <;> cases text <;> simp_all

/-- From `s` to `s'` an evaluation has gained its value and nothing else. The bytes of all its joins
have been counted. -/
structure Settled (index : Nat) (s s' : Session) (e : Expression) (value : Operand) : Prop where
  ledger : ∀ l, s.ledger? index = some l →
    s'.ledger? index = some ⟨l.cumulativeBytes + UInt64.ofNat (e.space s.heap),
      l.liveAllocations + if value = .absent then 0 else 1⟩
  others : ∀ a, value ≠ .held a → s'.heap.find? a = s.heap.find? a
  value : value.bytes? s'.heap = e.bytes? s.heap

/-- **An evaluation gains its value and nothing else**, once all strings made on the way are given
back, in whatever order. -/
theorem settled (made : e.IsMade) (ready : s.Ready index [e]) {order : List Address}
    (same : order.Perm (e.evaluate index s).spent) :
    Settled index s ((e.evaluate index s).session.releaseAll index order) e
      (e.evaluate index s).value := by
  obtain ⟨text, read, -⟩ := ready.texts e List.mem_cons_self
  obtain ⟨yields, -⟩ := ready.evaluate read
  have gained : s.Grown index (e.evaluate index s).session
      (order ++ (e.evaluate index s).made.toList) (e.space s.heap) :=
    yields.grown.perm (List.perm_append_comm.trans (same.symm.append_right _))
  obtain ⟨grown, kept⟩ := gained.releaseAll
  have apart := (List.nodup_append'.1 gained.nodup).2.2
  have read' := yields.value
  obtain ⟨value, -⟩ := yields.made made
  generalize (e.evaluate index s).made = held at grown apart value
  rw [value] at read' ⊢
  constructor
  case ledger =>
    intro l hl
    rw [grown.ledger?, hl]
    cases held <;> rfl
  case others =>
    intro a ha
    refine grown.others a fun hmem => ?_
    cases held with
    | none => cases hmem
    | some b =>
      obtain rfl := List.mem_singleton.1 hmem
      exact ha rfl
  case value =>
    rw [read, ← read', Operand.bytes?, Operand.bytes?, Operand.string?_congr]
    intro a ha
    refine kept a fun hmem => ?_
    cases held with
    | none => cases ha
    | some b =>
      obtain rfl := Operand.held.inj ha
      exact apart hmem List.mem_cons_self

end Session

namespace Expression

/-! ## Brackets -/

/-- The operands of an expression, in order. -/
def operands : Expression → List Operand
  | operand o => [o]
  | join left right _ _ => left.operands ++ right.operands

end Expression

/-- The text of operands one after another. -/
def joinedTexts? (heap : Heap) : List Operand → Option (Option Bytes)
  | [] => some none
  | o :: rest => (o.bytes? heap).bind fun a => (joinedTexts? heap rest).map (joinedText a)

section
variable {heap : Heap}

theorem joinedTexts?_append (first second : List Operand) :
    joinedTexts? heap (first ++ second) =
      (joinedTexts? heap first).bind fun a => (joinedTexts? heap second).map (joinedText a) := by
  induction first with
  | nil =>
    rw [List.nil_append, joinedTexts?, Option.bind_some]
    cases joinedTexts? heap second with
    | none => rfl
    | some b => rw [Option.map_some, joinedText, Option.merge_none_left]
  | cons o rest ih =>
    rw [List.cons_append, joinedTexts?, joinedTexts?, ih]
    cases o.bytes? heap with
    | none => rfl
    | some a =>
      cases joinedTexts? heap rest with
      | none => rfl
      | some b =>
        cases joinedTexts? heap second with
        | none => rfl
        | some c => exact congrArg some (Std.Associative.assoc a b c).symm

/-- **The text of an expression is that of its operands in order**, whatever the brackets. -/
theorem Expression.bytes?_eq (e : Expression) : e.bytes? heap = joinedTexts? heap e.operands := by
  induction e with
  | operand o =>
    rw [bytes?, operands, joinedTexts?, joinedTexts?]
    cases o.bytes? heap with
    | none => rfl
    | some a => rw [Option.bind_some, Option.map_some, joinedText, Option.merge_none_right]
  | join left right name gone ihl ihr => rw [bytes?, operands, joinedTexts?_append, ihl, ihr]

/-- Absent operands add nothing. -/
theorem joinedTexts?_filter (operands : List Operand) :
    joinedTexts? heap (operands.filter (· ≠ .absent)) = joinedTexts? heap operands := by
  induction operands with
  | nil => rfl
  | cons o rest ih =>
    by_cases absent : o = .absent
    · rw [List.filter_cons_of_neg (by simpa using absent), ih, absent, joinedTexts?]
      cases joinedTexts? heap rest with
      | none => rfl
      | some b => exact congrArg some Option.merge_none_left.symm
    · rw [List.filter_cons_of_pos (by simpa using absent), joinedTexts?, joinedTexts?, ih]

/-- Expressions of the same operands, up to absent ones, stand for one text. -/
theorem Expression.bytes?_congr {e e' : Expression}
    (same : e.operands.filter (· ≠ .absent) = e'.operands.filter (· ≠ .absent)) :
    e.bytes? heap = e'.bytes? heap := by
  rw [bytes?_eq, bytes?_eq, ← joinedTexts?_filter e.operands, same, joinedTexts?_filter]

/-- Some text is there exactly when one of the operands has one. -/
theorem isSome_joinedTexts? {operands : List Operand} {text : Option Bytes}
    (read : joinedTexts? heap operands = some text) :
    text.isSome = true ↔ ∃ o ∈ operands, ∃ t, o.string? heap = some (some t) := by
  induction operands generalizing text with
  | nil =>
    obtain rfl := Option.some.inj read
    simp
  | cons o rest ih =>
    obtain ⟨a, ha, read⟩ := Option.bind_eq_some_iff.1 read
    obtain ⟨b, hb, rfl⟩ := Option.map_eq_some_iff.1 read
    obtain ⟨t, ht, rfl⟩ := Option.map_eq_some_iff.1 ha
    rw [List.exists_mem_cons_iff, ← ih hb, ht]
    cases t <;> cases b <;> simp

end

/-! ## Folds -/

/-- One operand of a fold, the name of the string that joining it may make, and the strings that are
given back after that. -/
structure Turn where
  operand : Operand
  name : Address
  gone : List Address

namespace Expression

/-- Operands joined one after another to what is there, the first one first. -/
def foldLeft (start : Expression) : List Turn → Expression
  | [] => start
  | turn :: rest => foldLeft (join start (operand turn.operand) turn.name turn.gone) rest

/-- What is there joined to operands one after another, the last one first. -/
def foldRight (start : Expression) : List Turn → Expression
  | [] => start
  | turn :: rest => join (operand turn.operand) (foldRight start rest) turn.name turn.gone

theorem operands_foldLeft (start : Expression) (turns : List Turn) :
    (foldLeft start turns).operands = start.operands ++ turns.map Turn.operand := by
  induction turns generalizing start with
  | nil => exact (List.append_nil _).symm
  | cons turn rest ih => rw [foldLeft, ih, operands, List.append_assoc]; rfl

theorem operands_foldRight (start : Expression) (turns : List Turn) :
    (foldRight start turns).operands = turns.map Turn.operand ++ start.operands := by
  induction turns with
  | nil => rfl
  | cons turn rest ih => rw [foldRight, operands, ih]; rfl

theorem isMade_foldLeft {start : Expression} (made : start.IsMade) (turns : List Turn) :
    (foldLeft start turns).IsMade := by
  induction turns generalizing start with
  | nil => exact made
  | cons turn rest ih => exact ih True.intro

theorem isMade_foldRight {start : Expression} (made : start.IsMade) (turns : List Turn) :
    (foldRight start turns).IsMade := by
  cases turns with
  | nil => exact made
  | cons turn rest => trivial

/-- A list of operands joined from one of its ends on, and from nothing. -/
inductive IsFold : Expression → List Turn → Prop
  | left (turns : List Turn) : IsFold (foldLeft (operand .absent) turns) turns
  | right (turns : List Turn) : IsFold (foldRight (operand .absent) turns) turns

namespace IsFold
variable {turns : List Turn} {e : Expression} (fold : e.IsFold turns)
include fold

theorem operands_filter :
    e.operands.filter (· ≠ .absent) = (turns.map Turn.operand).filter (· ≠ .absent) := by
  cases fold with
  | left => rw [operands_foldLeft]; rfl
  | right =>
    rw [operands_foldRight, List.filter_append]
    exact List.append_nil _

theorem isMade : e.IsMade := by
  cases fold with
  | left => exact isMade_foldLeft (show (operand .absent).IsMade from rfl) turns
  | right => exact isMade_foldRight (show (operand .absent).IsMade from rfl) turns

theorem bytes?_eq (heap : Heap) : e.bytes? heap = joinedTexts? heap (turns.map Turn.operand) := by
  rw [Expression.bytes?_eq, ← joinedTexts?_filter, fold.operands_filter, joinedTexts?_filter]

end IsFold

end Expression

/-! ## Laws -/

namespace Session

/-- Joining is a monoid up to comparison, through one manager of a session. -/
structure JoinsAsMonoid (s : Session) (index : Nat) : Prop where
  assoc : ∀ (a b c : Operand) (n n' k k' : Address) (gone gone' late late' : List Address),
    let left : Expression := .join (.join (.operand a) (.operand b) n gone) (.operand c) n' gone'
    let right : Expression := .join (.operand a) (.join (.operand b) (.operand c) k late) k' late'
    s.Ready index [left, right] → s.compared index left right = some (.order 0)
  right_unit : ∀ (a : Operand) (n : Address) (gone : List Address),
    let e : Expression := .join (.operand a) (.operand .absent) n gone
    s.Ready index [e, .operand a] → s.compared index e (.operand a) = some (.order 0) ∧
      ((e.evaluate index s).value = .absent ↔ a.string? s.heap = some none)
  left_unit : ∀ (a : Operand) (n : Address) (gone : List Address),
    let e : Expression := .join (.operand .absent) (.operand a) n gone
    s.Ready index [e, .operand a] → s.compared index e (.operand a) = some (.order 0) ∧
      ((e.evaluate index s).value = .absent ↔ a.string? s.heap = some none)
  /-- An absent operand, and a string that is not made, count as of length zero. -/
  length : ∀ (a b : Operand) (n : Address) (ta tb : Option Bytes),
    s.Ready index [.join (.operand a) (.operand b) n []] →
      a.bytes? s.heap = some ta → b.bytes? s.heap = some tb →
        let reply := (s.perform ⟨index, .concat a b, some n⟩).2.reply
        reply = some .absent ∧ textLength ta + textLength tb = 0 ∨
          ∃ view, reply = some (.string view) ∧
            view.length.toNat = textLength ta + textLength tb
  congr : ∀ (a a' b b' : Operand) (n n' : Address) (gone gone' : List Address),
    let e : Expression := .join (.operand a) (.operand b) n gone
    let e' : Expression := .join (.operand a') (.operand b') n' gone'
    s.Ready index [e, e'] →
      (s.perform ⟨index, .compare a a', none⟩).2.reply = some (.order 0) →
      (s.perform ⟨index, .compare b b', none⟩).2.reply = some (.order 0) →
        s.compared index e e' = some (.order 0)
  /-- Any brackets give the same, with absent operands anywhere. -/
  brackets : ∀ e e' : Expression, s.Ready index [e, e'] →
    e.operands.filter (· ≠ .absent) = e'.operands.filter (· ≠ .absent) →
      s.compared index e e' = some (.order 0)
  /-- Either end to start from gives the same. -/
  folds : ∀ (turns turns' : List Turn) (e e' : Expression), e.IsFold turns → e'.IsFold turns' →
    turns.map Turn.operand = turns'.map Turn.operand → s.Ready index [e, e'] →
      s.compared index e e' = some (.order 0)
  fold_present : ∀ (turns : List Turn) (e : Expression), e.IsFold turns → s.Ready index [e] →
    ((e.evaluate index s).value ≠ .absent ↔
      ∃ turn ∈ turns, ∃ t, turn.operand.string? s.heap = some (some t))
  fold_settled : ∀ (turns : List Turn) (e : Expression), e.IsFold turns → s.Ready index [e] →
    ∀ order : List Address, order.Perm (e.evaluate index s).spent →
      Settled index s ((e.evaluate index s).session.releaseAll index order) e
        (e.evaluate index s).value

section
variable {s : Session} {index : Nat} {e e' : Expression}

/-- Expressions of the same operands, up to absent ones, compare as equal. -/
theorem compared_of_operands (ready : s.Ready index [e, e'])
    (same : e.operands.filter (· ≠ .absent) = e'.operands.filter (· ≠ .absent)) :
    s.compared index e e' = some (.order 0) :=
  (compared_eq_zero_iff ready).2 (Expression.bytes?_congr same)

/-- A join of one operand with an absent one is that operand again, and absent when it is. -/
theorem compared_unit {a : Operand} (made : e.IsMade) (ready : s.Ready index [e, .operand a])
    (same : e.operands.filter (· ≠ .absent) = [a].filter (· ≠ .absent)) :
    s.compared index e (.operand a) = some (.order 0) ∧
      ((e.evaluate index s).value = .absent ↔ a.string? s.heap = some none) := by
  refine ⟨compared_of_operands ready same, ?_⟩
  have read : e.bytes? s.heap = (Expression.operand a).bytes? s.heap := Expression.bytes?_congr same
  rw [value_eq_absent_iff made ready, read, Expression.bytes?, Operand.bytes?]
  simp

/-- The length of a joined string is the sum of the lengths of what it is joined from. -/
theorem length_concat {a b : Operand} {n : Address} {gone : List Address} {ta tb : Option Bytes}
    (ready : s.Ready index [.join (.operand a) (.operand b) n gone])
    (left : a.bytes? s.heap = some ta) (right : b.bytes? s.heap = some tb) :
    let reply := (s.perform ⟨index, .concat a b, some n⟩).2.reply
    reply = some .absent ∧ textLength ta + textLength tb = 0 ∨
      ∃ view, reply = some (.string view) ∧
        view.length.toNat = textLength ta + textLength tb := by
  intro reply
  obtain ⟨text, read, serves⟩ := ready.texts _ List.mem_cons_self
  obtain ⟨_, _, left', right', rfl⟩ := Expression.bytes?_join read
  obtain rfl := Option.some.inj (left.symm.trans left')
  obtain rfl := Option.some.inj (right.symm.trans right')
  have free := ready.free _ List.mem_cons_self n (List.mem_cons_self)
  obtain ⟨told, -⟩ := grown_concat serves free left right (Nat.le_refl _)
  obtain ⟨-, -, small, -⟩ := serves
  rw [← textLength_joinedText]
  generalize joinedText ta tb = text at told small
  cases text with
  | none => exact .inl ⟨told, rfl⟩
  | some bytes =>
    refine .inr ⟨_, told, UInt64.toNat_ofNat_of_lt' ?_⟩
    have small : bytes.length + 1 < 2 ^ 63 := small
    have size : 2 ^ 63 ≤ UInt64.size := by decide
    omega

/-- Joins of operands that compare as equal compare as equal. -/
theorem compared_congr {a a' b b' : Operand} {n n' : Address} {gone gone' : List Address}
    (ready : s.Ready index
      [.join (.operand a) (.operand b) n gone, .join (.operand a') (.operand b') n' gone'])
    (same : (s.perform ⟨index, .compare a a', none⟩).2.reply = some (.order 0))
    (same' : (s.perform ⟨index, .compare b b', none⟩).2.reply = some (.order 0)) :
    s.compared index (.join (.operand a) (.operand b) n gone)
      (.join (.operand a') (.operand b') n' gone') = some (.order 0) := by
  obtain ⟨_, read, _, manager, -⟩ := ready.texts _ List.mem_cons_self
  obtain ⟨_, read', -⟩ := ready.texts _ (List.mem_cons_of_mem _ List.mem_cons_self)
  obtain ⟨ta, tb, ha, hb, rfl⟩ := Expression.bytes?_join read
  obtain ⟨ta', tb', ha', hb', rfl⟩ := Expression.bytes?_join read'
  obtain rfl := (reply_compare_eq_zero_iff manager ha ha').1 same
  obtain rfl := (reply_compare_eq_zero_iff manager hb hb').1 same'
  rw [compared_eq_zero_iff ready, read, read']

/-- A fold comes to a string exactly when one of its operands is there. -/
theorem fold_ne_absent_iff {turns : List Turn} (fold : e.IsFold turns)
    (ready : s.Ready index [e]) :
    (e.evaluate index s).value ≠ .absent ↔
      ∃ turn ∈ turns, ∃ t, turn.operand.string? s.heap = some (some t) := by
  obtain ⟨text, read, -⟩ := ready.texts e List.mem_cons_self
  rw [Ne, value_eq_absent_iff fold.isMade ready, read, Option.some.injEq, ← ne_eq,
    ← Option.isSome_iff_ne_none]
  rw [fold.bytes?_eq] at read
  rw [isSome_joinedTexts? read]
  simp

end

/-- **Joining is a monoid up to comparison**, in every session and through every manager that has
the memory. A list of operands may be joined from either end, but the memory that is taken on the
way need not be the same. -/
theorem concat_isMonoid :
    (∀ (s : Session) (index : Nat), s.JoinsAsMonoid index) ∧
      ∃ (turns : List Turn) (e e' : Expression), e.IsFold turns ∧ e'.IsFold turns ∧
        e.space [] ≠ e'.space [] := by
  constructor
  · intro s index
    constructor
    case assoc =>
      intro a b c n n' k k' gone gone' late late' left right ready
      apply compared_of_operands ready
      simp [left, right, Expression.operands]
    case right_unit =>
      intro a n gone e ready
      apply compared_unit (e := e) True.intro ready
      simp only [e, Expression.operands]
      rw [List.filter_append]
      exact List.append_nil _
    case left_unit =>
      intro a n gone e ready
      exact compared_unit (e := e) True.intro ready rfl
    case length =>
      intro a b n ta tb ready left right
      exact length_concat ready left right
    case congr =>
      intro a a' b b' n n' gone gone' e e' ready same same'
      exact compared_congr ready same same'
    case brackets =>
      intro e e' ready same
      exact compared_of_operands ready same
    case folds =>
      intro turns turns' e e' fold fold' same ready
      apply compared_of_operands ready
      rw [fold.operands_filter, fold'.operands_filter, same]
    case fold_present =>
      intro turns e fold ready
      exact fold_ne_absent_iff fold ready
    case fold_settled =>
      intro turns e fold ready order same
      exact settled fold.isMade ready same
  · let short : Turn := ⟨.text ⟨[97], by decide, by decide⟩, ⟨"a"⟩, []⟩
    let long : Turn := ⟨.text ⟨[98, 98], by decide, by decide⟩, ⟨"b"⟩, []⟩
    exact ⟨[short, long], _, _, .left _, .right _, by decide⟩

/-- A string, nothing, and the string again, joined from either end: with one string given back at
once from the left, and with all given back in the end from the right. -/
theorem concat_isMonoid_folds :
    let s : Session :=
      ⟨[(⟨"hi"⟩, .joined [⟨[104, 105], by decide, by decide⟩])],
        [⟨.stack .unbounded 1, .standardError⟩]⟩
    let turns : List Turn :=
      [⟨.held ⟨"hi"⟩, ⟨"a"⟩, []⟩, ⟨.absent, ⟨"b"⟩, [⟨"a"⟩]⟩, ⟨.held ⟨"hi"⟩, ⟨"c"⟩, []⟩]
    let turns' : List Turn :=
      [⟨.held ⟨"hi"⟩, ⟨"x"⟩, []⟩, ⟨.absent, ⟨"y"⟩, []⟩, ⟨.held ⟨"hi"⟩, ⟨"z"⟩, []⟩]
    let e := Expression.foldLeft (.operand .absent) turns
    let e' := Expression.foldRight (.operand .absent) turns'
    s.compared 0 e e' = some (.order 0) ∧
      ∀ order : List Address, order.Perm (e'.evaluate 0 s).spent →
        ∃ l, ((e'.evaluate 0 s).session.releaseAll 0 order).ledger? 0 = some l ∧
          l.cumulativeBytes = 11 ∧ l.liveAllocations = 1 := by
  intro s turns turns' e e'
  have serves : ∀ n, n + 1 < 2 ^ 63 → s.Serves 0 n := fun n small =>
    ⟨_, rfl, small, fun _ _ => rfl⟩
  have text : ∀ e'' ∈ [e, e'], e''.bytes? s.heap = some (some [104, 105, 104, 105]) := by
    decide +kernel
  have ready : s.Ready 0 [e, e'] :=
    ⟨by decide, by decide, fun e'' he'' => ⟨_, text e'' he'', serves 4 (by decide)⟩⟩
  have ready' : s.Ready 0 [e'] :=
    ⟨by decide, by decide, fun e'' he'' =>
      ⟨_, text e'' (List.mem_cons_of_mem e he''), serves 4 (by decide)⟩⟩
  have laws := concat_isMonoid.1 s 0
  refine ⟨laws.folds turns turns' e e' (.left _) (.right _) rfl ready, fun order same => ?_⟩
  have settled := laws.fold_settled turns' e' (.right _) ready' order same
  have present : (e'.evaluate 0 s).value ≠ .absent :=
    (laws.fold_present turns' e' (.right _) ready').2 ⟨_, List.mem_cons_self, ⟨_, _, _⟩, rfl⟩
  have ledger := settled.ledger _ rfl
  rw [if_neg present] at ledger
  exact ⟨_, ledger, by decide, by decide⟩

end Session

end TrackedHeap
