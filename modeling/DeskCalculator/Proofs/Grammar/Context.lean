import DeskCalculator.Proofs.Grammar.Value

/-!
# Contexts

A context is a derivation with one hole where a primary phrase can stand.  If what stands in the
hole takes the value on top of the stack, then every operator that waits for the hole on its left
loses its left operand to it, and takes that of the next operator outside.
-/

namespace DeskCalculator

/-- A derivation of a phrase of a category with one hole. -/
inductive Context : Category → Type where
  /-- The place of a primary phrase. -/
  | hole : Context .primary
  /-- The hole in parentheses. -/
  | group (inner : Context .sum) : Context .primary
  /-- The hole before a percent sign. -/
  | percent (operand : Context .percentage) : Context .percentage
  /-- The hole behind a root sign. -/
  | root (operand : Context .unary) : Context .unary
  /-- The hole in the left operand of an operator. -/
  | inLeft {level tighter : Category} (op : Operator) (makes : op.category? = some level)
      (next : level.tighter? = some tighter) (left : Context level)
      (right : Expression tighter) : Context level
  /-- The hole in the right operand of an operator. -/
  | inRight {level tighter : Category} (op : Operator) (makes : op.category? = some level)
      (next : level.tighter? = some tighter) (left : Expression level)
      (right : Context tighter) : Context level
  /-- The hole in a phrase of the next tighter category. -/
  | lift {level tighter : Category} (next : level.tighter? = some tighter)
      (inner : Context tighter) : Context level

namespace Context

/-- The tokens of a context around those in its hole. -/
def tokens (inside : List Token) : {level : Category} → Context level → List Token
  | _, hole => inside
  | _, group inner => .opening :: inner.tokens inside ++ [.closing]
  | _, percent operand => operand.tokens inside ++ [.ofOperator .percent]
  | _, root operand => .ofOperator .root :: operand.tokens inside
  | _, inLeft op _ _ left right => left.tokens inside ++ .ofOperator op :: right.tokens
  | _, inRight op _ _ left right => left.tokens ++ .ofOperator op :: right.tokens inside
  | _, lift _ inner => inner.tokens inside

/-- A context in postfix notation around the items in its hole. -/
def items (inside : List Item) : {level : Category} → Context level → List Item
  | _, hole => inside
  | _, group inner => inner.items inside
  | _, percent operand => operand.items inside ++ [.operator .percent 1]
  | _, root operand => operand.items inside ++ [.operator .root Operator.root.arity]
  | _, inLeft op _ _ left right => left.items inside ++ right.items ++ [.operator op op.arity]
  | _, inRight op _ _ left right => left.items ++ right.items inside ++ [.operator op op.arity]
  | _, lift _ inner => inner.items inside

/-- The value of a context around a value in its hole. -/
def value [Arithmetic] (inside : Float) : {level : Category} → Context level → Float
  | _, hole => inside
  | _, group inner => inner.value inside
  | _, percent operand => Operator.hundredth (operand.value inside)
  | _, root operand => (operand.value inside).sqrt
  | _, inLeft op makes _ left right => op.between makes (left.value inside) right.value
  | _, inRight op makes _ left right => op.between makes left.value (right.value inside)
  | _, lift _ inner => inner.value inside

/--
The value of a context whose hole takes the value read before it.  An operator on whose right the
hole lies loses its own left operand to what is further inside, and has the one that stands outside
for its left operand.
-/
def displaced [Arithmetic] (take : Float → Float) :
    {level : Category} → Context level → Float → Float
  | _, hole, outside => take outside
  | _, group inner, outside => inner.displaced take outside
  | _, percent operand, outside => Operator.hundredth (operand.displaced take outside)
  | _, root operand, outside => (operand.displaced take outside).sqrt
  | _, inLeft op makes _ left right, outside =>
      op.between makes (left.displaced take outside) right.value
  | _, inRight op makes _ left right, outside =>
      op.between makes outside (right.displaced take left.value)
  | _, lift _ inner, outside => inner.displaced take outside

/-- Whether the hole lies on the right of no operator between two operands. -/
def leads : {level : Category} → Context level → Bool
  | _, hole => true
  | _, group inner => inner.leads
  | _, percent operand => operand.leads
  | _, root operand => operand.leads
  | _, inLeft _ _ _ left _ => left.leads
  | _, inRight _ _ _ _ _ => false
  | _, lift _ inner => inner.leads

theorem displaced_of_leads [Arithmetic] {take : Float → Float} {level : Category}
    {context : Context level} (leads : context.leads) (outside : Float) :
    context.displaced take outside = context.value (take outside) := by
  induction context with
  | hole => rfl
  | group _ inner => exact inner leads
  | percent _ operand => exact congrArg Operator.hundredth (operand leads)
  | root _ operand => exact congrArg Float.sqrt (operand leads)
  | inLeft op makes _ _ right left =>
      exact congrArg (op.between makes · right.value) (left leads)
  | inRight => simp [Context.leads] at leads
  | lift _ _ inner => exact inner leads

/-! ## Spelling -/

/-- Whether the last token of a context is a percent sign; the hole ends in none. -/
def endsInPercent : {level : Category} → Context level → Bool
  | _, hole => false
  | _, group _ => false
  | _, percent _ => true
  | _, root operand => operand.endsInPercent
  | _, inLeft _ _ _ _ right => right.endsInPercent
  | _, inRight _ _ _ _ right => right.endsInPercent
  | _, lift _ inner => inner.endsInPercent

/-- Two texts spell a context: the tokens before its hole and those behind it, with blanks as in a
text that spells a phrase. -/
inductive Spells : {level : Category} → Context level → List Char → List Char → Prop where
  | hole : Spells .hole [] []
  | group {inner : Context .sum} {before behind : List Char} :
      Spells inner before behind → Spells (.group inner) ('(' :: before) (behind ++ [')'])
  | percent {operand : Context .percentage} {before behind : List Char} :
      Spells operand before behind → Spells (.percent operand) before (behind ++ ['%'])
  | root {operand : Context .unary} {before behind : List Char} :
      Spells operand before behind → Spells (.root operand) ('√' :: before) behind
  | inLeft {level tighter : Category} {op : Operator} {makes : op.category? = some level}
      {next : level.tighter? = some tighter} {left : Context level}
      {right : Expression tighter} {before behind text : List Char} :
      Spells left before behind → right.Spells text →
      (op = .subtract → left.endsInPercent → beginsNumeral text = false) →
      Spells (.inLeft op makes next left right) before (behind ++ op.symbol :: text)
  | inRight {level tighter : Category} {op : Operator} {makes : op.category? = some level}
      {next : level.tighter? = some tighter} {left : Expression level}
      {right : Context tighter} {before behind text : List Char} :
      left.Spells text → Spells right before behind →
      (op = .subtract → left.endsInPercent → beginsNumeral before = false) →
      Spells (.inRight op makes next left right) (text ++ op.symbol :: before) behind
  | lift {level tighter : Category} {next : level.tighter? = some tighter}
      {inner : Context tighter} {before behind : List Char} :
      Spells inner before behind → Spells (.lift next inner) before behind
  | blankBefore {level : Category} {context : Context level} {before behind : List Char}
      {c : Char} :
      Text.isBlank c → Spells context before behind → Spells context (c :: before) behind
  | blankBehind {level : Category} {context : Context level} {before behind : List Char}
      {c : Char} :
      Text.isBlank c → Spells context before behind → Spells context before (behind ++ [c])

/-! ## What carries over from the hole -/

/-- A context reads as its tokens around those of what stands in its hole. -/
theorem Spells.reads {level : Category} {context : Context level} {before behind : List Char}
    (spells : context.Spells before behind) {inside : List Char} {filling : List Token}
    (hole : Reads inside filling true)
    (shown : ∀ rest, beginsNumeral (inside ++ rest) = false) :
    Reads (before ++ inside ++ behind) (context.tokens filling) (!context.endsInPercent) := by
  induction spells with
  | hole => simpa [tokens, endsInPercent] using hole
  | group _ inner =>
      have whole := Reads.group inner
      simpa [tokens, endsInPercent] using whole
  | percent _ operand =>
      have whole := Reads.percent operand
      simpa [tokens, endsInPercent] using whole
  | root _ operand => exact Reads.root operand
  | @inLeft _ _ op _ _ left _ before behind text _ second separate first =>
      have whole := Reads.binary first second.reads
        fun minus incomplete rest _ => by
          obtain ⟨c, tail, rfl⟩ := List.exists_cons_of_ne_nil second.ne_nil
          exact separate minus (by simpa using incomplete)
      simpa [tokens, endsInPercent] using whole
  | @inRight _ _ op _ _ left _ before behind text first _ separate second =>
      have whole := Reads.binary first.reads second
        fun minus incomplete rest _ => by
          have blank_or_sign := separate minus (by simpa using incomplete)
          cases before with
          | nil => simpa using shown (behind ++ rest)
          | cons c before => exact blank_or_sign
      simpa [tokens, endsInPercent] using whole
  | lift _ inner => exact inner
  | blankBefore blank _ phrase => exact .blankBefore blank phrase
  | blankBehind blank _ phrase =>
      have whole := Reads.blankBehind blank phrase
      simpa [tokens, endsInPercent] using whole

theorem arranges {level : Category} (context : Context level) {filling : List Token}
    {inside : List Item} (hole : Postfix.Arranges.OfCategory .primary filling inside) :
    Postfix.Arranges.OfCategory level (context.tokens filling) (context.items inside) := by
  induction context with
  | hole => exact hole
  | group _ inner => exact .group _ _ inner
  | percent _ operand => exact .percent operand
  | root _ operand => exact .root operand
  | inLeft _ makes next _ right left => exact .ofOperator makes next left right.arranges
  | inRight _ makes next left _ right => exact .ofOperator makes next left.arranges right
  | lift next _ inner => exact .lift next inner

open Evaluation (reduce)

variable [Arithmetic]

theorem reduce_items {level : Category} (context : Context level) {inside : List Item}
    {filling : Float}
    (hole : ∀ values rest, reduce values (inside ++ rest) = reduce (filling :: values) rest)
    (values : List Float) (rest : List Item) :
    reduce values (context.items inside ++ rest) =
      reduce (context.value filling :: values) rest := by
  induction context generalizing values rest with
  | hole => exact hole values rest
  | group _ inner => exact inner values rest
  | percent operand induction =>
      rw [items, List.append_assoc, induction]
      exact Evaluation.reduce_unary rfl (operand.value filling) values rest
  | root operand induction =>
      rw [items, List.append_assoc, induction]
      exact Evaluation.reduce_unary rfl (operand.value filling) values rest
  | inLeft op makes _ left right first =>
      rw [items, List.append_assoc, List.append_assoc, first, right.reduce_items]
      exact Evaluation.reduce_binary makes (left.value filling) right.value values rest
  | inRight op makes _ left right second =>
      rw [items, List.append_assoc, List.append_assoc, left.reduce_items, second]
      exact Evaluation.reduce_binary makes left.value (right.value filling) values rest
  | lift _ _ inner => exact inner values rest

/-- Where the items in the hole take the value on top, so does the whole.  In the right operand of
an operator this value is the left operand, and the operator takes the value below. -/
theorem reduce_items_displaced {level : Category} (context : Context level)
    {inside : List Item} {take : Float → Float}
    (hole : ∀ top values rest,
      reduce (top :: values) (inside ++ rest) = reduce (take top :: values) rest)
    (outside : Float) (values : List Float) (rest : List Item) :
    reduce (outside :: values) (context.items inside ++ rest) =
      reduce (context.displaced take outside :: values) rest := by
  induction context generalizing outside values rest with
  | hole => exact hole outside values rest
  | group _ inner => exact inner outside values rest
  | percent operand induction =>
      rw [items, List.append_assoc, induction]
      exact Evaluation.reduce_unary rfl (operand.displaced take outside) values rest
  | root operand induction =>
      rw [items, List.append_assoc, induction]
      exact Evaluation.reduce_unary rfl (operand.displaced take outside) values rest
  | inLeft op makes _ left right first =>
      rw [items, List.append_assoc, List.append_assoc, first, right.reduce_items]
      exact Evaluation.reduce_binary makes (left.displaced take outside) right.value values rest
  | inRight op makes _ left right second =>
      rw [items, List.append_assoc, List.append_assoc, left.reduce_items, second]
      exact Evaluation.reduce_binary makes outside (right.displaced take left.value) values rest
  | lift _ _ inner => exact inner outside values rest

end Context
end DeskCalculator
