import DeskCalculator.Evaluation
import Mathlib.Tactic

/-!
# The grammar of expressions

A derivation of the grammar

* sum: a product, or a sum, `+` or `-`, and a product;
* product: a power, or a product, `*`, `/` or `%`, and a power;
* power: a unary phrase, or a power, `^` and a unary phrase;
* unary phrase: a percentage, or `√` and a unary phrase;
* percentage: a primary phrase, or a percentage and `%`;
* primary phrase: a numeral with or without a minus sign, or a sum in parentheses

is a value of type `Expression`, read as the texts that spell it, as tokens, as items and as a
value.
-/

namespace DeskCalculator

/-! ## Numerals -/

/-- A numeral: digits, at least one, with at most one point before, among or behind them. -/
structure Numeral where
  /-- The digits before the point. -/
  whole : List Char
  /-- The digits behind the point, if there is a point. -/
  places : Option (List Char)
  /-- There is nothing but digits on either side of the point. -/
  digits : ∀ c ∈ whole ++ places.getD [], c.isDigit
  /-- There is a digit. -/
  nonempty : whole ++ places.getD [] ≠ []

namespace Numeral

/-- A numeral of one digit. -/
def ofDigit (c : Char) (digit : c.isDigit) : Numeral where
  whole := [c]
  places := none
  digits := by simpa using digit
  nonempty := by simp

/-- A numeral as it is written. -/
def text (numeral : Numeral) : List Char :=
  numeral.whole ++ (numeral.places.map ('.' :: ·)).getD []

/-- The decimal that a numeral writes. -/
def decimal (numeral : Numeral) : Decimal :=
  ⟨Decimal.ofDigits (numeral.whole ++ numeral.places.getD []),
    -((numeral.places.getD []).length : Int)⟩

/-- The floating-point number of a numeral with or without a minus sign. -/
def value (negative : Bool) (numeral : Numeral) : Float := numeral.decimal.toFloat negative

theorem whole_isDigit (numeral : Numeral) : ∀ c ∈ numeral.whole, c.isDigit :=
  fun c member => numeral.digits c (List.mem_append_left _ member)

theorem takeWhile_isDigit_text (numeral : Numeral) :
    numeral.text.takeWhile Char.isDigit = numeral.whole := by
  rw [text, List.takeWhile_append_of_pos numeral.whole_isDigit]
  cases numeral.places <;> simp

theorem dropWhile_isDigit_text (numeral : Numeral) :
    numeral.text.dropWhile Char.isDigit = (numeral.places.map ('.' :: ·)).getD [] := by
  rw [text, List.dropWhile_append_of_pos numeral.whole_isDigit]
  cases numeral.places <;> simp

/-- The calculator reads every numeral as the decimal it writes. -/
theorem ofNumeral?_text (numeral : Numeral) :
    Decimal.ofNumeral? numeral.text = some numeral.decimal := by
  have some_digit : 0 < numeral.whole.length + (numeral.places.getD []).length := by
    rw [← List.length_append]
    exact List.length_pos_of_ne_nil numeral.nonempty
  have places_digits : (numeral.places.getD []).all Char.isDigit :=
    List.all_eq_true.mpr fun c member => numeral.digits c (List.mem_append_right _ member)
  simp only [Decimal.ofNumeral?, takeWhile_isDigit_text, dropWhile_isDigit_text]
  cases present : numeral.places with
  | none =>
      rw [present] at some_digit
      simp_all [decimal]
  | some places =>
      rw [present] at some_digit places_digits
      simp_all [decimal]

theorem text_ne_nil (numeral : Numeral) : numeral.text ≠ [] := by
  have nonempty := numeral.nonempty
  cases present : numeral.places <;> simp_all [text]

theorem text_isNumeral (numeral : Numeral) : ∀ c ∈ numeral.text, Lexeme.isNumeral c := by
  have digits := numeral.digits
  intro c member
  cases present : numeral.places with
  | none => simp_all [text, Lexeme.isNumeral]
  | some places =>
      simp only [present, Option.getD_some, List.mem_append] at digits
      simp only [text, present, Option.map_some, Option.getD_some, List.mem_append,
        List.mem_cons] at member
      rcases member with inWhole | isPoint | inPlaces
      · simp [Lexeme.isNumeral, digits c (Or.inl inWhole)]
      · simp [Lexeme.isNumeral, isPoint]
      · simp [Lexeme.isNumeral, digits c (Or.inr inPlaces)]

end Numeral

/-! ## Phrases -/

/-- The categories of phrases, from the loosest to the tightest. -/
inductive Category where
  | sum
  | product
  | power
  | unary
  | percentage
  | primary
  deriving DecidableEq, Repr

/-- The category whose phrases may stand, as they are, for phrases of a given one. -/
def Category.tighter? : Category → Option Category
  | sum => some product
  | product => some power
  | power => some unary
  | unary => some percentage
  | percentage => some primary
  | primary => none

/-- The category of the phrases that an operator makes of two operands. -/
def Operator.category? : Operator → Option Category
  | add | subtract => some .sum
  | multiply | divide | percent => some .product
  | power => some .power
  | root => none

theorem Operator.isSome_binary? [Arithmetic] {op : Operator} {level : Category}
    (makes : op.category? = some level) : op.binary?.isSome := by
  cases op <;> simp_all [category?, binary?]

/-- The operation between the two operands of a phrase. -/
def Operator.between [Arithmetic] (op : Operator) {level : Category}
    (makes : op.category? = some level) : Float → Float → Float :=
  op.binary?.get (isSome_binary? makes)

/-- A derivation of a phrase of a category. -/
inductive Expression : Category → Type where
  /-- A numeral with or without a minus sign. -/
  | literal (negative : Bool) (numeral : Numeral) : Expression .primary
  /-- A sum in parentheses. -/
  | group (inner : Expression .sum) : Expression .primary
  /-- A percentage with a percent sign behind it. -/
  | percent (operand : Expression .percentage) : Expression .percentage
  /-- A unary phrase with a root sign before it. -/
  | root (operand : Expression .unary) : Expression .unary
  /-- An operator between a phrase of the category that it makes and a tighter one. -/
  | binary {level tighter : Category} (op : Operator) (makes : op.category? = some level)
      (next : level.tighter? = some tighter) (left : Expression level)
      (right : Expression tighter) : Expression level
  /-- A phrase of the next tighter category as it is. -/
  | lift {level tighter : Category} (next : level.tighter? = some tighter)
      (inner : Expression tighter) : Expression level

namespace Expression

/-- The value of a phrase: one operation for each operator, and one number for each numeral. -/
def value [Arithmetic] : {level : Category} → Expression level → Float
  | _, literal negative numeral => numeral.value negative
  | _, group inner => inner.value
  | _, percent operand => Operator.hundredth operand.value
  | _, root operand => operand.value.sqrt
  | _, binary op makes _ left right => op.between makes left.value right.value
  | _, lift _ inner => inner.value

/-- The tokens of a phrase. -/
def tokens : {level : Category} → Expression level → List Token
  | _, literal negative numeral => [.number (numeral.value negative)]
  | _, group inner => .opening :: inner.tokens ++ [.closing]
  | _, percent operand => operand.tokens ++ [.ofOperator .percent]
  | _, root operand => .ofOperator .root :: operand.tokens
  | _, binary op _ _ left right => left.tokens ++ .ofOperator op :: right.tokens
  | _, lift _ inner => inner.tokens

/-- A phrase in postfix notation: every operator after its operands. -/
def items : {level : Category} → Expression level → List Item
  | _, literal negative numeral => [.number (numeral.value negative)]
  | _, group inner => inner.items
  | _, percent operand => operand.items ++ [.operator .percent 1]
  | _, root operand => operand.items ++ [.operator .root Operator.root.arity]
  | _, binary op _ _ left right => left.items ++ right.items ++ [.operator op op.arity]
  | _, lift _ inner => inner.items

/-! ## Spelling -/

/-- Whether the last token of a phrase is a percent sign. -/
def endsInPercent : {level : Category} → Expression level → Bool
  | _, literal _ _ => false
  | _, group _ => false
  | _, percent _ => true
  | _, root operand => operand.endsInPercent
  | _, binary _ _ _ _ right => right.endsInPercent
  | _, lift _ inner => inner.endsInPercent

end Expression

/-- Whether a text begins with a digit or a point. -/
def beginsNumeral : List Char → Bool
  | [] => false
  | c :: _ => Lexeme.isNumeral c

/--
A text spells a phrase: the tokens stand in order, with any blanks before, between and behind them.
Two things bind the blanks.  None stands between the minus sign of a numeral and its digits, and
one at least stands between a subtraction and a numeral without a sign if the left operand of the
subtraction ends in a percent sign.
-/
inductive Expression.Spells : {level : Category} → Expression level → List Char → Prop where
  | literal (negative : Bool) (numeral : Numeral) :
      Spells (.literal negative numeral) (Layout.sign negative ++ numeral.text)
  | group {inner : Expression .sum} {text : List Char} :
      Spells inner text → Spells (.group inner) ('(' :: text ++ [')'])
  | percent {operand : Expression .percentage} {text : List Char} :
      Spells operand text → Spells (.percent operand) (text ++ ['%'])
  | root {operand : Expression .unary} {text : List Char} :
      Spells operand text → Spells (.root operand) ('√' :: text)
  | binary {level tighter : Category} {op : Operator} {makes : op.category? = some level}
      {next : level.tighter? = some tighter} {left : Expression level}
      {right : Expression tighter} {before after : List Char} :
      Spells left before → Spells right after →
      (op = .subtract → left.endsInPercent → beginsNumeral after = false) →
      Spells (.binary op makes next left right) (before ++ op.symbol :: after)
  | lift {level tighter : Category} {next : level.tighter? = some tighter}
      {inner : Expression tighter} {text : List Char} :
      Spells inner text → Spells (.lift next inner) text
  | blankBefore {level : Category} {phrase : Expression level} {text : List Char} {c : Char} :
      Text.isBlank c → Spells phrase text → Spells phrase (c :: text)
  | blankBehind {level : Category} {phrase : Expression level} {text : List Char} {c : Char} :
      Text.isBlank c → Spells phrase text → Spells phrase (text ++ [c])

namespace Expression

/-- A numeral as a percentage. -/
def ofNumeral (negative : Bool) (numeral : Numeral) : Expression .percentage :=
  lift rfl (literal negative numeral)

/-- A percentage as a phrase of any category but the tightest. -/
def ofPercentage (phrase : Expression .percentage) :
    (level : Category) → level ≠ .primary → Expression level
  | .sum, _ => lift rfl (lift rfl (lift rfl (lift rfl phrase)))
  | .product, _ => lift rfl (lift rfl (lift rfl phrase))
  | .power, _ => lift rfl (lift rfl phrase)
  | .unary, _ => lift rfl phrase
  | .percentage, _ => phrase
  | .primary, primary => absurd rfl primary

variable {level : Category} (loose : level ≠ .primary) (phrase : Expression .percentage)

theorem value_ofPercentage [Arithmetic] :
    (phrase.ofPercentage level loose).value = phrase.value := by
  cases level with
  | primary => exact absurd rfl loose
  | _ => rfl

variable {phrase} in
theorem Spells.ofPercentage {text : List Char} (spells : phrase.Spells text) :
    (phrase.ofPercentage level loose).Spells text := by
  cases level with
  | sum => exact .lift (.lift (.lift (.lift spells)))
  | product => exact .lift (.lift (.lift spells))
  | power => exact .lift (.lift spells)
  | unary => exact .lift spells
  | percentage => exact spells
  | primary => exact absurd rfl loose

theorem Spells.blanksBefore {text blanks : List Char} {phrase : Expression level}
    (spells : phrase.Spells text) (blank : ∀ c ∈ blanks, Text.isBlank c) :
    phrase.Spells (blanks ++ text) := by
  induction blanks with
  | nil => exact spells
  | cons c blanks induction =>
      have later := induction fun d member => blank d (List.mem_cons_of_mem c member)
      exact .blankBefore (blank c List.mem_cons_self) later

theorem Spells.blanksBehind {text blanks : List Char} {phrase : Expression level}
    (spells : phrase.Spells text) (blank : ∀ c ∈ blanks, Text.isBlank c) :
    phrase.Spells (text ++ blanks) := by
  induction blanks generalizing text with
  | nil => simpa using spells
  | cons c blanks induction =>
      have first : phrase.Spells (text ++ [c]) :=
        .blankBehind (blank c List.mem_cons_self) spells
      have later := induction first fun d member => blank d (List.mem_cons_of_mem c member)
      simpa using later

end Expression
end DeskCalculator
