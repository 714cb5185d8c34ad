import DeskCalculator.Numeric.Power
import DeskCalculator.Proofs.Grammar.Ordering
import DeskCalculator.Proofs.Grammar.Reading

/-!
# The value of a spelled phrase

The items of a phrase put its value on top of the values read so far, whatever these are.  So a text
that spells a phrase is evaluated to the value of the phrase, and nothing is reported as malformed.
-/

namespace DeskCalculator

theorem Operator.applyBinary_eq_between [Arithmetic] {op : Operator} {level : Category}
    (makes : op.category? = some level) (a b : Float) :
    op.applyBinary a b = .ok (op.between makes a b) := by
  cases op with
  | root => contradiction
  | _ => rfl

namespace Evaluation

variable [Arithmetic]

theorem reduce_cons {values after : List Float} {item : Item}
    (applies : step values item = pure (.ok after)) (rest : List Item) :
    reduce values (item :: rest) = reduce after rest := by
  rw [reduce, applies, pure_bind]

theorem reduce_unary {op : Operator} {operation : Float → Float}
    (unary : op.unary? = some operation) (a : Float) (values : List Float) (rest : List Item) :
    reduce (a :: values) (.operator op 1 :: rest) = reduce (operation a :: values) rest := by
  apply reduce_cons
  simp [step, Operator.applyUnary, unary, Except.map]

theorem reduce_binary {op : Operator} {level : Category} (makes : op.category? = some level)
    (a b : Float) (values : List Float) (rest : List Item) :
    reduce (b :: a :: values) (.operator op op.arity :: rest) =
      reduce (op.between makes a b :: values) rest := by
  have two_operands : op.arity ≠ 1 := by
    cases op <;> simp_all [Operator.category?, Operator.arity]
  apply reduce_cons
  simp [step, two_operands, Operator.applyBinary_eq_between makes, Except.map]

/-- A text that reads as tokens that are arranged as items has the value of these items. -/
theorem evaluate_of_reads {source : String} {tokens : List Token} {complete : Bool}
    {needs leaves : Nat} {items : List Item} (reads : Reads source.toList tokens complete)
    (arranges : Postfix.Arranges needs leaves tokens items) :
    evaluate source =
      ⟨(ofItems items (some source)).value,
        .tokenized source tokens :: .translated items ::
          (ofItems items (some source)).notices⟩ := by
  have evaluated : ofTokens tokens (some source) =
      ⟨(ofItems items (some source)).value,
        .translated items :: (ofItems items (some source)).notices⟩ := by
    rw [ofTokens, arranges.ofTokens, pure_bind]
    rfl
  rw [evaluate, reads.ofSource]
  simp only [bind, Traced.andThen, evaluated]
  rfl

end Evaluation

namespace Expression

open Evaluation (reduce)

section

variable [Arithmetic]

/-- The items of a phrase put its value on top of the values read so far. -/
theorem reduce_items {level : Category} (phrase : Expression level) (values : List Float)
    (rest : List Item) :
    reduce values (phrase.items ++ rest) = reduce (phrase.value :: values) rest := by
  induction phrase generalizing values rest with
  | literal negative numeral => exact Evaluation.reduce_cons rfl rest
  | group _ inner => exact inner values rest
  | percent operand induction =>
      rw [items, List.append_assoc, induction]
      exact Evaluation.reduce_unary rfl operand.value values rest
  | root operand induction =>
      rw [items, List.append_assoc, induction]
      exact Evaluation.reduce_unary rfl operand.value values rest
  | binary op makes next left right first second =>
      rw [items, List.append_assoc, List.append_assoc, first, second]
      exact Evaluation.reduce_binary makes left.value right.value values rest
  | lift _ _ inner => exact inner values rest

theorem ofItems_items {level : Category} (phrase : Expression level) (source : Option String) :
    Evaluation.ofItems phrase.items source = pure (.ok phrase.value) := by
  have reduced := phrase.reduce_items [] []
  rw [List.append_nil] at reduced
  rw [Evaluation.ofItems, reduced]
  rfl

theorem evaluate_of_spells {level : Category} {phrase : Expression level} {source : String}
    (spells : phrase.Spells source.toList) :
    Evaluation.evaluate source =
      ⟨.ok phrase.value, [.tokenized source phrase.tokens, .translated phrase.items]⟩ := by
  have evaluated := Evaluation.evaluate_of_reads spells.reads phrase.arranges
  rw [phrase.ofItems_items, Traced.value_pure, Traced.notices_pure] at evaluated
  exact evaluated

/-- A text that spells a phrase has the value of the phrase: nothing fails, and nothing is reported
as malformed. -/
theorem evaluate_spelled {level : Category} {phrase : Expression level} {source : String}
    (spells : phrase.Spells source.toList) :
    (Evaluation.evaluate source).value = .ok phrase.value ∧
      ∀ notice ∈ (Evaluation.evaluate source).notices, notice.level ≠ .warning := by
  rw [evaluate_of_spells spells]
  refine ⟨rfl, ?_⟩
  intro notice member
  simp only [List.mem_cons, List.not_mem_nil, or_false] at member
  rcases member with rfl | rfl <;> simp [Notice.level]

end

/-- A root of a percentage less a power, with the one blank that it needs. -/
theorem evaluate_root_less_power :
    (Evaluation.evaluate "√(9)%- 2^-2").value = .ok (0.3 - 0.25) ∧
      ∀ notice ∈ (Evaluation.evaluate "√(9)%- 2^-2").notices, notice.level ≠ .warning := by
  let nine := (ofNumeral false (.ofDigit '9' rfl)).ofPercentage .sum nofun
  let two (negative : Bool) := ofNumeral negative (.ofDigit '2' rfl)
  let left : Expression .unary := root (lift rfl (percent (lift rfl (group nine))))
  let right : Expression .power :=
    binary .power rfl rfl ((two false).ofPercentage .power nofun)
      ((two true).ofPercentage .unary nofun)
  let phrase : Expression .sum :=
    binary .subtract rfl rfl (lift rfl (lift rfl (lift rfl left))) (lift rfl right)
  have nine_spells : nine.Spells ['9'] :=
    Spells.ofPercentage _ (.lift (.literal false (.ofDigit '9' rfl)))
  have left_spells : left.Spells ['√', '(', '9', ')', '%'] :=
    .root (.lift (.percent (.lift (.group nine_spells))))
  have right_spells : right.Spells ['2', '^', '-', '2'] :=
    .binary
      (Spells.ofPercentage _ (.lift (.literal false (.ofDigit '2' rfl))))
      (Spells.ofPercentage _ (.lift (.literal true (.ofDigit '2' rfl)))) (by simp)
  have spells : phrase.Spells "√(9)%- 2^-2".toList :=
    .binary (.lift (.lift (.lift left_spells)))
      (.blankBefore rfl (.lift right_spells)) fun _ _ => rfl
  have evaluated := evaluate_spelled spells
  refine ⟨evaluated.1.trans ?_, evaluated.2⟩
  exact congrArg Except.ok (by decide +kernel)

end Expression
end DeskCalculator
