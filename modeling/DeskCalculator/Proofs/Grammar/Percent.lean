import DeskCalculator.Proofs.Grammar.Value

/-!
# A percent sign before an operator

Between an operand and an operator a percent sign ends the operand, except where the operator is a
minus sign with a numeral at once behind it: this is the sign of the numeral, and the percent sign
stands between two operands.
-/

namespace DeskCalculator

theorem Category.ne_primary_of_tighter {level tighter : Category}
    (next : level.tighter? = some tighter) : level ≠ .primary := by
  rintro rfl
  simp [tighter?] at next

theorem Operator.exists_tighter_of_makes {op : Operator} {level : Category}
    (makes : op.category? = some level) :
    ∃ tighter, level.tighter? = some tighter ∧ tighter ≠ .primary := by
  cases op <;> cases makes <;> exact ⟨_, rfl, nofun⟩

namespace Expression

theorem spells_ofNumeral (negative : Bool) (numeral : Numeral) {blanks : List Char}
    (blank : ∀ c ∈ blanks, Text.isBlank c) :
    (ofNumeral negative numeral).Spells
      (blanks ++ (Layout.sign negative ++ numeral.text)) :=
  Spells.blanksBefore (.lift (.literal negative numeral)) blank

variable {op : Operator} {level : Category} {operand : Expression .primary} {text : List Char}
  {front back : List Char} {source : String}

section

variable [Arithmetic]

private theorem evaluate_hundredth (makes : op.category? = some level)
    (spells : operand.Spells text) (numeral : Numeral)
    (front_blank : ∀ c ∈ front, Text.isBlank c) (back_blank : ∀ c ∈ back, Text.isBlank c)
    (separate : op = .subtract → back ≠ [])
    (written : source.toList = text ++ '%' :: front ++ op.symbol :: back ++ numeral.text) :
    (Evaluation.evaluate source).value =
      .ok (op.between makes (Operator.hundredth operand.value) (numeral.value false)) := by
  obtain ⟨tighter, next, loose⟩ := op.exists_tighter_of_makes makes
  have level_loose := Category.ne_primary_of_tighter next
  let left := (percent (lift rfl operand)).ofPercentage level level_loose
  let right := (ofNumeral false numeral).ofPercentage tighter loose
  have left_spells : left.Spells (text ++ ['%'] ++ front) :=
    (Spells.blanksBehind (.percent (.lift spells)) front_blank).ofPercentage level_loose
  have right_spells : right.Spells (back ++ numeral.text) :=
    (spells_ofNumeral false numeral back_blank).ofPercentage loose
  have shown : op = .subtract → left.endsInPercent →
      beginsNumeral (back ++ numeral.text) = false := by
    intro minus _
    obtain ⟨c, others, rfl⟩ := List.exists_cons_of_ne_nil (separate minus)
    exact Text.isNumeral_of_isBlank (back_blank c List.mem_cons_self)
  have whole : (binary op makes next left right).Spells source.toList := by
    have spelled : (binary op makes next left right).Spells
        (text ++ ['%'] ++ front ++ op.symbol :: (back ++ numeral.text)) :=
      .binary left_spells right_spells shown
    rw [written]
    simpa using spelled
  rw [evaluate_of_spells whole, value, value_ofPercentage, value_ofPercentage]
  rfl

private theorem evaluate_percent_of (spells : operand.Spells text) (numeral : Numeral)
    (front_blank : ∀ c ∈ front, Text.isBlank c)
    (written : source.toList = text ++ '%' :: front ++ '-' :: numeral.text) :
    (Evaluation.evaluate source).value =
      .ok (operand.value * Operator.hundredth (numeral.value true)) := by
  let percentage : Expression .percentage := lift rfl operand
  let left := percentage.ofPercentage .product nofun
  let right := (ofNumeral true numeral).ofPercentage .power nofun
  have left_spells : left.Spells text := (Spells.lift spells).ofPercentage _
  have right_spells : right.Spells (front ++ '-' :: numeral.text) :=
    (spells_ofNumeral true numeral front_blank).ofPercentage _
  have whole : (binary .percent rfl rfl left right).Spells source.toList := by
    have spelled : (binary .percent rfl rfl left right).Spells
        (text ++ '%' :: (front ++ '-' :: numeral.text)) :=
      .binary left_spells right_spells fun minus => by simp at minus
    rw [written]
    simpa [Operator.symbol] using spelled
  have valued : (binary .percent rfl rfl left right).value =
      left.value * Operator.hundredth right.value := rfl
  rw [evaluate_of_spells whole, valued, value_ofPercentage, value_ofPercentage]
  rfl

/--
An operand with a percent sign behind it, an operator and a numeral, with any blanks on either side
of the operator: the operator stands between the hundredth of the operand and the number, unless it
is a minus sign with the numeral at once behind it.  In this case the operand is taken in hundredths
of the negative number, and the value is the same only if that product is the same number as the
difference.
-/
theorem value_evaluate_percent (makes : op.category? = some level)
    (spells : operand.Spells text) (numeral : Numeral)
    (front_blank : ∀ c ∈ front, Text.isBlank c) (back_blank : ∀ c ∈ back, Text.isBlank c)
    (written : source.toList = text ++ '%' :: front ++ op.symbol :: back ++ numeral.text) :
    let hundredths := operand.value * Operator.hundredth (numeral.value true)
    let postfixed := op.between makes (Operator.hundredth operand.value) (numeral.value false)
    (Evaluation.evaluate source).value =
        (if op = .subtract ∧ back = [] then .ok hundredths else .ok postfixed) ∧
      ((Evaluation.evaluate source).value = .ok postfixed ↔
        (op = .subtract → back = [] → hundredths = postfixed)) := by
  intro hundredths postfixed
  by_cases signed : op = .subtract ∧ back = []
  · have evaluated : (Evaluation.evaluate source).value = .ok hundredths := by
      obtain ⟨rfl, rfl⟩ := signed
      apply evaluate_percent_of spells numeral front_blank
      simpa [Operator.symbol] using written
    rw [if_pos signed, evaluated]
    exact ⟨rfl, fun same _ _ => Except.ok.inj same,
      fun same => congrArg Except.ok (same signed.1 signed.2)⟩
  · have evaluated : (Evaluation.evaluate source).value = .ok postfixed :=
      evaluate_hundredth makes spells numeral front_blank back_blank
        (fun minus empty => signed ⟨minus, empty⟩) written
    rw [if_neg signed, evaluated]
    exact ⟨rfl, fun _ minus empty => absurd ⟨minus, empty⟩ signed, fun _ => rfl⟩

end

/-- Fifty percent less ten is what a blank behind the minus sign makes of fifty by minus ten
percent. -/
theorem evaluate_percent_less_ten :
    (Evaluation.evaluate "50%-10").value = .ok (-5) ∧
      (Evaluation.evaluate "50%- 10").value = .ok (-9.5) := by
  let ten : Numeral := ⟨['1', '0'], none, List.all_eq_true.mp rfl, by simp⟩
  let fifty : Numeral := ⟨['5', '0'], none, List.all_eq_true.mp rfl, by simp⟩
  have spells : (literal false fifty).Spells ['5', '0'] := .literal false fifty
  have joined_text : "50%-10".toList =
      ['5', '0'] ++ '%' :: [] ++ Operator.subtract.symbol :: [] ++ ten.text := rfl
  have spaced_text : "50%- 10".toList =
      ['5', '0'] ++ '%' :: [] ++ Operator.subtract.symbol :: [' '] ++ ten.text := rfl
  have joined := (value_evaluate_percent rfl spells ten (by simp) (by simp) joined_text).1
  have blank : ∀ c ∈ [' '], Text.isBlank c := List.forall_mem_singleton.mpr rfl
  have spaced := (value_evaluate_percent rfl spells ten (by simp) blank spaced_text).1
  refine ⟨joined.trans ?_, spaced.trans ?_⟩
  · exact congrArg Except.ok (by decide +kernel)
  · exact congrArg Except.ok (by decide +kernel)

end Expression
end DeskCalculator
