import DeskCalculator.Proofs.Evaluation.LastOperand

/-!
# Missing and left values

Where an operator between two operands finds a single value, its left operand is missing and the
stack keeps its height.  How much is missing in all can be told without a stack: it is the greatest
shortage of numbers at any place.
-/

namespace DeskCalculator

namespace Item

/-- Whether an item is a number. -/
def isNumber : Item → Bool
  | number _ => true
  | operator _ _ => false

/-- Whether an item is an operator between two operands. -/
def isBetween : Item → Bool
  | number _ => false
  | operator _ arity => arity == 2

/-- How many numbers items lack to come to a single value: one for each operator between two
operands, and one to begin with. -/
def shortage (items : List Item) : Int := items.countP isBetween - items.countP isNumber + 1

/-- The shortages at the places of a list of items, each of the items up to the place. -/
def shortages (items : List Item) : Set Int :=
  {lack | ∃ front, front ≠ [] ∧ front <+: items ∧ shortage front = lack}

/-- What an item adds to a shortage. -/
def demand : Item → Int
  | number _ => -1
  | operator _ arity => if arity = 2 then 1 else 0

theorem shortage_concat (items : List Item) (item : Item) :
    shortage (items ++ [item]) = shortage items + item.demand := by
  simp only [shortage, List.countP_append, List.countP_singleton]
  cases item with
  | number x =>
      simp [isBetween, isNumber, demand]
      ring
  | operator op arity =>
      by_cases between : arity = 2
      · simp [isBetween, isNumber, demand, between]
        ring
      · simp [isBetween, isNumber, demand, between]

theorem isGreatest_shortages_nil : IsGreatest (insert 0 (shortages [])) 0 := by
  have none_before : shortages [] = ∅ := by
    refine Set.eq_empty_of_forall_notMem ?_
    rintro lack ⟨front, nonempty, within, -⟩
    exact nonempty (List.prefix_nil.mp within)
  simp [none_before]

theorem isGreatest_shortages_concat {items : List Item} {most : Int}
    (greatest : IsGreatest (insert 0 (shortages items)) most) (item : Item) :
    IsGreatest (insert 0 (shortages (items ++ [item])))
      (max (shortage (items ++ [item])) most) := by
  have places : shortages (items ++ [item]) =
      insert (shortage (items ++ [item])) (shortages items) := by
    ext lack
    constructor
    · rintro ⟨front, nonempty, within, rfl⟩
      rcases List.prefix_concat_iff.mp within with rfl | before
      · exact Or.inl rfl
      · exact Or.inr ⟨front, nonempty, before, rfl⟩
    · rintro (rfl | ⟨front, nonempty, before, rfl⟩)
      · exact ⟨items ++ [item], by simp, List.prefix_rfl, rfl⟩
      · exact ⟨front, nonempty, before.trans (List.prefix_append items [item]), rfl⟩
  rw [places, Set.insert_comm]
  exact greatest.insert (shortage (items ++ [item]))

/-- There is no shortage anywhere exactly if at every place more numbers than operators between two
operands have been read. -/
theorem isGreatest_shortages_zero_iff {items : List Item} :
    IsGreatest (insert 0 (shortages items)) 0 ↔
      ∀ front, front ≠ [] → front <+: items → front.countP isBetween < front.countP isNumber := by
  have lacks_nothing (front : List Item) :
      shortage front ≤ 0 ↔ front.countP isBetween < front.countP isNumber := by
    rw [shortage]
    omega
  constructor
  · rintro ⟨-, most⟩ front nonempty within
    exact (lacks_nothing front).mp (most (Or.inr ⟨front, nonempty, within, rfl⟩))
  · intro enough
    refine ⟨Or.inl rfl, ?_⟩
    rintro lack (rfl | ⟨front, nonempty, within, rfl⟩)
    · exact le_rfl
    · exact (lacks_nothing front).mpr (enough front nonempty within)

end Item

namespace Evaluation

open Item (shortage shortages isGreatest_shortages_nil isGreatest_shortages_concat
  isGreatest_shortages_zero_iff)

/-! ## The height of the stack -/

/-- A marked item changes the height of the stack as it changes the shortage, unless a left operand
is missing; then there is a single value before and after. -/
theorem step_demand [Arithmetic] {item : Item} (marked : item.isMarked) {stack : List Float}
    (applicable : stack ≠ [] ∨ item.isNumber) :
    ∃ after, (step stack item).value = .ok after ∧ after ≠ [] ∧
      (((step stack item).notices = [] ∧ (after.length : Int) = stack.length - item.demand) ∨
        ∃ op, (step stack item).notices = [.missingLeft op] ∧
          stack.length = 1 ∧ after.length = 1 ∧ item.demand = 1) := by
  cases item with
  | number x => exact ⟨x :: stack, rfl, by simp, Or.inl ⟨rfl, by simp [Item.demand]⟩⟩
  | operator op arity =>
      obtain ⟨last, below, rfl⟩ :=
        List.exists_cons_of_ne_nil (applicable.resolve_right (by simp [Item.isNumber]))
      rcases Item.applies_of_isMarked marked with ⟨rfl, applies⟩ | ⟨rfl, applies⟩
      · obtain ⟨value, applied⟩ := applies last
        refine ⟨value :: below, ?_, by simp, Or.inl ⟨?_, ?_⟩⟩
        · simp [step, applied, Except.map]
        · simp [step]
        · simp [Item.demand]
      · cases below with
        | nil =>
            obtain ⟨value, applied⟩ := applies 0 last
            refine ⟨[value], ?_, by simp, Or.inr ⟨op, ?_, rfl, rfl, rfl⟩⟩
            · simp [step, applied, Except.map]
            · simp [step]
        | cons left below =>
            obtain ⟨value, applied⟩ := applies left last
            refine ⟨value :: below, ?_, by simp, Or.inl ⟨?_, ?_⟩⟩
            · simp [step, applied, Except.map]
            · simp [step]
            · simp [Item.demand]

theorem notices_reduce_concat [Arithmetic] {items : List Item} {stack : List Float}
    (reduced : (reduce [] items).value = .ok stack) (item : Item) :
    (reduce [] (items ++ [item])).notices =
      (reduce [] items).notices ++ (step stack item).notices := by
  rw [reduce_append, Traced.notices_bind, reduced]
  simp only [reduce, Traced.notices_bind]
  cases (step stack item).value <;> simp

/-- As many left operands are missing as the greatest shortage of the items says, and the values on
the stack are those beyond the shortage of all items. -/
theorem reduce_shortages [Arithmetic] {items : List Item} (marked : ∀ item ∈ items, item.isMarked)
    (begins : items = [] ∨ Item.beginsWithNumber items) :
    ∃ (stack : List Float) (operators : List Operator),
      (reduce [] items).value = .ok stack ∧
      (reduce [] items).notices = operators.map .missingLeft ∧
      (items ≠ [] → stack ≠ []) ∧
      shortage items + stack.length = operators.length + 1 ∧
      IsGreatest (insert 0 (shortages items)) (operators.length : Int) := by
  -- A further item adds one place to the shortages, so the induction is from the last item.
  induction items using List.reverseRecOn with
  | nil =>
      refine ⟨[], [], rfl, rfl, fun nonempty => absurd rfl nonempty, rfl, ?_⟩
      exact isGreatest_shortages_nil
  | append_singleton items item induction =>
      have whole_begins : Item.beginsWithNumber (items ++ [item]) := begins.resolve_left (by simp)
      have front_begins : items = [] ∨ Item.beginsWithNumber items :=
        or_iff_not_imp_left.mpr fun nonempty =>
          Item.beginsWithNumber_of_append nonempty whole_begins
      obtain ⟨stack, operators, reduced, noted, holds, height, greatest⟩ :=
        induction (fun other member => marked other (List.mem_append_left _ member)) front_begins
      have applicable : stack ≠ [] ∨ item.isNumber := by
        rcases eq_or_ne items [] with rfl | nonempty
        · cases item with
          | number x => exact Or.inr rfl
          | operator op arity => simp [Item.beginsWithNumber] at whole_begins
        · exact Or.inl (holds nonempty)
      obtain ⟨after, stepped, nonempty, outcome⟩ :=
        step_demand (marked item (by simp)) applicable
      have further := isGreatest_shortages_concat greatest item
      have lack := Item.shortage_concat items item
      have value := (value_reduce_concat reduced item).trans stepped
      have notices := notices_reduce_concat reduced item
      have some_left : 0 < after.length := List.length_pos_of_ne_nil nonempty
      rcases outcome with ⟨quiet, changed⟩ | ⟨op, missing, alone, single, demanded⟩
      · refine ⟨after, operators, value, ?_, fun _ => nonempty, by omega, ?_⟩
        · rw [notices, noted, quiet, List.append_nil]
        · have unchanged :
              max (shortage (items ++ [item])) operators.length = operators.length := by omega
          rwa [unchanged] at further
      · refine ⟨after, operators ++ [op], value, ?_, fun _ => nonempty, ?_, ?_⟩
        · rw [notices, noted, missing, List.map_append, List.map_singleton]
        · rw [List.length_append, List.length_singleton]
          omega
        · have greater : max (shortage (items ++ [item])) operators.length =
              (operators ++ [op]).length := by
            rw [List.length_append, List.length_singleton]
            omega
          rwa [greater] at further

theorem notices_result (stack : List Float) :
    (result stack).notices = if 1 < stack.length then [.leftover stack.length] else [] := by
  match stack with
  | [] => rfl
  | [_] => rfl
  | _ :: _ :: _ => simp [result]

/--
An expression in postfix notation that begins with a number takes zero for as many left operands as
the greatest shortage of its items up to any place says, or for none if there is no shortage.  The
values left at the end are the numbers less the operators between two operands, and one for each
operand taken; there is at least one, and they are noted if they are several.  So nothing is noted
exactly if at every place more numbers than operators between two operands have been read, and in
the end one more.
-/
theorem ofItems_shortages [Arithmetic] {items : List Item}
    (marked : ∀ item ∈ items, item.isMarked) (begins : Item.beginsWithNumber items)
    (expression : Option String) :
    ∃ (stack : List Float) (operators : List Operator),
      (reduce [] items).value = .ok stack ∧
      (ofItems items expression).notices = operators.map .missingLeft ++
        (if 1 < stack.length then [.leftover stack.length] else []) ∧
      IsGreatest (insert 0 (shortages items)) (operators.length : Int) ∧
      (stack.length : Int) =
        items.countP Item.isNumber - items.countP Item.isBetween + operators.length ∧
      1 ≤ stack.length ∧
      ((ofItems items expression).notices = [] ↔
        (∀ front, front ≠ [] → front <+: items →
            front.countP Item.isBetween < front.countP Item.isNumber) ∧
          items.countP Item.isNumber = items.countP Item.isBetween + 1) := by
  obtain ⟨stack, operators, reduced, noted, holds, height, greatest⟩ :=
    reduce_shortages marked (Or.inr begins)
  have nonempty : items ≠ [] := by
    rintro rfl
    simp [Item.beginsWithNumber] at begins
  have some_left : 1 ≤ stack.length := List.length_pos_of_ne_nil (holds nonempty)
  have count : (stack.length : Int) =
      items.countP Item.isNumber - items.countP Item.isBetween + operators.length := by
    rw [shortage] at height
    omega
  have notices : (ofItems items expression).notices = operators.map .missingLeft ++
      (if 1 < stack.length then [.leftover stack.length] else []) := by
    rw [ofItems, Traced.notices_bind, noted, reduced]
    simp [notices_result]
  refine ⟨stack, operators, reduced, notices, greatest, count, some_left, ?_⟩
  rw [notices, ← isGreatest_shortages_zero_iff]
  constructor
  · intro quiet
    obtain ⟨no_missing, no_leftover⟩ := List.append_eq_nil_iff.mp quiet
    obtain rfl := List.map_eq_nil_iff.mp no_missing
    have single : ¬ 1 < stack.length := by
      intro several
      simp [several] at no_leftover
    rw [List.length_nil] at count greatest
    exact ⟨greatest, by omega⟩
  · rintro ⟨no_shortage, one_more⟩
    have none_missing : (operators.length : Int) = 0 := greatest.unique no_shortage
    obtain rfl : operators = [] := List.length_eq_zero_iff.mp (by omega)
    have single : ¬ 1 < stack.length := by
      rw [List.length_nil] at count
      omega
    simp [single]

/-- In `3 - + 4 √ 5` the difference and the sum lack their left operands, and three values are
left. -/
theorem ofItems_two_missing_three_left :
    let items : List Item := [.number 3, .operator .subtract 2, .operator .add 2, .number 4,
      .operator .root 1, .number 5]
    (ofItems items).notices = [.missingLeft .subtract, .missingLeft .add, .leftover 3] ∧
      IsGreatest (insert 0 (shortages items)) 2 ∧
      ∃ stack, (reduce [] items).value = .ok stack ∧ stack.length = 3 := by
  intro items
  have marked : ∀ item ∈ items, item.isMarked := by decide
  obtain ⟨stack, operators, reduced, -, greatest, count, -, -⟩ := ofItems_shortages marked rfl none
  have height : (stack.length : Int) = 3 - 2 + operators.length := count
  have left : (reduce [] items).value.toOption.map List.length = some 3 := by decide +kernel
  rw [reduced] at left
  have three_left : stack.length = 3 := Option.some.inj left
  have two_missing : (operators.length : Int) = 2 := by omega
  rw [two_missing] at greatest
  exact ⟨by decide +kernel, greatest, stack, reduced, three_left⟩

end Evaluation
end DeskCalculator
