import DeskCalculator.Proofs.Postfix.Groups

/-!
# The order of the operators that wait

Opening parentheses cut the stack of waiting operators into groups.  Within a group the operators
hold stronger from the bottom to the top, and two neighbours hold equally strong only if the upper
one is a root, which joins the stack without releasing anything.
-/

namespace DeskCalculator
namespace Postfix

/-! ## Groups of a stack -/

/-- The groups of a stack, the one on top first: the operators above the last opening parenthesis,
those between one and the next, and those below the first.  Within a group, the operator on top
comes first. -/
def groups : List Waiting → List (List Operator)
  | [] => [[]]
  | .operator op _ :: below => (groups below).modifyHead (op :: ·)
  | .opening :: below => [] :: groups below

/-- What is taken off a stack is taken from its group on top. -/
theorem groups_release (condition : Operator → Bool) (stack : List Waiting) :
    groups (release condition stack).2 = (groups stack).modifyHead (List.dropWhile condition) := by
  induction stack with
  | nil => rfl
  | cons entry below induction =>
      cases entry with
      | opening => rfl
      | operator op arity =>
          cases shown : groups below with
          | nil => cases met : condition op <;> simp_all [release, groups]
          | cons top others =>
              by_cases met : condition op
              · simp [release, groups, met, induction, shown]
              · simp [release, groups, met, shown]

theorem mem_groups_closing {stack : List Waiting} {group : List Operator}
    (member : group ∈ groups (step stack .closing).value.2) :
    group = [] ∨ group ∈ groups stack := by
  have taken := groups_release (fun _ => true) stack
  rw [value_step_closing] at member
  obtain ⟨items, bottom | ⟨below, met⟩⟩ := release_all_cases stack
  · rw [bottom] at member
    exact Or.inl (List.mem_singleton.mp member)
  · rw [met, groups] at taken
    rw [met, List.tail_cons] at member
    cases shown : groups stack with
    | nil => simp [shown] at taken
    | cons top others =>
        rw [shown, List.modifyHead_cons] at taken
        rw [(List.cons.inj taken).2] at member
        exact Or.inr (List.mem_cons_of_mem top member)

/-! ## Order within a group -/

/-- A group is in order if no operator holds weaker than one below it, and of two neighbours that
hold equally strong the upper one is a root. -/
structure Ascends (group : List Operator) : Prop where
  /-- No operator holds weaker than one below it. -/
  grows : group.Pairwise fun upper lower => lower.precedence ≤ upper.precedence
  /-- Of two neighbours that hold equally strong, the upper one is a root. -/
  level : group.IsChain fun upper lower => lower.precedence = upper.precedence → upper = .root

namespace Ascends

variable {group : List Operator} {op : Operator}

theorem nil : Ascends [] := ⟨.nil, .nil⟩

theorem of_suffix {part : List Operator} (ascends : Ascends group) (within : part <:+ group) :
    Ascends part :=
  ⟨ascends.grows.sublist within.sublist, ascends.level.suffix within⟩

theorem root (ascends : Ascends group) : Ascends (.root :: group) where
  grows := List.pairwise_cons.mpr ⟨fun lower _ => by cases lower <;> decide, ascends.grows⟩
  level := ascends.level.cons fun _ _ _ => rfl

theorem cons (ascends : Ascends group)
    (weaker : ∀ lower ∈ group, lower.precedence < op.precedence) : Ascends (op :: group) where
  grows := List.pairwise_cons.mpr ⟨fun lower member => (weaker lower member).le, ascends.grows⟩
  level := ascends.level.cons fun lower top same =>
    absurd same (weaker lower (List.mem_of_mem_head? top)).ne

theorem precedence_lt_of_mem_dropWhile (ascends : Ascends group) {lower : Operator}
    (left : lower ∈ group.dropWhile fun waiting => decide (op.precedence ≤ waiting.precedence)) :
    lower.precedence < op.precedence := by
  induction group with
  | nil => exact absurd left List.not_mem_nil
  | cons top below induction =>
      by_cases stronger : op.precedence ≤ top.precedence
      · rw [List.dropWhile_cons_of_pos (by simpa using stronger)] at left
        exact induction (ascends.of_suffix (List.suffix_cons top below)) left
      · have weaker : top.precedence < op.precedence := Nat.lt_of_not_le stronger
        rw [List.dropWhile_cons_of_neg (by simpa using stronger)] at left
        rcases List.mem_cons.mp left with rfl | member
        · exact weaker
        · exact ((List.pairwise_cons.mp ascends.grows).1 lower member).trans_lt weaker

end Ascends

/-! ## Reading tokens -/

theorem forall_mem_modifyHead {property : List Operator → Prop}
    {change : List Operator → List Operator} {all : List (List Operator)}
    (holds : ∀ group ∈ all, property group)
    (keeps : ∀ top ∈ all.head?, property top → property (change top)) :
    ∀ group ∈ all.modifyHead change, property group := by
  cases all with
  | nil => simp
  | cons top others =>
      intro group member
      rw [List.modifyHead_cons] at member
      rcases List.mem_cons.mp member with rfl | below
      · exact keeps top rfl (holds top List.mem_cons_self)
      · exact holds group (List.mem_cons_of_mem top below)

section Release

variable {stack : List Waiting} (ascend : ∀ group ∈ groups stack, Ascends group)
include ascend

theorem ascends_release (condition : Operator → Bool) :
    ∀ group ∈ groups (release condition stack).2, Ascends group := by
  rw [groups_release]
  exact forall_mem_modifyHead ascend fun top _ ascends =>
    ascends.of_suffix (List.dropWhile_suffix condition)

/-- What an operator between two operands does not release is weaker. -/
theorem precedence_lt_of_release (op : Operator) :
    ∀ top ∈ (groups (release (fun waiting => op.precedence ≤ waiting.precedence) stack).2).head?,
      ∀ lower ∈ top, lower.precedence < op.precedence := by
  intro top first lower member
  rw [groups_release] at first
  cases shown : groups stack with
  | nil => simp [shown] at first
  | cons group others =>
      obtain rfl : group.dropWhile _ = top := by simpa [shown] using first
      exact (ascend group (by simp [shown])).precedence_lt_of_mem_dropWhile member

/-- Reading a token keeps the groups in order. -/
theorem ascends_step (rest : List Token) (token : Token) :
    ∀ group ∈ groups (step stack (role rest token)).value.2, Ascends group := by
  have read := role_cases rest token
  cases found : role rest token with
  | operand value => exact ascend
  | trailing => exact ascend
  | leading op arity =>
      rw [found] at read
      obtain ⟨-, rfl⟩ := read
      exact forall_mem_modifyHead ascend fun _ _ => Ascends.root
  | between op arity =>
      exact forall_mem_modifyHead (ascends_release ascend _) fun top first ascends =>
        ascends.cons (precedence_lt_of_release ascend op top first)
  | opening =>
      intro group member
      rcases List.mem_cons.mp member with rfl | below
      · exact .nil
      · exact ascend group below
  | closing =>
      intro group member
      rcases mem_groups_closing member with rfl | before
      · exact .nil
      · exact ascend group before

end Release

theorem ascends_arrange {stack : List Waiting} (ascend : ∀ group ∈ groups stack, Ascends group)
    (rest front : List Token) :
    ∀ group ∈ groups (arrange stack (rolesBefore rest front)).value.2, Ascends group := by
  induction front generalizing stack with
  | nil => exact ascend
  | cons token front induction => exact induction (ascends_step ascend (front ++ rest) token)

theorem rolesBefore_concat (front rest : List Token) (token : Token) :
    rolesBefore rest (front ++ [token]) =
      rolesBefore (token :: rest) front ++ [role rest token] := by
  induction front with
  | nil => rfl
  | cons first front induction => simp [rolesBefore, induction]

theorem stackBefore_concat (front rest : List Token) (token : Token) :
    stackBefore rest (front ++ [token]) =
      (step (stackBefore (token :: rest) front) (role rest token)).value.2 := by
  rw [stackBefore, rolesBefore_concat, value_arrange_append]
  rfl

theorem release_suffix (condition : Operator → Bool) (stack : List Waiting) :
    (release condition stack).2 <:+ stack := by
  induction stack with
  | nil => exact List.suffix_rfl
  | cons entry below induction =>
      cases entry with
      | opening => exact List.suffix_rfl
      | operator op arity =>
          by_cases met : condition op
          · simpa [release, met] using induction.trans (List.suffix_cons _ below)
          · simp [release, met]

theorem mem_of_mem_step {stack : List Waiting} {rest : List Token} {token : Token} {op : Operator}
    {arity : Int} (waits : .operator op arity ∈ (step stack (role rest token)).value.2) :
    token = .operator op arity ∨ .operator op arity ∈ stack := by
  have read := role_cases rest token
  generalize role rest token = found at read waits
  cases found with
  | operand value => exact Or.inr waits
  | trailing => exact Or.inr waits
  | leading next next_arity =>
      rcases List.mem_cons.mp waits with same | below
      · cases same
        exact Or.inl read.1
      · exact Or.inr below
  | between next next_arity =>
      rcases List.mem_cons.mp waits with same | below
      · cases same
        exact Or.inl read.1
      · exact Or.inr ((release_suffix _ stack).subset below)
  | opening =>
      rcases List.mem_cons.mp waits with same | below
      · cases same
      · exact Or.inr below
  | closing =>
      rw [value_step_closing] at waits
      exact Or.inr ((release_suffix _ stack).subset (List.mem_of_mem_tail waits))

theorem mem_of_mem_stackBefore {front rest : List Token} {op : Operator} {arity : Int}
    (waits : .operator op arity ∈ stackBefore rest front) : .operator op arity ∈ front := by
  induction front using List.reverseRecOn generalizing rest with
  | nil => exact absurd waits List.not_mem_nil
  | append_singleton front token induction =>
      rw [stackBefore_concat] at waits
      rcases mem_of_mem_step waits with rfl | before
      · exact List.mem_append_right front List.mem_cons_self
      · exact List.mem_append_left [token] (induction before)

/--
At any time while the tokens of a text are read, and in every group of the stack, no operator holds
weaker than one below it, and of two neighbours that hold equally strong the upper one is a root.
An operator that comes next and stands between two operands joins a group of weaker operators.  A
percent sign that takes one operand never waits.
-/
theorem stackBefore_ascends {source : String} {front rest : List Token}
    (read : (Token.ofSource source).value = .ok (front ++ rest)) :
    let stack := stackBefore rest front
    (∀ group ∈ groups stack,
        group.Pairwise (fun upper lower => lower.precedence ≤ upper.precedence) ∧
          group.IsChain fun upper lower => lower.precedence = upper.precedence → upper = .root) ∧
      (∀ token later op arity, rest = token :: later → role later token = .between op arity →
        ∃ below, stackBefore later (front ++ [token]) = .operator op arity :: below ∧
          ∀ top ∈ (groups below).head?, ∀ lower ∈ top, lower.precedence < op.precedence) ∧
      .operator .percent 1 ∉ stack := by
  intro stack
  have ascend : ∀ group ∈ groups stack, Ascends group := by
    refine ascends_arrange (fun group member => ?_) rest front
    obtain rfl := List.mem_singleton.mp member
    exact .nil
  refine ⟨fun group member => ⟨(ascend group member).grows, (ascend group member).level⟩, ?_, ?_⟩
  · rintro token later op arity rfl stands
    refine ⟨(release (fun waiting => op.precedence ≤ waiting.precedence) stack).2, ?_,
      precedence_lt_of_release ascend op⟩
    rw [stackBefore_concat, stands]
    rfl
  · intro waits
    have plain : (Token.operator .percent 1).isPlain := by
      exact Token.isPlain_of_ofLexemes (Token.value_ofSource_eq_ok_iff.mp read) _
        (List.mem_append_left rest (mem_of_mem_stackBefore waits))
    exact absurd plain (by decide)

/-- In `1+(2*√√9^3` the power finds two roots above the product, and joins the group of the product
when they are gone. -/
theorem stackBefore_power_behind_roots :
    let front : List Token := [.number 1, .operator .add 2, .opening, .number 2,
      .operator .multiply 2, .operator .root 1, .operator .root 1, .number 9]
    let rest : List Token := [.operator .power 2, .number 3]
    groups (stackBefore rest front) = [[.root, .root, .multiply], [.add]] ∧
      ([.root, .root, .multiply] : List Operator).Pairwise
        (fun upper lower => lower.precedence ≤ upper.precedence) ∧
      (∃ below, stackBefore [.number 3] (front ++ [.operator .power 2]) =
          .operator .power 2 :: below ∧ groups below = [[.multiply], [.add]]) ∧
      .operator .percent 1 ∉ stackBefore rest front := by
  intro front rest
  have read : (Token.ofSource "1+(2*√√9^3").value = .ok (front ++ rest) := rfl
  have waiting : groups (stackBefore rest front) = [[.root, .root, .multiply], [.add]] := rfl
  obtain ⟨ordered, pushed, unmarked⟩ := stackBefore_ascends read
  rw [waiting] at ordered
  obtain ⟨below, joined, -⟩ := pushed (.operator .power 2) [.number 3] .power 2 rfl rfl
  refine ⟨waiting, (ordered _ List.mem_cons_self).1, ⟨below, joined, ?_⟩, unmarked⟩
  obtain rfl : [.operator .multiply 2, .opening, .operator .add 2] = below :=
    (List.cons.inj joined).2
  rfl

end Postfix
end DeskCalculator
