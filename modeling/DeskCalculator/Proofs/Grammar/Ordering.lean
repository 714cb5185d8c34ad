import DeskCalculator.Proofs.Grammar

/-!
# Ordering the tokens of a phrase

The induction over a phrase is carried by two bounds on precedences.  The stack in front of the
phrase shields it, so that no operator of it takes anything from below; and those left waiting hold
at least as strongly as its category, so that the next operator outside takes all of them.
-/

namespace DeskCalculator

theorem Operator.precedence_lt_four (op : Operator) : op.precedence < 4 := by
  cases op <;> decide

namespace Postfix

/-! ## The stack -/

/-- Operators as entries of the stack. -/
def waiting (pending : List (Operator × Int)) : List Waiting :=
  pending.map fun entry => .operator entry.1 entry.2

/-- Operators as items, in the order in which they leave the stack. -/
def released (pending : List (Operator × Int)) : List Item :=
  pending.map fun entry => .operator entry.1 entry.2

/-- No operator of at least the given precedence takes anything from the stack. -/
def Shields (precedence : Nat) : List Waiting → Prop
  | .operator op _ :: _ => op.precedence < precedence
  | _ => True

theorem Shields.mono {weaker stronger : Nat} (le : weaker ≤ stronger) {stack : List Waiting}
    (shields : Shields weaker stack) : Shields stronger stack := by
  cases stack with
  | nil => trivial
  | cons entry below =>
      cases entry with
      | operator op arity => exact Nat.lt_of_lt_of_le shields le
      | opening => trivial

theorem release_waiting {condition : Operator → Bool} {pending : List (Operator × Int)}
    (met : ∀ entry ∈ pending, condition entry.1) (stack : List Waiting) :
    release condition (waiting pending ++ stack) =
      (released pending ++ (release condition stack).1, (release condition stack).2) := by
  induction pending with
  | nil => rfl
  | cons entry pending induction =>
      have head_met := met entry List.mem_cons_self
      have tail_met : ∀ other ∈ pending, condition other.1 :=
        fun other member => met other (List.mem_cons_of_mem entry member)
      have tail_released := induction tail_met
      simp only [waiting, released] at tail_released
      simp [waiting, released, release, head_met, tail_released]

theorem release_of_shields {op : Operator} {stack : List Waiting}
    (shields : Shields op.precedence stack) :
    release (fun below => op.precedence ≤ below.precedence) stack = ([], stack) := by
  cases stack with
  | nil => rfl
  | cons entry below =>
      cases entry with
      | operator other arity =>
          have weaker : ¬op.precedence ≤ other.precedence := Nat.not_le.mpr shields
          simp [release, weaker]
      | opening => rfl

theorem drain_waiting (pending : List (Operator × Int)) :
    drain (waiting pending) = pure (released pending) := by
  induction pending with
  | nil => rfl
  | cons entry pending induction =>
      simp only [waiting, released, List.map_cons, drain] at induction ⊢
      rw [induction, pure_bind]

/-- Items in front of those that an arrangement brings out. -/
def before (items : List Item) (arrangement : Traced (List Item × List Waiting)) :
    Traced (List Item × List Waiting) :=
  (fun result => (items ++ result.1, result.2)) <$> arrangement

theorem before_before (front middle : List Item)
    (arrangement : Traced (List Item × List Waiting)) :
    before front (before middle arrangement) = before (front ++ middle) arrangement := by
  simp [before]

theorem arrange_cons {stack after : List Waiting} (role : Role) {items : List Item}
    (quiet : step stack role = pure (items, after)) (rest : List Role) :
    arrange stack (role :: rest) = before items (arrange after rest) := by
  simp [arrange, quiet, before]

theorem beginsOperand_ofOperator {op : Operator} (between : op ≠ .root) (rest : List Token) :
    beginsOperand (.ofOperator op :: rest) = false := by
  cases op <;> simp_all [Token.ofOperator, beginsOperand]

theorem role_between {op : Operator} (between : op ≠ .root) {rest : List Token}
    (operand : beginsOperand rest) :
    role rest (.ofOperator op) = .between op op.arity := by
  cases op <;> simp_all [Token.ofOperator, role]

/-- An operator between two operands takes those that hold at least as strongly, and waits. -/
theorem arrange_ofOperator {op : Operator} (between : op ≠ .root)
    {pending : List (Operator × Int)}
    (bound : ∀ entry ∈ pending, op.precedence ≤ entry.1.precedence)
    {stack : List Waiting} (shields : Shields op.precedence stack) {rest : List Token}
    (operand : beginsOperand rest) :
    arrange (waiting pending ++ stack) (roles (.ofOperator op :: rest)) =
      before (released pending) (arrange (waiting [(op, op.arity)] ++ stack) (roles rest)) := by
  have taken : release (fun below => op.precedence ≤ below.precedence)
      (waiting pending ++ stack) = (released pending, stack) := by
    rw [release_waiting (fun entry member => by simpa using bound entry member),
      release_of_shields shields, List.append_nil]
  rw [roles, role_between between operand]
  apply arrange_cons
  simp only [step, taken]
  rfl

theorem arrange_opening (stack : List Waiting) (rest : List Token) :
    arrange stack (roles (.opening :: rest)) =
      before [] (arrange (.opening :: stack) (roles rest)) :=
  arrange_cons .opening rfl _

theorem arrange_closing (pending : List (Operator × Int)) (stack : List Waiting)
    (rest : List Token) :
    arrange (waiting pending ++ .opening :: stack) (roles (.closing :: rest)) =
      before (released pending) (arrange stack (roles rest)) := by
  have taken := @release_waiting (fun _ => true) pending (fun _ _ => rfl) (.opening :: stack)
  apply arrange_cons
  simp [role, step, taken, release]

theorem arrange_number (value : Float) (stack : List Waiting) (rest : List Token) :
    arrange stack (roles (.number value :: rest)) =
      before [.number value] (arrange stack (roles rest)) :=
  arrange_cons (.operand value) rfl _

/-! ## Phrases -/

/--
Tokens that begin an operand are arranged as the given items, wherever they stand.  The stack in
front shields operators of precedence `needs`, no operand follows at once, and the operators that
are left waiting have precedence `leaves` at least.
-/
structure Arranges (needs leaves : Nat) (tokens : List Token) (items : List Item) : Prop where
  /-- The tokens begin an operand. -/
  begins : ∀ rest, beginsOperand (tokens ++ rest)
  /-- The items come out, or wait on the stack as it was. -/
  arranges : ∀ rest stack, beginsOperand rest = false → Shields needs stack →
    ∃ out pending, out ++ released pending = items ∧
      (∀ entry ∈ pending, leaves ≤ entry.1.precedence) ∧
      arrange stack (roles (tokens ++ rest)) =
        before out (arrange (waiting pending ++ stack) (roles rest))

namespace Arranges

theorem mono {needs leaves weaker looser : Nat} {tokens : List Token} {items : List Item}
    (phrase : Arranges needs leaves tokens items) (needs_le : weaker ≤ needs)
    (leaves_le : looser ≤ leaves) : Arranges weaker looser tokens items where
  begins := phrase.begins
  arranges := by
    intro rest stack separate shields
    obtain ⟨out, pending, together, bound, arranged⟩ :=
      phrase.arranges rest stack separate (shields.mono needs_le)
    exact ⟨out, pending, together,
      fun entry member => leaves_le.trans (bound entry member), arranged⟩

theorem number (needs leaves : Nat) (value : Float) :
    Arranges needs leaves [.number value] [.number value] where
  begins _ := rfl
  arranges := by
    intro rest stack _ _
    exact ⟨[.number value], [], rfl, by simp, arrange_number value stack rest⟩

theorem group (needs leaves : Nat) {inner : Nat} {tokens : List Token} {items : List Item}
    (phrase : Arranges 1 inner tokens items) :
    Arranges needs leaves (.opening :: tokens ++ [.closing]) items where
  begins _ := rfl
  arranges := by
    intro rest stack _ _
    obtain ⟨out, pending, together, _, arranged⟩ :=
      phrase.arranges (.closing :: rest) (.opening :: stack) rfl trivial
    have whole : .opening :: tokens ++ [.closing] ++ rest =
        .opening :: (tokens ++ .closing :: rest) := by simp
    refine ⟨items, [], by simp [released], by simp, ?_⟩
    rw [whole, arrange_opening, arranged, arrange_closing, before_before, before_before,
      List.nil_append, together]
    rfl

/-- A percent sign behind an operand comes out at once, so nothing of the operand may wait. -/
theorem percent {tokens : List Token} {items : List Item}
    (operand : Arranges 4 4 tokens items) :
    Arranges 4 4 (tokens ++ [.ofOperator .percent]) (items ++ [.operator .percent 1]) where
  begins rest := by simpa using operand.begins (.ofOperator .percent :: rest)
  arranges := by
    intro rest stack separate shields
    obtain ⟨out, pending, together, bound, arranged⟩ :=
      operand.arranges (.ofOperator .percent :: rest) stack rfl shields
    have nothing_waits : pending = [] := by
      apply List.eq_nil_iff_forall_not_mem.mpr
      intro entry member
      have strong := bound entry member
      have weak := entry.1.precedence_lt_four
      omega
    subst nothing_waits
    have trailing : role rest (.ofOperator .percent) = .trailing := by
      simp [Token.ofOperator, role, separate]
    have sign : arrange stack (roles (.ofOperator .percent :: rest)) =
        before [.operator .percent 1] (arrange stack (roles rest)) := by
      rw [roles, trailing]
      exact arrange_cons .trailing rfl _
    have whole : tokens ++ [.ofOperator .percent] ++ rest =
        tokens ++ .ofOperator .percent :: rest := by simp
    refine ⟨items ++ [.operator .percent 1], [], by simp [released], by simp, ?_⟩
    have out_eq : out = items := by simpa [released] using together
    rw [whole, arranged, out_eq]
    simp only [waiting, List.map_nil, List.nil_append]
    rw [sign, before_before]

/-- A phrase behind an operator that waits and holds weaker than all it needs: the operator comes
out behind the phrase. -/
theorem behindOperator {needs leaves : Nat} {tokens : List Token} {items : List Item}
    (phrase : Arranges needs leaves tokens items) {op : Operator} (weaker : op.precedence < needs)
    {rest : List Token} (separate : beginsOperand rest = false) (stack : List Waiting) :
    ∃ out pending, out ++ released pending = items ++ [.operator op op.arity] ∧
      (∀ entry ∈ pending, min leaves op.precedence ≤ entry.1.precedence) ∧
      arrange (waiting [(op, op.arity)] ++ stack) (roles (tokens ++ rest)) =
        before out (arrange (waiting pending ++ stack) (roles rest)) := by
  obtain ⟨out, pending, together, bound, arranged⟩ :=
    phrase.arranges rest (waiting [(op, op.arity)] ++ stack) separate weaker
  refine ⟨out, pending ++ [(op, op.arity)], ?_, ?_, ?_⟩
  · simp [← together, released]
  · intro entry member
    rcases List.mem_append.mp member with inner | last
    · exact (min_le_left _ _).trans (bound entry inner)
    · rw [List.mem_singleton.mp last]
      exact min_le_right _ _
  · rw [arranged]
    simp [waiting]

theorem root {tokens : List Token} {items : List Item} (operand : Arranges 4 3 tokens items) :
    Arranges 4 3 (.ofOperator .root :: tokens)
      (items ++ [.operator .root Operator.root.arity]) where
  begins _ := rfl
  arranges := by
    intro rest stack separate _
    obtain ⟨out, pending, together, bound, arranged⟩ :=
      operand.behindOperator Operator.root.precedence_lt_four separate stack
    have signed : arrange stack (roles (.ofOperator .root :: (tokens ++ rest))) =
        before [] (arrange (waiting [(.root, Operator.root.arity)] ++ stack)
          (roles (tokens ++ rest))) :=
      arrange_cons (.leading .root Operator.root.arity) rfl _
    refine ⟨out, pending, together, bound, ?_⟩
    rw [List.cons_append, signed, arranged, before_before, List.nil_append]

/-- Each operator between two operands takes what the left one leaves waiting, and waits itself for
the right one. -/
theorem binary {op : Operator} (between : op ≠ .root) {left right : List Token}
    {first second : List Item} (left_phrase : Arranges op.precedence op.precedence left first)
    (right_phrase : Arranges (op.precedence + 1) op.precedence right second) :
    Arranges op.precedence op.precedence (left ++ .ofOperator op :: right)
      (first ++ second ++ [.operator op op.arity]) where
  begins rest := by simpa using left_phrase.begins (.ofOperator op :: (right ++ rest))
  arranges := by
    intro rest stack separate shields
    obtain ⟨out, pending, together, bound, arranged⟩ :=
      left_phrase.arranges (.ofOperator op :: (right ++ rest)) stack
        (beginsOperand_ofOperator between _) shields
    obtain ⟨later, others, together_right, bound_right, arranged_right⟩ :=
      right_phrase.behindOperator (Nat.lt_succ_self op.precedence) separate stack
    have whole : left ++ .ofOperator op :: right ++ rest =
        left ++ .ofOperator op :: (right ++ rest) := by simp
    refine ⟨first ++ later, others, ?_, ?_, ?_⟩
    · rw [List.append_assoc, together_right, ← List.append_assoc]
    · rwa [min_self] at bound_right
    · rw [whole, arranged, arrange_ofOperator between bound shields (right_phrase.begins rest),
        arranged_right, before_before, before_before, together]

end Arranges
end Postfix

/-! ## Categories -/

namespace Category

/-- The precedence that the stack must shield in front of a phrase of a category. -/
def needs : Category → Nat
  | sum => 1
  | product => 2
  | power => 3
  | unary | percentage | primary => 4

/-- The least precedence of what a phrase of a category leaves waiting. -/
def leaves : Category → Nat
  | sum => 1
  | product => 2
  | power | unary => 3
  | percentage | primary => 4

variable {op : Operator} {level tighter : Category}

theorem needs_of_makes (makes : op.category? = some level) : level.needs = op.precedence := by
  cases op <;> cases makes <;> rfl

theorem leaves_of_makes (makes : op.category? = some level) : level.leaves = op.precedence := by
  cases op <;> cases makes <;> rfl

theorem lt_needs_of_makes (makes : op.category? = some level)
    (next : level.tighter? = some tighter) : op.precedence < tighter.needs := by
  cases op <;> cases makes <;> cases next <;> decide

theorem needs_le_needs (next : level.tighter? = some tighter) : level.needs ≤ tighter.needs := by
  cases level <;> cases next <;> decide

theorem leaves_le_leaves (next : level.tighter? = some tighter) :
    level.leaves ≤ tighter.leaves := by
  cases level <;> cases next <;> decide

end Category

theorem Operator.ne_root_of_makes {op : Operator} {level : Category}
    (makes : op.category? = some level) : op ≠ .root := by
  rintro rfl
  simp [category?] at makes

namespace Postfix.Arranges

variable {level tighter : Category}

/-- The tokens of a phrase of a category, as the items of such a phrase. -/
abbrev OfCategory (level : Category) (tokens : List Token) (items : List Item) : Prop :=
  Arranges level.needs level.leaves tokens items

theorem ofOperator {op : Operator} (makes : op.category? = some level)
    (next : level.tighter? = some tighter) {left right : List Token} {first second : List Item}
    (left_phrase : OfCategory level left first) (right_phrase : OfCategory tighter right second) :
    OfCategory level (left ++ .ofOperator op :: right)
      (first ++ second ++ [.operator op op.arity]) := by
  have needs := Category.needs_of_makes makes
  have leaves := Category.leaves_of_makes makes
  have right_leaves : op.precedence ≤ tighter.leaves :=
    leaves ▸ Category.leaves_le_leaves next
  rw [OfCategory, needs, leaves] at left_phrase ⊢
  exact binary (Operator.ne_root_of_makes makes) left_phrase
    (right_phrase.mono (Category.lt_needs_of_makes makes next) right_leaves)

theorem lift (next : level.tighter? = some tighter) {tokens : List Token} {items : List Item}
    (inner : OfCategory tighter tokens items) : OfCategory level tokens items :=
  inner.mono (Category.needs_le_needs next) (Category.leaves_le_leaves next)

end Postfix.Arranges

namespace Expression

/-- The tokens of a phrase are arranged as its items. -/
theorem arranges {level : Category} (phrase : Expression level) :
    Postfix.Arranges.OfCategory level phrase.tokens phrase.items := by
  induction phrase with
  | literal negative numeral => exact .number _ _ _
  | group _ inner => exact .group _ _ inner
  | percent _ operand => exact .percent operand
  | root _ operand => exact .root operand
  | binary _ makes next _ _ left right => exact .ofOperator makes next left right
  | lift next _ inner => exact .lift next inner

end Expression

theorem Postfix.Arranges.ofTokens {needs leaves : Nat} {tokens : List Token}
    {items : List Item} (phrase : Arranges needs leaves tokens items) :
    Postfix.ofTokens tokens = pure items := by
  obtain ⟨out, pending, together, _, arranged⟩ := phrase.arranges [] [] rfl trivial
  rw [List.append_nil, List.append_nil] at arranged
  have rest : arrange (waiting pending) (roles []) = pure ([], waiting pending) := rfl
  rw [rest] at arranged
  rw [Postfix.ofTokens, arranged, ← together]
  simp [before, drain_waiting]

end DeskCalculator
