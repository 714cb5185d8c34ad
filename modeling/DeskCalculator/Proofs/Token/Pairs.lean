import DeskCalculator.Token
import Mathlib.Data.List.Chain
import Mathlib.Logic.Relation
import Mathlib.Tactic

/-!
# Parentheses with nothing between them

An opening parenthesis and the closing one right behind it can be deleted, which may bring another
pair together.  The order of the deletions does not matter: what is left in the end is computed from
the last token to the first.
-/

namespace DeskCalculator
namespace Token

/-- A pair of parentheses with nothing between them is deleted. -/
inductive DeletesPair : List Token → List Token → Prop where
  | delete (before after : List Token) :
      DeletesPair (before ++ .opening :: .closing :: after) (before ++ after)

/-- Pairs of parentheses with nothing between them are deleted until none is left. -/
structure Clears (tokens cleared : List Token) : Prop where
  /-- Only such pairs are deleted. -/
  deletes : Relation.ReflTransGen DeletesPair tokens cleared
  /-- None is left. -/
  done : ∀ fewer, ¬ DeletesPair cleared fewer

/-- Put a token in front of others; an opening parenthesis vanishes with a closing one. -/
def place : Token → List Token → List Token
  | .opening, .closing :: rest => rest
  | token, rest => token :: rest

/-- The tokens that are left when pairs of parentheses with nothing between them are deleted. -/
def withoutPairs (tokens : List Token) : List Token := tokens.foldr place []

variable {tokens fewer cleared : List Token}

theorem deletesPair_iff : DeletesPair tokens fewer ↔
    ∃ before after, tokens = before ++ .opening :: .closing :: after ∧ fewer = before ++ after := by
  constructor
  · rintro ⟨before, after⟩
    exact ⟨before, after, rfl, rfl⟩
  · rintro ⟨before, after, rfl, rfl⟩
    exact .delete before after

/-- A token is put in front, or it opens a pair that vanishes. -/
theorem place_cases (token : Token) (rest : List Token) :
    ((∀ later, token :: rest ≠ .opening :: .closing :: later) ∧
        place token rest = token :: rest) ∨
      ∃ later, token = .opening ∧ rest = .closing :: later ∧ place token rest = later := by
  cases token with
  | opening =>
      cases rest with
      | nil => exact Or.inl ⟨by simp, rfl⟩
      | cons next later =>
          cases next with
          | closing => exact Or.inr ⟨later, rfl, rfl, rfl⟩
          | _ => exact Or.inl ⟨by simp, rfl⟩
  | _ => exact Or.inl ⟨by simp, rfl⟩

theorem withoutPairs_cons (token : Token) (rest : List Token) :
    withoutPairs (token :: rest) = place token (withoutPairs rest) := rfl

/-! ## The order of deletions -/

theorem DeletesPair.cons (token : Token) (deletes : DeletesPair tokens fewer) :
    DeletesPair (token :: tokens) (token :: fewer) := by
  obtain ⟨before, after⟩ := deletes
  exact .delete (token :: before) after

theorem DeletesPair.append (back : List Token) (deletes : DeletesPair tokens fewer) :
    DeletesPair (tokens ++ back) (fewer ++ back) := by
  obtain ⟨before, after⟩ := deletes
  rw [List.append_assoc, List.append_assoc]
  exact .delete before (after ++ back)

theorem withoutPairs_of_deletes (deletes : DeletesPair tokens fewer) :
    withoutPairs tokens = withoutPairs fewer := by
  obtain ⟨before, after⟩ := deletes
  simp [withoutPairs, List.foldr_append, place]

theorem withoutPairs_of_deletes_all (deletes : Relation.ReflTransGen DeletesPair tokens fewer) :
    withoutPairs tokens = withoutPairs fewer := by
  induction deletes with
  | refl => rfl
  | tail _ last induction => exact induction.trans (withoutPairs_of_deletes last)

theorem withoutPairs_of_done (done : ∀ fewer, ¬ DeletesPair tokens fewer) :
    withoutPairs tokens = tokens := by
  induction tokens with
  | nil => rfl
  | cons token rest induction =>
      rw [withoutPairs_cons, induction fun fewer deletes => done _ (deletes.cons token)]
      rcases place_cases token rest with ⟨_, placed⟩ | ⟨later, rfl, rfl, _⟩
      · exact placed
      · exact absurd (.delete [] later) (done later)

theorem deletes_withoutPairs (tokens : List Token) :
    Relation.ReflTransGen DeletesPair tokens (withoutPairs tokens) := by
  induction tokens with
  | nil => exact .refl
  | cons token rest induction =>
      have later := induction.lift (token :: ·) fun _ _ => DeletesPair.cons token
      rw [withoutPairs_cons]
      rcases place_cases token (withoutPairs rest) with ⟨_, placed⟩ | ⟨others, rfl, shown, placed⟩
      · rwa [placed]
      · rw [placed]
        rw [shown] at later
        exact later.tail (.delete [] others)

theorem done_withoutPairs (tokens : List Token) :
    ∀ fewer, ¬ DeletesPair (withoutPairs tokens) fewer := by
  induction tokens with
  | nil =>
      intro fewer deletes
      obtain ⟨before, after, nothing, _⟩ := deletesPair_iff.mp deletes
      simp [withoutPairs] at nothing
  | cons token rest induction =>
      intro fewer deletes
      rw [withoutPairs_cons] at deletes
      rcases place_cases token (withoutPairs rest) with
        ⟨no_pair, placed⟩ | ⟨others, rfl, shown, placed⟩
      · rw [placed] at deletes
        obtain ⟨before, after, whole, _⟩ := deletesPair_iff.mp deletes
        cases before with
        | nil => exact no_pair after whole
        | cons first before =>
            have behind := (List.cons.inj whole).2
            rw [behind] at induction
            exact induction _ (.delete before after)
      · rw [placed] at deletes
        rw [shown] at induction
        exact induction _ (deletes.cons .closing)

/-- The tokens that are left do not depend on the order of the deletions. -/
theorem clears_iff : Clears tokens cleared ↔ cleared = withoutPairs tokens := by
  constructor
  · rintro ⟨deletes, done⟩
    rw [withoutPairs_of_deletes_all deletes, withoutPairs_of_done done]
  · rintro rfl
    exact ⟨deletes_withoutPairs tokens, done_withoutPairs tokens⟩

theorem withoutPairs_append_of_eq_nil {front : List Token} (vanishes : withoutPairs front = [])
    (back : List Token) : withoutPairs (front ++ back) = withoutPairs back := by
  have deletes := deletes_withoutPairs front
  rw [vanishes] at deletes
  exact withoutPairs_of_deletes_all (deletes.lift (· ++ back) fun _ _ => DeletesPair.append back)

/-! ## Tokens that stay -/

theorem mem_of_mem_withoutPairs {token : Token} (member : token ∈ withoutPairs tokens) :
    token ∈ tokens := by
  induction tokens with
  | nil => exact member
  | cons first rest induction =>
      rw [withoutPairs_cons] at member
      rcases place_cases first (withoutPairs rest) with ⟨_, placed⟩ | ⟨others, rfl, shown, placed⟩
      · rw [placed] at member
        rcases List.mem_cons.mp member with rfl | later
        · exact List.mem_cons_self
        · exact List.mem_cons_of_mem first (induction later)
      · rw [placed] at member
        rw [shown] at induction
        exact List.mem_cons_of_mem _ (induction (List.mem_cons_of_mem _ member))

theorem withoutPairs_of_no_closing (open_only : .closing ∉ tokens) :
    withoutPairs tokens = tokens := by
  apply withoutPairs_of_done
  intro fewer deletes
  obtain ⟨before, after⟩ := deletes
  simp at open_only

theorem withoutPairs_cons_of_ne {token : Token} (stays : token ≠ .opening) (rest : List Token) :
    withoutPairs (token :: rest) = token :: withoutPairs rest := by
  rw [withoutPairs_cons]
  rcases place_cases token (withoutPairs rest) with ⟨_, placed⟩ | ⟨_, opens, _⟩
  · exact placed
  · exact absurd opens stays

theorem withoutPairs_append_operator (front : List Token) (op : Operator) (arity : Int)
    (back : List Token) :
    withoutPairs (front ++ .operator op arity :: back) =
      withoutPairs front ++ .operator op arity :: withoutPairs back := by
  induction front with
  | nil => rfl
  | cons token front induction =>
      rw [List.cons_append, withoutPairs_cons, withoutPairs_cons, induction]
      cases token with
      | opening =>
          cases withoutPairs front with
          | nil => rfl
          | cons next later => cases next <;> rfl
      | _ => rfl

end Token
end DeskCalculator
