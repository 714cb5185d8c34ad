import DeskCalculator.History
import Mathlib.Data.List.DropRight

/-!
# The latest entries

Entries that have given way do not come back, and new ones come in front of them.  So a history has
at any time as many as it has room for of all the entries added since it was last cleared, the
newest first.
-/

namespace DeskCalculator
namespace History

/-! ## Entries that are kept -/

@[simp]
theorem keep_nil (limit : Option Limit) : keep limit [] = [] := by
  cases limit with
  | none => rfl
  | some bound => exact List.take_nil

theorem mem_of_mem_keep {limit : Option Limit} {entries : List Entry} {entry : Entry}
    (member : entry ∈ keep limit entries) : entry ∈ entries := by
  cases limit with
  | none => exact member
  | some bound => exact List.mem_of_mem_take member

/-- Entries that have been dropped do not come back. -/
theorem keep_cons_keep (limit : Option Limit) (entry : Entry) (entries : List Entry) :
    keep limit (entry :: keep limit entries) = keep limit (entry :: entries) := by
  cases limit with
  | none => rfl
  | some bound =>
      have room := Nat.succ_pred_eq_of_pos bound.size_pos
      rw [keep, keep, keep, ← room, List.take_succ_cons, List.take_succ_cons, List.take_take]
      simp

theorem keep_append_keep (limit : Option Limit) (front entries : List Entry) :
    keep limit (front ++ keep limit entries) = keep limit (front ++ entries) := by
  induction front with
  | nil =>
      cases limit with
      | none => rfl
      | some bound => simp [keep, List.take_take]
  | cons entry front induction =>
      rw [List.cons_append, ← keep_cons_keep, induction, keep_cons_keep, List.cons_append]

theorem keep_entries (history : History) :
    keep history.limit history.entries = history.entries := by
  have bounded := history.bounded
  cases shown : history.limit with
  | none => rfl
  | some bound => exact List.take_of_length_le (bounded bound shown)

@[simp]
theorem limit_addAll (history : History) (added : List Entry) :
    (history.addAll added).limit = history.limit := by
  induction added generalizing history with
  | nil => rfl
  | cons entry rest induction => exact induction (history.add entry)

/-- Entries that are added one after the other come in front of those that were there, the last of
them first. -/
theorem entries_addAll (history : History) (added : List Entry) :
    (history.addAll added).entries = keep history.limit (added.reverse ++ history.entries) := by
  induction added generalizing history with
  | nil => exact history.keep_entries.symm
  | cons entry rest induction =>
      have later := induction (history.add entry)
      rw [limit_add, entries_add, keep_append_keep] at later
      rw [List.reverse_cons, List.append_assoc]
      exact later

/-! ## Entries at a place -/

theorem message_noEntry (index : Int) :
    (Refusal.noEntry index).message = "No hay entrada " ++ toString index ++ " en el historial" :=
  rfl

theorem ofIndex_of_lt {index : Int} (short : index.natAbs < tenPow Text.Integer.digitLimit) :
    Refusal.ofIndex index = .noEntry index :=
  if_pos (decide_eq_true short)

theorem ofIndex_of_le {index : Int} (long : tenPow Text.Integer.digitLimit ≤ index.natAbs) :
    Refusal.ofIndex index = .unwritable :=
  if_neg fun writable => absurd (of_decide_eq_true writable) (not_lt.mpr long)

theorem get_of_lt (history : History) {index : Int} (nonneg : 0 ≤ index)
    (inside : index < history.entries.length) :
    ∃ entry, history.entries[index.toNat]? = some entry ∧ history.get index = .ok entry := by
  have within : index.toNat < history.entries.length := by omega
  have found := List.getElem?_eq_getElem within
  exact ⟨_, found, by rw [get, if_neg (by omega), found]⟩

theorem get_of_not_lt (history : History) {index : Int}
    (outside : ¬ (0 ≤ index ∧ index < history.entries.length)) :
    history.get index = .error (.ofIndex index) := by
  by_cases negative : index < 0
  · rw [get, if_pos negative]
  · have nothing : history.entries[index.toNat]? = none :=
      List.getElem?_eq_none_iff.mpr (by omega)
    rw [get, if_neg negative, nothing]

/-! ## Entries since the history was cleared -/

section Uses

variable {Use : Type} [DecidableEq Use]

/-- The entries that uses of a history have added since it was last cleared, the newest first. -/
def addedSince (clear : Use) (added? : Use → Option Entry) (uses : List Use) : List Entry :=
  ((uses.rtakeWhile (· ≠ clear)).filterMap added?).reverse

variable {clear : Use} {added? : Use → Option Entry}

theorem addedSince_concat_clear (uses : List Use) :
    addedSince clear added? (uses ++ [clear]) = [] := by
  rw [addedSince, List.rtakeWhile_concat_neg _ _ _ (by simp)]
  rfl

theorem addedSince_concat {use : Use} (other : use ≠ clear) (uses : List Use) :
    addedSince clear added? (uses ++ [use]) =
      (added? use).toList ++ addedSince clear added? uses := by
  rw [addedSince, List.rtakeWhile_concat_pos _ _ _ (by simpa using other), List.filterMap_append,
    List.reverse_append]
  cases added : added? use <;> simp [added, addedSince]

theorem exists_of_mem_addedSince {uses : List Use} {entry : Entry}
    (member : entry ∈ addedSince clear added? uses) : ∃ use ∈ uses, added? use = some entry := by
  obtain ⟨use, later, added⟩ := List.mem_filterMap.mp (List.mem_reverse.mp member)
  exact ⟨use, (List.rtakeWhile_suffix _ uses).subset later, added⟩

/-- If one use clears a history and every other one adds an entry to it or leaves it as it is, a
history that was empty once has the latest of the entries added since it was cleared. -/
theorem entries_foldl {effect : History → Use → History}
    (clears : ∀ history, effect history clear = history.clear)
    (adds : ∀ history use, use ≠ clear → effect history use =
      match added? use with
      | some entry => history.add entry
      | none => history)
    (limit : Option Limit) (uses : List Use) :
    (uses.foldl effect (.empty limit)).limit = limit ∧
      (uses.foldl effect (.empty limit)).entries = keep limit (addedSince clear added? uses) := by
  -- What counts as added restarts where the history is cleared, so the last use decides about all
  -- before it.
  induction uses using List.reverseRecOn with
  | nil => exact ⟨rfl, (keep_nil limit).symm⟩
  | append_singleton uses use induction =>
      obtain ⟨same_limit, same_entries⟩ := induction
      rw [List.foldl_append, List.foldl_cons, List.foldl_nil]
      set history := uses.foldl effect (.empty limit)
      by_cases cleared : use = clear
      · subst cleared
        rw [clears, addedSince_concat_clear, keep_nil]
        exact ⟨same_limit, rfl⟩
      · rw [adds history use cleared, addedSince_concat cleared]
        cases added? use with
        | none => exact ⟨same_limit, same_entries⟩
        | some entry =>
            refine ⟨same_limit, ?_⟩
            rw [entries_add, same_limit, same_entries, keep_cons_keep]
            rfl

end Uses

end History
end DeskCalculator
