import DeskCalculator.Text.Blank
import Mathlib.Data.List.DropRight

/-!
# Trimming

What trimming leaves of a text is the text between the removed characters at its two ends.  Nothing
more is removed from it a second time, and a change of characters that keeps the class of each can
be made before or after.
-/

namespace DeskCalculator
namespace Text

variable {removed : Char → Bool}

/-- A text is what trimming leaves of it between characters of the class. -/
theorem exists_trim_append (removed : Char → Bool) (text : List Char) :
    ∃ front behind, text = front ++ trim removed text ++ behind ∧
      (∀ c ∈ front, removed c) ∧ ∀ c ∈ behind, removed c := by
  set kept := text.dropWhile removed with kept_eq
  have split : text.takeWhile removed ++ kept = text := List.takeWhile_append_dropWhile
  have reversed : kept.reverse.takeWhile removed ++ kept.reverse.dropWhile removed = kept.reverse :=
    List.takeWhile_append_dropWhile
  refine ⟨text.takeWhile removed, (kept.reverse.takeWhile removed).reverse, ?_, ?_, ?_⟩
  · rw [trim, ← kept_eq, List.append_assoc, ← List.reverse_append, reversed, List.reverse_reverse,
      split]
  · exact fun c => List.mem_takeWhile_imp
  · exact fun c member => List.mem_takeWhile_imp (List.mem_reverse.mp member)

/-- Nothing is left to remove at the front, nor at the back, which is trimmed last. -/
theorem trim_trim (text : List Char) : trim removed (trim removed text) = trim removed text := by
  set kept := text.dropWhile removed
  have front : (kept.rdropWhile removed).dropWhile removed = kept.rdropWhile removed := by
    rw [List.dropWhile_eq_self_iff]
    intro nonempty
    have begins := List.rdropWhile_prefix removed kept
    rw [begins.getElem nonempty]
    exact List.dropWhile_get_zero_not removed text (nonempty.trans_le begins.length_le)
  calc
    trim removed (trim removed text)
        = ((kept.rdropWhile removed).dropWhile removed).rdropWhile removed := rfl
    _ = (kept.rdropWhile removed).rdropWhile removed := by rw [front]
    _ = trim removed text := List.rdropWhile_idempotent removed kept

theorem trim_eq_self_of_ends {text : List Char} (first : ∀ c ∈ text.head?, removed c = false)
    (last : ∀ c ∈ text.getLast?, removed c = false) : trim removed text = text := by
  have stays {run : List Char} (begins : ∀ c ∈ run.head?, removed c = false) :
      run.dropWhile removed = run := by
    cases run with
    | nil => rfl
    | cons c rest => exact List.dropWhile_cons_of_neg (by simp [begins c rfl])
  rw [trim, stays first, stays (by simpa using last), List.reverse_reverse]

theorem trim_eq_self {text : List Char} (kept : ∀ c ∈ text, removed c = false) :
    trim removed text = text :=
  trim_eq_self_of_ends (fun c first => kept c (List.mem_of_head? first))
    fun c last => kept c (List.mem_of_getLast? last)

theorem trim_map {f : Char → Char} (keeps : ∀ c, removed (f c) = removed c) (text : List Char) :
    trim removed (text.map f) = (trim removed text).map f := by
  have same : removed ∘ f = removed := funext keeps
  simp only [trim, List.dropWhile_map, ← List.map_reverse, same]

theorem mem_of_mem_trim {text : List Char} {c : Char} (member : c ∈ trim removed text) :
    c ∈ text := by
  obtain ⟨front, behind, whole, -, -⟩ := exists_trim_append removed text
  rw [whole]
  simp [member]

theorem strip_strip (text : String) : strip (strip text) = strip text := by
  rw [strip, strip, String.toList_ofList, trim_trim]

end Text
end DeskCalculator
