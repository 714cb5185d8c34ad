import DeskCalculator.Proofs.History.Recorded
import DeskCalculator.Session

/-!
# What a session reads and leaves

Every line that a session reads has one effect on the history, which depends on its words alone: it
clears the history, asks about it, or is an expression to calculate.  The history after a session is
the one before it under these effects in order.
-/

namespace DeskCalculator
namespace Session

/-! ## Lines -/

/-- Lines are what stands between line feeds, and behind the last one unless nothing stands
there. -/
theorem linesOf_eq (text : List Char) :
    linesOf text =
      if (text.splitOn '\n').getLast? = some [] then (text.splitOn '\n').dropLast
      else text.splitOn '\n' := by
  induction text with
  | nil => rfl
  | cons c rest induction =>
      rw [linesOf, List.splitOn_cons_eq_if_modifyHead, induction]
      have begun := List.splitOn_ne_nil '\n' rest
      cases parts : rest.splitOn '\n' with
      | nil => exact absurd parts begun
      | cons line later =>
          by_cases feed : c = '\n'
          · simp only [feed, beq_self_eq_true, if_true, List.getLast?_cons_cons,
              List.dropLast_cons_cons]
            split <;> rfl
          · simp only [feed, beq_iff_eq, if_false, List.modifyHead_cons]
            cases later with
            | nil => cases line <;> rfl
            -- The character joins the first line, and the last one is another.
            | cons next others =>
                by_cases unended : (next :: others).getLast? = some []
                · simp [unended]
                · simp [unended]

theorem linesOf_append_newline (front rest : List Char) :
    linesOf (front ++ '\n' :: rest) = front.splitOn '\n' ++ linesOf rest := by
  have begun := List.splitOn_ne_nil '\n' rest
  rw [linesOf_eq, linesOf_eq, List.splitOn_append_cons_self, List.getLast?_append_of_ne_nil _ begun,
    List.dropLast_append_of_ne_nil begun]
  split <;> rfl

theorem exists_splitOn_eq (text : List Char) :
    ∃ missing, text.splitOn '\n' = linesOf text ++ missing ∧ ∀ line ∈ missing, line = [] := by
  rw [linesOf_eq]
  split
  next blank => exact ⟨[[]], (List.dropLast_append_getLast? [] blank).symm, by simp⟩
  next => exact ⟨[], (List.append_nil _).symm, by simp⟩

end Session

/-! ## Commands -/

namespace Command

/-- The words that are no expression: commands by themselves, or with an argument behind a space. -/
def isReserved (text : String) : Bool :=
  text ∈ ["quit", "exit", "history", "clear", "load"] ∨ "load ".toList <+: text.toList

theorem ne_of_isReserved {text word : String} (plain : isReserved text = false)
    (reserved : isReserved word) : text ≠ word := by
  rintro rfl
  simp [reserved] at plain

/-- What the words of a line ask for. -/
inductive Means : String → Command → Prop where
  | blank : Means "" .blank
  | quit : Means "quit" .quit
  | exit : Means "exit" .quit
  | history : Means "history" .history
  | clear : Means "clear" .clear
  | loadNothing : Means "load" (.load "")
  | load (argument : List Char) :
      Means (String.ofList ("load ".toList ++ argument)) (.load (String.ofList argument))
  | calculate {text : String} :
      text ≠ "" → isReserved text = false → Means text (.calculate text)

/-- A line is read by its words alone. -/
theorem means_ofLine (line : String) : Means (Text.strip line) (ofLine line) := by
  rw [ofLine]
  generalize Text.strip line = text
  by_cases blank : text = ""
  · rw [if_pos blank, blank]
    exact .blank
  by_cases last : text = "quit" ∨ text = "exit"
  · rw [if_neg blank, if_pos last]
    rcases last with rfl | rfl
    · exact .quit
    · exact .exit
  by_cases listed : text = "history"
  · rw [if_neg blank, if_neg last, if_pos listed, listed]
    exact .history
  by_cases cleared : text = "clear"
  · rw [if_neg blank, if_neg last, if_neg listed, if_pos cleared, cleared]
    exact .clear
  by_cases bare : text = "load"
  · rw [if_neg blank, if_neg last, if_neg listed, if_neg cleared, if_pos bare, bare]
    exact .loadNothing
  rw [if_neg blank, if_neg last, if_neg listed, if_neg cleared, if_neg bare]
  split
  next argument shown =>
    have whole : text = String.ofList ("load ".toList ++ argument) := by
      rw [← String.ofList_toList (s := text), shown]
      rfl
    rw [whole]
    exact .load argument
  next other =>
    have unloaded : ¬ "load ".toList <+: text.toList := by
      rintro ⟨argument, shown⟩
      exact other argument shown.symm
    refine .calculate blank (decide_eq_false ?_)
    simpa [not_or.mp last, listed, cleared, bare] using unloaded

theorem ofLine_of_means {line : String} {command : Command}
    (means : Means (Text.strip line) command) : ofLine line = command := by
  rw [ofLine]
  generalize Text.strip line = text at means
  cases means with
  | load argument => simp [String.ext_iff]
  | calculate content plain =>
      have other {word : String} (reserved : isReserved word) : text ≠ word :=
        ne_of_isReserved plain reserved
      simp only [content, other (by decide : isReserved "quit"),
        other (by decide : isReserved "exit"), other (by decide : isReserved "history"),
        other (by decide : isReserved "clear"), other (by decide : isReserved "load"), or_self,
        if_false]
      split
      next argument shown => simp [isReserved, shown] at plain
      next => rfl
  | _ => rfl

end Command

namespace Session

/-- Whether a line asks for the end of the session. -/
def isLast (line : String) : Bool := Text.strip line = "quit" ∨ Text.strip line = "exit"

theorem ofLine_eq_quit_iff {line : String} : Command.ofLine line = .quit ↔ isLast line := by
  have means := Command.means_ofLine line
  rw [isLast, decide_eq_true_eq]
  generalize Text.strip line = text at *
  generalize Command.ofLine line = command at *
  cases means with
  | load argument => simp [String.ext_iff]
  | calculate content plain =>
      have unquit : text ≠ "quit" := Command.ne_of_isReserved plain (by decide)
      have unexit : text ≠ "exit" := Command.ne_of_isReserved plain (by decide)
      simp [unquit, unexit]
  | _ => simp

/-! ## Effects -/

section

variable [Arithmetic]

/-- What a line does to the history. -/
def effect (history : History) (line : String) : History :=
  let text := Text.strip line
  if text = "clear" then history.clear
  else if text = "" ∨ Command.isReserved text then history
  else (Calculation.calculate history text).value.2

theorem history_respond (history : History) (line : String) :
    (respond history (Command.ofLine line)).value.2 = effect history line := by
  have means := Command.means_ofLine line
  rw [effect]
  generalize Text.strip line = text at *
  generalize Command.ofLine line = command at *
  cases means with
  | load argument => simp [respond, Command.isReserved, String.ext_iff]
  | calculate content plain =>
      have other : text ≠ "clear" := Command.ne_of_isReserved plain (by decide)
      simp [respond, content, plain, other]
  | _ => simp [respond, Command.isReserved]

/-! ## The loop -/

/-- The lines that a session reads: those up to the first that asks for its end, or all. -/
def linesRead : List String → List String
  | [] => []
  | line :: rest => if isLast line then [line] else line :: linesRead rest

/-- What a session prints for the lines that it reads. -/
def transcript (history : History) : List String → String
  | [] => ""
  | line :: rest =>
      prompt ++ (respond history (Command.ofLine line)).value.1 ++
        transcript (effect history line) rest

theorem converse_cons_of_isLast {line : String} (last : isLast line) (history : History)
    (rest : List String) : converse history (line :: rest) = pure (prompt, history) := by
  rw [converse, ofLine_eq_quit_iff.mpr last]

theorem converse_cons {line : String} (going : isLast line = false) (history : History)
    (rest : List String) :
    converse history (line :: rest) = (do
      let (answer, history) ← respond history (Command.ofLine line)
      let (later, history) ← converse history rest
      return (prompt ++ answer ++ later, history)) := by
  have unquit : Command.ofLine line ≠ .quit := by
    simp [ne_eq, ofLine_eq_quit_iff, going]
  rw [converse]
  split
  next quit => exact absurd quit unquit
  next => rfl

theorem value_converse (history : History) (lines : List String) :
    (converse history lines).value =
      (transcript history (linesRead lines) ++
          (if lines.any isLast then "" else prompt ++ "\n"),
        (linesRead lines).foldl effect history) := by
  induction lines generalizing history with
  | nil => rfl
  | cons line rest induction =>
      cases last : isLast line with
      | true =>
          have quit := ofLine_eq_quit_iff.mpr last
          have unchanged := history_respond history line
          rw [quit] at unchanged
          simp [converse_cons_of_isLast last, linesRead, last, transcript, quit, respond,
            ← unchanged]
      | false =>
          simp [converse_cons last, linesRead, last, transcript, history_respond, induction,
            String.append_assoc]

theorem converse_append {lines : List String} (ended : ∃ line ∈ lines, isLast line)
    (history : History) (later : List String) :
    converse history (lines ++ later) = converse history lines := by
  induction lines generalizing history with
  | nil => simp at ended
  | cons line rest induction =>
      rw [List.cons_append]
      cases last : isLast line with
      | true => rw [converse_cons_of_isLast last, converse_cons_of_isLast last]
      | false =>
          have ends_later : ∃ line ∈ rest, isLast line := by simpa [last] using ended
          simp only [converse_cons last, induction ends_later]

theorem run_append {front : List Char}
    (ended : ∃ line ∈ front.splitOn '\n', isLast (String.ofList line)) (history : History)
    (later : List Char) :
    run history (String.ofList (front ++ '\n' :: later)) = run history (String.ofList front) := by
  obtain ⟨line, stands, last⟩ := ended
  obtain ⟨missing, split, nothing⟩ := exists_splitOn_eq front
  -- The line that ends the session is not the missing one, which has no characters.
  have inFront : line ∈ linesOf front := by
    rw [split, List.mem_append] at stands
    refine stands.resolve_right fun dropped => ?_
    rw [nothing line dropped] at last
    revert last
    decide
  have ends : ∃ line ∈ (linesOf front).map String.ofList, isLast line :=
    ⟨String.ofList line, List.mem_map_of_mem inFront, last⟩
  rw [run, run, String.toList_ofList, String.toList_ofList, linesOf_append_newline, split,
    List.append_assoc, List.map_append, converse_append ends]

/-- A line that asks about the history leaves it as it is, and the session goes on. -/
theorem effect_of_question {line : String} (asks : Text.strip line = "history" ∨
    Text.strip line = "load" ∨ "load ".toList <+: (Text.strip line).toList) (history : History) :
    isLast line = false ∧ effect history line = history := by
  rw [isLast, effect]
  generalize Text.strip line = text at *
  rcases asks with rfl | rfl | ⟨argument, shown⟩
  · exact ⟨by decide, rfl⟩
  · exact ⟨by decide, rfl⟩
  · obtain rfl : String.ofList ("load ".toList ++ argument) = text := by
      rw [shown, String.ofList_toList]
    simp [Command.isReserved, String.ext_iff]

/-- A session reads lines up to the first that asks for its end, and prints an answer to each.  The
history is left with the effects of these lines in order, and text behind the end of the session
changes nothing.  Lines that ask about the history change neither the history nor the end of the
session, and an expression leaves one entry at most. -/
theorem run_reads (history : History) (input : String) :
    let parts := input.toList.splitOn '\n'
    let lines := (if parts.getLast? = some [] then parts.dropLast else parts).map String.ofList
    (run history input).value =
        (greeting ++ transcript history (linesRead lines) ++
            (if lines.any isLast then "" else prompt ++ "\n"),
          (linesRead lines).foldl effect history) ∧
      (∀ front later : List Char, (∃ line ∈ front.splitOn '\n', isLast (String.ofList line)) →
        run history (String.ofList (front ++ '\n' :: later)) =
          run history (String.ofList front)) ∧
      (∀ line, (Text.strip line = "history" ∨ Text.strip line = "load" ∨
          "load ".toList <+: (Text.strip line).toList) →
        isLast line = false ∧ effect history line = history) ∧
      ∀ expression, (Calculation.calculate history expression).value.2 = history ∨
        ∃ result, (Calculation.calculate history expression).value.2 =
          history.add ⟨expression, result⟩ := by
  intro parts lines
  refine ⟨?_, ?_, fun line asks => effect_of_question asks history, fun expression => ?_⟩
  · rw [run, linesOf_eq, Traced.value_bind, value_converse]
    simp [lines, parts, String.append_assoc]
  · intro front later ended
    exact run_append ended history later
  · rw [Calculation.history_calculate]
    cases recorded : Calculation.record? expression with
    | none => exact Or.inl rfl
    | some entry =>
        obtain ⟨same, -⟩ := Calculation.of_record? recorded
        exact Or.inr ⟨entry.result, by rw [← same]⟩

end

/-- An expression behind the end of a session is not calculated, and a question without an answer
does not end the session. -/
theorem run_quotient_then_quit :
    run (.empty none) "load 0\n7/2\n quit\t\n8" = run (.empty none) "load 0\n7/2\n quit\t" ∧
      (run (.empty none) "load 0\n7/2\n quit\t").value.2.entries = [⟨"7/2", "3.5"⟩] ∧
      effect (.empty none) "load 0" = .empty none := by
  obtain ⟨reads, stops, asks, -⟩ := run_reads (.empty none) "load 0\n7/2\n quit\t"
  refine ⟨stops "load 0\n7/2\n quit\t".toList ['8'] (by decide), ?_,
    (asks "load 0" (by decide)).2⟩
  rw [reads]
  decide +kernel

end Session
end DeskCalculator
