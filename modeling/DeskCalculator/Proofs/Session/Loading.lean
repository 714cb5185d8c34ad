import DeskCalculator.Proofs.Session.Expressions
import DeskCalculator.Proofs.Text.Integer
import DeskCalculator.Proofs.Text.Trim

/-!
# Listed and loaded entries

An entry stands in the history of a session because a line was calculated, and its expression is
that line without the blanks at its ends.  So it is one line again and no command, and it comes to
the result that is listed with it.
-/

namespace DeskCalculator

/-! ## Recorded lines -/

/-- The entry that the answer to a command leaves in the history. -/
def Command.record? [Arithmetic] : Command → Option Entry
  | calculate expression => Calculation.record? expression
  | _ => none

namespace Session

section

variable [Arithmetic]

/-- What a session prints in answer to a line. -/
def answer (history : History) (line : String) : String :=
  (respond history (Command.ofLine line)).value.1

/-- The entries that lines have left since the history was last cleared, the newest first. -/
def recorded (lines : List String) : List Entry :=
  History.addedSince .clear Command.record? (lines.map Command.ofLine)

theorem history_respond_of_ne_clear {command : Command} (other : command ≠ .clear)
    (history : History) :
    (respond history command).value.2 =
      match command.record? with
      | some entry => history.add entry
      | none => history := by
  cases command with
  | calculate expression => exact Calculation.history_calculate history expression
  | clear => exact absurd rfl other
  | _ => rfl

theorem entries_foldl_effect (limit : Option Limit) (lines : List String) :
    (lines.foldl effect (.empty limit)).entries = History.keep limit (recorded lines) := by
  have commands : lines.foldl effect (.empty limit) = (lines.map Command.ofLine).foldl
      (fun history command => (respond history command).value.2) (.empty limit) := by
    simp only [List.foldl_map, history_respond]
  rw [commands]
  exact (History.entries_foldl (fun _ => rfl)
    (fun history _ other => history_respond_of_ne_clear other history) limit _).2

theorem entries_run (limit : Option Limit) (input : String) :
    (run (.empty limit) input).value.2.entries =
      History.keep limit (recorded (linesRead ((linesOf input.toList).map String.ofList))) := by
  rw [run, Traced.value_bind, value_converse]
  exact entries_foldl_effect limit _

end

/-! ## Expressions that can be typed again -/

theorem newline_not_mem_linesOf {text line : List Char} (member : line ∈ linesOf text) :
    '\n' ∉ line := by
  fun_induction linesOf text generalizing line with
  | case1 => exact absurd member List.not_mem_nil
  | case2 rest induction =>
      rcases List.mem_cons.mp member with rfl | later
      · exact List.not_mem_nil
      · exact induction later
  | case3 c rest other _ _ =>
      obtain rfl := List.mem_singleton.mp member
      simpa using Ne.symm other
  | case4 c rest other first later read induction =>
      rcases List.mem_cons.mp member with rfl | later
      · simpa [Ne.symm other] using induction (by simp [read])
      · exact induction (by simp [read, later])

theorem mem_of_mem_linesRead {lines : List String} {line : String}
    (member : line ∈ linesRead lines) : line ∈ lines := by
  induction lines with
  | nil => exact member
  | cons first rest induction =>
      rw [linesRead] at member
      split at member
      · rw [List.mem_singleton.mp member]
        exact List.mem_cons_self
      · rcases List.mem_cons.mp member with rfl | later
        · exact List.mem_cons_self
        · exact List.mem_cons_of_mem first (induction later)

/-- What a line asks to calculate would be calculated as it stands if it were typed as a line. -/
theorem isExpression_of_ofLine {line text : String} (unbroken : '\n' ∉ line.toList)
    (asks : Command.ofLine line = .calculate text) : IsExpression text := by
  have means := Command.means_ofLine line
  rw [asks] at means
  generalize stripped : Text.strip line = words at means
  cases means with
  | calculate nonempty plain =>
      refine ⟨nonempty, ?_, ?_, plain⟩
      · rw [← stripped, Text.strip_strip]
      · rw [← stripped, Text.strip, String.toList_ofList]
        exact fun feed => unbroken (Text.mem_of_mem_trim feed)

/-- An entry whose expression, typed as a line, leaves this entry again. -/
structure IsReplayable [Arithmetic] (entry : Entry) : Prop where
  /-- The expression is a line. -/
  expression : IsExpression entry.expression
  /-- The result is that of the expression. -/
  recorded : Calculation.record? entry.expression = some entry

namespace IsReplayable

variable [Arithmetic] {entry : Entry}

theorem answer_eq (replayable : IsReplayable entry) (history : History) :
    answer history entry.expression = entry.result ++ "\n" := by
  obtain ⟨-, content, x, valued, shown⟩ := Calculation.of_record? replayable.recorded
  rw [answer, replayable.expression.ofLine]
  simp [respond, Calculation.value_calculate_of_ok content valued, shown, Outcome.text]

theorem newline_not_mem_line (replayable : IsReplayable entry) : '\n' ∉ entry.line.toList := by
  obtain ⟨-, -, x, -, shown⟩ := Calculation.of_record? replayable.recorded
  have result : '\n' ∉ entry.result.toList := by
    rw [shown]
    exact fun feed => absurd (Display.mem_write feed) (by decide)
  simp [Entry.line, replayable.expression.unbroken, result]

end IsReplayable

theorem isReplayable_of_mem_recorded [Arithmetic] {lines : List String} {entry : Entry}
    (unbroken : ∀ line ∈ lines, '\n' ∉ line.toList) (member : entry ∈ recorded lines) :
    IsReplayable entry := by
  obtain ⟨command, asked, left⟩ := History.exists_of_mem_addedSince member
  obtain ⟨line, among, rfl⟩ := List.mem_map.mp asked
  cases asks : Command.ofLine line with
  | calculate expression =>
      rw [asks] at left
      obtain ⟨rfl, -⟩ := Calculation.of_record? left
      exact ⟨isExpression_of_ofLine (unbroken line among) asks, left⟩
  | _ => simp [asks, Command.record?] at left

/-- In every state that lines from an input lead to, what has been recorded can be typed again. -/
theorem isReplayable_of_mem_run [Arithmetic] {limit : Option Limit} {input : String} {entry : Entry}
    (member : entry ∈ (run (.empty limit) input).value.2.entries) : IsReplayable entry := by
  rw [entries_run] at member
  refine isReplayable_of_mem_recorded (fun line read => ?_) (History.mem_of_mem_keep member)
  obtain ⟨text, among, rfl⟩ := List.mem_map.mp (mem_of_mem_linesRead read)
  rw [String.toList_ofList]
  exact newline_not_mem_linesOf among

/-! ## Numbers of entries -/

/-- The entries as they are listed, with numbers from one. -/
def numbered (entries : List Entry) : List String :=
  entries.mapIdx fun index entry => toString (index + 1) ++ ": " ++ entry.line

theorem listing_eq (history : History) :
    listing history =
      if history.entries = [] then "(historial vacío)\n"
      else String.join ((numbered history.entries).map (· ++ "\n")) := by
  have rows : history.lines.mapIdx (fun index line =>
      toString (index + 1) ++ ": " ++ line ++ "\n") =
      (numbered history.entries).map (· ++ "\n") := by
    rw [List.mapIdx_eq_iff]
    intro index
    simp [numbered, History.lines, Function.comp_def]
  rw [listing, rows]
  simp only [List.isEmpty_iff]

theorem newline_not_mem_numbered [Arithmetic] {entries : List Entry}
    (replayable : ∀ entry ∈ entries, IsReplayable entry) {row : String}
    (member : row ∈ numbered entries) : '\n' ∉ row.toList := by
  obtain ⟨index, within, rfl⟩ := List.mem_mapIdx.mp member
  have number : '\n' ∉ Nat.toDigits 10 (index + 1) :=
    fun feed => absurd (FixedPlaces.isDigit_of_mem_toDigits feed) (by decide)
  have entry := (replayable _ (List.getElem_mem within)).newline_not_mem_line
  simp [number, entry]

theorem load_of_inside {history : History} {argument : String} {number : Int}
    (read : Text.Integer.read? argument = some number)
    (inside : 1 ≤ number ∧ number ≤ history.entries.length) :
    ∃ entry, history.entries[number.toNat - 1]? = some entry ∧
      (numbered history.entries)[number.toNat - 1]? =
        some (toString number ++ ": " ++ entry.expression ++ " = " ++ entry.result) ∧
      load history argument = entry.expression ++ "\n" := by
  obtain ⟨place, rfl⟩ : ∃ place : Nat, number = (place + 1 : Nat) := ⟨number.toNat - 1, by omega⟩
  obtain ⟨entry, found, got⟩ := history.get_of_lt (by omega : 0 ≤ (place : Int)) (by omega)
  rw [Int.toNat_natCast] at found
  rw [Int.toNat_natCast, Nat.add_sub_cancel]
  refine ⟨entry, found, ?_, ?_⟩
  · simp only [numbered, List.getElem?_mapIdx, found, Option.map_some, Entry.line,
      String.append_assoc]
    rfl
  · simp [load, read, got]

/-- Neither a number behind the last one nor one that is not positive is that of an entry. -/
theorem load_of_outside {history : History} {argument : String} {number : Int}
    (read : Text.Integer.read? argument = some number)
    (outside : ¬ (1 ≤ number ∧ number ≤ history.entries.length)) :
    load history argument =
      if number = 1 - tenPow Text.Integer.digitLimit then usage
      else "No hay entrada " ++ toString (number - 1) ++ " en el historial\n" := by
  have refused : history.get (number - 1) = .error (.ofIndex (number - 1)) :=
    history.get_of_not_lt (by omega)
  have short := Text.Integer.natAbs_lt_of_read? read
  by_cases least : number = 1 - tenPow Text.Integer.digitLimit
  · have unwritable : Refusal.ofIndex (number - 1) = .unwritable :=
      History.ofIndex_of_le (by omega)
    simp only [if_pos least, load, read, refused, unwritable]
  · have named : Refusal.ofIndex (number - 1) = .noEntry (number - 1) :=
      History.ofIndex_of_lt (by omega)
    have ended : " en el historial" ++ "\n" = " en el historial\n" := rfl
    simp only [if_neg least, load, read, refused, named, History.message_noEntry,
      String.append_assoc, ended]

theorem answer_of_means [Arithmetic] {line : String} {command : Command}
    (means : Command.Means (Text.strip line) command) (history : History) :
    answer history line = (respond history command).value.1 := by
  rw [answer, Command.ofLine_of_means means]

theorem answer_of_load [Arithmetic] {line argument : String}
    (shown : Text.strip line = "load " ++ argument) (history : History) :
    answer history line = load history argument := by
  have means : Command.Means (Text.strip line) (.load argument) := by
    have words := Command.Means.load argument.toList
    rwa [String.ofList_toList, ← String.toList_append, String.ofList_toList, ← shown] at words
  exact answer_of_means means history

theorem strip_load_toString (n : Int) :
    Text.strip ("load " ++ toString n) = "load " ++ toString n := by
  have shown : ("load " ++ toString n).toList =
      ("load ".toList ++ Layout.sign (n < 0)) ++ Nat.toDigits 10 n.natAbs := by
    rw [String.toList_append, Text.Integer.toList_toString, List.append_assoc]
  have trimmed : Text.trim Text.isBlank ("load " ++ toString n).toList =
      ("load " ++ toString n).toList := by
    refine Text.trim_eq_self_of_ends (fun c first => ?_) (fun c last => ?_)
    · obtain rfl : 'l' = c := by simpa using first
      decide
    · rw [shown, List.getLast?_append_of_ne_nil _ Nat.toDigits_ne_nil] at last
      have digit := FixedPlaces.isDigit_of_mem_toDigits (List.mem_of_getLast? last)
      exact Text.isBlank_of_isDigit digit
  rw [Text.strip, trimmed, String.ofList_toList]

/--
In any state that a new session comes to, the history has the latest of what the lines have left, as
many entries as its limit allows.  They are listed with numbers from one for the newest, each on one
line.  The number of an entry in the list loads its expression; printed, this is one line, and if it
is typed as the next line it comes to the result that is listed with it.  Any other number that can
be read is refused, not counted from the other end; only if it is the least one that can be read,
the refusal cannot be worded.  Without a number there is nothing but the usage.
-/
theorem run_load_and_history [Arithmetic] (limit : Option Limit) (input : String) :
    let history := (run (.empty limit) input).value.2
    let entries := history.entries
    let rows := numbered entries
    entries = History.keep limit (recorded (linesRead ((linesOf input.toList).map String.ofList))) ∧
      (∀ line, Text.strip line = "history" →
        answer history line =
          if entries = [] then "(historial vacío)\n" else String.join (rows.map (· ++ "\n"))) ∧
      (rows.length = entries.length ∧ ∀ row ∈ rows, '\n' ∉ row.toList) ∧
      (∀ line, Text.strip line = "load" → answer history line = usage) ∧
      ∀ line argument, Text.strip line = "load " ++ argument →
        (Text.Integer.read? argument = none → answer history line = usage) ∧
        ∀ number, Text.Integer.read? argument = some number →
          (1 ≤ number ∧ number ≤ entries.length →
            ∃ entry, entries[number.toNat - 1]? = some entry ∧
              rows[number.toNat - 1]? =
                some (toString number ++ ": " ++ entry.expression ++ " = " ++ entry.result) ∧
              answer history line = entry.expression ++ "\n" ∧
              linesOf (answer history line).toList = [entry.expression.toList] ∧
              answer (effect history line) entry.expression = entry.result ++ "\n") ∧
          (¬ (1 ≤ number ∧ number ≤ entries.length) →
            answer history line =
              if number = 1 - tenPow Text.Integer.digitLimit then usage
              else "No hay entrada " ++ toString (number - 1) ++ " en el historial\n") := by
  intro history entries rows
  have replayable : ∀ entry ∈ entries, IsReplayable entry := fun _ => isReplayable_of_mem_run
  refine ⟨entries_run limit input, ?_, ⟨List.length_mapIdx, ?_⟩, ?_, ?_⟩
  · intro line asks
    have means : Command.Means (Text.strip line) .history := asks ▸ .history
    rw [answer_of_means means]
    exact listing_eq history
  · exact fun row => newline_not_mem_numbered replayable
  · intro line asks
    have means : Command.Means (Text.strip line) (.load "") := asks ▸ .loadNothing
    rw [answer_of_means means]
    rfl
  · intro line argument asks
    rw [answer_of_load asks]
    refine ⟨fun unread => ?_, fun number read => ⟨fun inside => ?_, load_of_outside read⟩⟩
    · simp [load, unread]
    · obtain ⟨entry, found, row, loaded⟩ := load_of_inside read inside
      have again := replayable entry (List.mem_of_getElem? found)
      refine ⟨entry, found, row, loaded, ?_, again.answer_eq _⟩
      have single : ∀ line ∈ [entry.expression], '\n' ∉ line.toList := by
        simpa using again.expression.unbroken
      rw [loaded]
      simpa using linesOf_join single

/-- A session that has dropped its first entry, and what it answers to the numbers of an entry that
is left, of one in front of both and to the least one. -/
theorem run_load_and_history_two_kept :
    let history := (run (.empty (some ⟨2, Nat.two_pos⟩)) "1\n 7/2 \n8\nload 3").value.2
    let least : Int := 1 - tenPow Text.Integer.digitLimit
    history.entries = [⟨"8", "8"⟩, ⟨"7/2", "3.5"⟩] ∧
      answer history "history\r" = "1: 8 = 8\n2: 7/2 = 3.5\n" ∧
      answer history "load +٢" = "7/2\n" ∧
      answer (effect history "load +٢") "7/2" = "3.5\n" ∧
      answer history "load 0" = "No hay entrada -1 en el historial\n" ∧
      answer history "load" = usage ∧
      answer history "load 1.0" = usage ∧
      answer history ("load " ++ toString least) = usage := by
  intro history least
  obtain ⟨latest, listed, -, bare, loads⟩ :=
    run_load_and_history (some ⟨2, Nat.two_pos⟩) "1\n 7/2 \n8\nload 3"
  have entries : history.entries = [⟨"8", "8"⟩, ⟨"7/2", "3.5"⟩] := by
    rw [latest]
    decide +kernel
  have counted : (history.entries.length : Int) = 2 := by
    rw [entries]
    rfl
  have large : 1 < tenPow Text.Integer.digitLimit := Text.Integer.one_lt_tenPow (by decide)
  have written : Text.Integer.read? (toString least) = some least := by
    have writable : Text.Integer.isWritable least := by
      rw [Text.Integer.isWritable, decide_eq_true_eq]
      omega
    exact Text.Integer.read?_write (if_pos writable)
  have list : answer history "history\r" = if history.entries = [] then "(historial vacío)\n"
      else String.join ((numbered history.entries).map (· ++ "\n")) :=
    listed "history\r" (by decide)
  have zero := ((loads "load 0" "0" (by decide)).2 0 (by decide)).2
    fun inside => absurd inside.1 (by decide)
  have last := ((loads _ _ (strip_load_toString least)).2 least written).2
    fun inside => absurd inside.1 (by omega)
  obtain ⟨entry, found, -, loaded, -, again⟩ :=
    ((loads "load +٢" "+٢" (by decide)).2 2 (by decide)).1 ⟨by decide, counted.ge⟩
  obtain rfl : ⟨"7/2", "3.5"⟩ = entry := by
    change history.entries[1]? = some entry at found
    rw [entries] at found
    exact Option.some.inj found
  refine ⟨entries, ?_, loaded, again, ?_, bare "load" (by decide),
    (loads "load 1.0" "1.0" (by decide)).1 (by decide), last.trans (if_pos rfl)⟩
  · rw [list, entries]
    decide
  · rw [if_neg (by omega)] at zero
    exact zero

end Session
end DeskCalculator
