import DeskCalculator.Proofs.Evaluation.Failures
import DeskCalculator.Proofs.History.Latest
import DeskCalculator.Proofs.Numeric.Digits

/-!
# What a history records

A history has at any time the latest calculations with a value that were made since it was last
cleared, whatever evaluations and readings came between them.  The value of an expression depends on
the expression alone, so what has been recorded comes out again.
-/

namespace DeskCalculator

/-! ## Shown values -/

namespace Display

theorem mem_write {places : Int} {x : Float} {c : Char} (member : c ∈ (write places x).toList) :
    c.isDigit ∨ c ∈ ['.', '-', 'N', 'a', '∞'] := by
  rw [write] at member
  split at member
  · have named : c = 'N' ∨ c = 'a' ∨ c = 'N' := by simpa using member
    rcases named with rfl | rfl | rfl <;> simp
  · next negative _ =>
      have named : c = '-' ∨ c = '∞' := by cases negative <;> simp_all [Layout.sign]
      rcases named with rfl | rfl <;> simp
  · rw [String.toList_ofList] at member
    rcases FixedPlaces.mem_writeSigned member with digit | rfl | rfl
    · exact Or.inl digit
    · simp
    · simp

theorem write_ne_error (places : Int) (x : Float) : write places x ≠ "Error" := by
  intro same
  have begins : 'E' ∈ (write places x).toList := by
    rw [same]
    decide
  exact absurd (mem_write begins) (by decide)

end Display

/-! ## Calculations -/

namespace Calculation

variable [Arithmetic]

/-- The entry that a calculation leaves in the history, if the expression is not blank and has a
value. -/
def record? (expression : String) : Option Entry :=
  if isBlank expression then none
  else (text expression).value.toOption.map fun result => ⟨expression, result⟩

/-- A calculation leaves one entry in the history, or nothing. -/
theorem history_calculate (history : History) (expression : String) :
    (calculate history expression).value.2 =
      match record? expression with
      | some entry => history.add entry
      | none => history := by
  cases content : isBlank expression with
  | true => simp [value_calculate_of_isBlank content, record?, content]
  | false =>
      cases valued : (value expression).value with
      | ok x =>
          simp [value_calculate_of_ok content valued, record?, content, value_text, valued,
            Except.map, Except.toOption]
      | error failure =>
          simp [value_calculate_of_error content valued, record?, content, value_text, valued,
            Except.map, Except.toOption]

/-- An entry that a calculation leaves has the text of its expression, which shows a number. -/
theorem of_record? {expression : String} {entry : Entry}
    (recorded : record? expression = some entry) :
    entry.expression = expression ∧ isBlank expression = false ∧
      ∃ x, (value expression).value = .ok x ∧
        entry.result = Display.write Display.places x := by
  rw [record?, value_text] at recorded
  cases content : isBlank expression with
  | true => simp [content] at recorded
  | false =>
      cases valued : (value expression).value with
      | error failure => simp [content, valued, Except.map, Except.toOption] at recorded
      | ok x =>
          obtain rfl : ⟨expression, Display.write Display.places x⟩ = entry := by
            simpa [content, valued, Except.map, Except.toOption] using recorded
          exact ⟨rfl, rfl, x, rfl, rfl⟩

end Calculation

/-! ## Calls -/

/-- A use of the calculator. -/
inductive Call where
  /-- An expression is calculated. -/
  | calculate (expression : String)
  /-- The text of an expression is asked for. -/
  | evaluate (expression : String)
  /-- The history is cleared. -/
  | clear
  /-- The entry at a place of the history is asked for. -/
  | get (index : Int)
  /-- The entries of the history are asked for. -/
  | items
  /-- The entries of the history are gone through one by one. -/
  | iterate
  /-- The number of entries is asked for. -/
  | size
  deriving DecidableEq, Repr

/-- What a call gives back. -/
inductive Answer where
  /-- What a calculation comes to, unless the expression is blank. -/
  | outcome (outcome : Option Outcome)
  /-- The text of an expression. -/
  | text (result : Except Failure String)
  /-- Nothing. -/
  | done
  /-- An entry of the history. -/
  | entry (result : Except Refusal Entry)
  /-- All entries of the history. -/
  | entries (entries : List Entry)
  /-- The number of entries. -/
  | size (size : Nat)

namespace Call

/-- Answer a call, and give the history after it. -/
def perform [Arithmetic] (history : History) : Call → Traced (Answer × History)
  | calculate expression => do
      let (outcome, history) ← Calculation.calculate history expression
      return (.outcome outcome, history)
  | evaluate expression => do
      let result ← Calculation.text expression
      return (.text result, history)
  | clear => return (.done, history.clear)
  | get index => return (.entry (history.get index), history)
  | items => return (.entries history.entries, history)
  | iterate => return (.entries history.entries, history)
  | size => return (.size history.size, history)

/-- Answer calls one after the other, and give the history after them. -/
def performAll [Arithmetic] (history : History) : List Call → Traced (List Answer × History)
  | [] => return ([], history)
  | call :: rest => do
      let (answer, history) ← perform history call
      let (later, history) ← performAll history rest
      return (answer :: later, history)

section

variable [Arithmetic]

/-- The entry that a call leaves in the history. -/
def record? : Call → Option Entry
  | calculate expression => Calculation.record? expression
  | _ => none

/-- The entries that calls have left since the history was last cleared, the newest first. -/
def recorded (calls : List Call) : List Entry := History.addedSince clear record? calls

theorem history_perform {call : Call} (other : call ≠ clear) (history : History) :
    (perform history call).value.2 =
      match call.record? with
      | some entry => history.add entry
      | none => history := by
  cases call with
  | calculate expression => exact Calculation.history_calculate history expression
  | clear => exact absurd rfl other
  | _ => rfl

theorem history_performAll (history : History) (calls : List Call) :
    (performAll history calls).value.2 =
      calls.foldl (fun history call => (perform history call).value.2) history := by
  induction calls generalizing history with
  | nil => rfl
  | cons call rest induction => exact induction (perform history call).value.2

theorem entries_performAll_empty (limit : Option Limit) (calls : List Call) :
    (performAll (.empty limit) calls).value.2.limit = limit ∧
      (performAll (.empty limit) calls).value.2.entries =
        History.keep limit (recorded calls) := by
  rw [history_performAll]
  exact History.entries_foldl (fun _ => rfl) (fun history _ other => history_perform other history)
    limit calls

theorem exists_record?_of_mem {limit : Option Limit} {calls : List Call} {entry : Entry}
    (member : entry ∈ (performAll (.empty limit) calls).value.2.entries) :
    ∃ expression, Calculation.record? expression = some entry := by
  rw [(entries_performAll_empty limit calls).2] at member
  have stands : entry ∈ recorded calls := History.mem_of_mem_keep member
  obtain ⟨call, -, left⟩ := History.exists_of_mem_addedSince stands
  cases call with
  | calculate expression => exact ⟨expression, left⟩
  | _ => simp [record?] at left

/-- After any calls, a history that was empty once has the latest calculations with a value made
since it was last cleared, as many as its limit allows.  A calculation without content or value
leaves it as it is, and so does every call that neither calculates nor clears.  No error is ever
recorded, and the expression of an entry gives its result again after whatever calls. -/
theorem performAll_empty (limit : Option Limit) (calls : List Call) :
    let history := (performAll (.empty limit) calls).value.2
    (history.limit = limit ∧ history.entries = History.keep limit (recorded calls)) ∧
      (∀ expression, Calculation.isBlank expression ∨
          (∃ failure, (Calculation.text expression).value = .error failure) →
        (perform history (.calculate expression)).value.2 = history) ∧
      (∀ call, (∀ expression, call ≠ .calculate expression) → call ≠ .clear →
        (perform history call).value.2 = history) ∧
      ∀ entry ∈ history.entries, entry.result ≠ "Error" ∧ ∀ later,
        let after := (performAll history later).value.2
        (perform after (.evaluate entry.expression)).value.1 = .text (.ok entry.result) ∧
          ∃ x, (perform after (.calculate entry.expression)).value.1 =
            .outcome (some (.success entry.expression x entry.result)) := by
  intro history
  refine ⟨entries_performAll_empty limit calls, ?_, ?_, ?_⟩
  · intro expression fails
    have nothing : record? (.calculate expression) = none := by
      rcases fails with blank | ⟨failure, failed⟩
      · simp [record?, Calculation.record?, blank]
      · simp [record?, Calculation.record?, failed, Except.toOption]
    rw [history_perform (by simp), nothing]
  · intro call other uncleared
    have nothing : record? call = none := by
      cases call with
      | calculate expression => exact absurd rfl (other expression)
      | _ => rfl
    rw [history_perform uncleared, nothing]
  · intro entry member
    obtain ⟨expression, recorded⟩ := exists_record?_of_mem member
    obtain ⟨rfl, content, x, valued, shown⟩ := Calculation.of_record? recorded
    refine ⟨?_, fun later => ⟨?_, x, ?_⟩⟩
    · rw [shown]
      exact Display.write_ne_error Display.places x
    · simp [perform, Calculation.value_text, valued, shown, Except.map]
    · simp [perform, Calculation.value_calculate_of_ok content valued, shown]

end

/-- A history with room for one entry has the last of the calculations with a value since it was
cleared, which gives `3.5` again whenever it is calculated. -/
theorem performAll_quotient_last :
    let calls : List Call := [.calculate "1+1", .clear, .calculate "8", .calculate " 7÷2 ",
      .calculate "/", .evaluate "9"]
    let history := (performAll (.empty (some ⟨1, Nat.one_pos⟩)) calls).value.2
    history.entries = [⟨" 7÷2 ", "3.5"⟩] ∧
      (perform history (.calculate "\t")).value.2 = history ∧
      (perform history (.get 0)).value.2 = history ∧
      ∀ later, (perform (performAll history later).value.2 (.evaluate " 7÷2 ")).value.1 =
        .text (.ok "3.5") := by
  intro calls history
  obtain ⟨⟨-, kept⟩, unchanged, read, again⟩ :=
    performAll_empty (some ⟨1, Nat.one_pos⟩) calls
  have entries : history.entries = [⟨" 7÷2 ", "3.5"⟩] := by
    rw [kept]
    decide +kernel
  have member : ⟨" 7÷2 ", "3.5"⟩ ∈ history.entries := by simp [entries]
  exact ⟨entries, unchanged "\t" (Or.inl (by decide)), read (.get 0) (by simp) (by simp),
    fun later => ((again _ member).2 later).1⟩

end Call
end DeskCalculator
