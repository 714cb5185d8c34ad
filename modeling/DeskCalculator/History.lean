import DeskCalculator.Text.Integer

/-!
# The history of calculations

A history keeps the latest calculations, the newest first, and no more of them than its limit
allows if it has one.  Reading never changes it.
-/

namespace DeskCalculator

/-- A bound on the number of entries, at least one. -/
structure Limit where
  /-- The greatest number of entries. -/
  size : Nat
  /-- There is room for one entry. -/
  size_pos : 0 < size
  deriving DecidableEq

/-- A calculation that has been kept. -/
structure Entry where
  /-- The expression as it was entered. -/
  expression : String
  /-- The text of its result. -/
  result : String
  deriving DecidableEq, Repr

/-- An entry on one line. -/
def Entry.line (entry : Entry) : String := entry.expression ++ " = " ++ entry.result

/-- Why a history refuses a request. -/
inductive Refusal where
  /-- A limit leaves no room for an entry. -/
  | noRoom
  /-- There is no entry at a place. -/
  | noEntry (index : Int)
  /-- There is no entry at a place whose index is too long to be written. -/
  | unwritable
  deriving DecidableEq, Repr

/-- The wording of a refusal. -/
def Refusal.message : Refusal → String
  | noRoom => "El límite del historial debe ser al menos 1"
  | noEntry index => "No hay entrada " ++ toString index ++ " en el historial"
  | unwritable =>
      "Exceeds the limit (4300 digits) for integer string conversion; " ++
        "use sys.set_int_max_str_digits() to increase the limit"

/-- The refusal of an index without an entry, which names the index if it can be written. -/
def Refusal.ofIndex (index : Int) : Refusal :=
  if Text.Integer.isWritable index then .noEntry index else .unwritable

/-- The limit of a given size. -/
def Limit.ofInt (size : Int) : Except Refusal Limit :=
  if positive : 0 < size then .ok ⟨size.toNat, by omega⟩ else .error .noRoom

/-- The kept calculations. -/
structure History where
  /-- The bound on their number, if there is one. -/
  limit : Option Limit
  /-- The entries, the newest first. -/
  entries : List Entry
  /-- The bound holds. -/
  bounded : ∀ bound ∈ limit, entries.length ≤ bound.size

namespace History

/-- A history without entries. -/
def empty (limit : Option Limit) : History := ⟨limit, [], by simp⟩

/-- The first entries that a limit has room for. -/
def keep (limit : Option Limit) (entries : List Entry) : List Entry :=
  match limit with
  | none => entries
  | some bound => entries.take bound.size

theorem length_keep_le (limit : Option Limit) (entries : List Entry) :
    ∀ bound ∈ limit, (keep limit entries).length ≤ bound.size := by
  rintro bound rfl
  exact List.length_take_le bound.size entries

/-- Add an entry; the oldest ones give way. -/
def add (history : History) (entry : Entry) : History :=
  ⟨history.limit, keep history.limit (entry :: history.entries),
    length_keep_le history.limit (entry :: history.entries)⟩

/-- Remove all entries. -/
def clear (history : History) : History := empty history.limit

/-- The number of entries. -/
def size (history : History) : Nat := history.entries.length

/-- The entry at a place, counted from zero for the newest. -/
def get (history : History) (index : Int) : Except Refusal Entry :=
  if index < 0 then
    .error (.ofIndex index)
  else
    match history.entries[index.toNat]? with
    | some entry => .ok entry
    | none => .error (.ofIndex index)

/-- The entries on one line each, the newest first. -/
def lines (history : History) : List String := history.entries.map Entry.line

/-- Add entries one after the other. -/
def addAll (history : History) (entries : List Entry) : History := entries.foldl add history

@[simp]
theorem limit_add (history : History) (entry : Entry) :
    (history.add entry).limit = history.limit := rfl

@[simp]
theorem entries_add (history : History) (entry : Entry) :
    (history.add entry).entries = keep history.limit (entry :: history.entries) := rfl

end History
end DeskCalculator
