import DeskCalculator.Proofs.History.Latest
import DeskCalculator.Proofs.Text.Integer

/-!
# Reading a history

A history gives out copies of its entries, as lists and as iterations.  An iteration visits the
entries that were there when it began, whatever is added on the way, so a loop that adds an entry
for each one that it visits comes to an end.
-/

namespace DeskCalculator

/-- A history with the copies that it has given out. -/
structure Shared where
  /-- The history. -/
  history : History
  /-- The lists of entries that have been asked for, the first of them first. -/
  lists : List (List Entry)
  /-- The entries that each iteration has still to visit, the first iteration first. -/
  iterations : List (List Entry)

namespace Shared

/-- A history without entries that has given out nothing. -/
def new (limit : Option Limit) : Shared := ⟨.empty limit, [], []⟩

/-- A use of a history or of a copy that it has given out. -/
inductive Use where
  /-- An entry is added. -/
  | add (entry : Entry)
  /-- The history is cleared. -/
  | clear
  /-- The entry at a place of the history is asked for. -/
  | get (index : Int)
  /-- A list of the entries is asked for. -/
  | items
  /-- A list that was given out is emptied. -/
  | discard (place : Nat)
  /-- An iteration begins. -/
  | iterate
  /-- An iteration is asked for the next entry. -/
  | next (place : Nat)
  deriving DecidableEq

/-- What a use gives back. -/
inductive Reply where
  /-- Nothing. -/
  | done
  /-- An entry of the history. -/
  | entry (result : Except Refusal Entry)
  /-- A list of all entries. -/
  | entries (entries : List Entry)
  /-- The next entry of an iteration, unless the iteration has ended. -/
  | visited (entry : Option Entry)

/-- Answer a use, and give the state after it. -/
def perform (shared : Shared) : Use → Reply × Shared
  | .add entry => (.entry (.ok entry), { shared with history := shared.history.add entry })
  | .clear => (.done, { shared with history := shared.history.clear })
  | .get index => (.entry (shared.history.get index), shared)
  | .items =>
      (.entries shared.history.entries,
        { shared with lists := shared.lists ++ [shared.history.entries] })
  | .discard place => (.done, { shared with lists := shared.lists.set place [] })
  | .iterate => (.done, { shared with iterations := shared.iterations ++ [shared.history.entries] })
  | .next place =>
      match shared.iterations[place]? with
      | some (entry :: rest) =>
          (.visited (some entry), { shared with iterations := shared.iterations.set place rest })
      | _ => (.visited none, shared)

/-- The state after uses one after the other. -/
def performAll (shared : Shared) (uses : List Use) : Shared :=
  uses.foldl (fun shared use => (perform shared use).2) shared

/-- What every use keeps is kept by uses one after the other. -/
theorem performAll_induction {motive : Shared → Prop} {uses : List Use}
    (step : ∀ shared, motive shared → ∀ use ∈ uses, motive (perform shared use).2) {shared : Shared}
    (holds : motive shared) : motive (performAll shared uses) := by
  induction uses generalizing shared with
  | nil => exact holds
  | cons use rest induction =>
      have first := step shared holds use List.mem_cons_self
      exact induction (fun shared holds other member =>
        step shared holds other (List.mem_cons_of_mem use member)) first

/-! ## The history -/

/-- The entry that a use adds. -/
def Use.added? : Use → Option Entry
  | add entry => some entry
  | _ => none

/-- What a use does to the history. -/
def Use.effect (history : History) : Use → History
  | add entry => history.add entry
  | clear => history.clear
  | _ => history

theorem history_perform (shared : Shared) (use : Use) :
    (perform shared use).2.history = use.effect shared.history := by
  cases use with
  | next place =>
      rw [perform]
      split <;> rfl
  | _ => rfl

theorem history_performAll (shared : Shared) (uses : List Use) :
    (performAll shared uses).history = uses.foldl Use.effect shared.history := by
  induction uses generalizing shared with
  | nil => rfl
  | cons use rest induction =>
      have later := induction (perform shared use).2
      rw [history_perform] at later
      exact later

theorem entries_performAll_new (limit : Option Limit) (uses : List Use) :
    (performAll (new limit) uses).history.limit = limit ∧
      (performAll (new limit) uses).history.entries =
        History.keep limit (History.addedSince .clear Use.added? uses) := by
  rw [history_performAll]
  refine History.entries_foldl (fun _ => rfl) (fun history use other => ?_) limit uses
  cases use with
  | clear => exact absurd rfl other
  | _ => rfl

/-! ## Copies -/

variable {shared : Shared} {place : Nat}

/-- A list that was given out stays as it is until it is emptied. -/
theorem lists_perform {list : List Entry} (given : shared.lists[place]? = some list) {use : Use}
    (other : use ≠ .discard place) : (perform shared use).2.lists[place]? = some list := by
  cases use with
  | items =>
      have within : place < shared.lists.length := (List.getElem?_eq_some_iff.mp given).1
      exact (List.getElem?_append_left within).trans given
  | discard elsewhere =>
      have apart : elsewhere ≠ place := by
        rintro rfl
        exact other rfl
      exact (List.getElem?_set_ne apart).trans given
  | next iteration =>
      rw [perform]
      split <;> exact given
  | _ => exact given

theorem lists_performAll {list : List Entry} (given : shared.lists[place]? = some list)
    {uses : List Use} (other : .discard place ∉ uses) :
    (performAll shared uses).lists[place]? = some list :=
  performAll_induction (motive := fun shared => shared.lists[place]? = some list)
    (fun _ given _ member => lists_perform given (ne_of_mem_of_not_mem member other)) given

/-- An iteration has the same entries to visit until it is asked for the next one. -/
theorem iterations_perform {remaining : List Entry}
    (begun : shared.iterations[place]? = some remaining) {use : Use} (other : use ≠ .next place) :
    (perform shared use).2.iterations[place]? = some remaining := by
  cases use with
  | iterate =>
      have within : place < shared.iterations.length := (List.getElem?_eq_some_iff.mp begun).1
      exact (List.getElem?_append_left within).trans begun
  | next elsewhere =>
      have apart : elsewhere ≠ place := by
        rintro rfl
        exact other rfl
      rw [perform]
      split
      · exact (List.getElem?_set_ne apart).trans begun
      · exact begun
  | _ => exact begun

theorem iterations_performAll {remaining : List Entry}
    (begun : shared.iterations[place]? = some remaining) {uses : List Use}
    (other : .next place ∉ uses) :
    (performAll shared uses).iterations[place]? = some remaining :=
  performAll_induction (motive := fun shared => shared.iterations[place]? = some remaining)
    (fun _ begun _ member => iterations_perform begun (ne_of_mem_of_not_mem member other)) begun

/-! ## Loops -/

/-- A loop over an iteration: every entry that it visits is followed by the uses that the body makes
of it, until the iteration has no entry left. -/
inductive Loop (body : Entry → List Use) (place : Nat) : Shared → List Entry → Shared → Prop where
  | ends {before after : Shared} :
      perform before (.next place) = (.visited none, after) → Loop body place before [] after
  | visits {before visiting after : Shared} {entry : Entry} {others : List Entry} :
      perform before (.next place) = (.visited (some entry), visiting) →
      Loop body place (performAll visiting (body entry)) others after →
      Loop body place before (entry :: others) after

/-- A loop that leaves its iteration alone visits what the iteration has to visit, and ends. -/
theorem exists_loop {body : Entry → List Use} (apart : ∀ entry, .next place ∉ body entry)
    {remaining : List Entry} (begun : shared.iterations[place]? = some remaining) :
    ∃ after, Loop body place shared remaining after ∧
      ∀ visited final, Loop body place shared visited final →
        visited = remaining ∧ final = after := by
  induction remaining generalizing shared with
  | nil =>
      have ended : perform shared (.next place) = (.visited none, shared) := by
        rw [perform, begun]
      refine ⟨shared, .ends ended, fun visited final loop => ?_⟩
      cases loop with
      | ends stops => exact ⟨rfl, (Prod.mk.inj (stops.symm.trans ended)).2⟩
      | visits goes => exact absurd (goes.symm.trans ended) (by simp)
  | cons entry rest induction =>
      set visiting : Shared :=
        { shared with iterations := shared.iterations.set place rest } with visiting_eq
      have visited_first : perform shared (.next place) = (.visited (some entry), visiting) := by
        rw [perform, begun]
      have within : place < shared.iterations.length := (List.getElem?_eq_some_iff.mp begun).1
      have left : visiting.iterations[place]? = some rest := List.getElem?_set_self within
      obtain ⟨after, loop, only⟩ := induction (iterations_performAll left (apart entry))
      refine ⟨after, .visits visited_first loop, fun visited final other => ?_⟩
      cases other with
      | ends stops => exact absurd (stops.symm.trans visited_first) (by simp)
      | visits goes later =>
          obtain ⟨same, rfl⟩ := Prod.mk.inj (goes.symm.trans visited_first)
          cases same
          obtain ⟨rfl, rfl⟩ := only _ _ later
          exact ⟨rfl, rfl⟩

/-- Add the expression of a visited entry with a given result. -/
def addAgain (result : String) (entry : Entry) : List Use := [.add { entry with result }]

theorem Loop.history_addAgain {result : String} {visited : List Entry} {after : Shared}
    (loop : Loop (addAgain result) place shared visited after) :
    after.history = shared.history.addAll (visited.map fun entry => { entry with result }) := by
  induction loop with
  | @ends before after stops =>
      have unchanged := history_perform before (.next place)
      rw [stops] at unchanged
      exact unchanged
  | @visits before visiting after entry others goes _ induction =>
      have unchanged := history_perform before (.next place)
      rw [goes] at unchanged
      rw [induction, List.map_cons]
      change (visiting.history.add { entry with result }).addAll _ = _
      rw [unchanged]
      rfl

/-- An index that is not that of an entry is refused, and named if it has few enough digits to be
written. -/
theorem refusal_of_get (shared : Shared) {index : Int}
    (outside : ¬ (0 ≤ index ∧ index < shared.history.entries.length)) :
    (index.natAbs < tenPow Text.Integer.digitLimit →
        (perform shared (.get index)).1 = .entry (.error (.noEntry index)) ∧
          (Refusal.noEntry index).message =
            "No hay entrada " ++ toString index ++ " en el historial") ∧
      (tenPow Text.Integer.digitLimit ≤ index.natAbs →
        (perform shared (.get index)).1 = .entry (.error .unwritable)) := by
  have refused : (perform shared (.get index)).1 = .entry (.error (.ofIndex index)) :=
    congrArg Reply.entry (shared.history.get_of_not_lt outside)
  refine ⟨fun short => ⟨?_, History.message_noEntry index⟩, fun long => ?_⟩
  · rw [refused, History.ofIndex_of_lt short]
  · rw [refused, History.ofIndex_of_le long]

theorem exists_loop_addAgain (shared : Shared) (result : String) :
    let begun := (perform shared .iterate).2
    let entries := shared.history.entries
    ∃ after, Loop (addAgain result) shared.iterations.length begun entries after ∧
      (∀ visited final, Loop (addAgain result) shared.iterations.length begun visited final →
        visited = entries ∧ final = after) ∧
      after.history.limit = shared.history.limit ∧
      after.history.entries = History.keep shared.history.limit
        ((entries.map fun entry => { entry with result }).reverse ++ entries) := by
  intro begun entries
  have apart : ∀ entry, .next shared.iterations.length ∉ addAgain result entry := by
    simp [addAgain]
  have ready : begun.iterations[shared.iterations.length]? = some entries :=
    List.getElem?_concat_length
  obtain ⟨after, loop, only⟩ := exists_loop apart ready
  have added := loop.history_addAgain
  refine ⟨after, loop, only, ?_, ?_⟩
  · rw [added, History.limit_addAll]
    rfl
  · rw [added, History.entries_addAll]
    rfl

/--
After any uses, a history that was empty once has the latest of what has been added since it was
cleared, the newest first, as many as its limit allows.  These are the entries that it gives out,
and each can be asked for by its place; any other index has no entry, and one with too many digits
to be written cannot even be named.  Nothing but adding and clearing changes the history, and a list
that was given out changes by nothing but being emptied.  A loop that adds the expression of every
entry with a given result visits the entries that were there before and ends, and leaves what it has
added, the last first, in front of them.
-/
theorem performAll_new (limit : Option Limit) (uses : List Use) :
    let shared := performAll (new limit) uses
    let entries := shared.history.entries
    (shared.history.limit = limit ∧
        entries = History.keep limit (History.addedSince .clear Use.added? uses)) ∧
      (perform shared .items).1 = .entries entries ∧
      (∀ index : Int,
        (0 ≤ index ∧ index < entries.length → ∃ entry, entries[index.toNat]? = some entry ∧
          (perform shared (.get index)).1 = .entry (.ok entry)) ∧
        (¬ (0 ≤ index ∧ index < entries.length) →
          (index.natAbs < tenPow Text.Integer.digitLimit →
              (perform shared (.get index)).1 = .entry (.error (.noEntry index)) ∧
                (Refusal.noEntry index).message =
                  "No hay entrada " ++ toString index ++ " en el historial") ∧
            (tenPow Text.Integer.digitLimit ≤ index.natAbs →
              (perform shared (.get index)).1 = .entry (.error .unwritable)))) ∧
      (∀ use, use ≠ .clear → (∀ entry, use ≠ .add entry) →
        (perform shared use).2.history = shared.history) ∧
      (∀ later, .discard shared.lists.length ∉ later →
        (performAll (perform shared .items).2 later).lists[shared.lists.length]? = some entries) ∧
      ∀ result,
        let begun := (perform shared .iterate).2
        ∃ after, Loop (addAgain result) shared.iterations.length begun entries after ∧
          (∀ visited final, Loop (addAgain result) shared.iterations.length begun visited final →
            visited = entries ∧ final = after) ∧
          after.history.entries = History.keep limit
            ((entries.map fun entry => { entry with result }).reverse ++ entries) := by
  intro shared entries
  obtain ⟨same_limit, latest⟩ := entries_performAll_new limit uses
  refine ⟨⟨same_limit, latest⟩, rfl, fun index => ⟨?_, ?_⟩, ?_, ?_, fun result => ?_⟩
  · rintro ⟨nonneg, inside⟩
    obtain ⟨entry, found, got⟩ := shared.history.get_of_lt nonneg inside
    exact ⟨entry, found, congrArg Reply.entry got⟩
  · exact shared.refusal_of_get
  · intro use kept quiet
    rw [history_perform]
    cases use with
    | add entry => exact absurd rfl (quiet entry)
    | clear => exact absurd rfl kept
    | _ => rfl
  · exact fun later => lists_performAll List.getElem?_concat_length
  · obtain ⟨after, loop, only, -, left⟩ := shared.exists_loop_addAgain result
    rw [same_limit] at left
    exact ⟨after, loop, only, left⟩

/-- A history with room for two entries, a list that is kept while the history is cleared, a loop
that replaces both entries, and two refusals, one of them of an index that cannot be written. -/
theorem performAll_new_two_kept :
    let uses : List Use := [.add ⟨"1", "1"⟩, .clear, .add ⟨"2", "2"⟩, .items, .add ⟨"3", "3"⟩,
      .discard 0, .iterate, .add ⟨"4", "4"⟩, .next 0]
    let shared := performAll (new (some ⟨2, Nat.two_pos⟩)) uses
    let least : Int := -(tenPow Text.Integer.digitLimit)
    shared.history.entries = [⟨"4", "4"⟩, ⟨"3", "3"⟩] ∧
      (perform shared (.get 1)).1 = .entry (.ok ⟨"3", "3"⟩) ∧
      (perform shared (.get (-1))).1 = .entry (.error (.noEntry (-1))) ∧
      (perform shared (.get least)).1 = .entry (.error .unwritable) ∧
      (perform shared (.next 0)).2.history = shared.history ∧
      (performAll (perform shared .items).2 [.clear]).lists[1]? =
        some [⟨"4", "4"⟩, ⟨"3", "3"⟩] ∧
      ∃ after, Loop (addAgain "0") 1 (perform shared .iterate).2 [⟨"4", "4"⟩, ⟨"3", "3"⟩] after ∧
        after.history.entries = [⟨"3", "0"⟩, ⟨"4", "0"⟩] := by
  intro uses shared least
  obtain ⟨⟨-, latest⟩, -, asked, quiet, lists, loops⟩ :=
    performAll_new (some ⟨2, Nat.two_pos⟩) uses
  have entries : shared.history.entries = [⟨"4", "4"⟩, ⟨"3", "3"⟩] := latest.trans rfl
  have negative : least < 0 := by
    have positive := tenPow_pos Text.Integer.digitLimit
    omega
  obtain ⟨entry, found, got⟩ := (asked 1).1 ⟨by decide, by rw [entries]; decide⟩
  obtain rfl : ⟨"3", "3"⟩ = entry := Option.some.inj found
  have large : 1 < tenPow Text.Integer.digitLimit := Text.Integer.one_lt_tenPow (by decide)
  refine ⟨entries, got, (((asked (-1)).2 (by omega)).1 (by simpa using large)).1, ?_,
    quiet (.next 0) (by simp) (by simp), ?_, ?_⟩
  · have size : least.natAbs = tenPow Text.Integer.digitLimit :=
      (Int.natAbs_neg _).trans (Int.natAbs_natCast _)
    exact ((asked least).2 (by omega)).2 size.ge
  · exact lists [.clear] (by simp)
  · obtain ⟨after, loop, -, left⟩ := loops "0"
    exact ⟨after, loop, left⟩

end Shared
end DeskCalculator
