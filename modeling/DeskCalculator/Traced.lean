import DeskCalculator.Notice

/-!
# Results with notices

`Traced` pairs a result with the notices made on the way to it, in order.  Steps are chained as in
any monad, and the notices of the later step come last.
-/

namespace DeskCalculator

/-- A result and the notices made on the way to it. -/
structure Traced (α : Type) where
  /-- The result. -/
  value : α
  /-- The notices, in the order in which they were made. -/
  notices : List Notice

namespace Traced

/-- A result without notices. -/
def quiet {α : Type} (value : α) : Traced α := ⟨value, []⟩

/-- Continue with a result; the notices of the continuation come last. -/
def andThen {α β : Type} (first : Traced α) (next : α → Traced β) : Traced β :=
  ⟨(next first.value).value, first.notices ++ (next first.value).notices⟩

instance : Monad Traced where
  pure := quiet
  bind := andThen

/-- Make a notice. -/
def note (notice : Notice) : Traced Unit := ⟨(), [notice]⟩

@[simp]
theorem value_pure {α : Type} (a : α) : (pure a : Traced α).value = a := rfl

@[simp]
theorem notices_pure {α : Type} (a : α) : (pure a : Traced α).notices = [] := rfl

@[simp]
theorem value_bind {α β : Type} (first : Traced α) (next : α → Traced β) :
    (first >>= next).value = (next first.value).value := rfl

@[simp]
theorem notices_bind {α β : Type} (first : Traced α) (next : α → Traced β) :
    (first >>= next).notices = first.notices ++ (next first.value).notices := rfl

@[simp]
theorem value_map {α β : Type} (f : α → β) (traced : Traced α) :
    (f <$> traced).value = f traced.value := rfl

@[simp]
theorem notices_map {α β : Type} (f : α → β) (traced : Traced α) :
    (f <$> traced).notices = traced.notices := by
  simp [Functor.map, andThen, quiet]

instance : LawfulMonad Traced := LawfulMonad.mk' Traced
  (fun first => by cases first; simp [Functor.map, andThen, quiet])
  (fun _ _ => rfl)
  (fun _ _ _ => by simp [bind, andThen])

@[simp]
theorem notices_note (notice : Notice) : (note notice).notices = [notice] := rfl

end Traced
end DeskCalculator
