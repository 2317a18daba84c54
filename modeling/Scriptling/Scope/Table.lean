/-!
# Scriptling.Scope.Table -- entries by name

A table holds one entry for each of its names, in the order in which the names came. Setting a name that
is there replaces its entry in place. What a table is, for its users, is the function `get?`.
-/

set_option autoImplicit false

namespace Scriptling

/-- Entries by name. -/
abbrev Table (α : Type) := List (String × α)

namespace Table

variable {α : Type}

/-- The entry of a name. -/
def get? (name : String) : Table α → Option α
  | [] => none
  | (k, a) :: t => if k = name then some a else get? name t

/-- Sets the entry of a name. -/
def set (name : String) (a : α) : Table α → Table α
  | [] => [(name, a)]
  | (k, b) :: t => if k = name then (k, a) :: t else (k, b) :: set name a t

/-- Whether a name has an entry. -/
def has (name : String) (t : Table α) : Bool := (t.get? name).isSome

/-- The names of a table. -/
def names (t : Table α) : List String := t.map Prod.fst

/-- Setting a name changes the entry of this name and of no other. -/
theorem get?_set (name other : String) (a : α) (t : Table α) :
    (t.set name a).get? other = if name = other then some a else t.get? other := by
  induction t with
  | nil => simp [set, get?]
  | cons e t ih =>
    obtain ⟨k, b⟩ := e
    simp only [set]
    split
    · rename_i h
      subst h
      simp only [get?]
      split <;> simp_all
    · rename_i h
      simp only [get?, ih]
      split
      · rename_i hk
        subst hk
        simp [Ne.symm h]
      · rfl

end Table

end Scriptling
