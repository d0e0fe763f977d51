/-!
# Shelves

Things kept under names, in the order in which the names came. Putting a thing under a name that is
taken replaces the thing there. Main statements: a name shows what was put under it last
(`get?_put_same`, `get?_put_ne`), and nothing once it was taken away (`get?_erase_same`).
-/

set_option autoImplicit false

namespace BoardGpio

abbrev Shelf (α : Type) : Type := List (String × α)

namespace Shelf

variable {α : Type}

def get? (name : String) : Shelf α → Option α
  | [] => none
  | (n, a) :: rest => if n = name then some a else get? name rest

/-- The shelf with a thing under a name. -/
def put (name : String) (a : α) : Shelf α → Shelf α
  | [] => [(name, a)]
  | (n, old) :: rest => if n = name then (n, a) :: rest else (n, old) :: put name a rest

/-- The shelf without anything under a name. -/
def erase (name : String) : Shelf α → Shelf α
  | [] => []
  | (n, a) :: rest => if n = name then erase name rest else (n, a) :: erase name rest

@[simp] theorem get?_put_same (name : String) (a : α) (s : Shelf α) :
    (s.put name a).get? name = some a := by
  induction s with
  | nil => simp [put, get?]
  | cons x rest ih =>
    obtain ⟨n, old⟩ := x
    by_cases h : n = name
    · simp [put, get?, h]
    · simp [put, get?, h, ih]

@[simp] theorem get?_put_ne {name other : String} (a : α) (s : Shelf α) (h : name ≠ other) :
    (s.put name a).get? other = s.get? other := by
  induction s with
  | nil => simp [put, get?, h]
  | cons x rest ih =>
    obtain ⟨n, old⟩ := x
    by_cases hn : n = name
    · subst hn
      simp [put, get?, h]
    · simp [put, get?, hn, ih]

@[simp] theorem get?_erase_same (name : String) (s : Shelf α) :
    (s.erase name).get? name = none := by
  induction s with
  | nil => rfl
  | cons x rest ih =>
    obtain ⟨n, a⟩ := x
    by_cases h : n = name
    · simp [erase, h, ih]
    · simp [erase, get?, h, ih]

end Shelf

end BoardGpio
