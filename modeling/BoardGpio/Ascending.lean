/-!
# Ascending pairs

Values under keys, in ascending order of the keys, with every key at most once. Main statements: a
key shows what was put under it last (`get?_put_same`), and every other key shows what it showed
before (`get?_put_ne`).
-/

set_option autoImplicit false

namespace BoardGpio

/-- Values under keys in ascending order. -/
abbrev Ascending (κ α : Type) : Type := List (κ × α)

namespace Ascending

variable {κ α : Type} [DecidableEq κ]

def get? (key : κ) : Ascending κ α → Option α
  | [] => none
  | (k, a) :: rest => if k = key then some a else get? key rest

/-- The pairs with a value under a key, in place of an older one. -/
def put [LT κ] [DecidableLT κ] (key : κ) (a : α) : Ascending κ α → Ascending κ α
  | [] => [(key, a)]
  | (k, old) :: rest =>
    if k = key then (key, a) :: rest
    else if k < key then (k, old) :: put key a rest
    else (key, a) :: (k, old) :: rest

@[simp] theorem get?_put_same [LT κ] [DecidableLT κ] (key : κ) (a : α) (xs : Ascending κ α) :
    (xs.put key a).get? key = some a := by
  induction xs with
  | nil => simp [put, get?]
  | cons x rest ih =>
    obtain ⟨k, old⟩ := x
    by_cases h : k = key
    · simp [put, get?, h]
    · by_cases hlt : k < key <;> simp [put, get?, h, hlt, ih]

@[simp] theorem get?_put_ne [LT κ] [DecidableLT κ] {key other : κ} (a : α) (xs : Ascending κ α)
    (h : key ≠ other) : (xs.put key a).get? other = xs.get? other := by
  induction xs with
  | nil => simp [put, get?, h]
  | cons x rest ih =>
    obtain ⟨k, old⟩ := x
    by_cases hk : k = key
    · subst hk
      simp [put, get?, h]
    · by_cases hlt : k < key
      · simp [put, get?, hk, hlt, ih]
      · simp [put, get?, hk, hlt, h]

/-- What is put under a key last replaces what was put there before. -/
@[simp] theorem put_put [LT κ] [DecidableLT κ] (key : κ) (a b : α) (xs : Ascending κ α) :
    (xs.put key a).put key b = xs.put key b := by
  induction xs with
  | nil => simp [put]
  | cons x rest ih =>
    obtain ⟨k, old⟩ := x
    by_cases hk : k = key
    · simp [put, hk]
    · by_cases hlt : k < key <;> simp [put, hk, hlt, ih]

/-- What is under a key of the pairs whose keys pass a test. -/
theorem get?_filter (key : κ) (p : κ → Bool) (xs : Ascending κ α) :
    get? key (xs.filter fun x => p x.1) = if p key then get? key xs else none := by
  induction xs with
  | nil => simp [get?]
  | cons x rest ih =>
    obtain ⟨k, a⟩ := x
    by_cases hk : k = key
    · subst hk
      by_cases hp : p k <;> simp [get?, hp, ih]
    · by_cases hp : p k <;> simp [get?, hp, hk, ih]

/-- What is under a key of one list of pairs followed by another. -/
theorem get?_append (key : κ) (xs ys : Ascending κ α) :
    get? key (xs ++ ys) = (get? key xs).or (get? key ys) := by
  induction xs with
  | nil => simp [get?]
  | cons x rest ih =>
    obtain ⟨k, a⟩ := x
    by_cases hk : k = key <;> simp [get?, hk, ih]

end Ascending

end BoardGpio
