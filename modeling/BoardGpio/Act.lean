import BoardGpio.Failure

/-!
# Actions

An `Act σ α` changes a state `σ` and ends with a value or a failure. What it changed before it
failed stays changed: an operation that fails half-way leaves its first half behind. The equations
at the end say what each way of building an action does to a state; everything proved about actions
rests on them.
-/

set_option autoImplicit false

namespace BoardGpio

/-- An action on a state: its result, and the state it leaves in either case. -/
def Act (σ α : Type) : Type := σ → Except Failure α × σ

namespace Act

variable {σ τ α β : Type}

def run (x : Act σ α) (s : σ) : Except Failure α × σ := x s

/-- Does one action, and on success another that may use its value. -/
protected def bind (x : Act σ α) (f : α → Act σ β) : Act σ β := fun s =>
  match x s with
  | (.ok a, s) => f a s
  | (.error e, s) => (.error e, s)

instance : Monad (Act σ) where
  pure a := fun s => (.ok a, s)
  bind := Act.bind

def fail (e : Error) : Act σ α := fun s => (.error (.error e), s)

def fault (f : Fault) : Act σ α := fun s => (.error (.fault f), s)

/-- The value of a computation, or its error. -/
def lift (x : Except Error α) : Act σ α :=
  match x with
  | .ok a => pure a
  | .error e => fail e

def gets (f : σ → α) : Act σ α := fun s => (.ok (f s), s)

def modify (f : σ → σ) : Act σ Unit := fun s => (.ok (), f s)

/-- Does an action on a part of the state. -/
def within (part : σ → τ) (put : τ → σ → σ) (x : Act τ α) : Act σ α := fun s =>
  let (r, t) := x (part s)
  (r, put t s)

/-- Does an action and hands its error over as a value; a fault still ends everything. -/
def attempt (x : Act σ α) : Act σ (Except Error α) := fun s =>
  match x s with
  | (.ok a, s) => (.ok (.ok a), s)
  | (.error (.error e), s) => (.ok (.error e), s)
  | (.error (.fault f), s) => (.error (.fault f), s)

/-- Does an action, and cleans up after it if it fails; the failure stays. -/
def orCleanUp (x : Act σ α) (clean : Act σ Unit) : Act σ α := fun s =>
  match x s with
  | (.ok a, s) => (.ok a, s)
  | (.error e, s) => (.error e, (clean s).2)

/-- Does an action for every element in turn, and stops at the first failure. -/
def each (f : α → Act σ Unit) : List α → Act σ Unit
  | [] => pure ()
  | a :: as => do
    f a
    each f as

/-- Does an action for every element in turn and collects the values. -/
def collect (f : α → Act σ β) : List α → Act σ (List β)
  | [] => pure []
  | a :: as => do
    let b ← f a
    let bs ← collect f as
    pure (b :: bs)

@[simp] theorem run_pure (a : α) (s : σ) : (pure a : Act σ α).run s = (.ok a, s) := rfl

theorem run_bind (x : Act σ α) (f : α → Act σ β) (s : σ) :
    (x >>= f).run s = match x.run s with
      | (.ok a, s) => (f a).run s
      | (.error e, s) => (.error e, s) := rfl

/-- After a success the second action goes on from the state of the first. -/
theorem run_bind_ok {x : Act σ α} {s t : σ} {a : α} (f : α → Act σ β)
    (h : x.run s = (.ok a, t)) : (x >>= f).run s = (f a).run t := by
  rw [run_bind, h]

/-- After a failure the second action is not begun. -/
theorem run_bind_error {x : Act σ α} {s t : σ} {e : Failure} (f : α → Act σ β)
    (h : x.run s = (.error e, t)) : (x >>= f).run s = (.error e, t) := by
  rw [run_bind, h]

@[simp] theorem run_fail (e : Error) (s : σ) :
    (fail e : Act σ α).run s = (.error (.error e), s) := rfl

@[simp] theorem run_fault (f : Fault) (s : σ) :
    (fault f : Act σ α).run s = (.error (.fault f), s) := rfl

@[simp] theorem run_lift_ok (a : α) (s : σ) :
    (lift (.ok a) : Act σ α).run s = (.ok a, s) := rfl

@[simp] theorem run_lift_error (e : Error) (s : σ) :
    (lift (.error e) : Act σ α).run s = (.error (.error e), s) := rfl

@[simp] theorem run_gets (f : σ → α) (s : σ) : (gets f).run s = (.ok (f s), s) := rfl

@[simp] theorem run_modify (f : σ → σ) (s : σ) : (modify f).run s = (.ok (), f s) := rfl

theorem run_within (part : σ → τ) (put : τ → σ → σ) (x : Act τ α) (s : σ) :
    (within part put x).run s = ((x.run (part s)).1, put (x.run (part s)).2 s) := rfl

theorem run_attempt (x : Act σ α) (s : σ) :
    (attempt x).run s = match x.run s with
      | (.ok a, s) => (.ok (.ok a), s)
      | (.error (.error e), s) => (.ok (.error e), s)
      | (.error (.fault f), s) => (.error (.fault f), s) := rfl

theorem run_orCleanUp (x : Act σ α) (clean : Act σ Unit) (s : σ) :
    (orCleanUp x clean).run s = match x.run s with
      | (.ok a, s) => (.ok a, s)
      | (.error e, s) => (.error e, (clean.run s).2) := rfl

private theorem id_map_act (x : Act σ α) : id <$> x = x := by
  funext s
  show Act.bind x (fun a => pure (id a)) s = x s
  simp only [Act.bind, id]
  rcases x s with ⟨_ | _, _⟩ <;> rfl

private theorem bind_assoc_act {γ : Type} (x : Act σ α) (f : α → Act σ β) (g : β → Act σ γ) :
    x >>= f >>= g = x >>= fun a => f a >>= g := by
  funext s
  show Act.bind (Act.bind x f) g s = Act.bind x (fun a => Act.bind (f a) g) s
  simp only [Act.bind]
  rcases x s with ⟨_ | _, _⟩ <;> rfl

instance : LawfulMonad (Act σ) :=
  LawfulMonad.mk' (Act σ) id_map_act (fun _ _ => rfl) bind_assoc_act

end Act

end BoardGpio
