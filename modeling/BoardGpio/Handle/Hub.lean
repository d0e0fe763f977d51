import BoardGpio.Backend.Rig
import BoardGpio.Handle.Release

/-!
# Shared handles

A hub keeps the backends of a program, the handles opened on them, and for every handle the number
of references to it. Only the last reference to go puts pins back. One handle may be the current
one: while a reference to it is left, opening a shared handle joins it, whatever was asked for
(`joinable?_eq_some_iff`). A change of one handle's count leaves all others (`refs_countRefs`).
-/

set_option autoImplicit false

namespace BoardGpio

/-- A handle that references are counted for. -/
structure Shared where
  handle : Handle
  /-- The backend it drives. -/
  rig : Nat
  /-- Whether its calls go past the rig to the backend itself. -/
  direct : Bool
  refs : Nat

/-- Backends and the handles on them. -/
structure Hub (β : Type) where
  rigs : Array (Rig β) := #[]
  handles : Array Shared := #[]
  /-- The handle that was last opened to be shared. -/
  current : Option Nat := none
  log : List Notice := []

/-- What a handle is made of; what is left out would have to be found out from the board. -/
structure HandlePlan where
  rig : Option Nat
  direct : Bool := false
  table : Option PinTable
  settings : HandleSettings := {}

/-- How the last reference goes. -/
inductive Farewell where
  /-- Its owner asks for the outcome. -/
  | closed
  /-- Nobody asks; a failure is told to the log. -/
  | dropped
  deriving DecidableEq, Repr

namespace Hub

variable {β α : Type}

def note (n : Notice) : Act (Hub β) Unit :=
  Act.modify fun s => { s with log := s.log ++ [n] }

/-- Puts a backend into the hub. -/
def addRig (device : β) : Act (Hub β) Nat := fun s =>
  (.ok s.rigs.size, { s with rigs := s.rigs.push { device := device } })

def onRig (i : Nat) (x : Act (Rig β) α) : Act (Hub β) α := fun s =>
  match s.rigs[i]? with
  | none => (.error (.fault (.noBackend i)), s)
  | some rig =>
    let (r, rig) := x rig
    (r, { s with rigs := s.rigs.setIfInBounds i rig })

/-- Does something with a handle and the backend it drives. -/
def onHandle (h : Nat) (x : Act (Gpio (Line β)) α) : Act (Hub β) α := fun s =>
  match s.handles[h]? with
  | none => (.error (.fault (.noHandle h)), s)
  | some shared =>
    match s.rigs[shared.rig]? with
    | none => (.error (.fault (.noBackend shared.rig)), s)
    | some rig =>
      let (r, g) := x { handle := shared.handle, backend := ⟨rig, shared.direct⟩ }
      (r, { s with
        rigs := s.rigs.setIfInBounds shared.rig g.backend.rig
        handles := s.handles.setIfInBounds h { shared with handle := g.handle }
        log := s.log ++ g.log })

/-- The number of references to a handle. -/
def refs (s : Hub β) (h : Nat) : Nat :=
  (s.handles[h]?.map Shared.refs).getD 0

/-- Whether a reference to a handle is left. -/
def isLive (s : Hub β) (h : Nat) : Bool := 0 < s.refs h

/-- The handle that opening a shared handle joins. -/
def joinable? (s : Hub β) : Option Nat := s.current.filter s.isLive

/-- Whether a handle with a reference left drives this backend. -/
def inUse (s : Hub β) (rig : Nat) : Bool :=
  s.handles.any fun h => h.rig == rig && 0 < h.refs

/-- Changes the number of references to a handle. -/
def countRefs (h : Nat) (f : Nat → Nat) : Act (Hub β) Unit :=
  Act.modify fun s =>
    { s with handles := s.handles.modify h fun shared => { shared with refs := f shared.refs } }

/-- One more reference to a handle. -/
def retain (h : Nat) : Act (Hub β) Unit := countRefs h (· + 1)

/-- What a change of the number of references does to the numbers of all handles. -/
theorem refs_countRefs (s : Hub β) (h k : Nat) (f : Nat → Nat) :
    ((countRefs h f).run s).2.refs k =
      if h = k ∧ k < s.handles.size then f (s.refs k) else s.refs k := by
  simp only [countRefs, Act.run_modify, refs, Array.getElem?_modify]
  by_cases hk : h = k
  · subst hk
    by_cases hs : h < s.handles.size <;> simp [hs]
  · simp [hk]

/-- The handle to be joined is the current one, and it is live. -/
theorem joinable?_eq_some_iff {s : Hub β} {h : Nat} :
    s.joinable? = some h ↔ s.current = some h ∧ s.isLive h = true := by
  simp [joinable?, Option.filter_eq_some_iff]

variable [Backend β]

/-- Opens a handle of its own. -/
def build (plan : HandlePlan) : Act (Hub β) Nat := fun s =>
  match plan.rig, plan.table with
  | some i, some table =>
    match s.rigs[i]? with
    | none => (.error (.fault (.noBackend i)), s)
    | some rig =>
      let backend := Backend.name rig
      match Handle.build backend (Backend.pinCount rig) table plan.settings with
      | .error e => (.error (.error e), s)
      | .ok handle =>
        let shared : Shared := { handle := handle, rig := i, direct := plan.direct, refs := 1 }
        let notice : Notice := .opened table.name backend handle.numbering handle.size
        (.ok s.handles.size,
          { s with handles := s.handles.push shared, log := s.log ++ [notice] })
  | _, _ => (.error (.error (.unsupportedBoard (.noRevision ""))), s)

/-- Joins the current handle while it is live. Otherwise opens a handle and makes it the current
one; a handle that could not be opened changes nothing. -/
def openShared (plan : HandlePlan) : Act (Hub β) Nat := do
  match (← Act.gets joinable?) with
  | some h =>
    retain h
    note (.joined (← Act.gets fun s => s.refs h))
    pure h
  | none =>
    let h ← build plan
    Act.modify fun s => { s with current := some h }
    pure h

/-- What the last reference does to the pins. -/
def farewell : Farewell → Act (Gpio (Line β)) Unit
  | .closed => Gpio.release
  | .dropped => Gpio.abandon

/-- Gives up a reference to a handle. The last one puts the pins back. -/
def letGo (h : Nat) (how : Farewell) : Act (Hub β) Unit := do
  countRefs h (· - 1)
  if (← Act.gets fun s => s.isLive h) then pure ()
  else onHandle h (farewell how)

end Hub

end BoardGpio
