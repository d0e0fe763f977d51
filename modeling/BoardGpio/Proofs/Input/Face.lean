import BoardGpio.Proofs.Input.Current

/-!
# One input by itself

What decides about the edges of an input is its polarity, its last level, its trigger, its flag and
whether it has a callback of its own (`Face`). What is done about the input alone, in cycles and by
calls on it (`Turn`), tells how these change and what is heard of the input: the edges dispatched
for it, and the answers to those who take its flag (`Face.heardIn`). The face of an input follows
its port through calls (`InputPort.face?_after`) and accepted samples (`InputPort.face?_accept`).
-/

set_option autoImplicit false

namespace BoardGpio

open InputPort

/-- What decides about the edges of one input. -/
structure Face where
  active : ActiveLevel
  level : Bool
  trigger : Trigger := .none
  occurred : Option Edge := none
  /-- Whether it has a callback of its own. -/
  own : Bool := false

/-- What is done about one input. -/
inductive Turn where
  /-- A cycle reads its raw level, and a group callback is in place or not. -/
  | poll (high group : Bool)
  | setEdge (trigger : Trigger)
  | takeEdge
  | install
  | uninstall

/-- What is heard of one input. -/
inductive Heard where
  /-- An edge is dispatched to its own callback, or to the group's. -/
  | told (own : Bool) (edge : Edge)
  /-- Its flag is taken. -/
  | taken (edge : Option Edge)
  deriving DecidableEq, Repr

namespace Face

/-- The edge to a raw level, if it matches the trigger. -/
def edgeTo? (f : Face) (high : Bool) : Option Edge :=
  if f.level = f.active.normalize high then none
  else if f.trigger.accepts (.toward (f.active.normalize high)) then
    some (.toward (f.active.normalize high))
  else none

def after (f : Face) : Turn → Face
  | .poll high group =>
    { f with
      level := f.active.normalize high
      occurred := match f.edgeTo? high with
        | none => f.occurred
        | some e => if f.own || group then none else some e }
  | .setEdge trigger => { f with trigger := trigger }
  | .takeEdge => { f with occurred := none }
  | .install => { f with own := true }
  | .uninstall => { f with own := false }

def heard (f : Face) : Turn → List Heard
  | .poll high group =>
    match f.edgeTo? high with
    | none => []
    | some e => if f.own then [.told true e] else if group then [.told false e] else []
  | .takeEdge => [.taken f.occurred]
  | _ => []

def afterAll (f : Face) (turns : List Turn) : Face := turns.foldl after f

/-- What is heard of the input in the course of a run. -/
def heardIn : Face → List Turn → List Heard
  | _, [] => []
  | f, turn :: turns => f.heard turn ++ heardIn (f.after turn) turns

/-- A level that is the last one has nothing to tell. -/
theorem steady {f : Face} {high : Bool} (hsame : f.level = f.active.normalize high)
    (group : Bool) : f.heard (.poll high group) = [] ∧ f.after (.poll high group) = f := by
  have hnone : f.edgeTo? high = none := if_pos hsame
  rw [heard, after, hnone, ← hsame]
  exact ⟨rfl, rfl⟩

theorem afterAll_append (f : Face) (turns more : List Turn) :
    f.afterAll (turns ++ more) = (f.afterAll turns).afterAll more := List.foldl_append

theorem heardIn_append (f : Face) (turns more : List Turn) :
    f.heardIn (turns ++ more) = f.heardIn turns ++ (f.afterAll turns).heardIn more := by
  induction turns generalizing f with
  | nil => rfl
  | cons turn turns ih =>
    rw [List.cons_append, heardIn, heardIn, ih, List.append_assoc]
    rfl

end Face

variable {κ ε : Type}

def Input.face (i : Input κ) : Face where
  active := i.pin.active
  level := i.level
  trigger := i.trigger
  occurred := i.occurred
  own := i.callback.isSome

theorem Input.edgeTo?_face (i : Input κ) (high : Bool) :
    i.face.edgeTo? high = i.edgeTo? (i.pin.active.normalize high) := rfl

theorem Input.isSome_target? (i : Input κ) (group : Option (Installed κ)) :
    (i.target? group).isSome = (i.callback.isSome || group.isSome) := by
  unfold Input.target?
  cases i.callback <;> cases group <;> rfl

theorem Input.face_accept (i : Input κ) (group : Option (Installed κ)) (high : Bool) :
    (i.accept group (i.pin.active.normalize high)).face =
      i.face.after (.poll high group.isSome) := by
  unfold Input.accept Face.after
  simp only
  -- the polarity is the same on both sides, so the face sees the edge that the input sees
  rw [Input.edgeTo?_face]
  cases i.edgeTo? (i.pin.active.normalize high) with
  | none => rfl
  | some e =>
    simp only [Input.isSome_target?]
    rfl

def PendingCall.heard (c : PendingCall κ) : Heard :=
  match c.target with
  | .own _ => .told true c.edge
  | .group _ => .told false c.edge

/-- What is heard of one input when calls are made. -/
def heardOf (index : Nat) (made : List (PendingCall κ)) : List Heard :=
  (made.filter fun c => c.index == index).map PendingCall.heard

namespace InputPort

variable {p : InputPort κ} {index : Nat} {f : Face}

def face? (p : InputPort κ) (index : Nat) : Option Face := (p.inputs.map Input.face)[index]?

def PortCall.turns (index : Nat) : PortCall κ → List Turn
  | .setEdge j trigger => if j = index then [.setEdge trigger] else []
  | .takeEdge j => if j = index then [.takeEdge] else []
  | .callback (.install j _) => if j = index then [.install] else []
  | .callback (.uninstall j) => if j = index then [.uninstall] else []
  | .callback _ => []

/-- What is heard of one input when a call is made on the port. -/
def PortCall.heard (index : Nat) (call : PortCall κ) (p : InputPort κ) : List Heard :=
  match call, (call.perform.run p).1 with
  | .takeEdge j, .ok edge => if j = index then [.taken edge] else []
  | _, _ => []

theorem face?_eq_some_iff :
    p.face? index = some f ↔ ∃ i, p.inputs[index]? = some i ∧ i.face = f := by
  rw [face?, List.getElem?_map, Option.map_eq_some_iff]

/-! ## What calls do to a face -/

theorem face?_modify (p : InputPort κ) (j : Nat) (g : Input κ → Input κ) (index : Nat) :
    ({ p with inputs := p.inputs.modify j g } : InputPort κ).face? index =
      p.inputs[index]?.map fun i => if j = index then (g i).face else i.face := by
  rw [face?, List.getElem?_map, List.getElem?_modify]
  cases p.inputs[index]? with
  | none => rfl
  | some i =>
    by_cases hj : j = index
    · simp [hj]
    · simp [hj]

/-- A change of one input, where there is such an input, is a turn of that input and of no other. -/
theorem face?_change {j : Nat} {g : Input κ → Input κ} {turn : Turn}
    (hg : ∀ i, (g i).face = i.face.after turn) (hf : p.face? index = some f) {q : InputPort κ}
    (hsome : ∀ i, p.inputs[j]? = some i → q.inputs = p.inputs.modify j g)
    (hnone : p.inputs[j]? = none → q.inputs = p.inputs) :
    q.face? index = some (f.afterAll (if j = index then [turn] else [])) := by
  obtain ⟨i, hi, rfl⟩ := face?_eq_some_iff.mp hf
  cases hj : p.inputs[j]? with
  | none =>
    have hne : j ≠ index := by
      rintro rfl
      rw [hi] at hj
      cases hj
    rw [face?, hnone hj, if_neg hne]
    exact hf
  | some i' =>
    have hmodify := face?_modify p j g index
    rw [face?] at hmodify ⊢
    rw [hsome i' hj, hmodify, hi, Option.map_some]
    by_cases hji : j = index
    · rw [if_pos hji, if_pos hji, hg]
      rfl
    · rw [if_neg hji, if_neg hji]
      rfl

/-- A call on a port does to every face what it does about the input. -/
theorem face?_after (call : PortCall κ) (hf : p.face? index = some f) :
    (p.after call).face? index = some (f.afterAll (call.turns index)) := by
  cases call with
  | setEdge j trigger =>
    rw [after_setEdge]
    exact face?_change (g := fun i => { i with trigger := trigger }) (fun i => rfl) hf
      (fun i hi => by rw [hi]) fun hnone => by rw [hnone]
  | takeEdge j =>
    rw [after_takeEdge]
    exact face?_change (g := fun i => { i with occurred := none }) (fun i => rfl) hf
      (fun i hi => by rw [hi]) fun hnone => by rw [hnone]
  | callback call =>
    rw [after_callback, run_perform, run_place]
    cases call with
    | install j action =>
      exact face?_change (g := fun i => { i with callback := some ⟨p.installs, action⟩ })
        (fun i => rfl) hf (fun i hi => by simp only [hi]; rfl) fun hnone => by simp only [hnone]
    | uninstall j =>
      exact face?_change (g := fun i => { i with callback := none })
        (fun i => rfl) hf (fun i hi => by simp only [hi]; rfl) fun hnone => by simp only [hnone]
    | installGroup action => exact hf
    | uninstallGroup => exact hf

theorem heard_call (call : PortCall κ) (hf : p.face? index = some f) :
    call.heard index p = f.heardIn (call.turns index) := by
  cases call with
  | setEdge j trigger =>
    rw [PortCall.turns]
    split <;> rfl
  | takeEdge j =>
    obtain ⟨i, hi, rfl⟩ := face?_eq_some_iff.mp hf
    have hrun := run_takeEdge p j
    rw [PortCall.turns]
    unfold PortCall.heard
    by_cases hj : j = index
    · subst hj
      rw [hi] at hrun
      rw [show (PortCall.takeEdge j : PortCall κ).perform.run p = _ from hrun]
      simp only [if_true]
      rfl
    · rw [if_neg hj]
      split
      case h_1 j' edge hcall _ =>
        cases hcall
        exact if_neg hj
      case h_2 => rfl
  | callback call =>
    cases call with
    | install j action =>
      rw [PortCall.turns]
      split <;> rfl
    | uninstall j =>
      rw [PortCall.turns]
      split <;> rfl
    | installGroup action => rfl
    | uninstallGroup => rfl

/-! ## What a cycle does to a face -/

theorem face?_accept {levels : List Bool} {i : Input κ} {high : Bool}
    (hi : p.inputs[index]? = some i)
    (hlevel : levels[index]? = some (i.pin.active.normalize high)) :
    (p.accept levels).face? index = some (i.face.after (.poll high p.group.isSome)) := by
  rw [face?, InputPort.accept, List.getElem?_map, List.getElem?_zipWith, hi, hlevel]
  exact congrArg some (i.face_accept p.group high)

/-- Of the calls for a sample, those for one input are what is to be heard of it. -/
theorem heardOf_calls {levels : List Bool} {i : Input κ} {high : Bool}
    (hi : p.inputs[index]? = some i)
    (hlevel : levels[index]? = some (i.pin.active.normalize high)) :
    heardOf index (p.calls levels) = i.face.heard (.poll high p.group.isSome) := by
  -- the calls are the matches that have a target, and each input has one match at most
  have hmatch := filter_matchesFrom p.group 0 index p.inputs levels
  rw [Nat.zero_add, hi, hlevel] at hmatch
  rw [heardOf, InputPort.calls, callsFrom_eq, filter_callOf, hmatch, matchOf, Face.heard,
    Input.edgeTo?_face]
  cases i.edgeTo? (i.pin.active.normalize high) with
  | none => rfl
  | some e =>
    simp only
    cases htarget : i.target? p.group with
    | none =>
      have hnobody := i.isSome_target? p.group
      rw [htarget] at hnobody
      obtain ⟨hown, hgroup⟩ := Bool.or_eq_false_iff.mp hnobody.symm
      rw [show i.face.own = false from hown, hgroup]
      rfl
    | some target =>
      rcases Input.target?_cases htarget with ⟨c, hown, rfl⟩ | ⟨c, hnone, hgroup, rfl⟩
      · rw [show i.face.own = true from congrArg Option.isSome hown]
        rfl
      · rw [show i.face.own = false from congrArg Option.isSome hnone,
          show p.group.isSome = true from congrArg Option.isSome hgroup]
        rfl

end InputPort

end BoardGpio
