import BoardGpio.Proofs.Input.Trace

/-!
# What calls and samples do to the inputs of a port

The equations that accounting for edges rests on. A call on a port changes what it is for: taking an
edge empties one flag, and no other call touches a flag or a counter (`takeEdge_frame`,
`after_frame`). Accepting a sample does to every input what its own level asks for
(`flagOf_accept`), and its matches and calls are those of the inputs, one at most for each
(`filter_matchesFrom`, `calls_eq`).
-/

set_option autoImplicit false

namespace BoardGpio

namespace InputPort

variable {κ : Type}

/-- The value of an input's flag; there is none where there is no input. -/
def flagOf (p : InputPort κ) (index : Nat) : Option Edge := p.inputs[index]?.bind Input.occurred

theorem run_input (p : InputPort κ) (index : Nat) :
    (input index).run p = match p.inputs[index]? with
      | some i => (.ok i, p)
      | none => (.error (.error (.invalidPortIndex index p.size)), p) := rfl

theorem run_change (p : InputPort κ) (index : Nat) (f : Input κ → Input κ) :
    (change index f).run p = match p.inputs[index]? with
      | some _ => (.ok (), { p with inputs := p.inputs.modify index f })
      | none => (.error (.error (.invalidPortIndex index p.size)), p) := by
  rw [change, Act.run_bind, run_input]
  cases p.inputs[index]? <;> rfl

theorem run_takeEdge (p : InputPort κ) (index : Nat) :
    (takeEdge index).run p = match p.inputs[index]? with
      | some i => (.ok i.occurred,
          { p with inputs := p.inputs.modify index fun i => { i with occurred := none } })
      | none => (.error (.error (.invalidPortIndex index p.size)), p) := by
  rw [takeEdge, Act.run_bind, run_input]
  cases hi : p.inputs[index]? with
  | none => rfl
  | some i =>
    simp only
    rw [Act.run_bind, run_change, hi]
    rfl

/-- What a change of one input leaves alone can be read off the inputs as before. -/
theorem map_modify_inputs {ρ : Type} {v : Input κ → ρ} {f : Input κ → Input κ}
    (hf : ∀ i, v (f i) = v i) (inputs : List (Input κ)) (index : Nat) :
    (inputs.modify index f).map v = inputs.map v := by
  apply List.ext_getElem?
  intro j
  rw [List.getElem?_map, List.getElem?_map, List.getElem?_modify]
  cases inputs[j]? with
  | none => rfl
  | some i =>
    refine congrArg some ?_
    split
    · exact hf i
    · rfl

/-- So can what accepting a sample leaves alone. -/
theorem map_accept_inputs {ρ : Type} {v : Input κ → ρ} (p : InputPort κ) {levels : List Bool}
    (hv : ∀ i level, v (Input.accept i p.group level) = v i) (hsize : levels.length = p.size) :
    (p.accept levels).inputs.map v = p.inputs.map v := by
  apply List.ext_getElem?
  intro j
  rw [InputPort.accept, List.getElem?_map, List.getElem?_map, List.getElem?_zipWith]
  cases hi : p.inputs[j]? with
  | none => rfl
  | some i =>
    have hlt : j < levels.length := hsize ▸ (List.getElem?_eq_some_iff.mp hi).1
    rw [List.getElem?_eq_getElem hlt]
    exact congrArg some (hv i _)

/-- What a call does to the callbacks: it is refused, or it puts one callback in its place or takes
one away. A callback that is put in its place gets the next serial number. -/
theorem run_place (p : InputPort κ) (call : CallbackCall κ) :
    call.place.run p = match call with
      | .install index action => match p.inputs[index]? with
        | some _ => (.ok (),
            { p with
              inputs := p.inputs.modify index fun i =>
                { i with callback := some ⟨p.installs, action⟩ }
              installs := p.installs + 1 })
        | none => (.error (.error (.invalidPortIndex index p.size)), p)
      | .uninstall index => match p.inputs[index]? with
        | some _ => (.ok (),
            { p with inputs := p.inputs.modify index fun i => { i with callback := none } })
        | none => (.error (.error (.invalidPortIndex index p.size)), p)
      | .installGroup action => (.ok (),
          { p with group := some ⟨p.installs, action⟩, installs := p.installs + 1 })
      | .uninstallGroup => (.ok (), { p with group := none }) := by
  cases call with
  | install index action =>
    rw [CallbackCall.place, Act.run_bind, run_input]
    cases hi : p.inputs[index]? with
    | none => simp only [hi]
    | some i =>
      have hnumber : (number action).run p =
          (.ok ⟨p.installs, action⟩, { p with installs := p.installs + 1 }) := rfl
      simp only
      rw [Act.run_bind_ok _ hnumber, run_change]
      simp only [hi]
  | uninstall index => exact run_change p index _
  | installGroup action => rfl
  | uninstallGroup => rfl

/-- A call that is not refused ends with the decision about the monitor. -/
theorem run_perform (p : InputPort κ) (call : CallbackCall κ) :
    call.perform.run p = match call.place.run p with
      | (.ok _, q) => (.ok (), q.synced)
      | (.error e, q) => (.error e, q) := by
  rw [CallbackCall.perform, Act.run_bind]
  rcases call.place.run p with ⟨_ | _, _⟩ <;> rfl

theorem after_setEdge (p : InputPort κ) (index : Nat) (trigger : Trigger) :
    p.after (.setEdge index trigger) = match p.inputs[index]? with
      | some _ => { p with inputs := p.inputs.modify index fun i => { i with trigger := trigger } }
      | none => p := by
  rw [after, PortCall.perform, Act.run_bind, setEdge, run_change]
  cases p.inputs[index]? <;> rfl

theorem after_takeEdge (p : InputPort κ) (index : Nat) :
    p.after (.takeEdge index) = match p.inputs[index]? with
      | some _ => { p with inputs := p.inputs.modify index fun i => { i with occurred := none } }
      | none => p := by
  rw [after, PortCall.perform, run_takeEdge]
  cases p.inputs[index]? <;> rfl

theorem after_callback (p : InputPort κ) (call : CallbackCall κ) :
    p.after (.callback call) = (call.perform.run p).2 := by
  rw [after, PortCall.perform, Act.run_bind]
  rcases call.perform.run p with ⟨_ | _, _⟩ <;> rfl

/-- Two ports with the same counters, the same number of inputs and the same flags. -/
structure Alike (p q : InputPort κ) : Prop where
  stats : q.stats = p.stats
  size : q.size = p.size
  flags : ∀ index, q.flagOf index = p.flagOf index

theorem Alike.refl (p : InputPort κ) : p.Alike p := ⟨rfl, rfl, fun _ => rfl⟩

theorem flagOf_modify (p : InputPort κ) (index j : Nat) (f : Input κ → Input κ) :
    ({ p with inputs := p.inputs.modify index f } : InputPort κ).flagOf j =
      (p.inputs[j]?.map fun i => if index = j then f i else i).bind Input.occurred := by
  simp only [flagOf, List.getElem?_modify]
  by_cases h : index = j
  · simp [h]
  · simp [h]

theorem keeps_change {p : InputPort κ} (index : Nat) {f : Input κ → Input κ}
    (hf : ∀ i, (f i).occurred = i.occurred) : (change index f).Keeps p.Alike := by
  intro q hq
  rw [run_change]
  cases q.inputs[index]? with
  | none => exact hq
  | some _ =>
    refine ⟨hq.stats, ?_, fun j => ?_⟩
    · show (q.inputs.modify index f).length = p.size
      rw [List.length_modify]
      exact hq.size
    · rw [← hq.flags j, flagOf_modify, flagOf]
      cases q.inputs[j]? with
      | none => rfl
      | some i =>
        simp only [Option.map_some, Option.bind_some]
        split
        · exact hf i
        · rfl

/-- Putting a callback in its place or taking it away touches no flag and no counter. -/
theorem keeps_callbackCall {p : InputPort κ} (call : CallbackCall κ) :
    call.perform.Keeps p.Alike := by
  have hinput : ∀ index, (input index : Act (InputPort κ) (Input κ)).Leaves := by
    intro index q
    rw [run_input]
    cases q.inputs[index]? <;> rfl
  have hnumber : ∀ action : κ, (number action).Keeps p.Alike := fun _ q hq =>
    ⟨hq.stats, hq.size, hq.flags⟩
  have hsync : (sync : Act (InputPort κ) Unit).Keeps p.Alike :=
    Act.Keeps.modify fun q hq => ⟨hq.stats, hq.size, hq.flags⟩
  have hgroup : ∀ group : Option (Installed κ),
      (Act.modify fun q : InputPort κ => { q with group := group }).Keeps p.Alike := fun _ =>
    Act.Keeps.modify fun q hq => ⟨hq.stats, hq.size, hq.flags⟩
  refine Act.Keeps.bind ?_ fun _ => hsync
  cases call with
  | install index action =>
    exact (hinput index).keeps.bind fun _ => (hnumber action).bind fun callback =>
      keeps_change index fun _ => rfl
  | uninstall index => exact keeps_change index fun _ => rfl
  | installGroup action => exact (hnumber action).bind fun callback => hgroup (some callback)
  | uninstallGroup => exact hgroup none

/-- Only taking an edge touches a flag. -/
theorem after_frame (p : InputPort κ) {call : PortCall κ}
    (h : ∀ index, call ≠ .takeEdge index) : p.Alike (p.after call) ∧ call.events p = [] := by
  cases call with
  | setEdge index trigger =>
    have hset : (InputPort.setEdge index trigger).Keeps p.Alike := keeps_change index fun _ => rfl
    exact ⟨(hset.bind fun _ => Act.Keeps.pure none) p (Alike.refl p), rfl⟩
  | takeEdge index => exact absurd rfl (h index)
  | callback call =>
    have hcall := (keeps_callbackCall (p := p) call).bind fun _ =>
      Act.Keeps.pure (none : Option Edge)
    exact ⟨hcall p (Alike.refl p), rfl⟩

/-- Taking an edge empties the flag and tells what was in it; where there is no input nothing
happens. -/
theorem takeEdge_frame (p : InputPort κ) (index : Nat) :
    (p.after (.takeEdge index)).stats = p.stats ∧ (p.after (.takeEdge index)).size = p.size ∧
      (∀ j, (p.after (.takeEdge index)).flagOf j = if j = index then none else p.flagOf j) ∧
        (PortCall.takeEdge index).events p =
          if index < p.size then [.taken index (p.flagOf index)] else [] := by
  have hevents : ∀ {r : Except Failure (Option Edge)} {q : InputPort κ},
      (PortCall.takeEdge index : PortCall κ).perform.run p = (r, q) →
        (p.after (.takeEdge index) = q ∧ ∀ edge, r = .ok edge →
          (PortCall.takeEdge index).events p = [.taken index edge]) ∧
          ∀ e, r = .error e → (PortCall.takeEdge index).events p = [] := by
    intro r q hrun
    refine ⟨⟨congrArg Prod.snd hrun, fun edge hedge => ?_⟩, fun e he => ?_⟩
    · unfold PortCall.events
      rw [hrun, hedge]
    · unfold PortCall.events
      rw [hrun, he]
  have hrun : (PortCall.takeEdge index : PortCall κ).perform.run p = (takeEdge index).run p := rfl
  rw [run_takeEdge] at hrun
  cases hi : p.inputs[index]? with
  | none =>
    rw [hi] at hrun
    have hge : p.size ≤ index := List.getElem?_eq_none_iff.mp hi
    obtain ⟨⟨hafter, -⟩, hnothing⟩ := hevents hrun
    rw [hafter, hnothing _ rfl, if_neg (Nat.not_lt.mpr hge)]
    refine ⟨rfl, rfl, fun j => ?_, rfl⟩
    by_cases hj : j = index
    · subst hj
      simp [flagOf, hi]
    · rw [if_neg hj]
  | some i =>
    rw [hi] at hrun
    have hlt : index < p.size := (List.getElem?_eq_some_iff.mp hi).1
    obtain ⟨⟨hafter, htaken⟩, -⟩ := hevents hrun
    have hflag : p.flagOf index = i.occurred := by
      rw [flagOf, hi]
      rfl
    rw [hafter, htaken _ rfl, if_pos hlt, hflag]
    refine ⟨rfl, List.length_modify .., fun j => ?_, rfl⟩
    rw [flagOf_modify, flagOf]
    by_cases hj : j = index
    · subst hj
      simp [hi]
    · cases p.inputs[j]? <;> simp [hj, Ne.symm hj]

theorem size_after (p : InputPort κ) (call : PortCall κ) : (p.after call).size = p.size := by
  by_cases h : ∃ index, call = .takeEdge index
  · obtain ⟨index, rfl⟩ := h
    exact (takeEdge_frame p index).2.1
  · exact (after_frame p fun index hcall => h ⟨index, hcall⟩).1.size

theorem size_afterAll (p : InputPort κ) (calls : List (PortCall κ)) :
    (p.afterAll calls).size = p.size := by
  induction calls generalizing p with
  | nil => rfl
  | cons call calls ih => exact (ih (p.after call)).trans (size_after p call)

theorem size_accept (p : InputPort κ) {levels : List Bool} (hsize : levels.length = p.size) :
    (p.accept levels).size = p.size := by
  show (List.zipWith _ p.inputs levels).length = p.size
  rw [List.length_zipWith, hsize]
  exact Nat.min_self _

/-- No call on a port counts anything. -/
theorem stats_after (p : InputPort κ) (call : PortCall κ) : (p.after call).stats = p.stats := by
  by_cases htake : ∃ index, call = .takeEdge index
  · obtain ⟨index, rfl⟩ := htake
    exact (takeEdge_frame p index).1
  · exact (after_frame p fun index hcall => htake ⟨index, hcall⟩).1.stats

theorem stats_afterAll (p : InputPort κ) (calls : List (PortCall κ)) :
    (p.afterAll calls).stats = p.stats := by
  induction calls generalizing p with
  | nil => rfl
  | cons call calls ih => exact (ih (p.after call)).trans (stats_after p call)

theorem settings_after (p : InputPort κ) (call : PortCall κ) :
    (p.after call).settings = p.settings := by
  cases call with
  | setEdge j trigger =>
    rw [after_setEdge]
    cases p.inputs[j]? <;> rfl
  | takeEdge j =>
    rw [after_takeEdge]
    cases p.inputs[j]? <;> rfl
  | callback call =>
    rw [after_callback, run_perform, run_place]
    cases call with
    | install j action =>
      dsimp only
      cases p.inputs[j]? <;> rfl
    | uninstall j =>
      dsimp only
      cases p.inputs[j]? <;> rfl
    | installGroup action => rfl
    | uninstallGroup => rfl

/-! ## Accepting a sample -/

/-- The call that a match asks for. -/
def callOf? : Event κ → Option (PendingCall κ)
  | .matched index e (some target) => some ⟨index, e, target⟩
  | _ => none

/-- The match of one input and its level. -/
def matchOf (group : Option (Installed κ)) (index : Nat) :
    Option (Input κ) → Option Bool → List (Event κ)
  | some i, some level =>
    match i.edgeTo? level with
    | some e => [.matched index e (i.target? group)]
    | none => []
  | _, _ => []

theorem index_matchesFrom (group : Option (Installed κ)) (first : Nat) (inputs : List (Input κ))
    (levels : List Bool) : ∀ e ∈ matchesFrom group first inputs levels, first ≤ e.index := by
  induction inputs generalizing first levels with
  | nil => cases levels <;> simp [matchesFrom]
  | cons i inputs ih =>
    cases levels with
    | nil => simp [matchesFrom]
    | cons level levels =>
      intro e he
      have hrest : ∀ e ∈ matchesFrom group (first + 1) inputs levels, first ≤ e.index := by
        intro e he
        have := ih (first + 1) levels e he
        omega
      simp only [matchesFrom] at he
      split at he
      · rcases List.mem_cons.mp he with rfl | he
        · exact Nat.le_refl _
        · exact hrest e he
      · exact hrest e he

/-- The matches of a sample that are about one input are those of that input. -/
theorem filter_matchesFrom (group : Option (Installed κ)) (first j : Nat) (inputs : List (Input κ))
    (levels : List Bool) :
    (matchesFrom group first inputs levels).filter (fun e => e.index == first + j) =
      matchOf group (first + j) inputs[j]? levels[j]? := by
  induction inputs generalizing first j levels with
  | nil => cases levels <;> rfl
  | cons i inputs ih =>
    cases levels with
    | nil =>
      rw [List.getElem?_nil]
      cases (i :: inputs)[j]? <;> rfl
    | cons level levels =>
      cases j with
      | zero =>
        have hrest : (matchesFrom group (first + 1) inputs levels).filter
            (fun e => e.index == first + 0) = [] := by
          rw [List.filter_eq_nil_iff]
          intro e he
          have := index_matchesFrom group (first + 1) inputs levels e he
          simp only [beq_iff_eq]
          omega
        simp only [matchesFrom, matchOf, List.getElem?_cons_zero]
        cases i.edgeTo? level with
        | none => exact hrest
        | some e =>
          simp only
          rw [List.filter_cons, hrest]
          simp [Event.index]
      | succ j =>
        have hnext := ih (first + 1) j levels
        rw [show first + 1 + j = first + (j + 1) by omega] at hnext
        have hhead : (first == first + (j + 1)) = false := by simp
        simp only [matchesFrom, List.getElem?_cons_succ]
        split
        · rw [List.filter_cons]
          simp only [Event.index, hhead]
          exact hnext
        · exact hnext

/-- The calls for a sample are those its matches ask for. -/
theorem callsFrom_eq (group : Option (Installed κ)) (first : Nat) (inputs : List (Input κ))
    (levels : List Bool) :
    callsFrom group first inputs levels =
      (matchesFrom group first inputs levels).filterMap callOf? := by
  induction inputs generalizing first levels with
  | nil => cases levels <;> rfl
  | cons i inputs ih =>
    cases levels with
    | nil => rfl
    | cons level levels =>
      simp only [callsFrom, matchesFrom]
      cases i.edgeTo? level with
      | none => exact ih (first + 1) levels
      | some e =>
        cases i.target? group with
        | none => exact ih (first + 1) levels
        | some target =>
          rw [List.filterMap_cons]
          simp only [callOf?]
          rw [ih (first + 1) levels]

theorem filter_callOf (es : List (Event κ)) (j : Nat) :
    (es.filterMap callOf?).filter (fun c => c.index == j) =
      (es.filter fun e => e.index == j).filterMap callOf? := by
  induction es with
  | nil => rfl
  | cons e es ih =>
    have hindex : ∀ c, callOf? e = some c → c.index = e.index := by
      intro c hc
      unfold callOf? at hc
      split at hc
      · cases hc
        rfl
      · cases hc
    rw [List.filterMap_cons, List.filter_cons]
    cases hc : callOf? e with
    | none =>
      simp only
      rw [ih]
      split
      · rw [List.filterMap_cons, hc]
      · rfl
    | some c =>
      simp only
      rw [List.filter_cons, hindex c hc, ih]
      split
      · rw [List.filterMap_cons, hc]
      · rfl

/-- What accepting a sample does about one input: nothing, or it puts the edge into the flag, or it
empties the flag and asks for a call. -/
inductive Accepted (p : InputPort κ) (levels : List Bool) (j : Nat) : Prop where
  | unmatched (hmatches : (p.matchesOf levels).filter (fun e => e.index == j) = [])
      (hcalls : (p.calls levels).filter (fun c => c.index == j) = [])
      (hflag : (p.accept levels).flagOf j = p.flagOf j)
  | flagged (e : Edge)
      (hmatches : (p.matchesOf levels).filter (fun e => e.index == j) = [.matched j e none])
      (hcalls : (p.calls levels).filter (fun c => c.index == j) = [])
      (hflag : (p.accept levels).flagOf j = some e)
  | called (e : Edge) (target : Target κ) (hj : j < p.size)
      (hmatches : (p.matchesOf levels).filter (fun e => e.index == j) =
        [.matched j e (some target)])
      (hcalls : (p.calls levels).filter (fun c => c.index == j) = [⟨j, e, target⟩])
      (hflag : (p.accept levels).flagOf j = none)

theorem accepted (p : InputPort κ) (levels : List Bool) (hsize : levels.length = p.size) (j : Nat) :
    Accepted p levels j := by
  have hmatch : (p.matchesOf levels).filter (fun e => e.index == j) =
      matchOf p.group j p.inputs[j]? levels[j]? := by
    have := filter_matchesFrom p.group 0 j p.inputs levels
    simp only [Nat.zero_add] at this
    exact this
  have hcall : (p.calls levels).filter (fun c => c.index == j) =
      (matchOf p.group j p.inputs[j]? levels[j]?).filterMap callOf? := by
    rw [calls, callsFrom_eq, filter_callOf, ← hmatch]
    rfl
  have hflag : (p.accept levels).flagOf j =
      (match p.inputs[j]?, levels[j]? with
        | some i, some level => some (i.accept p.group level)
        | _, _ => none).bind Input.occurred := by
    rw [flagOf, accept, List.getElem?_zipWith]
    cases p.inputs[j]? <;> cases levels[j]? <;> rfl
  cases hi : p.inputs[j]? with
  | none =>
    rw [hi] at hmatch hcall hflag
    refine .unmatched hmatch hcall ?_
    rw [hflag, flagOf, hi]
  | some i =>
    have hj : j < p.size := (List.getElem?_eq_some_iff.mp hi).1
    obtain ⟨level, hl⟩ : ∃ level, levels[j]? = some level :=
      ⟨_, List.getElem?_eq_getElem (hsize ▸ hj)⟩
    rw [hi, hl] at hmatch hcall hflag
    simp only [matchOf, Input.accept, Option.bind_some] at hmatch hcall hflag
    cases he : i.edgeTo? level with
    | none =>
      rw [he] at hmatch hcall hflag
      refine .unmatched hmatch hcall ?_
      rw [hflag, flagOf, hi]
      rfl
    | some e =>
      rw [he] at hmatch hcall hflag
      cases ht : i.target? p.group with
      | none =>
        rw [ht] at hmatch hcall hflag
        exact .flagged e hmatch hcall hflag
      | some target =>
        rw [ht] at hmatch hcall hflag
        exact .called e target hj hmatch hcall hflag

end InputPort

end BoardGpio
