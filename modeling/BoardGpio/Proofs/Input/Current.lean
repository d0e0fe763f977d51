import BoardGpio.Proofs.Input.Calls

/-!
# When a collected callback is still the one to be told

Whether a call is still to be made is decided by serial numbers. No two callbacks that a port has in
place or still has to call share one (`Moment.Distinct`), whatever is put in its place or taken away
in the middle of a cycle. So the number decides what it should: the call is made exactly if the
callback that was collected is the one that an edge of the input would be told to now
(`Moment.Distinct.isCurrent_iff`).
-/

set_option autoImplicit false

namespace BoardGpio

open InputPort

variable {κ : Type}

/-- Whom an edge is told to: the input's own callback, or else the group's. -/
theorem Input.target?_cases {i : Input κ} {group : Option (Installed κ)} {target : Target κ}
    (h : i.target? group = some target) :
    (∃ c, i.callback = some c ∧ target = .own c) ∨
      ∃ c, i.callback = none ∧ group = some c ∧ target = .group c := by
  unfold Input.target? at h
  cases hown : i.callback with
  | some c =>
    rw [hown] at h
    injection h with h
    exact .inl ⟨c, rfl, h.symm⟩
  | none =>
    rw [hown] at h
    cases group with
    | none => cases h
    | some c =>
      injection h with h
      exact .inr ⟨c, rfl, rfl, h.symm⟩

namespace InputPort

/-- Whether a callback is in its place, as a group callback or as an input's own. -/
def InPlace (p : InputPort κ) (c : Installed κ) : Prop :=
  p.group = some c ∨ ∃ (index : Nat) (i : Input κ), p.inputs[index]? = some i ∧ i.callback = some c

/-- Whom an edge of an input is told to now. -/
def targetOf? (p : InputPort κ) (index : Nat) : Option (Target κ) :=
  p.inputs[index]?.bind fun i => i.target? p.group

theorem InPlace.of_target? {p : InputPort κ} {index : Nat} {i : Input κ}
    (hi : p.inputs[index]? = some i) {call : PendingCall κ}
    (ht : i.target? p.group = some call.target) : p.InPlace call.callback := by
  unfold PendingCall.callback
  rcases Input.target?_cases ht with ⟨c, hown, htarget⟩ | ⟨c, -, hgroup, htarget⟩
  · rw [htarget]
    exact .inr ⟨index, i, hi, hown⟩
  · rw [htarget]
    exact .inl hgroup

/-- Changing an input's callback brings in that callback at most. -/
theorem InPlace.of_modify {p : InputPort κ} {index : Nat} {f : Input κ → Input κ}
    {c : Installed κ}
    (h : ({ p with inputs := p.inputs.modify index f } : InputPort κ).InPlace c) :
    p.InPlace c ∨ ∃ i, (f i).callback = some c ∧ p.inputs[index]? = some i := by
  rcases h with hgroup | ⟨j, i, hi, hc⟩
  · exact .inl (.inl hgroup)
  · rw [List.getElem?_modify] at hi
    obtain ⟨i', hi', rfl⟩ := Option.map_eq_some_iff.mp hi
    by_cases hj : index = j
    · subst hj
      rw [if_pos rfl] at hc
      exact .inr ⟨i', hc, hi'⟩
    · rw [if_neg hj] at hc
      exact .inl (.inr ⟨j, i', hi', hc⟩)

theorem InPlace.of_modify_frame {p : InputPort κ} {index : Nat} {f : Input κ → Input κ}
    (hf : ∀ i, (f i).callback = i.callback) {c : Installed κ}
    (h : ({ p with inputs := p.inputs.modify index f } : InputPort κ).InPlace c) : p.InPlace c := by
  rcases h.of_modify with h | ⟨i, hc, hi⟩
  · exact h
  · rw [hf] at hc
    exact .inr ⟨index, i, hi, hc⟩

/-- Accepting a sample moves no callback. -/
theorem callback_accept {p : InputPort κ} {levels : List Bool} {j : Nat} {i : Input κ}
    (hi : (p.accept levels).inputs[j]? = some i) :
    ∃ i', p.inputs[j]? = some i' ∧ i.callback = i'.callback := by
  rw [accept, List.getElem?_zipWith] at hi
  cases hi' : p.inputs[j]? with
  | none =>
    rw [hi'] at hi
    cases hi
  | some i' =>
    rw [hi'] at hi
    cases hl : levels[j]? with
    | none =>
      rw [hl] at hi
      cases hi
    | some level =>
      rw [hl] at hi
      injection hi with hi
      exact ⟨i', rfl, hi ▸ (i'.accept_frame p.group level).2.1⟩

theorem InPlace.of_accept {p : InputPort κ} {levels : List Bool} {c : Installed κ}
    (h : (p.accept levels).InPlace c) : p.InPlace c := by
  rcases h with hgroup | ⟨j, i, hi, hc⟩
  · exact .inl hgroup
  · obtain ⟨i', hi', hsame⟩ := callback_accept hi
    exact .inr ⟨j, i', hi', hsame ▸ hc⟩

/-- Every call for a sample is told to whom an edge of its input is told. -/
theorem target_of_mem_callsFrom (group : Option (Installed κ)) (first : Nat)
    (inputs : List (Input κ)) (levels : List Bool) :
    ∀ call ∈ callsFrom group first inputs levels, ∃ (j : Nat) (i : Input κ),
      call.index = first + j ∧ inputs[j]? = some i ∧ i.target? group = some call.target := by
  induction inputs generalizing first levels with
  | nil => cases levels <;> simp [callsFrom]
  | cons i inputs ih =>
    cases levels with
    | nil => simp [callsFrom]
    | cons level levels =>
      intro call hcall
      have hrest : call ∈ callsFrom group (first + 1) inputs levels → ∃ (j : Nat) (i' : Input κ),
          call.index = first + j ∧ (i :: inputs)[j]? = some i' ∧
            i'.target? group = some call.target := by
        intro h
        obtain ⟨j, i', hindex, hi', ht⟩ := ih (first + 1) levels call h
        exact ⟨j + 1, i', by omega, hi', ht⟩
      simp only [callsFrom] at hcall
      split at hcall
      · rename_i e target _ ht
        rcases List.mem_cons.mp hcall with rfl | hcall
        · exact ⟨0, i, rfl, rfl, ht⟩
        · exact hrest hcall
      · exact hrest hcall

theorem target_of_mem_calls {p : InputPort κ} {levels : List Bool} {call : PendingCall κ}
    (h : call ∈ p.calls levels) :
    ∃ i, p.inputs[call.index]? = some i ∧ i.target? p.group = some call.target := by
  obtain ⟨j, i, hindex, hi, ht⟩ := target_of_mem_callsFrom p.group 0 p.inputs levels call h
  rw [Nat.zero_add] at hindex
  rw [hindex]
  exact ⟨i, hi, ht⟩

/-- The calls for a sample are told to callbacks that were in place. -/
theorem inPlace_of_mem_calls {p : InputPort κ} {levels : List Bool} {call : PendingCall κ}
    (h : call ∈ p.calls levels) : p.InPlace call.callback := by
  obtain ⟨i, hi, ht⟩ := target_of_mem_calls h
  exact .of_target? hi ht

/-- The callbacks for a sample are in their places when the sample has been accepted. -/
theorem isCurrent_of_mem_calls {p : InputPort κ} {levels : List Bool}
    (hsize : levels.length = p.size) {call : PendingCall κ} (hcall : call ∈ p.calls levels) :
    call.isCurrent (p.accept levels) = true := by
  obtain ⟨i, hi, htarget⟩ := target_of_mem_calls hcall
  have hlt : call.index < levels.length := hsize ▸ (List.getElem?_eq_some_iff.mp hi).1
  have haccept : (p.accept levels).inputs[call.index]? =
      some (i.accept p.group levels[call.index]) := by
    rw [InputPort.accept, List.getElem?_zipWith, hi, List.getElem?_eq_getElem hlt]
  have hcallback := (i.accept_frame p.group levels[call.index]).2.1
  unfold PendingCall.isCurrent
  rw [haccept]
  rcases Input.target?_cases htarget with ⟨c, hown, hc⟩ | ⟨c, hnone, hgroup, hc⟩
  · simp [hc, hcallback, hown]
  · rw [hc]
    show ((i.accept p.group levels[call.index]).callback.isNone &&
      p.group.any fun now => now.serial == c.serial) = true
    rw [hcallback, hnone, hgroup]
    simp

end InputPort

namespace Moment

variable {m m' : Moment κ}

/-- The callbacks that the port has in place or still has to call. -/
def Knows (m : Moment κ) (c : Installed κ) : Prop :=
  m.port.InPlace c ∨ ∃ call ∈ m.pending, call.callback = c

/-- A serial number tells a callback from all others, and the next one is new. -/
structure Distinct (m : Moment κ) : Prop where
  below : ∀ c, m.Knows c → c.serial < m.port.installs
  unique : ∀ c c', m.Knows c → m.Knows c' → c.serial = c'.serial → c = c'

/-- Knowing no more callbacks than before. -/
theorem Distinct.mono (hd : m.Distinct) (hinstalls : m'.port.installs = m.port.installs)
    (hknows : ∀ c, m'.Knows c → m.Knows c) : m'.Distinct := by
  refine ⟨fun c hc => ?_, fun c c' hc hc' => hd.unique c c' (hknows c hc) (hknows c' hc')⟩
  rw [hinstalls]
  exact hd.below c (hknows c hc)

/-- Knowing one more, which got the next serial number. -/
theorem Distinct.fresh (hd : m.Distinct) (new : Installed κ)
    (hnew : new.serial = m.port.installs) (hinstalls : m'.port.installs = m.port.installs + 1)
    (hknows : ∀ c, m'.Knows c → m.Knows c ∨ c = new) : m'.Distinct := by
  refine ⟨fun c hc => ?_, fun c c' hc hc' hserial => ?_⟩
  · rw [hinstalls]
    rcases hknows c hc with h | rfl
    · have := hd.below c h
      omega
    · omega
  · rcases hknows c hc with h | rfl
    · rcases hknows c' hc' with h' | rfl
      · exact hd.unique c c' h h' hserial
      · have := hd.below c h
        omega
    · rcases hknows c' hc' with h' | rfl
      · have := hd.below c' h'
        omega
      · rfl

/-- Putting a callback in its place brings in that one, with the next serial number. -/
theorem Distinct.callbackCall (hd : m.Distinct) (call : CallbackCall κ) :
    Distinct { m with port := (call.perform.run m.port).2 } := by
  -- Deciding about the monitor changes no callback, so what `place` does is all there is.
  suffices h : Distinct { m with port := (call.place.run m.port).2 } by
    rw [run_perform]
    rcases hrun : call.place.run m.port with ⟨e | _, q⟩
    · rw [hrun] at h
      exact h
    · rw [hrun] at h
      exact h.mono rfl fun c hc => hc
  rw [run_place]
  cases call with
  | install index action =>
    dsimp only
    cases m.port.inputs[index]? with
    | none => exact hd
    | some i =>
      refine hd.fresh ⟨m.port.installs, action⟩ rfl rfl fun c hc => ?_
      rcases hc with hplace | hpending
      · rcases InPlace.of_modify (p := { m.port with installs := m.port.installs + 1 }) hplace with
          hold | ⟨i', hc, -⟩
        · exact .inl (.inl hold)
        · injection hc with hc
          exact .inr hc.symm
      · exact .inl (.inr hpending)
  | uninstall index =>
    dsimp only
    cases m.port.inputs[index]? with
    | none => exact hd
    | some i =>
      refine hd.mono rfl fun c hc => ?_
      rcases hc with hplace | hpending
      · rcases hplace.of_modify with hold | ⟨i', hc, -⟩
        · exact .inl hold
        · cases hc
      · exact .inr hpending
  | installGroup action =>
    refine hd.fresh ⟨m.port.installs, action⟩ rfl rfl fun c hc => ?_
    rcases hc with (hgroup | hown) | hpending
    · injection hgroup with hgroup
      exact .inr hgroup.symm
    · exact .inl (.inl (.inr hown))
    · exact .inl (.inr hpending)
  | uninstallGroup =>
    refine hd.mono rfl fun c hc => ?_
    rcases hc with (hgroup | hown) | hpending
    · cases hgroup
    · exact .inl (.inr hown)
    · exact .inr hpending

theorem Distinct.modify (hd : m.Distinct) (index : Nat) {f : Input κ → Input κ}
    (hf : ∀ i, (f i).callback = i.callback) :
    Distinct { m with port := match m.port.inputs[index]? with
      | some _ => { m.port with inputs := m.port.inputs.modify index f }
      | none => m.port } := by
  cases m.port.inputs[index]? with
  | none => exact hd
  | some i =>
    refine hd.mono rfl fun c hc => ?_
    rcases hc with hplace | hpending
    · exact .inl (hplace.of_modify_frame hf)
    · exact .inr hpending

theorem Distinct.after (hd : m.Distinct) (call : PortCall κ) :
    Distinct { m with port := m.port.after call } := by
  cases call with
  | setEdge index trigger =>
    rw [after_setEdge]
    exact hd.modify index fun i => rfl
  | takeEdge index =>
    rw [after_takeEdge]
    exact hd.modify index fun i => rfl
  | callback call =>
    rw [after_callback]
    exact hd.callbackCall call

/-- Every step keeps serial numbers apart. -/
theorem Step.distinct {es : List (Event κ)} (h : m.Step es m') (hd : m.Distinct) :
    m'.Distinct := by
  cases h with
  | call m call => exact hd.after call
  | sample p => exact hd.mono rfl fun c hc => hc
  | accept p levels hsize =>
    refine hd.mono rfl fun c hc => ?_
    rcases hc with hplace | ⟨call, hcall, rfl⟩
    · exact .inl hplace.of_accept
    · exact .inl (inPlace_of_mem_calls hcall)
  | enter p c rest active hcurrent =>
    refine hd.mono rfl fun c' hc' => ?_
    rcases hc' with hplace | ⟨call, hcall, rfl⟩
    · exact .inl hplace
    · exact .inr ⟨call, List.mem_cons_of_mem _ hcall, rfl⟩
  | leave p c rest failed => exact hd.mono rfl fun c' hc' => hc'
  | skip p c rest hgone =>
    refine hd.mono rfl fun c' hc' => ?_
    rcases hc' with hplace | ⟨call, hcall, rfl⟩
    · exact .inl (InPlace.of_modify_frame (f := fun i => { i with occurred := some c.edge })
        (fun i => rfl) hplace)
    · exact .inr ⟨call, List.mem_cons_of_mem _ hcall, rfl⟩
  | report m throttle => exact hd.mono rfl fun c hc => hc

/-- Whether a waiting call is made is decided by the callbacks themselves. -/
theorem Distinct.isCurrent_iff (hd : m.Distinct) {call : PendingCall κ} (hcall : call ∈ m.pending) :
    call.isCurrent m.port = true ↔ m.port.targetOf? call.index = some call.target := by
  -- the program compares serial numbers, which tell known callbacks apart
  have hknown : m.Knows call.callback := .inr ⟨call, hcall, rfl⟩
  obtain ⟨index, e, target⟩ := call
  unfold PendingCall.isCurrent InputPort.targetOf?
  cases hi : m.port.inputs[index]? with
  | none => simp
  | some i =>
    have hown : ∀ c, i.callback = some c → m.Knows c := fun c hc => .inl (.inr ⟨index, i, hi, hc⟩)
    have hgroup : ∀ c, m.port.group = some c → m.Knows c := fun c hc => .inl (.inl hc)
    cases target with
    | own callback =>
      cases hc : i.callback with
      | none =>
        cases m.port.group <;> simp [hc, Input.target?]
      | some now =>
        have heq : now.serial = callback.serial ↔ now = callback :=
          ⟨hd.unique now callback (hown now hc) hknown, fun h => h ▸ rfl⟩
        simp [hc, Input.target?, heq]
    | group callback =>
      cases hc : i.callback with
      | some now => simp [hc, Input.target?]
      | none =>
        cases hg : m.port.group with
        | none => simp [hc, Input.target?]
        | some now =>
          have heq : now.serial = callback.serial ↔ now = callback :=
            ⟨hd.unique now callback (hgroup now hg) hknown, fun h => h ▸ rfl⟩
          simp [hc, Input.target?, heq]

end Moment

theorem Trace.distinct {m m' : Moment κ} {es : List (Event κ)} (h : Trace m es m')
    (hd : m.Distinct) : m'.Distinct := by
  induction h with
  | none => exact hd
  | step _ hstep ih => exact hstep.distinct ih

end BoardGpio
