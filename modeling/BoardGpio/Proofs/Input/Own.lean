import BoardGpio.Proofs.Input.Current
import BoardGpio.Proofs.Input.Sampling

/-!
# An input with a callback of its own

As long as nobody replaces it, an input's own callback is the only one that is told of the input's
edges, and it is told of no others (`Own`). Calls that leave it in its place keep that true, and so
does everything in a cycle. What a call does to the pin, the trigger and the last level of an input
is what it says it does (`Shows.after`): setting the trigger sets it, and no other call touches any
of them.
-/

set_option autoImplicit false

namespace BoardGpio

open InputPort

variable {κ ε : Type}

namespace InputPort

/-- Whether a call leaves an input's own callback in its place. -/
def PortCall.LeavesOwn (index : Nat) : PortCall κ → Prop
  | .callback (.install j _) => j ≠ index
  | .callback (.uninstall j) => j ≠ index
  | _ => True

/-- The trigger of an input after a call. -/
def PortCall.triggerAt (index : Nat) (t : Trigger) : PortCall κ → Trigger
  | .setEdge j t' => if j = index then t' else t
  | _ => t

/-- The pin of an input with its chip pin, the trigger and the last level. -/
def Shows (p : InputPort κ) (index : Nat) (pin : InputPin) (mcu : Nat) (t : Trigger)
    (level : Bool) : Prop :=
  ∃ i, p.inputs[index]? = some i ∧ i.pin = pin ∧ i.mcu = mcu ∧ i.trigger = t ∧ i.level = level

/-- A callback that is in its place at one input and nowhere else. -/
structure Own (p : InputPort κ) (index : Nat) (c : Installed κ) : Prop where
  placed : ∃ i, p.inputs[index]? = some i ∧ i.callback = some c
  sole : ∀ (j : Nat) (i : Input κ) (c' : Installed κ), p.inputs[j]? = some i →
    i.callback = some c' → c'.serial = c.serial → j = index
  group : ∀ c', p.group = some c' → c'.serial ≠ c.serial
  below : c.serial < p.installs

variable {p : InputPort κ} {index : Nat} {pin : InputPin} {mcu : Nat} {t : Trigger} {level : Bool}
  {c : Installed κ}

/-- Changing one input changes what it shows, and no other. -/
theorem Shows.modify (h : p.Shows index pin mcu t level) (j : Nat) {f : Input κ → Input κ}
    {t' : Trigger} (hkeep : ∀ i, (f i).pin = i.pin ∧ (f i).mcu = i.mcu ∧ (f i).level = i.level)
    (ht : ∀ i, i.trigger = t → (if j = index then (f i).trigger else i.trigger) = t') :
    Shows { p with inputs := p.inputs.modify j f } index pin mcu t' level := by
  obtain ⟨i, hi, hpin, hmcu, htrigger, hlevel⟩ := h
  have ht := ht i htrigger
  obtain ⟨hkeep₁, hkeep₂, hkeep₃⟩ := hkeep i
  refine ⟨if j = index then f i else i, ?_, ?_, ?_, ?_, ?_⟩
  · rw [List.getElem?_modify, hi]
    rfl
  · split
    · rw [hkeep₁, hpin]
    · exact hpin
  · split
    · rw [hkeep₂, hmcu]
    · exact hmcu
  · split
    · rename_i hj
      rw [if_pos hj] at ht
      exact ht
    · rename_i hj
      rw [if_neg hj] at ht
      exact ht
  · split
    · rw [hkeep₃, hlevel]
    · exact hlevel

theorem Shows.modify_frame (h : p.Shows index pin mcu t level) (j : Nat) {f : Input κ → Input κ}
    (hkeep : ∀ i, (f i).pin = i.pin ∧ (f i).mcu = i.mcu ∧ (f i).level = i.level)
    (htrigger : ∀ i, (f i).trigger = i.trigger) :
    Shows { p with inputs := p.inputs.modify j f } index pin mcu t level := by
  refine h.modify j hkeep fun i hi => ?_
  split
  · rw [htrigger, hi]
  · exact hi

/-- After a call an input shows what it did, but for the trigger that the call may have set. -/
theorem Shows.after (h : p.Shows index pin mcu t level) (call : PortCall κ) :
    (p.after call).Shows index pin mcu (call.triggerAt index t) level := by
  cases call with
  | setEdge j t' =>
    rw [after_setEdge]
    cases hj : p.inputs[j]? with
    | none =>
      have hne : j ≠ index := by
        rintro rfl
        obtain ⟨i, hi, -⟩ := h
        rw [hj] at hi
        cases hi
      rw [PortCall.triggerAt, if_neg hne]
      exact h
    | some _ =>
      refine h.modify j (fun i => ⟨rfl, rfl, rfl⟩) fun i hi => ?_
      rw [PortCall.triggerAt]
      split
      · rfl
      · exact hi
  | takeEdge j =>
    rw [after_takeEdge]
    cases p.inputs[j]? with
    | none => exact h
    | some _ => exact h.modify_frame j (fun i => ⟨rfl, rfl, rfl⟩) fun i => rfl
  | callback call =>
    rw [after_callback, run_perform, run_place]
    cases call with
    | install j action =>
      dsimp only
      cases p.inputs[j]? with
      | none => exact h
      | some _ => exact h.modify_frame j (fun i => ⟨rfl, rfl, rfl⟩) fun i => rfl
    | uninstall j =>
      dsimp only
      cases p.inputs[j]? with
      | none => exact h
      | some _ => exact h.modify_frame j (fun i => ⟨rfl, rfl, rfl⟩) fun i => rfl
    | installGroup action => exact h
    | uninstallGroup => exact h

theorem Shows.afterAll (h : p.Shows index pin mcu t level) (calls : List (PortCall κ)) :
    (p.afterAll calls).Shows index pin mcu (calls.foldl (PortCall.triggerAt index) t) level := by
  induction calls generalizing p t with
  | nil => exact h
  | cons call calls ih => exact ih (h.after call)

theorem Shows.accept (h : p.Shows index pin mcu t level) {levels : List Bool} {new : Bool}
    (hnew : levels[index]? = some new) : (p.accept levels).Shows index pin mcu t new := by
  obtain ⟨i, hi, hpin, hmcu, htrigger, -⟩ := h
  obtain ⟨hframe, -, hframe', hframe''⟩ := i.accept_frame p.group new
  refine ⟨i.accept p.group new, ?_, hframe'.trans hpin, hframe''.trans hmcu, hframe.trans htrigger,
    i.level_accept _ _⟩
  rw [InputPort.accept, List.getElem?_zipWith, hi, hnew]

/-- Changing one input in a way that puts no callback with this serial number in its place. -/
theorem Own.modify (h : p.Own index c) (j : Nat) {f : Input κ → Input κ}
    (hf : (∀ i, (f i).callback = i.callback) ∨
      j ≠ index ∧ ∀ i c', (f i).callback = some c' → c'.serial ≠ c.serial) :
    Own { p with inputs := p.inputs.modify j f } index c := by
  obtain ⟨i, hi, hown⟩ := h.placed
  refine ⟨⟨if j = index then f i else i, ?_, ?_⟩, fun k i' c' hk hc hserial => ?_, h.group, h.below⟩
  · rw [List.getElem?_modify, hi]
    rfl
  · split
    · rename_i hj
      rcases hf with hf | ⟨hne, -⟩
      · rw [hf, hown]
      · exact absurd hj hne
    · exact hown
  · -- an input with the callback after the change had it before
    rw [List.getElem?_modify] at hk
    obtain ⟨i'', hi'', rfl⟩ := Option.map_eq_some_iff.mp hk
    by_cases hj : j = k
    · rw [if_pos hj] at hc
      rcases hf with hf | ⟨-, hf⟩
      · rw [hf] at hc
        exact h.sole k i'' c' hi'' hc hserial
      · exact absurd hserial (hf i'' c' hc)
    · rw [if_neg hj] at hc
      exact h.sole k i'' c' hi'' hc hserial

/-- A call that leaves the callback in its place. -/
theorem Own.after (h : p.Own index c) {call : PortCall κ} (hcall : call.LeavesOwn index) :
    (p.after call).Own index c := by
  have hbelow := h.below
  cases call with
  | setEdge j t =>
    rw [after_setEdge]
    cases p.inputs[j]? with
    | none => exact h
    | some _ => exact h.modify j (.inl fun i => rfl)
  | takeEdge j =>
    rw [after_takeEdge]
    cases p.inputs[j]? with
    | none => exact h
    | some _ => exact h.modify j (.inl fun i => rfl)
  | callback call =>
    rw [after_callback, run_perform, run_place]
    cases call with
    | install j action =>
      dsimp only
      cases p.inputs[j]? with
      | none => exact h
      | some _ =>
        -- whatever is installed elsewhere gets a later serial number
        have hfresh : ∀ (i : Input κ) (c' : Installed κ),
            ({ i with callback := some ⟨p.installs, action⟩ } : Input κ).callback = some c' →
              c'.serial ≠ c.serial := by
          intro i c' hc
          injection hc with hc
          rw [← hc]
          exact Nat.ne_of_gt hbelow
        have hplaced := h.modify j (.inr ⟨hcall, hfresh⟩)
        exact ⟨hplaced.placed, hplaced.sole, hplaced.group, Nat.lt_succ_of_lt hbelow⟩
    | uninstall j =>
      dsimp only
      cases p.inputs[j]? with
      | none => exact h
      | some _ =>
        have hplaced := h.modify j (f := fun i => { i with callback := none })
          (.inr ⟨hcall, fun i c' hc => by cases hc⟩)
        exact ⟨hplaced.placed, hplaced.sole, hplaced.group, hplaced.below⟩
    | installGroup action =>
      refine ⟨h.placed, h.sole, fun c' hc => ?_, Nat.lt_succ_of_lt hbelow⟩
      injection hc with hc
      rw [← hc]
      exact Nat.ne_of_gt hbelow
    | uninstallGroup => exact ⟨h.placed, h.sole, (fun c' hc => nomatch hc), hbelow⟩

theorem Own.accept (h : p.Own index c) {levels : List Bool} (hsize : levels.length = p.size) :
    (p.accept levels).Own index c := by
  obtain ⟨i, hi, hown⟩ := h.placed
  have hlt : index < levels.length := hsize ▸ (List.getElem?_eq_some_iff.mp hi).1
  refine ⟨⟨i.accept p.group levels[index], ?_, ?_⟩, fun j i' c' hj hc hserial => ?_, h.group,
    h.below⟩
  · rw [InputPort.accept, List.getElem?_zipWith, hi, List.getElem?_eq_getElem hlt]
  · rw [(i.accept_frame p.group _).2.1, hown]
  · obtain ⟨i'', hi'', hsame⟩ := callback_accept hj
    exact h.sole j i'' c' hi'' (hsame ▸ hc) hserial

/-- A callback that has just been put in its place is there and nowhere else. -/
theorem Own.install (hd : Moment.Distinct (⟨p, [], none⟩ : Moment κ)) (hindex : index < p.size)
    (action : κ) :
    (p.after (.callback (.install index action))).Own index ⟨p.installs, action⟩ := by
  obtain ⟨i, hi⟩ : ∃ i, p.inputs[index]? = some i := ⟨_, List.getElem?_eq_getElem hindex⟩
  have hold : ∀ c', p.InPlace c' → c'.serial ≠ p.installs := fun c' hc =>
    Nat.ne_of_lt (hd.below c' (.inl hc))
  rw [after_callback, run_perform, run_place]
  simp only [hi]
  refine ⟨⟨{ i with callback := some ⟨p.installs, action⟩ }, ?_, rfl⟩,
    fun j i' c' hj hc hserial => ?_, fun c' hc => hold c' (.inl hc), Nat.lt_succ_self _⟩
  · show (p.inputs.modify index _)[index]? = _
    rw [List.getElem?_modify, hi]
    simp
  · have hj : (p.inputs.modify index fun i =>
        { i with callback := some ⟨p.installs, action⟩ })[j]? = some i' := hj
    rw [List.getElem?_modify] at hj
    obtain ⟨i'', hi'', rfl⟩ := Option.map_eq_some_iff.mp hj
    by_cases hne : index = j
    · exact hne.symm
    · rw [if_neg hne] at hc
      exact absurd hserial (hold c' (.inr ⟨j, i'', hi'', hc⟩))

/-- The calls for a sample that are told to the callback are those for its own input. -/
theorem Own.of_mem_calls (h : p.Own index c) {levels : List Bool} {call : PendingCall κ}
    (hcall : call ∈ p.calls levels) :
    (call.callback.serial = c.serial ↔ call.index = index) ∧
      (call.index = index → call.target = .own c) := by
  obtain ⟨i, hi, ht⟩ := target_of_mem_calls hcall
  obtain ⟨i₀, hi₀, hown⟩ := h.placed
  have htarget : call.index = index → call.target = .own c := by
    intro hindex
    rw [hindex, hi₀] at hi
    injection hi with hi
    rcases Input.target?_cases ht with ⟨c', hc', htarget⟩ | ⟨c', hnone, -, -⟩
    · rw [← hi, hown] at hc'
      injection hc' with hc'
      rw [htarget, hc']
    · rw [← hi, hown] at hnone
      cases hnone
  refine ⟨⟨fun hserial => ?_, fun hindex => ?_⟩, htarget⟩
  · unfold PendingCall.callback at hserial
    rcases Input.target?_cases ht with ⟨c', hc', htarget⟩ | ⟨c', -, hgroup, htarget⟩
    · rw [htarget] at hserial
      exact h.sole call.index i c' hi hc' hserial
    · rw [htarget] at hserial
      exact absurd hserial (h.group c' hgroup)
  · rw [PendingCall.callback, htarget hindex]

end InputPort

end BoardGpio
