import BoardGpio.Proofs.Input.Own

/-!
# Cycles around an input with a callback of its own

In a cycle that settles on a sample, the input's own callback is told of the edge between the last
level and the new one if the trigger lets it through, and of nothing else (`Attended.calls`,
`makeCalls_attended`), whatever the other callbacks of the cycle do to the rest of the port. The
world sees exactly the calls that are made (`makeCalls_log`), and they are the ones that a cycle
gives back (`poll_log`).
-/

set_option autoImplicit false

namespace BoardGpio

open InputPort

/-- The edge between two levels, if the trigger lets it through. -/
def edgesOf (t : Trigger) (last new : Bool) : List Edge :=
  if new ≠ last ∧ t.accepts (.toward new) = true then [.toward new] else []

/-- Whether a call is told to a callback. -/
def PendingCall.isFor {κ : Type} (c : Installed κ) (call : PendingCall κ) : Bool :=
  call.callback.serial == c.serial

namespace InputPort

variable {κ : Type}

/-- A port in which an input has a callback of its own, with what the input shows, and with no more
inputs than a set can hold. -/
structure Attended (p : InputPort κ) (index : Nat) (c : Installed κ) (pin : InputPin) (mcu : Nat)
    (t : Trigger) (level : Bool) : Prop where
  own : p.Own index c
  shown : p.Shows index pin mcu t level
  size : p.size ≤ PinSet.capacity

variable {p : InputPort κ} {index : Nat} {c : Installed κ} {pin : InputPin} {mcu : Nat}
  {t : Trigger} {level : Bool}

theorem Attended.after (h : p.Attended index c pin mcu t level) {call : PortCall κ}
    (hcall : call.LeavesOwn index) :
    (p.after call).Attended index c pin mcu (call.triggerAt index t) level := by
  refine ⟨h.own.after hcall, h.shown.after call, ?_⟩
  rw [size_after]
  exact h.size

/-- Calls that leave the callback in its place and do not set the input's trigger. -/
theorem Attended.afterAll (h : p.Attended index c pin mcu t level) {calls : List (PortCall κ)}
    (hcalls : ∀ call ∈ calls, call.LeavesOwn index ∧ ∀ t, call.triggerAt index t = t) :
    (p.afterAll calls).Attended index c pin mcu t level := by
  induction calls generalizing p with
  | nil => exact h
  | cons call calls ih =>
    obtain ⟨hleaves, hsame⟩ := hcalls call (by simp)
    have hnext := h.after hleaves
    rw [hsame t] at hnext
    exact ih hnext fun call' h' => hcalls call' (List.mem_cons_of_mem _ h')

theorem Attended.accept (h : p.Attended index c pin mcu t level) {levels : List Bool} {new : Bool}
    (hsize : levels.length = p.size) (hnew : levels[index]? = some new) :
    (p.accept levels).Attended index c pin mcu t new := by
  refine ⟨h.own.accept hsize, h.shown.accept hnew, ?_⟩
  rw [size_accept p hsize]
  exact h.size

theorem Attended.flag (h : p.Attended index c pin mcu t level) (j : Nat) (e : Edge) :
    (p.flag j e).Attended index c pin mcu t level := by
  refine ⟨h.own.modify j (.inl fun i => rfl),
    h.shown.modify_frame j (fun i => ⟨rfl, rfl, rfl⟩) fun i => rfl, ?_⟩
  show (p.inputs.modify j _).length ≤ PinSet.capacity
  rw [List.length_modify]
  exact h.size

theorem Attended.count (h : p.Attended index c pin mcu t level) (stats : Stats)
    (throttle : Throttle) :
    Attended { p with stats := stats, throttle := throttle } index c pin mcu t level :=
  ⟨⟨h.own.placed, h.own.sole, h.own.group, h.own.below⟩, h.shown, h.size⟩

/-- Of the calls for a sample, one at most is told to the callback, and its edge is the one that the
two levels and the trigger ask for. -/
theorem Attended.calls (h : p.Attended index c pin mcu t level) {levels : List Bool} {new : Bool}
    (hnew : levels[index]? = some new) :
    (p.calls levels).filter (PendingCall.isFor c) =
      (edgesOf t level new).map fun e => ⟨index, e, .own c⟩ := by
  obtain ⟨i, hi, hown⟩ := h.own.placed
  obtain ⟨i', hi', -, -, htrigger, hlevel⟩ := h.shown
  rw [hi] at hi'
  injection hi' with hi'
  subst hi'
  -- calls are told apart by serial number or by input alike, and one input has one match at most
  have hindex : (p.calls levels).filter (PendingCall.isFor c) =
      (p.calls levels).filter fun call => call.index == index := by
    refine List.filter_congr fun call hcall => ?_
    rw [PendingCall.isFor, Bool.eq_iff_iff, beq_iff_eq, beq_iff_eq]
    exact (h.own.of_mem_calls hcall).1
  have htarget : i.target? p.group = some (.own c) := by
    unfold Input.target?
    rw [hown]
  have hmatch : (p.matchesOf levels).filter (fun e => e.index == index) =
      matchOf p.group index (some i) (some new) := by
    have hfilter := filter_matchesFrom p.group 0 index p.inputs levels
    rw [hi, hnew, Nat.zero_add] at hfilter
    exact hfilter
  rw [hindex, InputPort.calls, callsFrom_eq, filter_callOf]
  show ((p.matchesOf levels).filter fun e => e.index == index).filterMap callOf? = _
  rw [hmatch, matchOf, htarget, Input.edgeTo?, hlevel, htrigger, edgesOf]
  by_cases hsame : level = new
  · rw [if_pos hsame, if_neg fun hne => hne.1 hsame.symm]
    rfl
  · rw [if_neg hsame]
    by_cases haccepts : t.accepts (.toward new) = true
    · rw [if_pos haccepts, if_pos ⟨Ne.symm hsame, haccepts⟩]
      rfl
    · rw [if_neg haccepts, if_neg fun hne => haccepts hne.2]
      rfl

end InputPort

namespace Desk

variable {κ ε : Type} {log : ε → List (κ × Occasion)} {s : Surroundings ε} {invoke : Invoke κ ε}
  {index : Nat} {c : Installed κ} {pin : InputPin} {mcu : Nat} {t : Trigger} {level : Bool}

/-- Callbacks that make calls on their port at most, and leave an input's own callback and its
trigger alone. -/
def Sparing (index : Nat) (invoke : Invoke κ ε) : Prop :=
  ∀ action occasion d, ∃ calls : List (PortCall κ),
    (∀ call ∈ calls, call.LeavesOwn index ∧ ∀ t, call.triggerAt index t = t) ∧
      (invoke action occasion d).2.port = d.port.afterAll calls

/-- Making a call that is told to the callback, if it is told to it at all, for its own input: it is
made, and the port is as it was to the callback. -/
theorem makeCall_attended (hlog : Witnesses log s invoke) (hinvoke : Sparing index invoke)
    (active : PinSet) {call : PendingCall κ} {d : Desk κ ε}
    (hcall : call.callback.serial = c.serial → call.index = index ∧ call.target = .own c)
    (h : d.port.Attended index c pin mcu t level) :
    (makeCall s invoke active call d).2.port.Attended index c pin mcu t level ∧
      (call.callback.serial = c.serial → (makeCall s invoke active call d).1 = true) := by
  -- the callback has stayed in its place, so its calls are still to be made
  have hcurrent : call.callback.serial = c.serial → call.isCurrent d.port = true := by
    intro hmine
    obtain ⟨hindex, htarget⟩ := hcall hmine
    obtain ⟨i, hi, hown⟩ := h.own.placed
    rw [PendingCall.isCurrent, hindex, hi, htarget]
    simp [hown]
  unfold makeCall
  by_cases hc : call.isCurrent d.port = true
  · rw [if_pos hc]
    obtain ⟨calls, hcalls, hport⟩ := hinvoke call.callback.action (call.occasion active) d
    have hafter := h.afterAll hcalls
    rw [← hport] at hafter
    rcases hinv : invoke call.callback.action (call.occasion active) d with ⟨_ | reason, d'⟩
    · rw [hinv] at hafter
      exact ⟨hafter.count _ _, fun _ => rfl⟩
    · rw [hinv] at hafter
      obtain ⟨⟨throttle, hreport⟩, -⟩ := report_cases hlog
        (fun suppressed => .callbackFailed call.index call.edge reason suppressed)
        { d' with port := d'.port.countCall true }
      refine ⟨?_, fun _ => rfl⟩
      simp only [Option.isSome_some]
      rw [hreport]
      exact hafter.count _ _
  · rw [if_neg hc]
    exact ⟨h.flag _ _, fun hmine => absurd (hcurrent hmine) hc⟩

theorem fst_makeCalls_cons (active : PinSet) (call : PendingCall κ) (calls : List (PendingCall κ))
    (d : Desk κ ε) :
    (makeCalls s invoke active (call :: calls) d).1 =
      if (makeCall s invoke active call d).1 = true then
        call :: (makeCalls s invoke active calls (makeCall s invoke active call d).2).1
      else (makeCalls s invoke active calls (makeCall s invoke active call d).2).1 :=
  rfl

/-- Making calls in turn: those that are told to the callback are all made. -/
theorem makeCalls_attended (hlog : Witnesses log s invoke) (hinvoke : Sparing index invoke)
    (active : PinSet) (calls : List (PendingCall κ)) {d : Desk κ ε}
    (hcalls : ∀ call ∈ calls,
      call.callback.serial = c.serial → call.index = index ∧ call.target = .own c)
    (h : d.port.Attended index c pin mcu t level) :
    (makeCalls s invoke active calls d).2.port.Attended index c pin mcu t level ∧
      (makeCalls s invoke active calls d).1.filter (PendingCall.isFor c) =
        calls.filter (PendingCall.isFor c) := by
  induction calls generalizing d with
  | nil => exact ⟨h, rfl⟩
  | cons call calls ih =>
    obtain ⟨hfirst, hmade⟩ :=
      makeCall_attended hlog hinvoke active (hcalls call (by simp)) h
    obtain ⟨hrest, hfilter⟩ := ih (fun call' h' => hcalls call' (List.mem_cons_of_mem _ h')) hfirst
    refine ⟨hrest, ?_⟩
    rw [fst_makeCalls_cons]
    by_cases hmine : call.callback.serial = c.serial
    · have hhead : call.isFor c = true := beq_iff_eq.mpr hmine
      rw [if_pos (hmade hmine), List.filter_cons_of_pos hhead, List.filter_cons_of_pos hhead,
        hfilter]
    · have hhead : ¬call.isFor c = true := mt beq_iff_eq.mp hmine
      rw [List.filter_cons_of_neg hhead]
      split
      · rw [List.filter_cons_of_neg hhead, hfilter]
      · exact hfilter

theorem makeCall_log (hlog : Witnesses log s invoke) (active : PinSet) (call : PendingCall κ)
    (d : Desk κ ε) :
    log (makeCall s invoke active call d).2.around = log d.around ++
      if (makeCall s invoke active call d).1 then [(call.callback.action, call.occasion active)]
      else [] := by
  unfold makeCall
  by_cases hc : call.isCurrent d.port = true
  · rw [if_pos hc]
    have hseen := hlog.invoke call.callback.action (call.occasion active) d
    rcases hinv : invoke call.callback.action (call.occasion active) d with ⟨_ | reason, d'⟩
    · rw [hinv] at hseen
      exact hseen
    · rw [hinv] at hseen
      exact (report_cases hlog _ _).2.trans hseen
  · rw [if_neg hc]
    exact (List.append_nil _).symm

/-- The world sees the calls that are made, in turn. -/
theorem makeCalls_log (hlog : Witnesses log s invoke) (active : PinSet)
    (calls : List (PendingCall κ)) (d : Desk κ ε) :
    log (makeCalls s invoke active calls d).2.around = log d.around ++
      (makeCalls s invoke active calls d).1.map fun call =>
        (call.callback.action, call.occasion active) := by
  induction calls generalizing d with
  | nil => exact (List.append_nil _).symm
  | cons call calls ih =>
    have hfirst := makeCall_log hlog active call d
    have hrest := ih (makeCall s invoke active call d).2
    have hsnd : (makeCalls s invoke active (call :: calls) d).2 =
        (makeCalls s invoke active calls (makeCall s invoke active call d).2).2 := rfl
    rw [hsnd, hrest, hfirst, List.append_assoc, fst_makeCalls_cons]
    split <;> rfl

/-- Sampling is nothing that callbacks see. -/
theorem Sampling.unseen (hlog : Witnesses log s invoke) {p : InputPort κ} {w w' : ε}
    {accepted : Option (List Bool)} (h : Sampling s p w accepted w') : log w' = log w := by
  have hcollect : ∀ {pins : List Nat} {v v' : ε} {raws : List Bool},
      (Act.collect s.read pins).run v = (.ok raws, v') → log v' = log v := by
    intro pins v v' raws hraws
    have hkeeps : (Act.collect s.read pins).Keeps fun u => log u = log v :=
      Act.Keeps.collect (fun mcu u hu => (hlog.read mcu u).trans hu) pins
    have hv' := hkeeps v rfl
    rw [hraws] at hv'
    exact hv'
  cases h with
  | plain _ _ _ hread => exact hcollect hread
  | steady _ _ _ _ hread _ => exact hcollect hread
  | confirmed _ _ v _ delay _ hread _ hagain _ =>
    exact (hcollect hagain).trans ((hlog.pause delay v).trans (hcollect hread))
  | dismissed _ _ v _ delay _ hread _ hagain _ =>
    exact (hcollect hagain).trans ((hlog.pause delay v).trans (hcollect hread))

/-- The calls that a cycle gives back are those that the world sees, in turn. -/
theorem poll_log (hlog : Witnesses log s invoke) {d d' : Desk κ ε} {accepted : Option (List Bool)}
    {w : ε} (hsampling : Sampling s d.port d.around accepted w) {made : List (PendingCall κ)}
    (hpoll : (poll s invoke).run d = (.ok made, d')) :
    ∃ active, log d'.around = log d.around ++ made.map fun call =>
      (call.callback.action, call.occasion active) := by
  have hw := hsampling.unseen hlog
  have hrun := run_poll invoke hsampling
  rw [show (⟨d.port, d.around⟩ : Desk κ ε) = d from rfl, hpoll] at hrun
  have hnothing : ∃ active : PinSet, log w = log d.around ++ ([] : List (PendingCall κ)).map
      fun call => (call.callback.action, call.occasion active) :=
    ⟨.empty, hw.trans (List.append_nil _).symm⟩
  cases accepted with
  | none =>
    cases hrun
    exact hnothing
  | some raws =>
    simp only at hrun
    split at hrun
    · cases hrun
      exact hnothing
    · rw [run_settle] at hrun
      cases hactive : PinSet.ofLevels? (d.port.view raws) with
      | error e =>
        rw [hactive] at hrun
        cases hrun
      | ok active =>
        rw [hactive] at hrun
        cases hrun
        refine ⟨active, ?_⟩
        rw [makeCalls_log hlog, ← hw]

end Desk

end BoardGpio
