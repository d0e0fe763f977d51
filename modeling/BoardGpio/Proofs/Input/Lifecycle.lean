import BoardGpio.Proofs.Input.Account
import BoardGpio.Proofs.Input.Threads

/-!
# The life of a monitor

Once no callback is installed and the thread that took the last one away has decided, every monitor
has been sent the message to stop, and it stays so until a callback is installed again: no cycle
starts (`Scene.Run.quiet`). With what belongs together in every scene this is the life of a monitor
(`monitor_lifecycle`).
-/

set_option autoImplicit false

namespace BoardGpio

open InputPort

variable {κ : Type}

namespace Scene

/-- Every monitor has been sent the message to stop. -/
def Told (s : Scene κ) : Prop :=
  ∀ (m : Nat) t, s.threads[m]? = some t → t.stopSent = true

variable {s s' s'' : Scene κ} {h : Happening κ} {hs hs' : List (Happening κ)} {c : Caller}

/-- Where no monitor runs, all have been told. -/
theorem Sound.told (h : s.Sound) (hruns : s.port.monitoring = false) : s.Told := by
  intro m t ht
  by_contra hsent
  have hslot := h.sole m t ht (Bool.eq_false_iff.mpr hsent)
  have hrunning := h.running
  rw [hruns, hslot] at hrunning
  cases hrunning

theorem port_decide (s : Scene κ) (c : Caller) : (s.decide c).port = s.port.synced := by
  unfold decide
  split <;> rfl

theorem stage_decide (s : Scene κ) (c : Caller) :
    ∃ join, (s.decide c).stage = Function.update s.stage c (.leaving join) := by
  unfold decide
  split
  · exact ⟨_, rfl⟩
  · exact ⟨_, rfl⟩
  · exact ⟨_, rfl⟩

/-- Whoever decides while no callback is installed leaves no monitor that has not been told. -/
theorem Sound.told_decide (h : s.Sound) (c : Caller) (hnone : s.port.hasCallbacks = false) :
    (s.decide c).Told := by
  refine (h.decide c).told ?_
  rw [port_decide, monitoring_synced]
  exact hnone

/-- A step that installs nothing brings in no callback. -/
theorem Step.callbacks (hstep : s.Step h s') (hinstalls : h.installs = false)
    (hnone : s.port.hasCallbacks = false) : s'.port.hasCallbacks = false := by
  cases hstep with
  | place c call hidle hinside hplace =>
    rcases place_outcome s.port call with ⟨index, -, hfailed⟩ | ⟨q, hgood, -, hbrings⟩
    · rw [hplace] at hfailed
      cases hfailed
    · rw [hplace] at hgood
      cases hgood
      exact hbrings hinstalls hnone
  | refuse c call hidle hinside hplace =>
    rcases place_outcome s.port call with ⟨index, -, hfailed⟩ | ⟨q, hgood, -⟩
    · rw [hplace] at hfailed
      cases hfailed
      exact hnone
    · rw [hplace] at hgood
      cases hgood
  | decide c hstage =>
    rw [port_decide]
    exact hnone
  | leave c hstage hjoin => exact hnone
  | tick m ht hphase hsent => exact hnone
  | finish m ht hphase hidle => exact hnone
  | hear m ht hphase hsent => exact hnone
  | other hcalm => exact hcalm.callbacks.trans hnone

theorem Told.move (h : s.Told) (m : Nat) (phase : MonitorPhase) :
    Told { s with threads := s.threads.modify m fun t => { t with phase := phase } } := by
  intro j t ht
  have ht : (s.threads.modify m fun t => { t with phase := phase })[j]? = some t := ht
  rw [List.getElem?_modify] at ht
  obtain ⟨t', ht', rfl⟩ := Option.map_eq_some_iff.mp ht
  split
  · exact h j t' ht'
  · exact h j t' ht'

/-- Once every monitor has been told and no callback is installed, no cycle starts, and all stay
told. -/
theorem Step.quiet (hstep : s.Step h s') (hsound : s.Sound) (hnone : s.port.hasCallbacks = false)
    (htold : s.Told) : s'.Told ∧ ∀ m, h ≠ .started m := by
  cases hstep with
  | place c call hidle hinside hplace => exact ⟨htold, fun m => nofun⟩
  | refuse c call hidle hinside hplace => exact ⟨htold, fun m => nofun⟩
  | decide c hstage => exact ⟨hsound.told_decide c hnone, fun m => nofun⟩
  | leave c hstage hjoin => exact ⟨htold, fun m => nofun⟩
  | tick m ht hphase hsent =>
    rw [htold m _ ht] at hsent
    cases hsent
  | finish m ht hphase hidle => exact ⟨htold.move m .waiting, fun m => nofun⟩
  | hear m ht hphase hsent => exact ⟨htold.move m .ended, fun m => nofun⟩
  | other hcalm => exact ⟨htold, fun m => nofun⟩

theorem Run.quiet (hrun : Run s hs s') (hsound : s.Sound) (hnone : s.port.hasCallbacks = false)
    (htold : s.Told) (hinstalls : ∀ h ∈ hs, h.installs = false) :
    s'.port.hasCallbacks = false ∧ s'.Told ∧ ∀ m, .started m ∉ hs := by
  induction hrun with
  | none => exact ⟨hnone, htold, fun m => List.not_mem_nil⟩
  | @step s' s'' hs h hrun hstep ih =>
    obtain ⟨hnone', htold', hstarted⟩ := ih fun h' hh' =>
      hinstalls h' (List.mem_append_left _ hh')
    obtain ⟨htold'', hno⟩ := hstep.quiet (hrun.sound hsound) hnone' htold'
    refine ⟨hstep.callbacks (hinstalls h (by simp)) hnone', htold'', fun m hm => ?_⟩
    rcases List.mem_append.mp hm with hm | hm
    · exact hstarted m hm
    · exact hno m (List.mem_singleton.mp hm).symm

/-- Until a thread that left no callback installed has decided, either it still has to, or another
thread has decided for it and every monitor has been told. -/
theorem Step.clearing (hstep : s.Step h s') (hsound : s.Sound)
    (hnone : s.port.hasCallbacks = false) (hc : s.stage c = .undecided ∨ s.Told) :
    s'.stage c = .undecided ∨ s'.Told := by
  rcases hc with hc | htold
  · cases hstep with
    | place c' call hidle hinside hplace =>
      -- a thread that has not decided yet begins no other call
      left
      have hne : c ≠ c' := by
        rintro rfl
        rw [hc] at hidle
        cases hidle
      exact (Function.update_of_ne hne _ _).trans hc
    | refuse c' call hidle hinside hplace => exact .inl hc
    | decide c' hstage =>
      -- no callback is installed, so whoever decides now stops the monitor
      by_cases hsame : c = c'
      · right
        exact hsound.told_decide c' hnone
      · left
        obtain ⟨join, hdecide⟩ := stage_decide s c'
        rw [hdecide]
        exact (Function.update_of_ne hsame _ _).trans hc
    | leave c' hstage hjoin =>
      left
      have hne : c ≠ c' := by
        rintro rfl
        rw [hc] at hstage
        cases hstage
      exact (Function.update_of_ne hne _ _).trans hc
    | tick m ht hphase hsent => exact .inl hc
    | finish m ht hphase hidle => exact .inl hc
    | hear m ht hphase hsent => exact .inl hc
    | other hcalm => exact .inl hc
  · exact .inr (hstep.quiet hsound hnone htold).1

theorem Run.clearing (hrun : Run s hs s') (hsound : s.Sound) (hnone : s.port.hasCallbacks = false)
    (hc : s.stage c = .undecided ∨ s.Told) (hinstalls : ∀ h ∈ hs, h.installs = false) :
    s'.port.hasCallbacks = false ∧ (s'.stage c = .undecided ∨ s'.Told) := by
  induction hrun with
  | none => exact ⟨hnone, hc⟩
  | @step s' s'' hs h hrun hstep ih =>
    obtain ⟨hnone', hc'⟩ := ih fun h' hh' => hinstalls h' (List.mem_append_left _ hh')
    exact ⟨hstep.callbacks (hinstalls h (by simp)) hnone',
      hstep.clearing (hrun.sound hsound) hnone' hc'⟩

end Scene

/-- An opened port, before any call. -/
theorem InputPort.sound_openPort {β : Type} [Backend β] {pins : List InputPin}
    {settings : InputSettings} {now : Nat} {g g' : Gpio β} {p : InputPort κ}
    (hopen : (openPort pins settings now).run g = (.ok p, g')) :
    Scene.Sound { port := p } := by
  obtain ⟨-, -, hplaces, hidle⟩ := fresh_openPort hopen
  have hnone : p.hasCallbacks = false := by
    refine hasCallbacks_eq_false_iff.mpr ⟨?_, fun i hi => ?_⟩
    · exact Option.eq_none_iff_forall_ne_some.mpr fun c hc => hplaces c (.inl hc)
    · obtain ⟨index, hindex⟩ := List.mem_iff_getElem?.mp hi
      exact Option.eq_none_iff_forall_ne_some.mpr fun c hc =>
        hplaces c (.inr ⟨index, i, hindex, hc⟩)
  exact ⟨hidle, fun m hm => (nomatch hm), fun m t ht => (nomatch ht), fun m t ht => (nomatch ht),
    fun _ => hidle.trans hnone.symm⟩

/-- Whatever threads do from the opening of a port on. While no call is being made, the port is
monitored exactly if a callback is installed. One monitor at most has not been sent the message to
stop. Once a call that left no callback has returned, no cycle starts until one is installed. And a
call that fails changes nothing. -/
theorem monitor_lifecycle {β : Type} [Backend β] {pins : List InputPin} {settings : InputSettings}
    {now : Nat} {g g' : Gpio β} {p : InputPort κ}
    (hopen : (openPort pins settings now).run g = (.ok p, g')) {hs : List (Happening κ)}
    {s : Scene κ} (hrun : Scene.Run { port := p } hs s) :
    s.port.monitoring = s.slot.isSome ∧
      ((∀ c, s.stage c = .idle) → (s.port.monitoring = true ↔ s.port.hasCallbacks = true)) ∧
      (∀ (m m' : Nat) (t t' : MonitorThread), s.threads[m]? = some t → s.threads[m']? = some t' →
        t.stopSent = false → t'.stopSent = false → m = m') ∧
      (∀ (c : Caller) (call : CallbackCall κ) (s₁ s₂ s₃ s₄ : Scene κ)
        (during after : List (Happening κ)), s.Step (.placed c call) s₁ →
          s₁.port.hasCallbacks = false → Scene.Run s₁ during s₂ → s₂.Step (.returned c) s₃ →
            Scene.Run s₃ after s₄ → (∀ h ∈ during ++ after, h.installs = false) →
              ∀ m, .started m ∉ after) ∧
      ∀ (c : Caller) (call : CallbackCall κ) (e : Failure) (s' : Scene κ),
        s.Step (.refused c call e) s' →
          s' = s ∧ ∃ index, s.port.size ≤ index ∧
            e = .error (.invalidPortIndex index s.port.size) := by
  have hsound : s.Sound := hrun.sound (sound_openPort hopen)
  refine ⟨hsound.running, fun hidle => ?_, fun m m' t t' ht ht' hsent hsent' => ?_,
    fun c call s₁ s₂ s₃ s₄ during after hplaced hnone hduring hreturned hafter hinstalls => ?_,
    fun c call e s' hrefused => ?_⟩
  · have hsettled := hsound.settled fun c hc => by
      rw [hidle c] at hc
      cases hc
    rw [hsettled]
  · have hslot := hsound.sole m t ht hsent
    have hslot' := hsound.sole m' t' ht' hsent'
    rw [hslot] at hslot'
    exact Option.some.inj hslot'
  · have hsound₁ := hplaced.sound hsound
    have hundecided : s₁.stage c = .undecided := by
      cases hplaced
      exact Function.update_self ..
    obtain ⟨hnone₂, htold₂⟩ := hduring.clearing hsound₁ hnone (.inl hundecided) fun h hh =>
      hinstalls h (List.mem_append_left _ hh)
    have hsound₂ := hduring.sound hsound₁
    -- A call returns only after it has decided, so every monitor has been told by now.
    have htold : s₂.Told := by
      rcases htold₂ with hstill | htold
      · cases hreturned with
        | leave c hstage hjoin =>
          rw [hstill] at hstage
          cases hstage
      · exact htold
    have hnone₃ := hreturned.callbacks rfl hnone₂
    have htold₃ := (hreturned.quiet hsound₂ hnone₂ htold).1
    exact (hafter.quiet (hreturned.sound hsound₂) hnone₃ htold₃ fun h hh =>
      hinstalls h (List.mem_append_right _ hh)).2.2
  · cases hrefused with
    | refuse c call hidle hinside hplace =>
      rcases place_outcome s.port call with ⟨index, hindex, hfailed⟩ | ⟨q, hgood, -⟩
      · rw [hplace] at hfailed
        cases hfailed
        exact ⟨rfl, index, hindex, rfl⟩
      · rw [hplace] at hgood
        cases hgood

/-- A thread has installed a callback, which started a monitor. -/
def pairMonitored : Scene Unit where
  port := pairPort.after (.callback (.install 0 ()))
  slot := some 0
  threads := [{}]
  stage := Function.update (Function.update (Function.update (fun _ => .idle)
    (.program 0) .undecided) (.program 0) (.leaving none)) (.program 0) .idle

/-- Another thread has taken the callback away again. -/
def pairCleared : Scene Unit :=
  { pairMonitored with
    port := ((CallbackCall.uninstall 0).place.run pairMonitored.port).2
    stage := Function.update pairMonitored.stage (.program 1) .undecided }

/-- It has decided to stop the monitor, and the monitor has ended. -/
def pairEnded : Scene Unit :=
  { pairCleared.decide (.program 1) with threads := [{ stopSent := true, phase := .ended }] }

/-- When the second thread's call has returned, no cycle starts until a callback is installed. -/
theorem monitor_lifecycle_stopped :
    openPair.run pairGpio = (.ok pairPort, (openPair.run pairGpio).2) ∧
      Scene.Run { port := pairPort }
        [.placed (.program 0) (.install 0 ()), .decided (.program 0), .returned (.program 0)]
        pairMonitored ∧
      pairMonitored.port.monitoring = true ∧
      pairMonitored.Step (.placed (.program 1) (.uninstall 0)) pairCleared ∧
      Scene.Run pairCleared [.decided (.program 1), .ended 0] pairEnded ∧
      pairEnded.port.monitoring = false ∧
      ∀ (s s' : Scene Unit) (after : List (Happening Unit)),
        pairEnded.Step (.returned (.program 1)) s → Scene.Run s after s' →
          (∀ h ∈ after, h.installs = false) → ∀ m, .started m ∉ after := by
  have hopen : openPair.run pairGpio = (.ok pairPort, (openPair.run pairGpio).2) := rfl
  have hinstall : Scene.Run { port := pairPort }
      [.placed (.program 0) (.install 0 ()), .decided (.program 0), .returned (.program 0)]
      pairMonitored :=
    (((Scene.Run.none _).step (.place _ (.program 0) (.install 0 ()) rfl
      (fun _ h => by cases h) rfl)).step (.decide _ (.program 0) rfl)).step
        (.leave _ (.program 0) rfl fun _ h => by cases h)
  have hplaced : pairMonitored.Step (.placed (.program 1) (.uninstall 0)) pairCleared :=
    .place _ (.program 1) (.uninstall 0) rfl (fun _ h => by cases h) rfl
  have hduring : Scene.Run pairCleared [.decided (.program 1), .ended 0] pairEnded :=
    ((Scene.Run.none _).step (.decide _ (.program 1) rfl)).step
      (.hear (pairCleared.decide (.program 1)) 0 (t := { stopSent := true }) rfl rfl rfl)
  refine ⟨hopen, hinstall, rfl, hplaced, hduring, rfl, fun s s' after hreturned hafter hno => ?_⟩
  obtain ⟨-, -, -, hquiet, -⟩ := monitor_lifecycle hopen hinstall
  refine hquiet _ _ _ _ _ _ _ _ hplaced rfl hduring hreturned hafter fun h hh => ?_
  rcases List.mem_append.mp hh with hh | hh
  · rcases List.mem_cons.mp hh with rfl | hh
    · rfl
    · rw [List.mem_singleton.mp hh]
      rfl
  · exact hno h hh

end BoardGpio
