import BoardGpio.Proofs.Handle.Said

/-!
# What the records of a handle recount

A handle asks for the mode of a pin before it switches the pin, and for its pull before it sets the
pull. While the handle is open its records recount the conversation it has had with its backend so
far: the record of a pin holds what the backend reported just before the first change of the pin's
mode that went well, and just before the first change of its pull, and nothing where there was no
such change (`Handle.Recounts`). Every use of the handle keeps this (`Gpio.upheld_recounting`).
-/

set_option autoImplicit false

namespace BoardGpio

namespace Exchange

/-- The pin was switched. -/
def Switched (pin : Nat) (x : Exchange) : Prop := ∃ m, x = .setMode pin m (.ok ())

/-- The pull of the pin was set. -/
def Pulled (pin : Nat) (x : Exchange) : Prop := ∃ u, x = .setPull pin u (.ok ())

/-- The call changed no mode and no pull: it was made for something else, or failed. -/
structure Idle (x : Exchange) : Prop where
  mode : ∀ pin m, x ≠ .setMode pin m (.ok ())
  pull : ∀ pin u, x ≠ .setPull pin u (.ok ())

theorem idle_mode (pin : Nat) (a : Except Failure Mode) : Idle (mode pin a) := ⟨nofun, nofun⟩

theorem idle_pull (pin : Nat) (a : Except Failure (Option Pull)) : Idle (pull pin a) :=
  ⟨nofun, nofun⟩

theorem idle_setMode_error (pin : Nat) (m : Mode) (e : Failure) : Idle (setMode pin m (.error e)) :=
  ⟨nofun, nofun⟩

theorem idle_setPull_error (pin : Nat) (u : Pull) (e : Failure) : Idle (setPull pin u (.error e)) :=
  ⟨nofun, nofun⟩

/-- What was reported just before the first change in a conversation, if there was a change. -/
inductive Before {ρ : Type} (report : ρ → Exchange) (Changes : Exchange → Prop)
    (told : List Exchange) : Option ρ → Prop where
  | never (h : ∀ x ∈ told, ¬Changes x) : Before report Changes told none
  | first (before after : List Exchange) (a : ρ) (x : Exchange)
      (htold : told = before ++ report a :: x :: after) (hx : Changes x)
      (hfirst : ∀ y ∈ before, ¬Changes y) : Before report Changes told (some a)

/-- The mode of the pin that was reported just before the pin was first switched. -/
def FirstMode (pin : Nat) : List Exchange → Option Mode → Prop :=
  Before (fun m => .mode pin (.ok m)) (Switched pin)

/-- The pull of the pin that was reported just before its pull was first set. -/
def FirstPull (pin : Nat) : List Exchange → Option (Option Pull) → Prop :=
  Before (fun u => .pull pin (.ok u)) (Pulled pin)

namespace Before

variable {ρ : Type} {report : ρ → Exchange} {Changes : Exchange → Prop} {told more : List Exchange}
  {o : Option ρ}

/-- What is said without a change leaves it as it is. -/
theorem idle (h : Before report Changes told o) (hmore : ∀ x ∈ more, ¬Changes x) :
    Before report Changes (told ++ more) o := by
  cases h with
  | never h =>
    refine .never fun x hx => ?_
    rcases List.mem_append.mp hx with hx | hx
    · exact h x hx
    · exact hmore x hx
  | first before after a x htold hx hfirst =>
    exact .first before (after ++ more) a x (by rw [htold]; simp) hx hfirst

/-- A change counts if it is the first. -/
theorem change (h : Before report Changes told o) {a : ρ} {x : Exchange} (hx : Changes x) :
    Before report Changes (told ++ [report a, x]) (some (o.getD a)) := by
  cases h with
  | never h => exact .first told [] a x rfl hx h
  | first before after b y htold hy hfirst =>
    exact .first before (after ++ [report a, x]) b y (by rw [htold]; simp) hy hfirst

theorem eq_none_iff (h : Before report Changes told o) : o = none ↔ ∀ x ∈ told, ¬Changes x := by
  cases h with
  | never h => exact iff_of_true rfl h
  | first before after a x htold hx hfirst =>
    refine iff_of_false (Option.some_ne_none a) fun hnone => hnone x ?_ hx
    rw [htold]
    simp

end Before

end Exchange

open Exchange

/-- The records of an open handle recount a conversation. -/
structure Handle.Recounts (told : List Exchange) (h : Handle) : Prop where
  modes : ∀ pin, FirstMode pin told (h.record pin).restoreMode
  pulls : ∀ pin, FirstPull pin told (h.record pin).restorePull
  unreleased : h.released = false

namespace Handle.Recounts

variable {told : List Exchange} {h h' : Handle}

theorem idle (hr : h.Recounts told) {x : Exchange} (hx : x.Idle) : h.Recounts (told ++ [x]) := by
  refine ⟨fun pin => (hr.modes pin).idle ?_, fun pin => (hr.pulls pin).idle ?_,
    hr.unreleased⟩
  · exact List.forall_mem_singleton.mpr fun ⟨m, hm⟩ => hx.mode pin m hm
  · exact List.forall_mem_singleton.mpr fun ⟨u, hu⟩ => hx.pull pin u hu

theorem beside (hr : h.Recounts told) (hrec : h'.records = h.records)
    (hrel : h'.released = h.released) : h'.Recounts told := by
  have hsame : ∀ pin, h'.record pin = h.record pin := fun pin => by rw [record, record, hrec]
  refine ⟨fun pin => ?_, fun pin => ?_, hrel.trans hr.unreleased⟩
  · rw [hsame pin]
    exact hr.modes pin
  · rw [hsame pin]
    exact hr.pulls pin

/-- A pin is switched, and what was reported of it before is recorded. -/
theorem noteMode (hr : h.Recounts told) {mcu : Nat} (hsize : mcu < h.records.size)
    (previous m : Mode) :
    (h.updateRecord mcu fun r => r.noteMode previous).Recounts
      (told ++ [.mode mcu (.ok previous), .setMode mcu m (.ok ())]) := by
  refine ⟨fun pin => ?_, fun pin => ?_, hr.unreleased⟩
  · rw [record_updateRecord]
    by_cases hpin : mcu = pin
    · subst hpin
      rw [if_pos ⟨rfl, hsize⟩]
      exact (hr.modes mcu).change ⟨m, rfl⟩
    · rw [if_neg fun hand => hpin hand.1]
      refine (hr.modes pin).idle ?_
      simp [Switched, hpin]
  · have hpull : ((h.updateRecord mcu fun r => r.noteMode previous).record pin).restorePull =
        (h.record pin).restorePull := by
      rw [record_updateRecord]
      split <;> rfl
    rw [hpull]
    exact (hr.pulls pin).idle (by simp [Pulled])

/-- A pull is set, and what was reported of it before is recorded. -/
theorem notePull (hr : h.Recounts told) {mcu : Nat} (hsize : mcu < h.records.size)
    (previous : Option Pull) (u : Pull) :
    (h.updateRecord mcu fun r => r.notePull previous u).Recounts
      (told ++ [.pull mcu (.ok previous), .setPull mcu u (.ok ())]) := by
  refine ⟨fun pin => ?_, fun pin => ?_, hr.unreleased⟩
  · have hmode : ((h.updateRecord mcu fun r => r.notePull previous u).record pin).restoreMode =
        (h.record pin).restoreMode := by
      rw [record_updateRecord]
      split <;> rfl
    rw [hmode]
    exact (hr.modes pin).idle (by simp [Switched])
  · rw [record_updateRecord]
    by_cases hpin : mcu = pin
    · subst hpin
      rw [if_pos ⟨rfl, hsize⟩]
      exact (hr.pulls mcu).change ⟨u, rfl⟩
    · rw [if_neg fun hand => hpin hand.1]
      refine (hr.pulls pin).idle ?_
      simp [Pulled, hpin]

end Handle.Recounts

namespace Gpio

variable {β α : Type} {earlier : List Exchange}

/-- The records recount what was said earlier, and since then. -/
def Recounting (earlier : List Exchange) (t : Gpio (Transcribed β)) : Prop :=
  t.handle.Recounts (earlier ++ t.backend.transcript)

theorem run_call (x : Act β α) (exchange : Except Failure α → Exchange)
    (t : Gpio (Transcribed β)) :
    (hardware (Transcribed.call x exchange)).run t =
      ((x.run t.backend.device).1, { t with
        backend := ⟨(x.run t.backend.device).2,
          t.backend.transcript ++ [exchange (x.run t.backend.device).1]⟩ }) := rfl

/-- A call that changes no mode and no pull need not be recorded. -/
theorem Recounting.call {t : Gpio (Transcribed β)} (ht : t.Recounting earlier)
    {x : Exchange} (hx : x.Idle) (d : β) :
    Recounting earlier { t with backend := ⟨d, t.backend.transcript ++ [x]⟩ } := by
  unfold Recounting
  rw [← List.append_assoc]
  exact ht.idle hx

theorem recounting_call (x : Act β α) {exchange : Except Failure α → Exchange}
    (hidle : ∀ r, (exchange r).Idle) :
    (hardware (Transcribed.call x exchange)).Keeps (Recounting earlier) := fun _ ht =>
  ht.call (hidle _) _

variable [Backend β]

theorem recounting_setMode (pin : Nat) (m : Mode) :
    (setMode pin m : Act (Gpio (Transcribed β)) Unit).Keeps (Recounting earlier) := by
  intro t ht
  rw [setMode, Act.run_bind, run_mcuPin]
  cases hpin : t.handle.resolve pin with
  | error e => exact ht
  | ok mcu =>
    have hsize : mcu < t.handle.records.size := (Handle.resolve_eq_ok_iff.mp hpin).2
    simp only
    rw [Act.run_bind, show (hardware (Backend.mode mcu)).run t = _ from
      run_call (Backend.mode mcu) (.mode mcu) t]
    rcases (Backend.mode mcu : Act β Mode).run t.backend.device with ⟨e | previous, d⟩
    · exact ht.call (idle_mode mcu _) d
    · simp only
      rw [Act.run_bind, switch, Act.run_bind, show (hardware (Backend.setMode mcu m)).run _ = _ from
        run_call (Backend.setMode mcu m) (.setMode mcu m) _]
      rcases (Backend.setMode mcu m : Act β Unit).run d with ⟨e | _, d'⟩
      · exact (ht.call (idle_mode mcu _) d).call (idle_setMode_error mcu m e) d'
      · -- the record is written right after the pin was switched
        have hnoted := Handle.Recounts.noteMode ht hsize previous m
        show Handle.Recounts _ _
        simp only [List.append_assoc] at hnoted ⊢
        exact hnoted

theorem recounting_setPull (pin : Nat) (u : Pull) :
    (setPull pin u : Act (Gpio (Transcribed β)) Unit).Keeps (Recounting earlier) := by
  intro t ht
  rw [setPull, Act.run_bind, run_mcuPin]
  cases hpin : t.handle.resolve pin with
  | error e => exact ht
  | ok mcu =>
    have hsize : mcu < t.handle.records.size := (Handle.resolve_eq_ok_iff.mp hpin).2
    simp only
    rw [Act.run_bind, show (hardware (Backend.pull mcu)).run t = _ from
      run_call (Backend.pull mcu) (.pull mcu) t]
    rcases (Backend.pull mcu : Act β (Option Pull)).run t.backend.device with ⟨e | previous, d⟩
    · exact ht.call (idle_pull mcu _) d
    · simp only
      rw [Act.run_bind, show (hardware (Backend.setPull mcu u)).run _ = _ from
        run_call (Backend.setPull mcu u) (.setPull mcu u) _]
      rcases (Backend.setPull mcu u : Act β Unit).run d with ⟨e | _, d'⟩
      · exact (ht.call (idle_pull mcu _) d).call (idle_setPull_error mcu u e) d'
      · have hnoted := Handle.Recounts.notePull ht hsize previous u
        show Handle.Recounts _ _
        simp only [List.append_assoc] at hnoted ⊢
        exact hnoted

/-- Every use of an open handle keeps its records recounting the conversation. -/
theorem upheld_recounting : Upheld (Recounting earlier : Gpio (Transcribed β) → Prop) where
  askMode mcu := recounting_call (Backend.mode mcu) (idle_mode mcu)
  askPull mcu := recounting_call (Backend.pull mcu) (idle_pull mcu)
  writeMcu mcu high := recounting_call (Backend.write mcu high) fun _ => ⟨nofun, nofun⟩
  toggleMcu mcu := recounting_call (Backend.toggle mcu) fun _ => ⟨nofun, nofun⟩
  readMcu mcu := recounting_call (Backend.read mcu) fun _ => ⟨nofun, nofun⟩
  setMode := recounting_setMode
  setPull := recounting_setPull
  update _ hf := fun _ ht => ht.beside (hf _).1 (hf _).2.1
  note _ := fun _ ht => ht

/-- What a use says is recounted after it. -/
theorem recounts_perform {g : Gpio β} (hg : g.handle.Recounts earlier) (u : Use) :
    (u.perform.run g).2.handle.Recounts (earlier ++ g.said u.perform) := by
  have hstart : g.transcribed.Recounting earlier := by
    unfold Recounting
    rw [show g.transcribed.backend.transcript = [] from rfl, List.append_nil]
    exact hg
  rw [← (copied_perform u g).handle]
  exact upheld_recounting.perform u _ hstart

end Gpio

end BoardGpio
