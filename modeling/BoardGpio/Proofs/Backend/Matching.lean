import BoardGpio.Proofs.Act.Match
import BoardGpio.Proofs.Backend.Restorable
import BoardGpio.Proofs.Backend.Unsteady

/-!
# Backends whose calls match

Two backends of different kinds match under a relation of their states if from related states every
call gives the same result and leaves related states, reads of levels only of pins that are outputs
(`Backend.Matching`). Rigs around matching backends match as long as they have the same rules and
the same queue, and then the same changes stand in their journals (`Rig.matching`); so do lines to
the rigs (`Line.matching`).
-/

set_option autoImplicit false

namespace BoardGpio

namespace Backend

variable {β γ : Type} [Backend β] [Backend γ]

/-- From related states, calls end alike and leave related states. Modes are set only if they are
`Settable`, as all modes are that pins show. -/
structure Matching (Q : β → γ → Prop) (Settable : Mode → Prop) : Prop where
  mode : ∀ pin, Act.Matches Q (Backend.mode pin) (Backend.mode pin)
  pull : ∀ pin, Act.Matches Q (Backend.pull pin) (Backend.pull pin)
  setMode : ∀ pin m, Settable m → Act.Matches Q (Backend.setMode pin m) (Backend.setMode pin m)
  setPull : ∀ pin u, Act.Matches Q (Backend.setPull pin u) (Backend.setPull pin u)
  write : ∀ pin high, Act.Matches Q (Backend.write pin high) (Backend.write pin high)
  toggle : ∀ pin, Act.Matches Q (Backend.toggle pin) (Backend.toggle pin)
  read : ∀ b c pin, Q b c → modeOf b pin = .ok .output →
    Act.MatchesAt Q (Backend.read pin) (Backend.read pin) b c
  shown : ∀ b c pin m, Q b c → modeOf b pin = .ok m → Settable m
  /-- Reading a level changes no mode. -/
  read_modes : ∀ b c pin q, Q b c →
    modeOf ((Backend.read pin : Act β Bool).run b).2 q = modeOf b q

end Backend

open Backend

/-! ## Rigs -/

namespace Rig

variable {β γ α : Type} {Q : β → γ → Prop} {Settable : Mode → Prop}

/-- The backends are related, and all else is equal. -/
structure Alike (Q : β → γ → Prop) (r : Rig β) (r' : Rig γ) : Prop where
  device : Q r.device r'.device
  faults : r.faults = r'.faults
  queued : r.queued = r'.queued
  journal : r.journal = r'.journal

theorem Alike.onDevice {r : Rig β} {r' : Rig γ} (h : Alike Q r r') {x : Act β α} {y : Act γ α}
    (hx : Act.MatchesAt Q x y r.device r'.device) :
    Act.MatchesAt (Alike Q) (Rig.onDevice x) (Rig.onDevice y) r r' :=
  ⟨hx.1, hx.2, h.faults, h.queued, h.journal⟩

theorem alike_onDevice {x : Act β α} {y : Act γ α} (hx : Act.Matches Q x y) :
    Act.Matches (Alike Q) (onDevice x) (onDevice y) := fun _ _ h => h.onDevice (hx _ _ h.device)

theorem alike_checkFault (call : CallKind) (pin : Nat) :
    Act.Matches (Alike Q) (checkFault call pin) (checkFault call pin) := by
  intro r r' h
  unfold Act.MatchesAt
  rw [Line.run_checkFault, Line.run_checkFault, h.faults]
  exact ⟨rfl, h⟩

theorem alike_change (call : CallKind) (c : Change) {x : Act β Unit} {y : Act γ Unit}
    (hx : Act.Matches Q x y) : Act.Matches (Alike Q) (change call c x) (change call c y) := by
  have hrecord : Act.Matches (Alike Q) (record c) (record c) := by
    refine Act.Matches.modify fun r r' h => ⟨h.device, h.faults, h.queued, ?_⟩
    show r.journal ++ [c] = r'.journal ++ [c]
    rw [h.journal]
  exact (alike_checkFault call c.pin).bind fun _ => hrecord.bind fun _ => alike_onDevice hx

theorem alike_query (call : CallKind) (pin : Nat) {x : Act β α} {y : Act γ α}
    (hx : Act.Matches Q x y) : Act.Matches (Alike Q) (query call pin x) (query call pin y) :=
  (alike_checkFault call pin).bind fun _ => alike_onDevice hx

variable [Backend β] [Backend γ]

/-- A pin shows the mode that the backend itself tells, unless a rule keeps it from being told. -/
theorem modeOf_eq (r : Rig β) (pin : Nat) :
    modeOf r pin = if (r.faults.any fun f => f.covers .mode pin) = true then
        .error (.error (.config (.injected CallKind.mode.word pin)))
      else modeOf r.device pin := by
  show ((query .mode pin (Backend.mode pin)).run r).1 = _
  rw [query, Act.run_bind, Line.run_checkFault]
  by_cases hrule : (r.faults.any fun f => f.covers .mode pin) = true
  · rw [if_pos hrule, if_pos hrule]
  · rw [if_neg hrule, if_neg hrule]
    rfl

theorem modeOf_device {r : Rig β} {pin : Nat} {m : Mode} (h : modeOf r pin = .ok m) :
    modeOf r.device pin = .ok m := by
  rw [modeOf_eq] at h
  split at h
  · cases h
  · exact h

theorem modeOf_congr {r r' : Rig β} {pin : Nat} (hfaults : r'.faults = r.faults)
    (hdevice : modeOf r'.device pin = modeOf r.device pin) : modeOf r' pin = modeOf r pin := by
  rw [modeOf_eq, modeOf_eq, hdevice, hfaults]

/-- A read takes a level from the queue or asks the backend, unless a rule keeps it from that. -/
theorem run_read (r : Rig β) (pin : Nat) :
    (Backend.read pin : Act (Rig β) Bool).run r =
      if (r.faults.any fun f => f.covers .read pin) = true then
        (.error (.error (.config (.injected CallKind.read.word pin))), r)
      else match dequeue? pin r.queued with
        | some (level, rest) => (.ok level, { r with queued := rest })
        | none => (onDevice (Backend.read pin)).run r := by
  show (checkFault .read pin >>= fun _ => readLevel pin (Backend.read pin)).run r = _
  rw [Act.run_bind, Line.run_checkFault]
  by_cases hrule : (r.faults.any fun f => f.covers .read pin) = true
  · rw [if_pos hrule, if_pos hrule]
  · rw [if_neg hrule, if_neg hrule]
    cases hqueue : dequeue? pin r.queued <;> simp [Act.run, readLevel, hqueue]

theorem matching (hQ : Matching Q Settable) : Matching (Alike Q) Settable where
  mode pin := alike_query _ pin (hQ.mode pin)
  pull pin := alike_query _ pin (hQ.pull pin)
  setMode pin m hm := alike_change _ _ (hQ.setMode pin m hm)
  setPull pin u := alike_change _ _ (hQ.setPull pin u)
  write pin high := alike_change _ _ (hQ.write pin high)
  toggle pin := alike_change _ _ (hQ.toggle pin)
  read r r' pin h hmode := by
    have hdevice := hQ.read _ _ pin h.device (modeOf_device hmode)
    unfold Act.MatchesAt
    rw [run_read, run_read, h.faults, h.queued]
    split
    · exact ⟨rfl, h⟩
    · split
      · exact ⟨rfl, h.device, rfl, rfl, h.journal⟩
      · exact h.onDevice hdevice
  shown r r' pin m h hm := hQ.shown _ _ pin m h.device (modeOf_device hm)
  read_modes r r' pin q h := by
    rw [run_read]
    split
    · rfl
    · split
      · exact modeOf_congr rfl rfl
      · exact modeOf_congr rfl (hQ.read_modes _ _ pin q h.device)

end Rig

/-! ## Lines -/

namespace Line

variable {β γ α : Type} {Q : β → γ → Prop} {Settable : Mode → Prop}

/-- The rigs are alike, and both lines go through them or past them. -/
structure Alike (Q : β → γ → Prop) (l : Line β) (l' : Line γ) : Prop where
  rig : Rig.Alike Q l.rig l'.rig
  direct : l.direct = l'.direct

theorem Alike.route {l : Line β} {l' : Line γ} (h : Alike Q l l') {x : Act (Rig β) α}
    {y : Act (Rig γ) α} {u : Act β α} {v : Act γ α}
    (hx : l.direct = false → Act.MatchesAt (Rig.Alike Q) x y l.rig l'.rig)
    (hu : l.direct = true → Act.MatchesAt Q u v l.rig.device l'.rig.device) :
    Act.MatchesAt (Alike Q) (Line.route x u) (Line.route y v) l l' := by
  unfold Act.MatchesAt
  simp only [Act.run, Line.route, ← h.direct]
  cases hd : l.direct with
  | false =>
    obtain ⟨hres, hrel⟩ := hx hd
    exact ⟨hres, hrel, rfl⟩
  | true =>
    obtain ⟨hres, hrel⟩ := h.rig.onDevice (hu hd)
    exact ⟨hres, hrel, rfl⟩

theorem alike_route {x : Act (Rig β) α} {y : Act (Rig γ) α} {u : Act β α} {v : Act γ α}
    (hx : Act.Matches (Rig.Alike Q) x y) (hu : Act.Matches Q u v) :
    Act.Matches (Alike Q) (route x u) (route y v) := fun _ _ h =>
  h.route (fun _ => hx _ _ h.rig) fun _ => hu _ _ h.rig.device

variable [Backend β] [Backend γ]

theorem modeOf_eq (l : Line β) (pin : Nat) :
    modeOf l pin = if l.direct then modeOf l.rig.device pin else modeOf l.rig pin := by
  show ((route (Backend.mode pin) (Backend.mode pin)).run l).1 = _
  simp only [Act.run, route]
  cases l.direct <;> rfl

theorem modeOf_device {l : Line β} {pin : Nat} {m : Mode} (h : modeOf l pin = .ok m) :
    modeOf l.rig.device pin = .ok m := by
  rw [modeOf_eq] at h
  split at h
  · exact h
  · exact Rig.modeOf_device h

/-- Lines to rigs around matching backends match. -/
theorem matching (hQ : Matching Q Settable) : Matching (Alike Q) Settable where
  mode pin := alike_route ((Rig.matching hQ).mode pin) (hQ.mode pin)
  pull pin := alike_route ((Rig.matching hQ).pull pin) (hQ.pull pin)
  setMode pin m hm := alike_route ((Rig.matching hQ).setMode pin m hm) (hQ.setMode pin m hm)
  setPull pin u := alike_route ((Rig.matching hQ).setPull pin u) (hQ.setPull pin u)
  write pin high := alike_route ((Rig.matching hQ).write pin high) (hQ.write pin high)
  toggle pin := alike_route ((Rig.matching hQ).toggle pin) (hQ.toggle pin)
  read l l' pin h hmode := by
    refine h.route (fun hd => ?_) fun _ => ?_
    · rw [modeOf_eq, hd] at hmode
      exact (Rig.matching hQ).read _ _ pin h.rig hmode
    · exact hQ.read _ _ pin h.rig.device (modeOf_device hmode)
  shown l l' pin m h hm := hQ.shown _ _ pin m h.rig.device (modeOf_device hm)
  read_modes l l' pin q h := by
    obtain ⟨rig, direct⟩ := l
    rw [modeOf_eq, modeOf_eq]
    cases direct with
    | false => exact (Rig.matching hQ).read_modes _ _ pin q h.rig
    | true => exact hQ.read_modes _ _ pin q h.rig.device

end Line

end BoardGpio
