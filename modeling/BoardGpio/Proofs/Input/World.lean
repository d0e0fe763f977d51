import BoardGpio.Input.Cycle
import BoardGpio.Proofs.Act.Invariant

/-!
# What a cycle does to the world

A sampling cycle touches the world around its port in four ways only: it reads levels, lets time
pass, writes to the log, and calls callbacks. So what these four keep true of the world is kept by
the whole cycle (`keeps_poll`), whatever is sampled, called or fails in it.
-/

set_option autoImplicit false

namespace BoardGpio.Desk

variable {κ ε : Type} {I : ε → Prop}

/-- The four ways to touch the world keep something true of it. -/
structure Spares (I : ε → Prop) (s : Surroundings ε) (invoke : Invoke κ ε) : Prop where
  read : ∀ mcu, (s.read mcu).Keeps I
  pause : ∀ d w, I w → I (s.pause d w)
  note : ∀ n w, I w → I (s.note n w)
  invoke : ∀ action occasion d, I d.around → I (invoke action occasion d).2.around

variable {s : Surroundings ε} {invoke : Invoke κ ε}

theorem keeps_sample (h : ∀ mcu, (s.read mcu).Keeps I) :
    (sample s).Keeps fun d : Desk κ ε => I d.around := by
  refine (Act.Leaves.gets _).keeps.bind fun inputs => Act.Keeps.collect (fun i => ?_) inputs
  refine (Act.Keeps.within (h i.mcu) fun _ _ => rfl).bind fun high => Act.Keeps.pure _

theorem keeps_report (h : Spares I s invoke) (notice : Nat → Notice) (d : Desk κ ε)
    (hd : I d.around) : I (report s notice d).around := by
  rcases hallow : d.port.throttle.allow (s.now d.around) with ⟨allowed, throttle⟩
  simp only [report, hallow]
  cases allowed
  · exact hd
  · exact h.note _ _ hd

theorem keeps_makeCall (h : Spares I s invoke) (active : PinSet) (c : PendingCall κ)
    (d : Desk κ ε) (hd : I d.around) : I (makeCall s invoke active c d).2.around := by
  unfold makeCall
  by_cases hc : c.isCurrent d.port = true
  · rw [if_pos hc]
    have hcalled := h.invoke c.callback.action (c.occasion active) d hd
    rcases hinv : invoke c.callback.action (c.occasion active) d with ⟨_ | reason, d'⟩
    · rw [hinv] at hcalled
      exact hcalled
    · rw [hinv] at hcalled
      exact keeps_report h _ { d' with port := d'.port.countCall true } hcalled
  · rw [if_neg hc]
    exact hd

theorem keeps_makeCalls (h : Spares I s invoke) (active : PinSet) (calls : List (PendingCall κ))
    (d : Desk κ ε) (hd : I d.around) : I (makeCalls s invoke active calls d).2.around := by
  induction calls generalizing d with
  | nil => exact hd
  | cons c calls ih => exact ih _ (keeps_makeCall h active c d hd)

theorem keeps_settle (h : Spares I s invoke) (levels : List Bool) :
    (settle s invoke levels).Keeps fun d => I d.around := by
  refine (Act.Leaves.lift _).keeps.bind fun active => ?_
  refine (Act.Leaves.gets _).keeps.bind fun calls => ?_
  refine Act.Keeps.bind (Act.Keeps.modify fun d hd => hd) fun _ => ?_
  exact fun d hd => keeps_makeCalls h active calls d hd

theorem keeps_confirm (h : Spares I s invoke) (delay : Duration) (levels : List Bool) :
    (confirm s invoke delay levels).Keeps fun d => I d.around := by
  refine Act.Keeps.bind (Act.Keeps.modify fun d hd => h.pause delay _ hd) fun _ => ?_
  refine (keeps_sample h.read).bind fun again => ?_
  by_cases hsame : again = levels
  · rw [if_pos hsame]
    exact keeps_settle h again
  · rw [if_neg hsame]
    exact Act.Keeps.pure _

/-- A cycle keeps true of the world what reading, waiting, noting and callbacks do. -/
theorem keeps_poll (h : Spares I s invoke) : (poll s invoke).Keeps fun d => I d.around := by
  refine (keeps_sample h.read).bind fun levels => ?_
  refine Act.Keeps.bind (Act.Keeps.modify fun d hd => hd) fun _ => ?_
  refine (Act.Leaves.gets _).keeps.bind fun port => ?_
  by_cases hsame : levels = port.levels
  · rw [if_pos hsame]
    exact Act.Keeps.pure _
  · rw [if_neg hsame]
    cases port.settings.debounce with
    | none => exact keeps_settle h levels
    | some delay => exact keeps_confirm h delay levels

theorem keeps_monitorCycle (h : Spares I s invoke) :
    (monitorCycle s invoke).Keeps fun d => I d.around := by
  refine (keeps_poll h).attempt.bind fun outcome => ?_
  cases outcome with
  | ok made => exact Act.Keeps.pure ()
  | error e => exact Act.Keeps.modify fun d hd => keeps_report h _ d hd

end BoardGpio.Desk
