import BoardGpio.Proofs.Handle.Said

/-!
# The moments of a conversation

A backend changes with the calls that are made of it and with nothing else, so the states that it
goes through while something is done with a handle are told by the conversation: they are those that
its calls lead to when they are made again, one after the other (`Gpio.moment`). What holds of every
state together with what was said until then is carried from call to call
(`Transcribed.Throughout.call`). Where one thing is done after the other and nothing is tried again,
a call that fails is the last (`Gpio.Halting`).
-/

set_option autoImplicit false

namespace BoardGpio

variable {β α : Type}

namespace Exchange

variable [Backend β]

/-- The state of a backend after the call was made of it again. -/
def again (b : β) : Exchange → β
  | setMode pin m _ => ((Backend.setMode pin m : Act β Unit).run b).2
  | mode pin _ => ((Backend.mode pin : Act β Mode).run b).2
  | setPull pin u _ => ((Backend.setPull pin u : Act β Unit).run b).2
  | pull pin _ => ((Backend.pull pin : Act β (Option Pull)).run b).2
  | write pin high _ => ((Backend.write pin high : Act β Unit).run b).2
  | read pin _ => ((Backend.read pin : Act β Bool).run b).2
  | toggle pin _ => ((Backend.toggle pin : Act β Unit).run b).2

/-- The state that the calls of a conversation lead to. -/
def replay (b : β) (told : List Exchange) : β := told.foldl again b

theorem replay_concat (b : β) (told : List Exchange) (x : Exchange) :
    replay b (told ++ [x]) = again (replay b told) x := by
  rw [replay, List.foldl_append]
  rfl

end Exchange

/-- The state of the backend after the first `k` of the calls that are made of it. -/
def Gpio.moment [Backend β] (x : Act (Gpio (Transcribed β)) α) (g : Gpio β) (k : Nat) : β :=
  Exchange.replay g.backend ((g.said x).take k)

namespace Transcribed

variable [Backend β]

/-- At every moment since the state `b₀`, something held of what was said and of the state that it
had led to. -/
structure Throughout (P : List Exchange → β → Prop) (b₀ : β) (t : Transcribed β) : Prop where
  now : Exchange.replay b₀ t.transcript = t.device
  always : ∀ k, P (t.transcript.take k) (Exchange.replay b₀ (t.transcript.take k))

variable {P : List Exchange → β → Prop} {b₀ : β} {t : Transcribed β}

theorem Throughout.start (h : P [] b₀) : Throughout P b₀ ⟨b₀, []⟩ where
  now := rfl
  always k := by
    rw [List.take_nil]
    exact h

omit [Backend β] in
theorem run_call_eq {x : Act β α} {exchange : Except Failure α → Exchange} {r : Except Failure α}
    {t' : Transcribed β} (hrun : (Transcribed.call x exchange).run t = (r, t')) :
    x.run t.device = (r, t'.device) ∧ t'.transcript = t.transcript ++ [exchange r] := by
  rw [run_call] at hrun
  cases hrun
  exact ⟨rfl, rfl⟩

/-- A call adds the moment after it. -/
theorem Throughout.call (h : t.Throughout P b₀) {x : Act β α}
    {exchange : Except Failure α → Exchange}
    (hagain : ∀ b r, Exchange.again b (exchange r) = (x.run b).2) {r : Except Failure α}
    {t' : Transcribed β} (hrun : (Transcribed.call x exchange).run t = (r, t'))
    (hafter : P t'.transcript t'.device) : t'.Throughout P b₀ := by
  obtain ⟨hdevice, htold⟩ := run_call_eq hrun
  have hnow : Exchange.replay b₀ t'.transcript = t'.device := by
    rw [htold, Exchange.replay_concat, h.now, hagain, hdevice]
  refine ⟨hnow, fun k => ?_⟩
  by_cases hk : k ≤ t.transcript.length
  · have hbefore : t'.transcript.take k = t.transcript.take k := by
      rw [htold, List.take_append_of_le_length hk]
    rw [hbefore]
    exact h.always k
  · have hall : t'.transcript.take k = t'.transcript := by
      apply List.take_of_length_le
      simp [htold]
      omega
    rw [hall, hnow]
    exact hafter

end Transcribed

/-! ## Conversations that a failure ends -/

/-- A call that failed is the last, and its failure is the result. -/
def Exchange.Halts (r : Except Failure α) (told : List Exchange) : Prop :=
  ∀ k x e, told[k]? = some x → x.failure? = some e → k + 1 = told.length ∧ r = .error e

/-- Nothing is said after a call that fails, and its failure is handed on. -/
def Gpio.Halting (x : Act (Gpio (Transcribed β)) α) : Prop :=
  ∀ t, ∃ told, (x.run t).2.backend.transcript = t.backend.transcript ++ told ∧
    Exchange.Halts (x.run t).1 told

namespace Gpio.Halting

variable {γ : Type}

/-- Where nothing is said, no call fails. -/
theorem silent {x : Act (Gpio (Transcribed β)) α}
    (h : ∀ t, (x.run t).2.backend.transcript = t.backend.transcript) : Halting x := by
  refine fun t => ⟨[], (h t).trans (List.append_nil _).symm, fun k y e hy => ?_⟩
  cases hy

theorem leaves {x : Act (Gpio (Transcribed β)) α} (hx : x.Leaves) : Halting x :=
  silent fun t => by rw [hx t]

theorem update (f : Handle → Handle) :
    Halting (Gpio.update f : Act (Gpio (Transcribed β)) Unit) :=
  silent fun _ => rfl

theorem note (n : Notice) : Halting (Gpio.note n : Act (Gpio (Transcribed β)) Unit) :=
  silent fun _ => rfl

/-- A single call fails as its answer says. -/
theorem call {x : Act β α} {exchange : Except Failure α → Exchange}
    (hfail : ∀ r, (exchange r).failure? = Failure.of? r) :
    Halting (hardware (Transcribed.call x exchange)) := by
  intro t
  refine ⟨[exchange (x.run t.backend.device).1], rfl, fun k y e hy he => ?_⟩
  obtain ⟨hk, rfl⟩ := List.getElem?_eq_some_iff.mp hy
  obtain rfl : k = 0 := Nat.lt_one_iff.mp hk
  refine ⟨rfl, ?_⟩
  show (x.run t.backend.device).1 = .error e
  rw [List.getElem_singleton, hfail] at he
  cases hr : (x.run t.backend.device).1 with
  | error e' =>
    rw [hr] at he
    exact congrArg _ (Option.some.inj he)
  | ok a =>
    rw [hr] at he
    cases he

theorem bind {x : Act (Gpio (Transcribed β)) α} {f : α → Act (Gpio (Transcribed β)) γ}
    (hx : Halting x) (hf : ∀ a, Halting (f a)) : Halting (x >>= f) := by
  intro t
  obtain ⟨told, htold, hhalts⟩ := hx t
  rcases hrun : x.run t with ⟨e | a, t'⟩
  all_goals rw [hrun] at htold hhalts
  · rw [Act.run_bind_error f hrun]
    refine ⟨told, htold, fun k y e' hy he' => ?_⟩
    obtain ⟨hlast, hres⟩ := hhalts k y e' hy he'
    cases hres
    exact ⟨hlast, rfl⟩
  · rw [Act.run_bind_ok f hrun]
    obtain ⟨more, hmore, hhalts'⟩ := hf a t'
    refine ⟨told ++ more, ?_, fun k y e hy he => ?_⟩
    · rw [hmore, htold, List.append_assoc]
    · by_cases hk : k < told.length
      · -- the first part went well, so no call in it failed
        rw [List.getElem?_append_left hk] at hy
        cases (hhalts k y e hy he).2
      · rw [List.getElem?_append_right (Nat.le_of_not_lt hk)] at hy
        obtain ⟨hlast, hres⟩ := hhalts' _ y e hy he
        refine ⟨?_, hres⟩
        rw [List.length_append]
        omega

theorem collect {f : α → Act (Gpio (Transcribed β)) γ} (hf : ∀ a, Halting (f a)) (as : List α) :
    Halting (Act.collect f as) := by
  induction as with
  | nil => exact leaves (Act.Leaves.pure _)
  | cons a as ih => exact (hf a).bind fun _ => ih.bind fun _ => leaves (Act.Leaves.pure _)

/-- What is said from the start on is the whole conversation. -/
theorem said {x : Act (Gpio (Transcribed β)) α} (hx : Halting x) (g : Gpio β) :
    Exchange.Halts (x.run g.transcribed).1 (g.said x) := by
  obtain ⟨told, htold, hhalts⟩ := hx g.transcribed
  have hsaid : g.said x = told := htold
  rw [hsaid]
  exact hhalts

variable [Backend β]

theorem write (pin : Nat) (high : Bool) :
    Halting (Gpio.write pin high : Act (Gpio (Transcribed β)) Unit) :=
  (leaves (leaves_mcuPin pin)).bind fun _ => call fun _ => rfl

theorem setMode (pin : Nat) (m : Mode) :
    Halting (Gpio.setMode pin m : Act (Gpio (Transcribed β)) Unit) := by
  have hswitch : ∀ mcu, Halting (Gpio.switch mcu m : Act (Gpio (Transcribed β)) Unit) := fun mcu =>
    (call fun _ => rfl).bind fun _ => silent fun _ => rfl
  exact (leaves (leaves_mcuPin pin)).bind fun mcu => (call fun _ => rfl).bind fun _ =>
    (hswitch mcu).bind fun _ => (update _).bind fun _ => note _

end Gpio.Halting

end BoardGpio
