import BoardGpio.Bench.Perform
import BoardGpio.Proofs.Backend.Restorable

/-!
# Calls on pins of a backend

A program calls a backend with the number of a pin (`Bench.PinCall.onBackend`). Besides its mode and
its pull (`Backend.modeOf`, `Backend.pullOf`) a pin shows a level.
-/

set_option autoImplicit false

namespace BoardGpio

/-- The level that a pin shows, or why it shows none. -/
def Backend.levelOf {β : Type} [Backend β] (b : β) (pin : Nat) : Except Failure Bool :=
  ((Backend.read pin : Act β Bool).run b).1

/-- What a call on a pin answers, and the backend it leaves. -/
def Backend.call {β : Type} [Backend β] (c : Bench.PinCall) (b : β) : Bench.Reply × β :=
  (c.onBackend : Act β Bench.Answer).run b

namespace Bench

/-- The pin that a call is about. -/
def PinCall.pin : PinCall → Nat
  | setMode pin _ => pin
  | mode pin => pin
  | setPull pin _ => pin
  | pull pin => pin
  | write pin _ => pin
  | read pin => pin
  | toggle pin => pin

variable {σ : Type}

theorem run_quiet (x : Act σ Unit) (s : σ) :
    (quiet x).run s = ((x.run s).1.map fun _ => .done, (x.run s).2) := by
  rw [quiet, Act.run_bind]
  rcases x.run s with ⟨_ | _, _⟩ <;> rfl

theorem run_quiet_state (x : Act σ Unit) (s : σ) : ((quiet x).run s).2 = (x.run s).2 := by
  rw [run_quiet]

end Bench

end BoardGpio
