/-!
# The monitor of a port

A port samples its inputs by itself while a callback is installed. Whenever the callbacks change, it
decides whether its monitor has to be started, stopped or left as it is. Main statement: after the
decision the monitor runs exactly if it is wanted (`runs_after_decide`).
-/

set_option autoImplicit false

namespace BoardGpio

/-- What is done with a monitor. -/
inductive MonitorStep where
  | start
  | stop
  | keep
  deriving DecidableEq, Repr

namespace MonitorStep

/-- What a monitor needs, from whether it is wanted and whether it runs. -/
def decide (wanted running : Bool) : MonitorStep :=
  match wanted, running with
  | true, false => start
  | false, true => stop
  | _, _ => keep

/-- Whether the monitor runs after a step. -/
def runsAfter (running : Bool) : MonitorStep → Bool
  | start => true
  | stop => false
  | keep => running

@[simp] theorem runs_after_decide (wanted running : Bool) :
    (decide wanted running).runsAfter running = wanted := by
  cases wanted <;> cases running <;> rfl

end MonitorStep

end BoardGpio
