import BoardGpio.Backend.Basic
import BoardGpio.Proofs.Act.Match

/-!
# Transcripts

A transcribed backend keeps a transcript of what passes between it and its user: every call with the
answer it got, in their order. Nothing about the calls is changed by putting them down
(`Transcribed.matches_call`), so what a transcript shows is true of the backend without one. A
conversation ends with the first failure in it (`Exchange.ending`).
-/

set_option autoImplicit false

namespace BoardGpio

/-- Why something failed, if it did. -/
def Failure.of? {α : Type} : Except Failure α → Option Failure
  | .error e => some e
  | .ok _ => none

theorem Failure.of?_eq_none_iff {α : Type} {answer : Except Failure α} :
    Failure.of? answer = none ↔ ∃ a, answer = .ok a := by
  cases answer <;> simp [Failure.of?]

/-- A call of a backend and its answer. -/
inductive Exchange where
  | setMode (pin : Nat) (mode : Mode) (answer : Except Failure Unit)
  | mode (pin : Nat) (answer : Except Failure Mode)
  | setPull (pin : Nat) (pull : Pull) (answer : Except Failure Unit)
  | pull (pin : Nat) (answer : Except Failure (Option Pull))
  | write (pin : Nat) (high : Bool) (answer : Except Failure Unit)
  | read (pin : Nat) (answer : Except Failure Bool)
  | toggle (pin : Nat) (answer : Except Failure Unit)

namespace Exchange

/-- Answers can be told apart if values and errors can. -/
scoped instance decidableEqAnswer {ε α : Type} [DecidableEq ε] [DecidableEq α] :
    DecidableEq (Except ε α)
  | .ok a, .ok b => decidable_of_iff (a = b) (by simp)
  | .error e, .error f => decidable_of_iff (e = f) (by simp)
  | .ok _, .error _ => isFalse nofun
  | .error _, .ok _ => isFalse nofun

deriving instance DecidableEq for Exchange

/-- The pin that a call is about. -/
def pin : Exchange → Nat
  | setMode p _ _ => p
  | mode p _ => p
  | setPull p _ _ => p
  | pull p _ => p
  | write p _ _ => p
  | read p _ => p
  | toggle p _ => p

/-- The change that a call was made for, also if it failed; none for a question. -/
def change? : Exchange → Option Change
  | setMode p m _ => some (.setMode p m)
  | setPull p u _ => some (.setPull p u)
  | write p high _ => some (.write p high)
  | toggle p _ => some (.toggle p)
  | mode _ _ => none
  | pull _ _ => none
  | read _ _ => none

/-- Why a call failed, if it did. -/
def failure? : Exchange → Option Failure
  | setMode _ _ a => Failure.of? a
  | mode _ a => Failure.of? a
  | setPull _ _ a => Failure.of? a
  | pull _ a => Failure.of? a
  | write _ _ a => Failure.of? a
  | read _ a => Failure.of? a
  | toggle _ a => Failure.of? a

/-- How a conversation ends that breaks off at the first failure. -/
def ending (told : List Exchange) : Except Failure Unit :=
  match told.findSome? failure? with
  | some e => .error e
  | none => .ok ()

theorem ending_eq_ok_iff {told : List Exchange} :
    ending told = .ok () ↔ ∀ x ∈ told, x.failure? = none := by
  rw [← List.findSome?_eq_none_iff, ending]
  cases told.findSome? failure? <;> simp

theorem ending_eq_error_iff {told : List Exchange} {e : Failure} :
    ending told = .error e ↔ told.findSome? failure? = some e := by
  rw [ending]
  cases told.findSome? failure? <;> simp

/-- The failure that a conversation ends with is the failure of a call in it. -/
theorem exists_of_ending {told : List Exchange} {e : Failure} (h : ending told = .error e) :
    ∃ x ∈ told, x.failure? = some e :=
  List.exists_of_findSome?_eq_some (ending_eq_error_iff.mp h)

/-- A conversation that is carried on ends with its first part's failure, or as its second part. -/
theorem ending_append (told more : List Exchange) :
    ending (told ++ more) = ending told >>= fun _ => ending more := by
  rw [ending, List.findSome?_append, ending]
  cases told.findSome? failure? <;> rfl

end Exchange

/-- A backend with a transcript of the calls made of it and their answers. -/
structure Transcribed (β : Type) where
  device : β
  transcript : List Exchange := []

namespace Transcribed

variable {β α : Type}

/-- A call, which is put down with its answer. -/
def call (x : Act β α) (exchange : Except Failure α → Exchange) : Act (Transcribed β) α := fun t =>
  let (r, d) := x t.device
  (r, ⟨d, t.transcript ++ [exchange r]⟩)

theorem run_call (x : Act β α) (exchange : Except Failure α → Exchange) (t : Transcribed β) :
    (call x exchange).run t = ((x.run t.device).1,
      ⟨(x.run t.device).2, t.transcript ++ [exchange (x.run t.device).1]⟩) := rfl

variable [Backend β]

instance : Backend (Transcribed β) where
  name t := Backend.name t.device
  pinCount t := Backend.pinCount t.device
  setMode pin m := call (Backend.setMode pin m) (.setMode pin m)
  mode pin := call (Backend.mode pin) (.mode pin)
  setPull pin u := call (Backend.setPull pin u) (.setPull pin u)
  pull pin := call (Backend.pull pin) (.pull pin)
  write pin high := call (Backend.write pin high) (.write pin high)
  read pin := call (Backend.read pin) (.read pin)
  toggle pin := call (Backend.toggle pin) (.toggle pin)
  notice? t pin m := Backend.notice? t.device pin m

/-- The backend that is transcribed is in this state. -/
def Of (b : β) (t : Transcribed β) : Prop := t.device = b

omit [Backend β] in
/-- Putting a call down changes nothing about it. -/
theorem matches_call (x : Act β α) (exchange : Except Failure α → Exchange) :
    Act.Matches Of x (call x exchange) := by
  rintro b t rfl
  exact ⟨rfl, rfl⟩

end Transcribed

end BoardGpio
