import BoardGpio.Backend.Rig
import BoardGpio.Proofs.Backend.Apart
import BoardGpio.Proofs.Backend.Transcript

/-!
# Backends with failing calls

A faulty backend fails in chosen calls before they take effect, chosen by their kind and their pin.
Whether a call fails is then a matter of its own pin, and so is what is put down about it in a
transcript. Hence a backend whose pins are kept apart keeps them apart when calls of it fail and are
transcribed (`Faulty.apart`, `Transcribed.apart`).
-/

set_option autoImplicit false

namespace BoardGpio

open Backend

/-- A backend with chosen calls that fail before they take effect. -/
structure Faulty (β : Type) where
  device : β
  /-- The error of a call of this kind on this pin, if it is to fail. -/
  fails : CallKind → Nat → Option Error

namespace Faulty

variable {β α : Type}

/-- A call: it fails if it is chosen, and otherwise the device does it. -/
def call (kind : CallKind) (pin : Nat) (x : Act β α) : Act (Faulty β) α := fun f =>
  match f.fails kind pin with
  | some e => (.error (.error e), f)
  | none =>
    let (r, d) := x f.device
    (r, { f with device := d })

instance [Backend β] : Backend (Faulty β) where
  name f := Backend.name f.device
  pinCount f := Backend.pinCount f.device
  setMode pin m := call .setMode pin (Backend.setMode pin m)
  mode pin := call .mode pin (Backend.mode pin)
  setPull pin u := call .setPull pin (Backend.setPull pin u)
  pull pin := call .pull pin (Backend.pull pin)
  write pin high := call .write pin (Backend.write pin high)
  read pin := call .read pin (Backend.read pin)
  toggle pin := call .toggle pin (Backend.toggle pin)
  notice? f pin m := Backend.notice? f.device pin m

/-- The backend where, of the calls that fail, only those on one pin still do. -/
def only (pin : Nat) (f : Faulty β) : Faulty β :=
  { f with fails := fun kind p => if p = pin then f.fails kind p else none }

theorem run_call (kind : CallKind) (pin : Nat) (x : Act β α) (f : Faulty β) :
    (call kind pin x).run f = match f.fails kind pin with
      | some e => (.error (.error e), f)
      | none => ((x.run f.device).1, { f with device := (x.run f.device).2 }) := rfl

/-- The devices agree about a pin, and the same calls on the pin fail. -/
structure Agree (R : Nat → β → β → Prop) (pin : Nat) (f g : Faulty β) : Prop where
  device : R pin f.device g.device
  fails : ∀ kind, f.fails kind pin = g.fails kind pin

variable {R : Nat → β → β → Prop}

theorem confined_call {pin : Nat} {x : Act β α} (kind : CallKind) (hx : Act.Confined R pin x) :
    Act.Confined (Agree R) pin (call kind pin x) where
  own f g h := by
    unfold Act.MatchesAt
    rw [run_call, run_call, ← h.fails]
    cases f.fails kind pin with
    | some e => exact ⟨rfl, h⟩
    | none =>
      obtain ⟨hres, hrel⟩ := hx.own _ _ h.device
      exact ⟨hres, hrel, h.fails⟩
  others p hp g f h := by
    show Agree R p ((call kind pin x).run f).2 g
    rw [run_call]
    cases f.fails kind pin with
    | some e => exact h
    | none => exact ⟨hx.others p hp _ _ h.device, h.fails⟩
  calm p f g h e := by
    rw [run_call]
    cases f.fails kind pin with
    | some e => exact nofun
    | none => exact hx.calm p _ _ h.device e

/-- Pins that are kept apart are kept apart where calls fail. -/
theorem apart [Backend β] (hR : Apart R) : Apart (Agree R) where
  symm _ _ _ h := ⟨hR.symm _ _ _ h.device, fun kind => (h.fails kind).symm⟩
  setMode pin m := confined_call _ (hR.setMode pin m)
  setPull pin u := confined_call _ (hR.setPull pin u)
  pull pin := confined_call _ (hR.pull pin)

/-- About a pin, the backend agrees with itself where other calls do not fail. -/
theorem agree_only (f : Faulty β) (pin : Nat) (h : R pin f.device f.device) :
    Agree R pin f (f.only pin) :=
  ⟨h, fun _ => (if_pos rfl).symm⟩

end Faulty

namespace Transcribed

variable {β α : Type} {R : Nat → β → β → Prop}

/-- No promise was broken in what is put down. -/
def Calm (t : Transcribed β) : Prop := ∀ x ∈ t.transcript, ∀ f, x.failure? ≠ some (.fault f)

/-- The devices agree about a pin, and the same was said about it. -/
structure Agree (R : Nat → β → β → Prop) (pin : Nat) (t u : Transcribed β) : Prop where
  device : R pin t.device u.device
  told : t.transcript.filter (fun x => x.pin = pin) = u.transcript.filter fun x => x.pin = pin
  calm : t.Calm
  calm' : u.Calm

theorem Calm.call {t : Transcribed β} (ht : t.Calm) {x : Act β α}
    {exchange : Except Failure α → Exchange}
    (hfail : ∀ r, (exchange r).failure? = Failure.of? r)
    (hx : ∀ f, (x.run t.device).1 ≠ .error (.fault f)) : ((call x exchange).run t).2.Calm := by
  intro y hy f hfault
  rw [run_call] at hy
  rcases List.mem_append.mp hy with hy | hy
  · exact ht y hy f hfault
  · rw [List.mem_singleton.mp hy, hfail] at hfault
    rcases hr : (x.run t.device).1 with e | a <;> rw [hr] at hfault
    · cases hfault
      exact hx f hr
    · cases hfault

theorem confined_call {pin : Nat} {x : Act β α} {exchange : Except Failure α → Exchange}
    (hpin : ∀ r, (exchange r).pin = pin) (hfail : ∀ r, (exchange r).failure? = Failure.of? r)
    (hR : ∀ p b c, R p b c → R p c b) (hx : Act.Confined R pin x) :
    Act.Confined (Agree R) pin (call x exchange) where
  own t u h := by
    obtain ⟨hres, hrel⟩ := hx.own _ _ h.device
    refine ⟨hres, hrel, ?_, h.calm.call hfail (hx.calm pin _ _ h.device),
      h.calm'.call hfail (hx.calm pin _ _ (hR _ _ _ h.device))⟩
    rw [run_call, run_call, List.filter_append, List.filter_append, h.told, hres]
  others p hp u t h := by
    refine ⟨hx.others p hp _ _ h.device, ?_, h.calm.call hfail (hx.calm p _ _ h.device), h.calm'⟩
    have hother : [exchange (x.run t.device).1].filter (fun y => y.pin = p) = [] := by
      refine List.filter_eq_nil_iff.mpr fun y hy => ?_
      rw [List.mem_singleton.mp hy, hpin]
      exact fun heq => hp (of_decide_eq_true heq).symm
    show (t.transcript ++ [exchange (x.run t.device).1]).filter _ = _
    rw [List.filter_append, hother, List.append_nil, h.told]
  calm p t u h := hx.calm p _ _ h.device

/-- Pins that are kept apart are kept apart in a transcript. -/
theorem apart [Backend β] (hR : Apart R) : Apart (Agree R) where
  symm _ _ _ h := ⟨hR.symm _ _ _ h.device, h.told.symm, h.calm', h.calm⟩
  setMode pin m := confined_call (fun _ => rfl) (fun _ => rfl) hR.symm (hR.setMode pin m)
  setPull pin u := confined_call (fun _ => rfl) (fun _ => rfl) hR.symm (hR.setPull pin u)
  pull pin := confined_call (fun _ => rfl) (fun _ => rfl) hR.symm (hR.pull pin)

end Transcribed

end BoardGpio
