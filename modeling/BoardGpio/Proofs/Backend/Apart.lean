import BoardGpio.Backend.Device
import BoardGpio.Proofs.Act.Match
import BoardGpio.Proofs.Backend.BcmFields
import BoardGpio.Proofs.Backend.H3Fields
import BoardGpio.Proofs.Backend.Sim

/-!
# Pins apart

Two states of a device agree about a pin if the pin shows the same mode and the same pull in both,
whatever the other pins show. A change of a mode or a pull is confined to its pin: from states that
agree about the pin it ends alike and leaves states that agree about it, and it changes nothing that
states can agree or disagree on about another pin (`Act.Confined`). The pins of simulated boards, of
the BCM283x chips and of the H3 are all kept apart in this sense (`Device.apart`).
-/

set_option autoImplicit false

namespace BoardGpio

namespace Act

variable {σ α β : Type} {R : Nat → σ → σ → Prop} {pin : Nat}

/-- An action is about one pin, where `R` tells of two states that they agree about a pin. It breaks
no promise from any state that agrees with some other about any pin. -/
structure Confined (R : Nat → σ → σ → Prop) (pin : Nat) (x : Act σ α) : Prop where
  own : Matches (R pin) x x
  others : ∀ p, p ≠ pin → ∀ t, x.Keeps fun s => R p s t
  calm : ∀ p s t, R p s t → ∀ f, (x.run s).1 ≠ .error (.fault f)

/-- A state that an action leaves agrees with some other still. -/
theorem Confined.follows {x : Act σ α} (hx : Confined R pin x) {p : Nat} {s t : σ}
    (h : R p s t) : ∃ t', R p (x.run s).2 t' := by
  by_cases hp : p = pin
  · subst hp
    exact ⟨_, (hx.own s t h).2⟩
  · exact ⟨t, hx.others p hp t s h⟩

/-- States that agree about a pin do so after an action about any pin. -/
theorem Confined.agree {x : Act σ α} (hx : Confined R pin x)
    (hsymm : ∀ p s t, R p s t → R p t s) {p : Nat} {s t : σ} (h : R p s t) :
    R p (x.run s).2 (x.run t).2 := by
  by_cases hp : p = pin
  · subst hp
    exact (hx.own s t h).2
  · exact hx.others p hp _ s (hsymm _ _ _ (hx.others p hp _ t (hsymm _ _ _ h)))

theorem Confined.pure (a : α) : Confined R pin (pure a) :=
  ⟨Matches.pure a, fun _ _ _ => Keeps.pure a, fun _ _ _ _ _ => nofun⟩

theorem Confined.bind {x : Act σ α} {f : α → Act σ β} (hx : Confined R pin x)
    (hf : ∀ a, Confined R pin (f a)) : Confined R pin (x >>= f) where
  own := hx.own.bind fun a => (hf a).own
  others p hp t := (hx.others p hp t).bind fun a => (hf a).others p hp t
  calm p s t h e := by
    obtain ⟨t', h'⟩ := hx.follows h
    have hcalm := hx.calm p s t h e
    rw [run_bind]
    rcases hrun : x.run s with ⟨failure | a, s'⟩
    · intro hfault
      cases hfault
      exact hcalm (congrArg Prod.fst hrun)
    · rw [hrun] at h'
      exact (hf a).calm p s' t' h' e

/-- A change of what states neither agree nor disagree on is about any pin. -/
theorem Confined.modify {f : σ → σ} (hf : ∀ p s t, R p s t → R p (f s) t)
    (hsymm : ∀ p s t, R p s t → R p t s) : Confined R pin (modify f) where
  own := Matches.modify fun _ _ h => hsymm _ _ _ (hf _ _ _ (hsymm _ _ _ (hf _ _ _ h)))
  others p _ t := Keeps.modify fun s h => hf p s t h
  calm _ _ _ _ _ := nofun

/-- What is refused whatever the state is about any pin. -/
theorem Confined.refused {x : Act σ α} {e : Error} (hx : ∀ s, x.run s = (.error (.error e), s)) :
    Confined R pin x where
  own s t h := by
    unfold MatchesAt
    rw [hx, hx]
    exact ⟨rfl, h⟩
  others p _ t s h := by
    rw [hx]
    exact h
  calm p s t _ f := by
    rw [hx]
    exact nofun

/-- A question is about a pin if states that agree about the pin give it the same answer. -/
theorem Confined.question {x : Act σ α} (hleaves : ∀ p s t, R p s t → (x.run s).2 = s)
    (hsymm : ∀ p s t, R p s t → R p t s)
    (hsame : ∀ s t, R pin s t → (x.run s).1 = (x.run t).1)
    (hcalm : ∀ p s t, R p s t → ∀ f, (x.run s).1 ≠ .error (.fault f)) : Confined R pin x where
  own s t h := ⟨hsame s t h, by
    rw [hleaves _ s t h, hleaves _ t s (hsymm _ s t h)]
    exact h⟩
  others p _ t s h := by
    show R p (x.run s).2 t
    rw [hleaves p s t h]
    exact h
  calm := hcalm

/-- An action without a value is about a pin if it is so when it is told what it did. -/
theorem Confined.of_quiet {x : Act σ Unit} (hx : Confined R pin (Bench.quiet x)) :
    Confined R pin x := by
  have hmap : ∀ r r' : Except Failure Unit,
      r.map (fun _ => Bench.Answer.done) = r'.map (fun _ => Bench.Answer.done) → r = r' := by
    rintro (_ | _) (_ | _) h <;> cases h <;> rfl
  refine ⟨fun s t h => ?_, fun p hp t s h => ?_, fun p s t h f hfault => ?_⟩
  · obtain ⟨hres, hrel⟩ := hx.own s t h
    rw [Bench.run_quiet, Bench.run_quiet] at hres
    rw [Bench.run_quiet_state, Bench.run_quiet_state] at hrel
    exact ⟨hmap _ _ hres, hrel⟩
  · have hkept := hx.others p hp t s h
    rw [Bench.run_quiet_state] at hkept
    exact hkept
  · have hcalm := hx.calm p s t h f
    rw [Bench.run_quiet, hfault] at hcalm
    exact hcalm rfl

end Act

/-- A change of a mode or a pull, and the question for a pull, are about one pin each. -/
structure Backend.Apart {β : Type} [Backend β] (R : Nat → β → β → Prop) : Prop where
  symm : ∀ p b c, R p b c → R p c b
  setMode : ∀ pin m, Act.Confined R pin (Backend.setMode pin m)
  setPull : ∀ pin u, Act.Confined R pin (Backend.setPull pin u)
  pull : ∀ pin, Act.Confined R pin (Backend.pull pin : Act β (Option Pull))

open Backend Bench

/-! ## Simulated pins -/

namespace Sim

/-- The pin is the same, on backends set up alike. -/
structure Agree (pin : Nat) (s t : Sim) : Prop where
  pin : s.pins[pin]? = t.pins[pin]?
  readable : s.pullReadable = t.pullReadable
  pwm : s.pwmPins = t.pwmPins

theorem Agree.symm {p : Nat} {s t : Sim} (h : Agree p s t) : Agree p t s :=
  ⟨h.pin.symm, h.readable.symm, h.pwm.symm⟩

theorem Agree.shows {p : Nat} {s t : Sim} (h : Agree p s t) :
    modeOf s p = modeOf t p ∧ pullOf s p = pullOf t p :=
  ⟨modeOf_congr (congrArg _ h.pin), pullOf_congr h.readable (congrArg _ h.pin)⟩

theorem confined_mutate (pin : Nat) (f : SimPin → SimPin) :
    Act.Confined Agree pin (mutate pin f) where
  own s t h := by
    unfold Act.MatchesAt
    rw [run_mutate, run_mutate, ← h.pin]
    cases hpin : s.pins[pin]? with
    | none => exact ⟨rfl, h⟩
    | some x =>
      have hpin' : t.pins[pin]? = some x := h.pin ▸ hpin
      refine ⟨rfl, ?_, h.readable, h.pwm⟩
      rw [getElem?_replaced_same _ hpin, getElem?_replaced_same _ hpin']
  others p hp t s h := by
    show Agree p ((mutate pin f).run s).2 t
    rw [run_mutate]
    cases s.pins[pin]? with
    | none => exact h
    | some x => exact ⟨(getElem?_replaced_ne s _ hp).trans h.pin, h.readable, h.pwm⟩
  calm p s t _ e := by
    rw [run_mutate]
    cases s.pins[pin]? <;> exact nofun

theorem confined_setMode (pin : Nat) (m : Mode) :
    Act.Confined Agree pin (Backend.setMode pin m : Act Sim Unit) where
  own s t h := by
    have hmode : t.effectiveMode? pin m = s.effectiveMode? pin m := by
      unfold effectiveMode?
      rw [h.pwm]
    unfold Act.MatchesAt
    rw [run_setMode, run_setMode, hmode]
    cases s.effectiveMode? pin m with
    | none => exact ⟨rfl, h⟩
    | some m => exact (confined_mutate pin _).own s t h
  others p hp t s h := by
    show Agree p ((Backend.setMode pin m).run s).2 t
    rw [run_setMode]
    cases s.effectiveMode? pin m with
    | none => exact h
    | some m => exact (confined_mutate pin _).others p hp t s h
  calm p s t h e := by
    rw [run_setMode]
    cases s.effectiveMode? pin m with
    | none => exact nofun
    | some m => exact (confined_mutate pin _).calm p s t h e

theorem apart : Apart Agree where
  symm _ _ _ := Agree.symm
  setMode := confined_setMode
  setPull pin u := confined_mutate pin fun x => { x with pull := u }
  pull pin := by
    refine Act.Confined.question (fun p s t _ => ?_) (fun _ _ _ => Agree.symm)
      (fun s t h => h.shows.2) fun p s t _ e => ?_
    · rw [run_pull]
      cases s.pins[pin]? <;> rfl
    · rw [run_pull]
      cases s.pins[pin]? <;> exact nofun

end Sim

/-! ## BCM283x pins -/

namespace Bcm

/-- The pin shows the same, on chips of the same kind behind full windows. -/
structure Agree (pin : Nat) (b c : Bcm) : Prop where
  full : b.Full
  full' : c.Full
  soc : b.soc = c.soc
  mode : modeOf b pin = modeOf c pin
  pull : pullOf b pin = pullOf c pin

variable {b c : Bcm} {pin q : Nat}

theorem Agree.symm (h : Agree pin b c) : Agree pin c b :=
  ⟨h.full', h.full, h.soc.symm, h.mode.symm, h.pull.symm⟩

/-- Without pull fields, what a pin tells of its pull does not depend on the registers. -/
theorem pullOf_unread (hs : b.soc ≠ .bcm2711) :
    pullOf b q = if q < pinCount then .ok none else .error (.error (noSuchPin q)) := by
  rw [pullOf, run_pull_unread hs]

/-- Registers below the pull fields hold none of them. -/
theorem pullOf_put_below (b : Bcm) {i : Nat} (hi : i < 57) (v : Word) (q : Nat) :
    pullOf (b.put i v) q = pullOf b q := by
  by_cases hs : b.soc = .bcm2711
  · exact pullOf_put hs _ _ q fun heq => by omega
  · rw [pullOf_unread hs, pullOf_unread (b := b.put i v) hs]

/-- Changing a register keeps the agreement about a pin if it changes no field of the pin. -/
theorem Agree.put (h : Agree q b c) {i : Nat} {v : Word}
    (hmode : q < pinCount → i = q / 10 →
      v.field (q % 10 * 3) 3 = (b.window.word i).field (q % 10 * 3) 3)
    (hpull : b.soc = .bcm2711 → i = 57 + q / 16 →
      v.field (q % 16 * 2) 2 = (b.window.word i).field (q % 16 * 2) 2) :
    Agree q (b.put i v) c := by
  refine ⟨h.full, h.full', h.soc, (modeOf_put b i v q hmode).trans h.mode, ?_⟩
  by_cases hs : b.soc = .bcm2711
  · exact (pullOf_put hs i v q (hpull hs)).trans h.pull
  · rw [← h.pull, pullOf_unread hs, pullOf_unread (b := b.put i v) hs]

/-- The registers of the clocked sequence hold no field. -/
theorem Agree.put_clocked (h : Agree q b c) (hs : b.soc ≠ .bcm2711) {i : Nat} (hi : 5 < i)
    (v : Word) : Agree q (b.put i v) c :=
  h.put (fun hq heq => by have : q < 54 := hq; omega) fun hs' => absurd hs' hs

theorem Agree.setPull_clocked (h : Agree q b c) (hs : b.soc ≠ .bcm2711) (hpin : pin < pinCount)
    (u : Pull) : Agree q ((Backend.setPull pin u : Act Bcm Unit).run b).2 c := by
  rw [run_setPull_clocked hs h.full hpin]
  exact (((h.put_clocked hs (by omega) _).put_clocked hs (by omega) _).put_clocked hs
    (by omega) _).put_clocked hs (by omega) _

/-- Behind a full window, switching a pin of the chip is refused or writes its function field. -/
theorem run_setMode_full (hfull : b.Full) (hpin : pin < pinCount) (m : Mode) :
    (Backend.setMode pin m : Act Bcm Unit).run b =
      match (effectiveMode? b.soc pin m).bind functionCode? with
      | none => (.error (.error (.unsupportedMode pin m)), b)
      | some code => (.ok (),
          b.put (pin / 10) ((b.window.word (pin / 10)).setField (pin % 10 * 3) 3 code)) := by
  have hlt : pin < 54 := hpin
  have hword : pin / 10 < b.window.words := by
    rw [words_of_full hfull]
    omega
  rw [run_setMode, if_pos hpin]
  cases (effectiveMode? b.soc pin m).bind functionCode? with
  | none => rfl
  | some code => exact if_pos hword

theorem run_setPull_full (hfull : b.Full) (hpin : pin < pinCount) (hs : b.soc = .bcm2711)
    (u : Pull) : (Backend.setPull pin u : Act Bcm Unit).run b = (.ok (), b.put (57 + pin / 16)
      ((b.window.word (57 + pin / 16)).setField (pin % 16 * 2) 2 (pullCode u))) := by
  have hlt : pin < 54 := hpin
  have hword : 57 + pin / 16 < b.window.words := by
    rw [words_of_full hfull]
    omega
  rw [run_setPull hs, if_pos hpin, if_pos hword]

theorem code_lt {soc : Soc} {m : Mode} {code : Nat}
    (h : (effectiveMode? soc pin m).bind functionCode? = some code) : code < 1 <<< 3 :=
  let ⟨_, _, hcode⟩ := Option.bind_eq_some_iff.mp h
  functionCode_lt hcode

/-- Where a function field is written the pin shows the mode of the code. -/
theorem Agree.put_function (h : Agree pin b c) (hpin : pin < pinCount) {code : Nat}
    (hcode : code < 1 <<< 3) :
    Agree pin (b.put (pin / 10) ((b.window.word (pin / 10)).setField (pin % 10 * 3) 3 code))
      (c.put (pin / 10) ((c.window.word (pin / 10)).setField (pin % 10 * 3) 3 code)) := by
  have hlt : pin < 54 := hpin
  have hmodes : ∀ b : Bcm, b.Full → modeOf (b.put (pin / 10)
      ((b.window.word (pin / 10)).setField (pin % 10 * 3) 3 code)) pin = .ok (functionMode code) :=
    fun b hfull => modeOf_put_same hpin (by rw [words_of_full hfull]; omega) hcode
  have hpulls : ∀ (b : Bcm) v, pullOf (b.put (pin / 10) v) pin = pullOf b pin :=
    fun b v => pullOf_put_below b (by omega) v pin
  exact ⟨h.full, h.full', h.soc, (hmodes b h.full).trans (hmodes c h.full').symm,
    (hpulls b _).trans (h.pull.trans (hpulls c _).symm)⟩

theorem Agree.put_pull (h : Agree pin b c) (hpin : pin < pinCount) (hs : b.soc = .bcm2711)
    (u : Pull) : Agree pin
      (b.put (57 + pin / 16)
        ((b.window.word (57 + pin / 16)).setField (pin % 16 * 2) 2 (pullCode u)))
      (c.put (57 + pin / 16)
        ((c.window.word (57 + pin / 16)).setField (pin % 16 * 2) 2 (pullCode u))) := by
  have hlt : pin < 54 := hpin
  have hmodes : ∀ (b : Bcm) v, modeOf (b.put (57 + pin / 16) v) pin = modeOf b pin :=
    fun b v => modeOf_put b _ _ pin fun _ heq => by omega
  have hpulls : ∀ b : Bcm, b.Full → b.soc = .bcm2711 → pullOf (b.put (57 + pin / 16)
      ((b.window.word (57 + pin / 16)).setField (pin % 16 * 2) 2 (pullCode u))) pin =
        .ok (some u) := fun b hfull hs =>
    pullOf_put_same hs hpin (by rw [words_of_full hfull]; omega) u
  exact ⟨h.full, h.full', h.soc, (hmodes b _).trans (h.mode.trans (hmodes c _).symm),
    (hpulls b h.full hs).trans (hpulls c h.full' (h.soc ▸ hs)).symm⟩

theorem confined_setMode (pin : Nat) (m : Mode) :
    Act.Confined Agree pin (Backend.setMode pin m : Act Bcm Unit) := by
  by_cases hpin : pin < pinCount
  case neg =>
    exact Act.Confined.refused (e := noSuchPin pin) fun b => by rw [run_setMode, if_neg hpin]
  refine ⟨fun b c h => ?_, fun q hq c b h => ?_, fun q b c h f => ?_⟩
  · unfold Act.MatchesAt
    rw [run_setMode_full h.full hpin, run_setMode_full h.full' hpin, h.soc]
    cases hc : (effectiveMode? c.soc pin m).bind functionCode? with
    | none => exact ⟨rfl, h⟩
    | some code => exact ⟨rfl, h.put_function hpin (code_lt hc)⟩
  · show Agree q ((Backend.setMode pin m).run b).2 c
    rw [run_setMode_full h.full hpin]
    cases hc : (effectiveMode? b.soc pin m).bind functionCode? with
    | none => exact h
    | some code =>
      have hlt : pin < 54 := hpin
      exact h.put (fun _ heq => Word.field_setField_disjoint _ (code_lt hc) (by omega))
        fun _ heq => by omega
  · rw [run_setMode_full h.full hpin]
    cases (effectiveMode? b.soc pin m).bind functionCode? <;> exact nofun

theorem confined_setPull (pin : Nat) (u : Pull) :
    Act.Confined Agree pin (Backend.setPull pin u : Act Bcm Unit) := by
  by_cases hpin : pin < pinCount
  case neg =>
    refine Act.Confined.refused (e := noSuchPin pin) fun b => ?_
    show (Bcm.setPull pin u).run b = _
    rw [Bcm.setPull, run_checked, if_neg hpin]
  refine ⟨fun b c h => ?_, fun q hq c b h => ?_, fun q b c h f => ?_⟩
  · by_cases hs : b.soc = .bcm2711
    · unfold Act.MatchesAt
      rw [run_setPull_full h.full hpin hs, run_setPull_full h.full' hpin (h.soc ▸ hs)]
      exact ⟨rfl, h.put_pull hpin hs u⟩
    · have hs' : c.soc ≠ .bcm2711 := h.soc ▸ hs
      refine ⟨?_, ((h.setPull_clocked hs hpin u).symm.setPull_clocked hs' hpin u).symm⟩
      rw [run_setPull_clocked hs h.full hpin, run_setPull_clocked hs' h.full' hpin]
  · by_cases hs : b.soc = .bcm2711
    · show Agree q ((Backend.setPull pin u).run b).2 c
      rw [run_setPull_full h.full hpin hs]
      have hlt : pin < 54 := hpin
      exact h.put (fun hq heq => by have : q < 54 := hq; omega) fun _ heq =>
        Word.field_setField_disjoint _ (pullCode_lt u) (by omega)
    · exact h.setPull_clocked hs hpin u
  · by_cases hs : b.soc = .bcm2711
    · rw [run_setPull_full h.full hpin hs]
      rintro ⟨⟩
    · rw [run_setPull_clocked hs h.full hpin]
      rintro ⟨⟩

theorem apart : Apart Agree where
  symm _ _ _ := Agree.symm
  setMode := confined_setMode
  setPull := confined_setPull
  pull pin := by
    refine Act.Confined.question (fun _ b _ _ => ?_) (fun _ _ _ => Agree.symm)
      (fun _ _ h => h.pull) fun _ b _ h f => ?_
    · by_cases hs : b.soc = .bcm2711
      · rw [run_pull hs]
      · rw [run_pull_unread hs]
    · have hne := call_ne_fault h.full (.pull pin) f
      rw [call, PinCall.onBackend, Act.run_map] at hne
      intro hfault
      rw [hfault] at hne
      exact hne rfl

end Bcm

/-! ## H3 pins -/

namespace H3

/-- The fields of the pin hold the same, in full windows. -/
structure Agree (pin : Nat) (h h' : H3) : Prop where
  full : h.Full
  full' : h'.Full
  fields : ∀ p, place? pin = some p → ∀ a, h.fetch (p.field a) = h'.fetch (p.field a)

variable {h h' : H3} {pin : Nat}

theorem Agree.symm (ha : Agree pin h h') : Agree pin h' h :=
  ⟨ha.full', ha.full, fun p hp a => (ha.fields p hp a).symm⟩

theorem Agree.shows (ha : Agree pin h h') :
    modeOf h pin = modeOf h' pin ∧ pullOf h pin = pullOf h' pin :=
  let ⟨hmode, hpull, _⟩ := shows_congr ha.full ha.full' ha.symm.fields
  ⟨hmode.symm, hpull.symm⟩

/-- What was stored in a field is in it, and the other fields of the pin are as they were. -/
theorem fetch_stored_congr {p : Place} (hp : place? pin = some p) {a : Part} {x : Option Nat}
    (hx : ∀ n, x = some n → n < 1 <<< (p.field a).width)
    (hsame : ∀ a, h.fetch (p.field a) = h'.fetch (p.field a)) (b : Part) :
    (h.stored (p.field a) x).fetch (p.field b) = (h'.stored (p.field a) x).fetch (p.field b) := by
  by_cases hab : a = b
  · subst hab
    cases x with
    | none => exact hsame a
    | some n =>
      exact (fetch_store_same h (hx n rfl) (field_fits hp a)).trans
        (fetch_store_same h' (hx n rfl) (field_fits hp a)).symm
  · have hapart := place_apart hp hp (.inr hab)
    rw [fetch_stored_apart hx hapart, fetch_stored_apart hx hapart, hsame b]

/-- Every call is about one pin. -/
theorem confined_call (c : PinCall) :
    Act.Confined Agree c.pin (c.onBackend : Act H3 Answer) where
  own h h' ha := by
    show (call c h).1 = (call c h').1 ∧ Agree c.pin (call c h).2 (call c h').2
    refine ⟨?_, full_call ha.full c, full_call ha.full' c, fun p hp a => ?_⟩
    · cases hp : place? c.pin with
      | none => rw [call_refused h hp, call_refused h' hp]
      | some p => rw [call_placed ha.full hp, call_placed ha.full' hp, ha.fields p hp]
    · rw [call_placed ha.full hp, call_placed ha.full' hp, ← ha.fields p hp (partOf c)]
      exact fetch_stored_congr hp (fun n hn => putBy_lt hn) (ha.fields p hp) a
  others p hp h' h ha := by
    refine ⟨full_call ha.full c, ha.full', fun r hr a => ?_⟩
    exact (fetch_call_other ha.full hr (Ne.symm hp) a).trans (ha.fields r hr a)
  calm p h h' ha f := by
    show (call c h).1 ≠ _
    cases hp : place? c.pin with
    | none =>
      rw [call_refused h hp]
      exact nofun
    | some p =>
      rw [call_placed ha.full hp]
      exact replyTo_ne_fault c _ f

theorem apart : Apart Agree where
  symm _ _ _ := Agree.symm
  setMode pin m := (confined_call (.setMode pin m)).of_quiet
  setPull pin u := (confined_call (.setPull pin u)).of_quiet
  pull pin := by
    refine Act.Confined.question (fun _ h _ _ => (restorable h).pull_leaves h pin trivial)
      (fun _ _ _ => Agree.symm) (fun _ _ ha => ha.shows.2) fun p h h' ha f hfault => ?_
    have hcalm := (confined_call (.pull pin)).calm p h h' ha f
    rw [PinCall.onBackend, Act.run_map, hfault] at hcalm
    exact hcalm rfl

end H3

/-! ## Devices -/

namespace Device

/-- The registers of the device are all there. -/
def Full : Device → Prop
  | .sim _ => True
  | .bcm b => b.Full
  | .h3 h => h.Full

/-- Devices of the same kind agree about a pin as their backends do. -/
def Agree (pin : Nat) : Device → Device → Prop
  | .sim s, .sim t => Sim.Agree pin s t
  | .bcm b, .bcm c => Bcm.Agree pin b c
  | .h3 h, .h3 h' => H3.Agree pin h h'
  | _, _ => False

theorem Agree.refl {d : Device} (hfull : d.Full) (pin : Nat) : Agree pin d d := by
  cases d with
  | sim s => exact ⟨rfl, rfl, rfl⟩
  | bcm b => exact ⟨hfull, hfull, rfl, rfl, rfl⟩
  | h3 h => exact ⟨hfull, hfull, fun _ _ _ => rfl⟩

theorem Agree.symm {pin : Nat} {d e : Device} (h : Agree pin d e) : Agree pin e d := by
  cases d <;> cases e
  case sim.sim => exact Sim.Agree.symm h
  case bcm.bcm => exact Bcm.Agree.symm h
  case h3.h3 => exact H3.Agree.symm h
  all_goals exact h.elim

/-- About a pin that devices agree about they show the same. -/
theorem Agree.shows {pin : Nat} {d e : Device} (h : Agree pin d e) :
    modeOf d pin = modeOf e pin ∧ pullOf d pin = pullOf e pin := by
  cases d <;> cases e
  case sim.sim => exact Sim.Agree.shows h
  case bcm.bcm b c =>
    have h : Bcm.Agree pin b c := h
    exact ⟨h.mode, h.pull⟩
  case h3.h3 => exact H3.Agree.shows h
  all_goals exact h.elim

theorem confined_dispatch {α : Type} {pin : Nat} {x : Act Sim α} {y : Act Bcm α} {z : Act H3 α}
    (hx : Act.Confined Sim.Agree pin x) (hy : Act.Confined Bcm.Agree pin y)
    (hz : Act.Confined H3.Agree pin z) : Act.Confined Agree pin (dispatch x y z) where
  own d e h := by
    cases d <;> cases e
    case sim.sim s t => exact hx.own s t h
    case bcm.bcm b c => exact hy.own b c h
    case h3.h3 k l => exact hz.own k l h
    all_goals exact h.elim
  others p hp e d h := by
    cases d <;> cases e
    case sim.sim s t => exact hx.others p hp t s h
    case bcm.bcm b c => exact hy.others p hp c b h
    case h3.h3 k l => exact hz.others p hp l k h
    all_goals exact h.elim
  calm p d e h := by
    cases d <;> cases e
    case sim.sim s t => exact hx.calm p s t h
    case bcm.bcm b c => exact hy.calm p b c h
    case h3.h3 k l => exact hz.calm p k l h
    all_goals exact h.elim

/-- The pins of a device are kept apart. -/
theorem apart : Apart Agree where
  symm _ _ _ := Agree.symm
  setMode pin m :=
    confined_dispatch (Sim.apart.setMode pin m) (Bcm.apart.setMode pin m) (H3.apart.setMode pin m)
  setPull pin u :=
    confined_dispatch (Sim.apart.setPull pin u) (Bcm.apart.setPull pin u) (H3.apart.setPull pin u)
  pull pin := confined_dispatch (Sim.apart.pull pin) (Bcm.apart.pull pin) (H3.apart.pull pin)

end Device

end BoardGpio
