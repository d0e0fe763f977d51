import BoardGpio.Proofs.Handle.Batches
import BoardGpio.Proofs.Handle.Moments
import BoardGpio.Proofs.Handle.Opening
import BoardGpio.Proofs.Output.Shown

/-!
# Opening outputs activates none of them

A port drives each of its pins to the inactive level before it makes the pin an output. So at every
moment while it is opened a pin is not active, unless it was so before and no call about it has gone
well (`Output.Spared`). This is carried from call to call (`OutputPort.Phase.call`), through the
three calls about a pin (`OutputPort.Underway.configure`) and from pin to pin. The opening ends with
the first call that fails (`OutputPort.halting_openPort`), and after a successful opening all
outputs are inactive (`OutputPort.opens_quietly`).
-/

set_option autoImplicit false

namespace BoardGpio

open Backend

/-! ## What a pin shows while a port is opened -/

namespace Output

/-- The pin is an output, latched to the level at which it is active. -/
def ActiveOn (o : Output) (d : Device) : Prop :=
  modeOf d o.mcu = .ok .output ∧ d.latchOf o.mcu = some (o.level true)

/-- The pin is latched to the level at which it is inactive. -/
def Idle (o : Output) (d : Device) : Prop := d.latchOf o.mcu = some (o.level false)

/-- The pin is an output and inactive. -/
def InactiveOn (o : Output) (d : Device) : Prop := modeOf d o.mcu = .ok .output ∧ o.Idle d

/-- The pin shows what it showed at first. -/
structure Still (o : Output) (d₀ d : Device) : Prop where
  mode : modeOf d o.mcu = modeOf d₀ o.mcu
  latch : d.latchOf o.mcu = d₀.latchOf o.mcu

/-- Nothing was said about the pin. -/
def Unreached (o : Output) (told : List Exchange) : Prop := ∀ x ∈ told, x.pin ≠ o.mcu

/-- The first that was said about the pin was to drive it to its inactive level. This failed, and
nothing was said since. -/
def Missed (o : Output) (told : List Exchange) : Prop :=
  ∃ before e, told = before ++ [.write o.mcu (o.level false) (.error e)] ∧ o.Unreached before

/-- No call about the pin went well and it is as it was, or it is latched to its inactive level. -/
def Spared (o : Output) (d₀ : Device) (told : List Exchange) (d : Device) : Prop :=
  o.Still d₀ d ∧ (o.Unreached told ∨ o.Missed told) ∨ o.Idle d

variable {o : Output} {d₀ d d' : Device} {told : List Exchange}

theorem Still.refl (o : Output) (d : Device) : o.Still d d := ⟨rfl, rfl⟩

theorem Still.trans (h : o.Still d₀ d) (h' : o.Still d d') : o.Still d₀ d' :=
  ⟨h'.mode.trans h.mode, h'.latch.trans h.latch⟩

theorem Still.inactive (h : o.Still d d') (ho : o.InactiveOn d) : o.InactiveOn d' :=
  ⟨h.mode.trans ho.1, h.latch.trans ho.2⟩

theorem Unreached.concat (h : o.Unreached told) {x : Exchange} (hx : x.pin ≠ o.mcu) :
    o.Unreached (told ++ [x]) := by
  intro y hy
  rcases List.mem_append.mp hy with hy | hy
  · exact h y hy
  · rw [List.mem_singleton.mp hy]
    exact hx

/-- A pin that is active all the same was so at first. -/
theorem Spared.of_active (h : o.Spared d₀ told d) (hactive : o.ActiveOn d) :
    o.ActiveOn d₀ ∧ (o.Unreached told ∨ o.Missed told) := by
  rcases h with ⟨hstill, hsaid⟩ | hlatch
  · exact ⟨⟨hstill.mode.symm.trans hactive.1, hstill.latch.symm.trans hactive.2⟩, hsaid⟩
  · have hsame : o.level false = o.level true := Option.some.inj (hlatch.symm.trans hactive.2)
    have hnot := o.not_level false
    rw [hsame] at hnot
    simp at hnot

end Output

namespace OutputPort

/-! ## The calls about one pin -/

section Configure

variable {β : Type} [Backend β]

/-- What configuring an output comes to, by the three calls about its pin. -/
inductive Configured (o : Output) (b : β) : Except Failure Output → β → Prop where
  | unwritten {e : Failure} {b₁ : β}
      (hwrite : (Backend.write o.mcu (o.level false) : Act β Unit).run b = (.error e, b₁)) :
      Configured o b (.error e) b₁
  | unasked {e : Failure} {b₁ b₂ : β}
      (hwrite : (Backend.write o.mcu (o.level false) : Act β Unit).run b = (.ok (), b₁))
      (hask : (Backend.mode o.mcu : Act β Mode).run b₁ = (.error e, b₂)) :
      Configured o b (.error e) b₂
  | unswitched {e : Failure} {m : Mode} {b₁ b₂ b₃ : β}
      (hwrite : (Backend.write o.mcu (o.level false) : Act β Unit).run b = (.ok (), b₁))
      (hask : (Backend.mode o.mcu : Act β Mode).run b₁ = (.ok m, b₂))
      (hset : (Backend.setMode o.mcu .output : Act β Unit).run b₂ = (.error e, b₃)) :
      Configured o b (.error e) b₃
  | done {m : Mode} {b₁ b₂ b₃ : β}
      (hwrite : (Backend.write o.mcu (o.level false) : Act β Unit).run b = (.ok (), b₁))
      (hask : (Backend.mode o.mcu : Act β Mode).run b₁ = (.ok m, b₂))
      (hset : (Backend.setMode o.mcu .output : Act β Unit).run b₂ = (.ok (), b₃)) :
      Configured o b (.ok o) b₃

theorem configured {g : Gpio β} {o : Output} (hmcu : g.handle.mcu? o.pin.pin = some o.mcu) :
    Configured o g.backend ((configure o.pin).run g).1 ((configure o.pin).run g).2.backend := by
  have hwritten : (Gpio.write o.pin.pin (o.pin.active.raw false)).run g =
      (Gpio.hardware (Backend.write o.mcu (o.level false))).run g := Gpio.run_resolved hmcu _
  rw [configure, Gpio.run_resolved hmcu]
  rcases hwrite : (Backend.write o.mcu (o.level false) : Act β Unit).run g.backend with ⟨e | _, b₁⟩
  · rw [Act.run_bind_error _ (hwritten.trans (Gpio.run_hardware_of hwrite))]
    exact .unwritten hwrite
  · rw [Act.run_bind_ok _ (hwritten.trans (Gpio.run_hardware_of hwrite)), Gpio.setMode,
      Act.run_bind, Gpio.run_resolved (g := { g with backend := b₁ }) hmcu]
    rcases hask : (Backend.mode o.mcu : Act β Mode).run b₁ with ⟨e | m, b₂⟩
    · rw [Act.run_bind_error _ (Gpio.run_hardware_of hask)]
      exact .unasked hwrite hask
    · rw [Act.run_bind_ok _ (Gpio.run_hardware_of hask), Gpio.switch, bind_assoc, Act.run_bind]
      rcases hset : (Backend.setMode o.mcu .output : Act β Unit).run b₂ with ⟨e | _, b₃⟩
      · rw [Gpio.run_hardware_of hset]
        exact .unswitched hwrite hask hset
      · rw [Gpio.run_hardware_of hset]
        exact .done hwrite hask hset

end Configure

/-! ## From call to call -/

/-- None of the outputs was made active so far. -/
def Sparing (L : Output → Prop) (d₀ : Device) (told : List Exchange) (u : Unsteady Device) : Prop :=
  ∀ o, L o → o.Spared d₀ told u.device

/-- A number of outputs on pins of their own, of which some are configured. -/
structure Among (L : Output → Prop) (done : List Output) : Prop where
  distinct : ∀ q q', L q → L q' → q.mcu = q'.mcu → q = q'
  listed : ∀ q ∈ done, L q

/-- The outputs that are configured are inactive, and nothing was said about the others and their
pins are as they were; an exception is made of one output. -/
structure Beside (L : Output → Prop) (d₀ : Device) (done : List Output) (except : Output)
    (told : List Exchange) (d : Device) : Prop where
  ready : ∀ q ∈ done, q ≠ except → q.InactiveOn d
  waiting : ∀ q, L q → q ∉ done → q ≠ except → q.Still d₀ d ∧ q.Unreached told

/-- While an output is configured: what is true of the others, and of itself. -/
structure Phase (L : Output → Prop) (b₀ : Unsteady Device) (done : List Output) (o : Output)
    (Own : List Exchange → Device → Prop) (t : Transcribed (Unsteady Device)) : Prop where
  latched : t.device.device.Latched
  throughout : t.Throughout (Sparing L b₀.device) b₀
  beside : Beside L b₀.device done o t.transcript t.device.device
  own : Own t.transcript t.device.device

variable {α : Type} {L : Output → Prop} {b₀ : Unsteady Device} {done : List Output} {o : Output}
  {Own Own' : List Exchange → Device → Prop} {t t' : Transcribed (Unsteady Device)}

/-- A call about a pin bears on no other, and so the others are spared if this one is. -/
theorem Phase.call (h : Phase L b₀ done o Own t) (hamong : Among L done) (ho : L o)
    {x : Act (Unsteady Device) α} {exchange : Except Failure α → Exchange}
    (hagain : ∀ b r, Exchange.again b (exchange r) = (x.run b).2)
    (hpin : ∀ r, (exchange r).pin = o.mcu) {r : Except Failure α}
    (hrun : (Transcribed.call x exchange).run t = (r, t')) (hlatched : t'.device.device.Latched)
    (hothers : ∀ q : Output, q.mcu ≠ o.mcu → q.Still t.device.device t'.device.device)
    (hown : Own' t'.transcript t'.device.device)
    (hspared : o.Spared b₀.device t'.transcript t'.device.device) :
    Phase L b₀ done o Own' t' := by
  have htold := (Transcribed.run_call_eq hrun).2
  have hother : ∀ q, L q → q ≠ o → q.mcu ≠ o.mcu := fun q hq hne hsame =>
    hne (hamong.distinct q o hq ho hsame)
  have hbeside : Beside L b₀.device done o t'.transcript t'.device.device := by
    refine ⟨fun q hq hne => ?_, fun q hq hnew hne => ?_⟩
    · have hstill := hothers q (hother q (hamong.listed q hq) hne)
      exact hstill.inactive (h.beside.ready q hq hne)
    · obtain ⟨hstill, hunsaid⟩ := h.beside.waiting q hq hnew hne
      have hunsaid' : q.Unreached t'.transcript := by
        rw [htold]
        refine hunsaid.concat ?_
        rw [hpin]
        exact (hother q hq hne).symm
      exact ⟨hstill.trans (hothers q (hother q hq hne)), hunsaid'⟩
  have hsparing : Sparing L b₀.device t'.transcript t'.device := by
    intro q hq
    by_cases hne : q = o
    · rw [hne]
      exact hspared
    · by_cases hready : q ∈ done
      · exact .inr (hbeside.ready q hready hne).2
      · obtain ⟨hstill, hunsaid⟩ := hbeside.waiting q hq hready hne
        exact .inl ⟨hstill, .inl hunsaid⟩
  exact ⟨hlatched, h.throughout.call hagain hrun hsparing, hbeside, hown⟩

/-- A call that leaves the device as it is, as failing calls and questions do. -/
theorem Phase.idle (h : Phase L b₀ done o Own t) (hamong : Among L done) (ho : L o)
    {x : Act (Unsteady Device) α} {exchange : Except Failure α → Exchange}
    (hagain : ∀ b r, Exchange.again b (exchange r) = (x.run b).2)
    (hpin : ∀ r, (exchange r).pin = o.mcu) {r : Except Failure α}
    (hrun : (Transcribed.call x exchange).run t = (r, t'))
    (hsame : t'.device.device = t.device.device) (hown : Own' t'.transcript t.device.device)
    (hspared : o.Spared b₀.device t'.transcript t.device.device) :
    Phase L b₀ done o Own' t' := by
  rw [← hsame] at hown hspared
  refine h.call hamong ho hagain hpin hrun ?_ (fun q _ => ?_) hown hspared
  · rw [hsame]
    exact h.latched
  · rw [hsame]
    exact .refl q _

/-- An output about which nothing was said is driven to its inactive level, or missed. -/
theorem Phase.write
    (h : Phase L b₀ done o (fun told d => o.Still b₀.device d ∧ o.Unreached told) t)
    (hamong : Among L done) (ho : L o) {r : Except Failure Unit}
    (hrun : (Backend.write o.mcu (o.level false)).run t = (r, t')) :
    t'.Throughout (Sparing L b₀.device) b₀ ∧
      (r = .ok () → Phase L b₀ done o (fun _ d => o.Idle d) t') := by
  obtain ⟨hstill, hunsaid⟩ := h.own
  obtain ⟨hdevice, htold⟩ := Transcribed.run_call_eq hrun
  have htried := Unsteady.driving h.latched.full (.write (o.level false)) o.mcu
  rw [Drive.call, hdevice] at htried
  have hmissed : ∀ e, r = .error e → t'.device.device = t.device.device →
      Phase L b₀ done o (fun _ _ => True) t' := by
    rintro e rfl hsame
    refine h.idle hamong ho (fun _ _ => rfl) (fun _ => rfl) hrun hsame trivial ?_
    exact .inl ⟨hstill, .inr ⟨_, e, htold, hunsaid⟩⟩
  cases htried with
  | struck _ past => exact ⟨(hmissed _ rfl past.device).throughout, by simp⟩
  | refused _ _ past => exact ⟨(hmissed _ rfl past.device).throughout, by simp⟩
  | done _ past hdone =>
    obtain ⟨hpin, hdrove⟩ := hdone
    rw [← past.device] at hdrove
    have hidle : o.Idle t'.device.device := by
      obtain ⟨level, hlevel⟩ := Option.isSome_iff_exists.mp (Device.isSome_latchOf h.latched hpin)
      rw [Output.Idle, hdrove.latches, if_pos rfl, hlevel]
      rfl
    have hothers : ∀ q : Output, q.mcu ≠ o.mcu → q.Still t.device.device t'.device.device := by
      intro q hq
      exact ⟨hdrove.modes q.mcu, by rw [hdrove.latches, if_neg hq]⟩
    have hphase : Phase L b₀ done o (fun _ d => o.Idle d) t' :=
      h.call hamong ho (fun _ _ => rfl) (fun _ => rfl) hrun (hdrove.latched h.latched hpin) hothers
        hidle (.inr hidle)
    exact ⟨hphase.throughout, fun _ => hphase⟩

/-- Asking a driven output for its mode leaves it driven. -/
theorem Phase.ask (h : Phase L b₀ done o (fun _ d => o.Idle d) t)
    (hamong : Among L done) (ho : L o) {r : Except Failure Mode}
    (hrun : (Backend.mode o.mcu).run t = (r, t')) :
    Phase L b₀ done o (fun _ d => o.Idle d) t' := by
  have hkept := Unsteady.keeps_device (Device.mode_leaves o.mcu) t.device.device t.device rfl
  have hdevice : (Unsteady.call (Backend.mode o.mcu)).run t.device = (r, t'.device) :=
    (Transcribed.run_call_eq hrun).1
  rw [hdevice] at hkept
  exact h.idle hamong ho (fun _ _ => rfl) (fun _ => rfl) hrun hkept h.own (.inr h.own)

/-- A driven output is made one, or stays as it is. -/
theorem Phase.switch (h : Phase L b₀ done o (fun _ d => o.Idle d) t)
    (hamong : Among L done) (ho : L o) {r : Except Failure Unit}
    (hrun : (Backend.setMode o.mcu .output).run t = (r, t')) :
    t'.Throughout (Sparing L b₀.device) b₀ ∧
      (r = .ok () → Phase L b₀ done o (fun _ d => o.InactiveOn d) t') := by
  have hcommon : Mode.output.Common := by decide
  have htried := Unsteady.switching h.latched o.mcu hcommon
  rw [(Transcribed.run_call_eq hrun).1] at htried
  have hunset : t'.device.device = t.device.device →
      Phase L b₀ done o (fun _ d => o.Idle d) t' := fun hsame =>
    h.idle hamong ho (fun _ _ => rfl) (fun _ => rfl) hrun hsame h.own (.inr h.own)
  cases htried with
  | struck _ past => exact ⟨(hunset past.device).throughout, by simp⟩
  | refused _ _ past => exact ⟨(hunset past.device).throughout, by simp⟩
  | done _ past hswitched =>
    rw [← past.device] at hswitched
    have hidle : o.Idle t'.device.device := (hswitched.latches o.mcu).trans h.own
    have hphase : Phase L b₀ done o (fun _ d => o.InactiveOn d) t' :=
      h.call hamong ho (fun _ _ => rfl) (fun _ => rfl) hrun hswitched.latched
        (fun q hq => ⟨hswitched.modes q.mcu hq, hswitched.latches q.mcu⟩)
        ⟨hswitched.mode, hidle⟩ (.inr hidle)
    exact ⟨hphase.throughout, fun _ => hphase⟩

/-! ## From pin to pin -/

/-- Between two pins: those that are configured are inactive, and nothing was said about the others
and they are as they were. -/
structure Underway (L : Output → Prop) (b₀ : Unsteady Device) (done : List Output)
    (t : Transcribed (Unsteady Device)) : Prop extends Among L done where
  latched : t.device.device.Latched
  throughout : t.Throughout (Sparing L b₀.device) b₀
  ready : ∀ q ∈ done, q.InactiveOn t.device.device
  waiting : ∀ q, L q → q ∉ done → q.Still b₀.device t.device.device ∧ q.Unreached t.transcript

namespace Underway

theorem start (hdistinct : ∀ q q', L q → L q' → q.mcu = q'.mcu → q = q')
    (hlatched : b₀.device.Latched) : Underway L b₀ [] ⟨b₀, []⟩ where
  distinct := hdistinct
  listed := List.forall_mem_nil _
  latched := hlatched
  throughout := .start fun q _ => .inl ⟨.refl q _, .inl (List.forall_mem_nil _)⟩
  ready := List.forall_mem_nil _
  waiting q _ _ := ⟨.refl q _, List.forall_mem_nil _⟩

/-- One more output is inactive after it was configured, or the opening has ended. -/
theorem configure {t : Gpio (Transcribed (Unsteady Device))} (h : Underway L b₀ done t.backend)
    (ho : L o) (hnew : o ∉ done) (hmcu : t.handle.mcu? o.pin.pin = some o.mcu)
    {r : Except Failure Output} {t' : Gpio (Transcribed (Unsteady Device))}
    (hrun : (OutputPort.configure o.pin).run t = (r, t')) :
    t'.backend.Throughout (Sparing L b₀.device) b₀ ∧
      ∀ o', r = .ok o' → o' = o ∧ Underway L b₀ (done ++ [o]) t'.backend := by
  have hfirst : Phase L b₀ done o (fun told d => o.Still b₀.device d ∧ o.Unreached told)
      t.backend := {
    latched := h.latched
    throughout := h.throughout
    beside := ⟨fun q hq _ => h.ready q hq, fun q hq hnot _ => h.waiting q hq hnot⟩
    own := h.waiting o ho hnew }
  have hconfigured := configured hmcu
  rw [hrun] at hconfigured
  cases hconfigured with
  | unwritten hwrite => exact ⟨(hfirst.write h.toAmong ho hwrite).1, by simp⟩
  | unasked hwrite hask =>
    have hdriven := (hfirst.write h.toAmong ho hwrite).2 rfl
    exact ⟨(hdriven.ask h.toAmong ho hask).throughout, by simp⟩
  | unswitched hwrite hask hset =>
    have hdriven := (hfirst.write h.toAmong ho hwrite).2 rfl
    exact ⟨((hdriven.ask h.toAmong ho hask).switch h.toAmong ho hset).1, by simp⟩
  | done hwrite hask hset =>
    have hdriven := (hfirst.write h.toAmong ho hwrite).2 rfl
    have hready := ((hdriven.ask h.toAmong ho hask).switch h.toAmong ho hset).2 rfl
    refine ⟨hready.throughout, fun o' heq => ⟨(Except.ok.inj heq).symm, ?_⟩⟩
    refine ⟨⟨h.distinct, fun q hq => ?_⟩, hready.latched, hready.throughout, fun q hq => ?_,
      fun q hq hnot => ?_⟩
    · rcases List.mem_append.mp hq with hq | hq
      · exact h.listed q hq
      · rw [List.mem_singleton.mp hq]
        exact ho
    · by_cases hne : q = o
      · rw [hne]
        exact hready.own
      · rcases List.mem_append.mp hq with hq | hq
        · exact hready.beside.ready q hq hne
        · exact absurd (List.mem_singleton.mp hq) hne
    · rw [List.mem_append, List.mem_singleton, not_or] at hnot
      exact hready.beside.waiting q hq hnot.1 hnot.2

end Underway

/-- The outputs that a list of pins stands for. -/
def Listed (h : Handle) (pins : List OutputPin) (o : Output) : Prop :=
  o.pin ∈ pins ∧ h.mcu? o.pin.pin = some o.mcu

theorem listed_distinct {h : Handle} {pins : List OutputPin} (htable : h.table.Accepted)
    (hdistinct : (pins.map OutputPin.pin).Nodup) {q q' : Output} (hq : Listed h pins q)
    (hq' : Listed h pins q') (hsame : q.mcu = q'.mcu) : q = q' := by
  have hnumber : q.pin.pin = q'.pin.pin :=
    Handle.mcu?_injective htable hq.2 (hsame ▸ hq'.2)
  have hpin : q.pin = q'.pin := List.inj_on_of_nodup_map hdistinct hq.1 hq'.1 hnumber
  obtain ⟨pin, mcu⟩ := q
  obtain ⟨pin', mcu'⟩ := q'
  cases hpin
  cases hsame
  rfl

section Collect

variable {h₀ : Handle} {pins : List OutputPin}

/-- The pins are configured one after the other, up to the first that fails. -/
theorem Underway.collect {before rest : List OutputPin} (hpins : pins = before ++ rest)
    (hnodup : pins.Nodup) {t : Gpio (Transcribed (Unsteady Device))} {done : List Output}
    (hdone : done.map Output.pin = before) (hnumbers : Gpio.NumbersOf h₀ t)
    (h : Underway (Listed h₀ pins) b₀ done t.backend) {r : Except Failure (List Output)}
    {t' : Gpio (Transcribed (Unsteady Device))}
    (hrun : (Act.collect OutputPort.configure rest).run t = (r, t')) :
    t'.backend.Throughout (Sparing (Listed h₀ pins) b₀.device) b₀ ∧
      ∀ outputs, r = .ok outputs → outputs.map Output.pin = rest ∧
        Underway (Listed h₀ pins) b₀ (done ++ outputs) t'.backend := by
  induction rest generalizing before t t' done r with
  | nil =>
    cases hrun
    refine ⟨h.throughout, fun outputs heq => ?_⟩
    cases heq
    rw [List.append_nil]
    exact ⟨rfl, h⟩
  | cons pin rest ih =>
    cases hmcu : h₀.mcu? pin.pin with
    | none =>
      have hwrong : t.handle.resolve pin.pin = .error (.invalidPin pin.pin h₀.numbering) := by
        rw [hnumbers.resolve, Handle.resolve, hmcu]
      rw [Act.collect, Act.run_bind_error _ (Gpio.run_output_wrong hwrong)] at hrun
      cases hrun
      exact ⟨h.throughout, by simp⟩
    | some mcu =>
      have hlisted : Listed h₀ pins ⟨pin, mcu⟩ := ⟨by simp [hpins], hmcu⟩
      have hnew : (⟨pin, mcu⟩ : Output) ∉ done := by
        intro hmem
        have hbefore : pin ∈ before := hdone ▸ List.mem_map_of_mem hmem
        rw [hpins] at hnodup
        exact List.disjoint_of_nodup_append hnodup hbefore List.mem_cons_self
      have hmcu' : t.handle.mcu? pin.pin = some mcu := (hnumbers.mcu? pin.pin).trans hmcu
      have hkept := Gpio.numbers_output pin t hnumbers
      have hsplit : pins = before ++ [pin] ++ rest := by simp [hpins]
      rcases hfirst : (OutputPort.configure pin).run t with ⟨e | o, t₁⟩
      all_goals obtain ⟨hthroughout, hafter⟩ := h.configure hlisted hnew hmcu' hfirst
      · rw [Act.collect, Act.run_bind_error _ hfirst] at hrun
        cases hrun
        exact ⟨hthroughout, by simp⟩
      · obtain ⟨rfl, hunderway⟩ := hafter o rfl
        rw [hfirst] at hkept
        have hnumbers' : Gpio.NumbersOf h₀ t₁ := hkept
        rw [Act.collect, Act.run_bind_ok _ hfirst] at hrun
        rcases hrest : (Act.collect OutputPort.configure rest).run t₁ with ⟨e | outputs, t₂⟩
        all_goals
          obtain ⟨hthroughout, hend⟩ := ih hsplit (by simp [hdone]) hnumbers' hunderway hrest
        · rw [Act.run_bind_error _ hrest] at hrun
          cases hrun
          exact ⟨hthroughout, by simp⟩
        · rw [Act.run_bind_ok _ hrest] at hrun
          cases hrun
          obtain ⟨hpins', hunderway'⟩ := hend outputs rfl
          refine ⟨hthroughout, fun all heq => ?_⟩
          cases heq
          rw [List.map_cons, hpins', List.append_cons]
          exact ⟨rfl, hunderway'⟩

end Collect

/-! ## The opening as a whole -/

section Open

variable {g : Gpio (Unsteady Device)} {pins : List OutputPin}
  (htable : g.handle.table.Accepted) (hlatched : g.backend.device.Latched)
  (hdistinct : (pins.map OutputPin.pin).Nodup)
include htable hlatched hdistinct

theorem openPort_underway {r : Except Failure OutputPort} {t : Gpio (Transcribed (Unsteady Device))}
    (hrun : (openPort pins).run g.transcribed = (r, t)) :
    t.backend.Throughout (Sparing (Listed g.handle pins) g.backend.device) g.backend ∧
      ∀ p, r = .ok p → p.size ≤ PinSet.capacity ∧ p.outputs.map Output.pin = pins ∧
        Underway (Listed g.handle pins) g.backend p.outputs t.backend := by
  have hstart : Underway (Listed g.handle pins) g.backend [] g.transcribed.backend :=
    .start (fun _ _ => listed_distinct htable hdistinct) hlatched
  have hnumbers : Gpio.NumbersOf g.handle g.transcribed := ⟨rfl, rfl, rfl⟩
  have hall : pins = [] ++ pins := rfl
  have hnodup : pins.Nodup := hdistinct.of_map
  by_cases hmany : PinSet.capacity < pins.length
  · rw [openPort, if_pos hmany] at hrun
    cases hrun
    exact ⟨hstart.throughout, by simp⟩
  · rw [openPort, if_neg hmany] at hrun
    rcases hcollect : (Act.collect configure pins).run g.transcribed with ⟨e | outputs, t'⟩
    all_goals
      obtain ⟨hthroughout, hend⟩ :=
        Underway.collect hall hnodup rfl hnumbers hstart hcollect
    · rw [Act.run_bind_error _ hcollect] at hrun
      cases hrun
      exact ⟨hthroughout, by simp⟩
    · rw [Act.run_bind_ok _ hcollect] at hrun
      cases hrun
      obtain ⟨hpins, hunderway⟩ := hend outputs rfl
      refine ⟨hthroughout, fun p heq => ?_⟩
      cases heq
      have hsize : outputs.length = pins.length := by rw [← hpins, List.length_map]
      exact ⟨by rw [size, hsize]; exact Nat.le_of_not_lt hmany, hpins, hunderway⟩

/-- The outputs of a port that was just opened are inactive. -/
theorem shows_openPort {p : OutputPort} {g' : Gpio (Unsteady Device)}
    (hopen : (openPort pins).run g = (.ok p, g')) :
    p.outputs.map Output.pin = pins ∧ (∀ o ∈ p.outputs, g.handle.mcu? o.pin.pin = some o.mcu) ∧
      p.Shows (fun _ => false) g'.backend.device := by
  obtain ⟨hres, hcopied⟩ := Gpio.copied.toPaired.openOutput pins g _ g.copied_transcribed
  rcases hrun : (openPort pins).run g.transcribed with ⟨r, t⟩
  rw [hopen, hrun] at hres hcopied
  obtain ⟨hfew, hpins, hunderway⟩ :=
    (openPort_underway htable hlatched hdistinct hrun).2 p hres.symm
  have hlatched' := hunderway.latched
  have hready := hunderway.ready
  rw [hcopied.device] at hlatched' hready
  have hmcus : (p.outputs.map Output.mcu).Nodup := by
    have houtputs : p.outputs.Nodup := by
      have hnodup : (p.outputs.map Output.pin).Nodup := hpins ▸ hdistinct.of_map
      exact hnodup.of_map
    refine houtputs.map_on fun q hq q' hq' hsame => ?_
    exact hunderway.distinct q q' (hunderway.listed q hq) (hunderway.listed q' hq') hsame
  refine ⟨hpins, fun o ho => (hunderway.listed o ho).2, hlatched', hmcus, hfew,
    fun o ho => (hready o ho).1, fun i o ho => (hready o (List.mem_of_getElem? ho)).2⟩

end Open

/-- The opening ends with the first call that fails. -/
theorem halting_openPort {β : Type} [Backend β] (pins : List OutputPin) :
    Gpio.Halting (openPort pins : Act (Gpio (Transcribed β)) OutputPort) := by
  have hconfigure : ∀ pin : OutputPin,
      Gpio.Halting (OutputPort.configure pin : Act (Gpio (Transcribed β)) Output) := fun pin =>
    (Gpio.Halting.leaves (Gpio.leaves_mcuPin pin.pin)).bind fun mcu =>
      (Gpio.Halting.write pin.pin _).bind fun _ =>
        (Gpio.Halting.setMode pin.pin .output).bind fun _ => .leaves (Act.Leaves.pure _)
  unfold openPort
  split
  · exact .leaves (Act.Leaves.fail _)
  · refine (Gpio.Halting.collect hconfigure pins).bind fun outputs => ?_
    exact (Gpio.Halting.note _).bind fun _ => .leaves (Act.Leaves.pure _)

/-- Opening a port makes no pin active. -/
structure OpensQuietly (pins : List OutputPin) (g : Gpio (Unsteady Device)) : Prop where
  /-- At no moment of the opening is a pin of the list active, unless it was so before and no call
  about it has gone well. Then the opening has not come to the pin, or it has just failed to drive
  it to its inactive level. -/
  spared : ∀ k o, Listed g.handle pins o →
    o.ActiveOn (g.moment (openPort pins) k).device → o.ActiveOn g.backend.device ∧
      (o.Unreached ((g.said (openPort pins)).take k) ∨ o.Missed ((g.said (openPort pins)).take k))
  /-- A call that fails is the last, and the opening fails as it does. -/
  halts : Exchange.Halts ((openPort pins).run g).1 (g.said (openPort pins))
  /-- The last of the moments is when the opening has ended, with a port or with a failure. -/
  ended : g.moment (openPort pins) (g.said (openPort pins)).length =
    ((openPort pins).run g).2.backend
  /-- The outputs of a port that was opened are the pins of the list, all of them inactive. -/
  opened : ∀ p g', (openPort pins).run g = (.ok p, g') → p.outputs.map Output.pin = pins ∧
    (∀ o ∈ p.outputs, Listed g.handle pins o ∧ o.InactiveOn g'.backend.device) ∧
      (p.readAll.run g').1 = g'.backend.answer p.size .empty

/-- Whatever the pins showed before and whichever calls fail, opening a port makes no pin active. -/
theorem opens_quietly {g : Gpio (Unsteady Device)} {pins : List OutputPin}
    (htable : g.handle.table.Accepted) (hlatched : g.backend.device.Latched)
    (hdistinct : (pins.map OutputPin.pin).Nodup) : OpensQuietly pins g := by
  obtain ⟨hres, hcopied⟩ := Gpio.copied.toPaired.openOutput pins g _ g.copied_transcribed
  obtain ⟨hthroughout, -⟩ := openPort_underway htable hlatched hdistinct
    (r := _) (t := ((openPort pins).run g.transcribed).2) rfl
  refine ⟨fun k o ho hactive => ?_, ?_, ?_, fun p g' hopen => ?_⟩
  · exact (hthroughout.always k o ho).of_active hactive
  · have hhalts := (halting_openPort pins).said g
    rw [← hres] at hhalts
    exact hhalts
  · rw [← hcopied.device, ← hthroughout.now, Gpio.moment, List.take_length]
    rfl
  · obtain ⟨hpins, hlisted, hshows⟩ := shows_openPort htable hlatched hdistinct hopen
    refine ⟨hpins, fun o ho => ?_, ?_⟩
    · obtain ⟨i, hi⟩ := List.getElem?_of_mem ho
      have hmem : o.pin ∈ pins := hpins ▸ List.mem_map_of_mem ho
      exact ⟨⟨hmem, hlisted o ho⟩, hshows.modes o ho, hshows.latches i o hi⟩
    · obtain ⟨s, hs, hread⟩ := hshows.readAll
      have hempty : s = .empty := PinSet.ext_iff.mpr fun i => by simp [hs]
      rw [hread, hempty]

/-! ## A pin that is active at first -/

/-- A handle on two simulated pins, of which the first is a high output; the first call of the
backend fails with this error, if there is one. -/
def engaged (mishap : Option Error) : Gpio (Unsteady Device) where
  handle := .create ⟨"relays", [some 0, some 1], []⟩ {} 2
  backend := {
    device := .sim { pins := #[{ mode := .output, latch := true }, {}] }
    mishap := fun n => if n = 0 then mishap else none }

/-- A pin that is active at high level and one that is active at low level. -/
def relays : List OutputPin := [{ pin := 0 }, { pin := 1, active := .low }]

/-- The first pin is active until it is driven, and the second never is. -/
theorem opens_quietly_engaged :
    (engaged none).handle.table.Accepted ∧ (engaged none).backend.device.Latched ∧
      (relays.map OutputPin.pin).Nodup ∧ Output.ActiveOn ⟨{ pin := 0 }, 0⟩
        ((engaged none).moment (openPort relays) 0).device ∧
          Output.Idle ⟨{ pin := 0 }, 0⟩ ((engaged none).moment (openPort relays) 1).device ∧
            ((openPort relays).run (engaged none)).1.isOk = true ∧
              OpensQuietly relays (engaged none) := by
  have htable : (engaged none).handle.table.Accepted :=
    PinTable.problem?_eq_none_iff.mp (by decide +kernel)
  have hdistinct : (relays.map OutputPin.pin).Nodup := by decide
  exact ⟨htable, trivial, hdistinct, ⟨rfl, rfl⟩, rfl, rfl, opens_quietly htable trivial hdistinct⟩

/-- The same with a first call that fails. -/
def stuck : Gpio (Unsteady Device) := engaged (some (.config (.injected "write" 0)))

/-- If the first pin cannot be driven it stays active, although the opening has come to it: a pin
that is active at some moment was active at first, but it may be that a call about it was made
since. -/
theorem stuck_missed :
    stuck.handle.table.Accepted ∧ stuck.backend.device.Latched ∧
      (relays.map OutputPin.pin).Nodup ∧ (∀ p ∈ relays, stuck.handle.isValid p.pin = true) ∧
        ¬∀ k o, Listed stuck.handle relays o →
          o.ActiveOn (stuck.moment (openPort relays) k).device →
            o.ActiveOn stuck.backend.device ∧
              o.Unreached ((stuck.said (openPort relays)).take k) := by
  have htable : stuck.handle.table.Accepted := PinTable.problem?_eq_none_iff.mp (by decide +kernel)
  refine ⟨htable, trivial, by decide, by decide +kernel, fun hstrict => ?_⟩
  have hlisted : Listed stuck.handle relays ⟨{ pin := 0 }, 0⟩ := ⟨by decide, rfl⟩
  obtain ⟨-, hunreached⟩ := hstrict 1 ⟨{ pin := 0 }, 0⟩ hlisted ⟨rfl, rfl⟩
  have hsaid : Exchange.write 0 false (.error (.error (.config (.injected "write" 0)))) ∈
      (stuck.said (openPort relays)).take 1 := List.mem_cons_self
  exact hunreached _ hsaid rfl

end OutputPort

end BoardGpio
