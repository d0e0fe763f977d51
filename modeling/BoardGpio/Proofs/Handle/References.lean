import BoardGpio.Proofs.Backend.PinCalls
import BoardGpio.Proofs.Handle.Standing
import BoardGpio.Proofs.Handle.Tenants

/-!
# References are counted, and the last one releases

The count of a handle is the number of its tenants throughout every run (`Counted`). Parting with a
reference while others are left answers `done` and makes no call of the backend; parting with the
last one takes leave of the handle, which was not released until then (`Parting`). A released handle
has no tenants, so nothing is done with it any more: the release is run exactly once, and by then
nobody is left (`references_counted`).
-/

set_option autoImplicit false

namespace BoardGpio

open Bench

namespace InputHold

variable {κ : Type}

theorem held_of_owned {p : InputHold κ} (hp : p.owned = true) : p.held = true := by
  unfold held holders
  rw [hp]
  simp only [Bool.toNat_true, decide_eq_true_eq]
  omega

/-- A call leaves the port with its owner. -/
theorem after_held {p : InputHold κ} (own : Bool) (port : InputPort κ) (hp : p.owned = true) :
    (p.after own port).held = p.held := by
  rw [held_of_owned hp]
  exact held_of_owned hp

end InputHold

/-- How many elements pass a test after one was changed. -/
theorem countP_modify {α : Type} (p : α → Bool) (f : α → α) {l : List α} {i : Nat} {a : α}
    (h : l[i]? = some a) :
    (l.modify i f).countP p + (p a).toNat = l.countP p + (p (f a)).toNat := by
  induction l generalizing i with
  | nil => simp at h
  | cons b l ih =>
    cases i with
    | zero =>
      simp only [List.getElem?_cons_zero, Option.some.injEq] at h
      subst h
      simp only [List.modify_zero_cons, List.countP_cons]
      cases p b <;> cases p (f b) <;> simp
    | succ i =>
      have hi := ih (by simpa using h)
      simp only [List.modify_succ_cons, List.countP_cons]
      omega

theorem forall_mem_modify {α : Type} {P : α → Prop} {f : α → α} {l : List α} {i : Nat}
    (hl : ∀ a ∈ l, P a) (hi : ∀ a, l[i]? = some a → P (f a)) : ∀ a ∈ l.modify i f, P a := by
  intro a ha
  obtain ⟨j, hj⟩ := List.mem_iff_getElem?.mp ha
  rw [List.getElem?_modify] at hj
  by_cases hij : i = j
  · subst hij
    simp only [if_true] at hj
    obtain ⟨b, hb, rfl⟩ := Option.map_eq_some_iff.mp hj
    exact hi b hb
  · simp only [hij, if_false] at hj
    exact hl a (List.mem_of_getElem? (by simpa using hj))

namespace Tenants

variable {β κ α : Type} {h : Nat} {t : Tenants β κ}

theorem values_le_live (t : Tenants β κ) : t.values ≤ t.live := by
  have hinputs : t.inputs.countP InputHold.owned ≤ t.inputs.countP InputHold.held :=
    List.countP_mono_left fun p _ hp => InputHold.held_of_owned hp
  unfold values live
  omega

/-- A port that its owner has parted with has no monitor but those that are leaving. -/
def Tidy (t : Tenants β κ) : Prop :=
  ∀ p ∈ t.inputs, p.owned = false → p.port.monitoring = false

/-- The count of the handle is the number of its tenants, and it is released exactly if it has
none. -/
structure Counted (h : Nat) (t : Tenants β κ) : Prop where
  stands : Hub.Stands h t.live (decide (t.live = 0)) t.hub
  tidy : t.Tidy

/-- What is done with the handle leaves its tenants alone. -/
theorem Counted.use (ht : t.Counted h) {x : Act (Gpio (Line β)) α}
    (hx : ∀ m, x.Keeps (Gpio.Marked m)) :
    ((onHub (Hub.onHandle h x)).run t).2.Counted h :=
  ⟨ht.stands.onHandle (hx _), ht.tidy⟩

/-- Where the count of the hub and the number of tenants have both become `n`, all is well. -/
theorem Counted.of {n : Nat} {m : Bool} (hs : Hub.Stands h n m t.hub) (hlive : t.live = n)
    (hm : m = decide (n = 0)) (htidy : t.Tidy) : Counted h t := by
  subst hlive hm
  exact ⟨hs, htidy⟩

theorem live_addClone (t : Tenants β κ) (s : Hub β) :
    live { t with hub := s, clones := t.clones + 1 } = t.live + 1 := by
  unfold live
  simp only
  omega

theorem live_addOutput (t : Tenants β κ) (s : Hub β) (p : OutputPort) :
    live { t with hub := s, outputs := t.outputs ++ [some p] } = t.live + 1 := by
  unfold live
  simp only [List.countP_append, List.countP_singleton, Option.isSome_some, if_true]
  omega

theorem live_addInput (t : Tenants β κ) (s : Hub β) (p : InputPort κ) :
    live { t with hub := s, inputs := t.inputs ++ [{ port := p }] } = t.live + 1 := by
  have hheld : InputHold.held { port := p } = true := InputHold.held_of_owned rfl
  unfold live
  simp only [List.countP_append, List.countP_singleton, hheld, if_true]
  omega

theorem live_modifyInput {i : Nat} {p : InputHold κ} (f : InputHold κ → InputHold κ)
    (hp : t.inputs[i]? = some p) :
    live (t.modifyInput i f) + p.held.toNat = t.live + (f p).held.toNat := by
  have hcount := countP_modify InputHold.held f hp
  unfold live modifyInput
  simp only
  omega

theorem live_dropOutput {i : Nat} {p : OutputPort} (hp : t.outputs[i]? = some (some p)) :
    live { t with outputs := t.outputs.modify i fun _ => none } + 1 = t.live := by
  have hcount := countP_modify Option.isSome (fun _ => none) hp
  simp only [Option.isSome_some, Option.isSome_none, Bool.toNat_true, Bool.toNat_false] at hcount
  unfold live
  simp only
  omega

variable [Backend β]

theorem Counted.clone (ht : t.Counted h) (hlive : 0 < t.live) :
    ((Deed.clone.perform h).run t).2.Counted h := by
  refine after_provided ht fun _ => ?_
  rw [run_quiet_state]
  refine Counted.of (ht.stands.countRefs (· + 1)) (live_addClone t _) ?_ ht.tidy
  exact decide_eq_decide.mpr (by omega)

theorem Counted.join (ht : t.Counted h) (plan : HandlePlan) :
    (((Deed.join plan).perform h).run t).2.Counted h := by
  refine after_provided ht fun hcan => ?_
  rw [run_quiet_state]
  have hjoin : t.hub.joinable? = some h := by simpa using hcan
  have hlive : 0 < t.live := by
    have hlive := (Hub.joinable?_eq_some_iff.mp hjoin).2
    rw [Hub.isLive, ht.stands.refs, decide_eq_true_eq] at hlive
    exact hlive
  obtain ⟨s, hrun, hs⟩ := ht.stands.join hjoin plan
  rw [Act.run_bind, run_onHub, hrun]
  refine Counted.of hs (live_addClone t s) ?_ ht.tidy
  exact decide_eq_decide.mpr (by omega)

theorem Counted.openInput (ht : t.Counted h) (pins : List InputPin) (settings : InputSettings)
    (now : Nat) : (((Deed.openInput pins settings now).perform h).run t).2.Counted h := by
  refine after_provided ht fun hcan => ?_
  rw [run_quiet_state]
  have hlive : 0 < t.live := Nat.lt_of_lt_of_le (by simpa using hcan) (values_le_live t)
  rw [Act.run_bind, run_onHub]
  rcases hrun : (Hub.openInput h pins settings now : Act (Hub β) (InputPort κ)).run t.hub with
    ⟨e | port, s⟩
  · exact ⟨ht.stands.openInput hlive pins settings now hrun, ht.tidy⟩
  · refine Counted.of (ht.stands.openInput hlive pins settings now hrun) (live_addInput t s port)
      (decide_eq_decide.mpr ?_) fun p hp => ?_
    · show t.live = 0 ↔ t.live + 1 = 0
      omega
    · rcases List.mem_append.mp hp with hp | hp
      · exact ht.tidy p hp
      · cases List.mem_singleton.mp hp
        intro howned
        cases howned

theorem Counted.openOutput (ht : t.Counted h) (pins : List OutputPin) :
    (((Deed.openOutput pins).perform h).run t).2.Counted h := by
  refine after_provided ht fun hcan => ?_
  rw [run_quiet_state]
  have hlive : 0 < t.live := Nat.lt_of_lt_of_le (by simpa using hcan) (values_le_live t)
  rw [Act.run_bind, run_onHub]
  rcases hrun : (Hub.openOutput h pins).run t.hub with ⟨e | port, s⟩
  · exact ⟨ht.stands.openOutput pins hrun, ht.tidy⟩
  · refine Counted.of (ht.stands.openOutput pins hrun) (live_addOutput t s port)
      (decide_eq_decide.mpr ?_) ht.tidy
    show t.live = 0 ↔ t.live + 1 = 0
    omega

omit [Backend β] in
/-- Installing a callback or taking one away leaves the port with its owner. -/
theorem Counted.onInput (ht : t.Counted h) (i : Nat) (own : Bool) (x : Act (InputPort κ) Unit) :
    ((onInput h i own x).run t).2.Counted h := by
  refine after_onInput ht fun p hp howned => ?_
  have hlive := live_modifyInput (fun p' => p'.after own (x.run p.port).2) hp
  rw [InputHold.after_held own _ howned] at hlive
  have hlive : live (t.modifyInput i fun p' => p'.after own (x.run p.port).2) = t.live := by
    omega
  refine Counted.of ht.stands hlive rfl (forall_mem_modify ht.tidy fun p' hp' => ?_)
  rw [hp] at hp'
  cases hp'
  intro hno
  exact absurd (howned.symm.trans hno) (by decide)

/-! ## Parting -/

/-- What comes of parting with a reference in the way `how`, if there is somebody who `can`. -/
inductive Parting (h : Nat) (how : Farewell) (can : Bool) (t : Tenants β κ) :
    Reply × Tenants β κ → Prop where
  /-- There was nobody to part with it. -/
  | nobody (hcan : can = false) : Parting h how can t (.error (.fault (.noHandle h)), t)
  /-- Somebody is left: no backend is touched. -/
  | quiet {t' : Tenants β κ} (hcan : can = true) (hlive : 0 < t'.live)
      (hrigs : t'.hub.rigs = t.hub.rigs) : Parting h how can t (.ok .done, t')
  /-- The last reference takes leave of the handle, which was not released before, and which nobody
  releases again. -/
  | last {t' : Tenants β κ} {g g' : Gpio (Line β)} {r : Except Failure Unit} (hcan : can = true)
      (hlast : t.live = 1) (hnone : t'.live = 0) (hsite : t.hub.site? h = some g)
      (hopen : g.handle.released = false)
      (hrun : (Hub.farewell how).run g = (r, g'))
      (hsite' : t'.hub.site? h = some
        { handle := g'.handle, backend := ⟨g'.backend.rig, g.backend.direct⟩ })
      (hdone : g'.handle.released = true)
      (hagain : ∀ how, (Hub.farewell how).run g' = (.ok (), g')) :
    Parting h how can t (r.map fun _ => .done, t')

/-- Somebody parts who is no tenant any more, and gives up the reference. -/
theorem Counted.letGo (ht : t.Counted h) {u : Tenants β κ} (hhub : u.hub = t.hub)
    (hless : u.live + 1 = t.live)
    (htidy : u.Tidy) (how : Farewell) {can : Bool} (hcan : can = true) :
    Parting h how can t ((Bench.quiet (onHub (Hub.letGo h how))).run u) ∧
      ((Bench.quiet (onHub (Hub.letGo h how))).run u).2.Counted h := by
  have hlive : ∀ s : Hub β, live { u with hub := s } = u.live := fun s => rfl
  rw [run_quiet, run_onHub, hhub]
  -- the count tells whether somebody is left, as it is the number of tenants
  by_cases hmore : 1 < t.live
  · obtain ⟨s', hrun, hs', hrigs⟩ := ht.stands.letGo hmore how
    rw [hrun]
    refine ⟨.quiet hcan ?_ hrigs, Counted.of hs' ?_ ?_ htidy⟩
    · rw [hlive]
      omega
    · rw [hlive]
      omega
    · exact decide_eq_decide.mpr (by omega)
  · have hone : t.live = 1 := by omega
    obtain ⟨g, hg, hmark⟩ := ht.stands.site
    have hopen : g.handle.released = false := by rw [hmark, hone]; rfl
    have hrefs : t.hub.refs h = 1 := ht.stands.refs.trans hone
    have hg₁ : ((Hub.countRefs h (· - 1)).run t.hub).2.site? h = some g := by
      rw [Hub.site?_countRefs, hg]
    obtain ⟨hres, hsite, -⟩ := Hub.run_onHandle hg₁ (Hub.farewell how)
    have hmarked := Gpio.marked_farewell how g
    have hcount := (ht.stands.countRefs (· - 1)).refs
    rw [Hub.run_letGo_last hrefs]
    rcases hfarewell : (Hub.farewell how).run g with ⟨r, g'⟩
    rw [hfarewell] at hres hsite hmarked
    rw [show ((Hub.onHandle h (Hub.farewell how)).run
      ((Hub.countRefs h (· - 1)).run t.hub).2).1 = r from hres]
    have hnone : u.live = 0 := by omega
    refine ⟨.last hcan hone hnone hg hopen hfarewell hsite hmarked fun how' => ?_, ?_⟩
    · exact Gpio.farewell_again how' hmarked
    · refine Counted.of (n := 0) (m := true) ⟨?_, _, hsite, hmarked⟩ hnone rfl htidy
      rw [Hub.refs_onHandle, hcount, hone]

theorem Counted.partClone (ht : t.Counted h) (how : Farewell) :
    Parting h how ((Deed.partClone how).canPart t) t (((Deed.partClone how).perform h).run t) ∧
      (((Deed.partClone how).perform h).run t).2.Counted h := by
  rw [Deed.perform, run_provided]
  by_cases hcan : 0 < t.clones
  · rw [if_pos (decide_eq_true hcan)]
    refine ht.letGo (u := { t with clones := t.clones - 1 }) rfl ?_ ht.tidy how
      (decide_eq_true hcan)
    unfold live
    simp only
    omega
  · rw [if_neg (by simpa using hcan)]
    exact ⟨.nobody (decide_eq_false hcan), ht⟩

theorem Counted.partOutput (ht : t.Counted h) (i : Nat) (how : Farewell) :
    Parting h how ((Deed.partOutput i how).canPart t) t
        (((Deed.partOutput i how).perform h).run t) ∧
      (((Deed.partOutput i how).perform h).run t).2.Counted h := by
  rw [Deed.perform, run_onOutput]
  split
  case h_1 p hp =>
    refine ht.letGo (u := { t with outputs := t.outputs.modify i fun _ => none }) rfl
      (live_dropOutput hp) ht.tidy how ?_
    rw [Deed.canPart, hp]
    rfl
  case h_2 hnone =>
    refine ⟨.nobody ?_, ht⟩
    show t.outputs[i]?.any Option.isSome = false
    cases hp : t.outputs[i]? with
    | none => rfl
    | some p =>
      cases p with
      | none => rfl
      | some p => exact absurd hp (hnone p)

/-- Once the inside of a port has lost a holder, its reference goes if that was the last. -/
theorem Counted.vacate (ht : t.Counted h) {i : Nat} {p : InputHold κ}
    (hp : t.inputs[i]? = some p) (hheld : p.held = true) {f : InputHold κ → InputHold κ}
    (hf : (f p).owned = false → (f p).port.monitoring = false) (how : Farewell) {can : Bool}
    (hcan : can = true) :
    Parting h how can t ((Bench.quiet (vacate h i how)).run (t.modifyInput i f)) ∧
      ((Bench.quiet (vacate h i how)).run (t.modifyInput i f)).2.Counted h := by
  have hlive := live_modifyInput f hp
  have htidy : (t.modifyInput i f).Tidy :=
    forall_mem_modify ht.tidy fun p' hp' => by
      rw [hp] at hp'
      cases hp'
      exact hf
  have hget : (t.modifyInput i f).inputs[i]?.any InputHold.held = (f p).held := by
    simp [modifyInput, hp]
  rw [hheld] at hlive
  unfold Tenants.vacate
  rw [run_quiet, Act.run_bind_ok _ (Act.run_gets _ _), hget]
  cases hstill : (f p).held with
  | true =>
    rw [hstill] at hlive
    have hsame : (t.modifyInput i f).live = t.live := by omega
    have hpos : 0 < t.live := by
      have hmem : 0 < t.inputs.countP InputHold.held :=
        List.countP_pos_iff.mpr ⟨p, List.mem_of_getElem? hp, hheld⟩
      unfold live
      omega
    have hleft : 0 < (t.modifyInput i f).live := by omega
    exact ⟨.quiet hcan hleft rfl, Counted.of ht.stands hsame rfl htidy⟩
  | false =>
    rw [hstill] at hlive
    simp only [Bool.toNat_true, Bool.toNat_false] at hlive
    have hgone := ht.letGo (u := t.modifyInput i f) rfl (by omega) htidy how hcan
    rw [run_quiet] at hgone
    exact hgone

theorem Counted.partInput (ht : t.Counted h) (i : Nat) (own : Bool) (how : Farewell) :
    Parting h how ((Deed.partInput i own how).canPart t) t
        (((Deed.partInput i own how).perform h).run t) ∧
      (((Deed.partInput i own how).perform h).run t).2.Counted h := by
  have hstop := run_onInput h i own (Act.modify fun p => { p with monitoring := false }) t
  cases hp : t.inputs[i]? with
  | none =>
    rw [hp] at hstop
    rw [Deed.perform, run_quiet, Act.run_bind_error _ hstop]
    refine ⟨.nobody ?_, ht⟩
    rw [Deed.canPart, hp]
    rfl
  | some p =>
    rw [hp] at hstop
    by_cases hcan : (p.owned && (!own || p.port.monitoring)) = true
    · simp only [if_pos hcan, Act.run_modify] at hstop
      have howned : p.owned = true := (Bool.and_eq_true _ _ ▸ hcan).1
      -- the owner's part in the inside goes after the monitor's
      let gone := InputHold.disowned ∘ fun p' : InputHold κ =>
        p'.after own { p.port with monitoring := false }
      have hboth : modifyInput (t.modifyInput i fun p' =>
          p'.after own { p.port with monitoring := false }) i InputHold.disowned =
            t.modifyInput i gone := by
        unfold modifyInput
        simp only [List.modify_modify_eq, gone]
      have hpart : (Deed.partInput i own how).canPart t = true := by
        rw [Deed.canPart, hp]
        exact hcan
      have hgone := ht.vacate hp (InputHold.held_of_owned howned) (f := gone) (fun _ => rfl) how
        hpart
      rw [run_quiet] at hgone
      rw [Deed.perform, run_quiet, Act.run_bind_ok _ hstop, Act.run_bind_ok _ (Act.run_modify _ _),
        hboth]
      exact hgone
    · simp only [if_neg hcan] at hstop
      rw [Deed.perform, run_quiet, Act.run_bind_error _ hstop]
      refine ⟨.nobody ?_, ht⟩
      rw [Deed.canPart, hp]
      exact Bool.eq_false_iff.mpr hcan

theorem Counted.monitorEnds (ht : t.Counted h) (i : Nat) :
    Parting h .dropped ((Deed.monitorEnds i).canPart t) t
        (((Deed.monitorEnds i).perform h).run t) ∧
      (((Deed.monitorEnds i).perform h).run t).2.Counted h := by
  rw [Deed.perform, run_provided]
  by_cases hcan : (t.inputs[i]?.any fun p => decide (0 < p.leaving)) = true
  · rw [if_pos hcan]
    obtain ⟨p, hp, hleaving⟩ : ∃ p, t.inputs[i]? = some p ∧ 0 < p.leaving := by
      cases hp : t.inputs[i]? with
      | none =>
        rw [hp] at hcan
        cases hcan
      | some p =>
        rw [hp] at hcan
        exact ⟨p, rfl, of_decide_eq_true hcan⟩
    have hheld : p.held = true := by
      unfold InputHold.held InputHold.holders
      exact decide_eq_true (by omega)
    have hmem := ht.tidy p (List.mem_of_getElem? hp)
    have hpart : (Deed.monitorEnds i).canPart t = true := hcan
    have hgone := ht.vacate hp hheld (f := InputHold.ended) hmem .dropped hpart
    rw [run_quiet] at hgone ⊢
    exact hgone
  · rw [if_neg hcan]
    exact ⟨.nobody (Bool.eq_false_iff.mpr hcan), ht⟩

/-! ## Runs -/

theorem Counted.step (ht : t.Counted h) (d : Deed κ) : ((d.perform h).run t).2.Counted h := by
  have htwin : ∀ m, Gpio.Twin (fun g g' : Gpio (Line β) => g = g' ∧ Gpio.Marked m g)
      fun _ => True := Gpio.twin_marked
  cases d with
  | pin call =>
    exact after_provided ht fun _ => ht.use fun m =>
      ((htwin m).pinCall call fun _ => trivial).keeps
  | handle call =>
    exact after_provided ht fun _ => ht.use fun m => ((htwin m).handleCall call).keeps
  | clone =>
    by_cases hlive : 0 < t.live
    · exact ht.clone hlive
    · refine after_provided ht fun hcan => absurd ?_ hlive
      exact Nat.lt_of_lt_of_le (by simpa using hcan) (values_le_live t)
  | join plan => exact ht.join plan
  | openInput pins settings now => exact ht.openInput pins settings now
  | openOutput pins => exact ht.openOutput pins
  | output i call =>
    exact after_onOutput ht fun p _ => ht.use fun m => ((htwin m).outputCall p call).keeps
  | readOutput i index =>
    exact after_onOutput ht fun p _ => ht.use fun m => (((htwin m).readOutput p index).map _).keeps
  | readOutputs i =>
    exact after_onOutput ht fun p _ => ht.use fun m => (((htwin m).readIndices p _ _).map _).keeps
  | sample i mcu =>
    refine after_provided ht fun _ => ?_
    rw [Act.run_map]
    exact ht.use fun m => ((htwin m).readMcu mcu).keeps
  | callback i own call =>
    rw [Deed.perform, run_quiet_state]
    exact ht.onInput i own call.perform
  | partClone how => exact (ht.partClone how).2
  | partOutput i how => exact (ht.partOutput i how).2
  | partInput i own how => exact (ht.partInput i own how).2
  | monitorEnds i => exact (ht.monitorEnds i).2

theorem Counted.parting (ht : t.Counted h) {d : Deed κ} {how : Farewell}
    (hd : d.parts? = some how) :
    Parting h how (d.canPart t) t ((d.perform h).run t) := by
  cases d with
  | partClone how' =>
    cases hd
    exact (ht.partClone how).1
  | partOutput i how' =>
    cases hd
    exact (ht.partOutput i how).1
  | partInput i own how' =>
    cases hd
    exact (ht.partInput i own how).1
  | monitorEnds i =>
    cases hd
    exact (ht.monitorEnds i).1
  | _ => cases hd

theorem Counted.run (ht : t.Counted h) (deeds : List (Deed κ)) : (run h deeds t).2.Counted h := by
  induction deeds generalizing t with
  | nil => exact ht
  | cons d deeds ih => exact ih (ht.step d)

omit [Backend β] in
theorem Counted.released (ht : t.Counted h) : t.released h = decide (t.live = 0) := by
  obtain ⟨g, hg, hmark⟩ := ht.stands.site
  rw [Tenants.released, hg]
  exact hmark

omit [Backend β] in
theorem absent_input (hnone : t.live = 0) {i : Nat} {p : InputHold κ} (hp : t.inputs[i]? = some p) :
    p.held = false := by
  cases hheld : p.held with
  | false => rfl
  | true =>
    have hpos : 0 < t.inputs.countP InputHold.held :=
      List.countP_pos_iff.mpr ⟨p, List.mem_of_getElem? hp, hheld⟩
    unfold live at hnone
    omega

omit [Backend β] in
theorem absent_output (hnone : t.live = 0) {i : Nat} {p : OutputPort} :
    t.outputs[i]? ≠ some (some p) := by
  intro hp
  have hpos : 0 < t.outputs.countP Option.isSome :=
    List.countP_pos_iff.mpr ⟨some p, List.mem_of_getElem? hp, rfl⟩
  unfold live at hnone
  omega

omit [Backend β] in
theorem provided_absent {can : Tenants β κ → Bool} (hcan : can t = false)
    (x : Act (Tenants β κ) α) : (provided h can x).run t = (.error (.fault (.noHandle h)), t) := by
  rw [run_provided, hcan]
  rfl

omit [Backend β] in
theorem onOutput_absent (hnone : t.live = 0) (i : Nat) (x : OutputPort → Act (Tenants β κ) α) :
    (onOutput h i x).run t = (.error (.fault (.noHandle h)), t) := by
  rw [run_onOutput]
  split
  case h_1 p hp => exact absurd hp (absent_output hnone)
  case h_2 => rfl

omit [Backend β] in
theorem onInput_absent (hnone : t.live = 0) (i : Nat) (own : Bool) (x : Act (InputPort κ) Unit) :
    (onInput h i own x).run t = (.error (.fault (.noHandle h)), t) := by
  rw [run_onInput]
  split
  case h_2 => rfl
  case h_1 p hp =>
    have howned : p.owned = false := by
      apply Bool.eq_false_iff.mpr
      intro howned
      have hheld := absent_input hnone hp
      rw [InputHold.held_of_owned howned] at hheld
      cases hheld
    rw [howned]
    rfl

/-- A handle without tenants is left alone for good. -/
theorem Counted.absent (ht : t.Counted h) (hnone : t.live = 0) (d : Deed κ) :
    (d.perform h).run t = (.error (.fault (.noHandle h)), t) := by
  have hvalues : decide (0 < t.values) = false := by
    have hle := values_le_live t
    exact decide_eq_false (by omega)
  cases d with
  | pin call => exact provided_absent hvalues _
  | handle call => exact provided_absent hvalues _
  | clone => exact provided_absent hvalues _
  | join plan =>
    refine provided_absent ?_ _
    apply beq_eq_false_iff_ne.mpr
    intro hjoin
    have hlive := (Hub.joinable?_eq_some_iff.mp hjoin).2
    rw [Hub.isLive, ht.stands.refs, hnone] at hlive
    cases hlive
  | openInput pins settings now => exact provided_absent hvalues _
  | openOutput pins => exact provided_absent hvalues _
  | output i call => exact onOutput_absent hnone i _
  | readOutput i index => exact onOutput_absent hnone i _
  | readOutputs i => exact onOutput_absent hnone i _
  | sample i mcu =>
    refine provided_absent ?_ _
    cases hp : t.inputs[i]? with
    | none => rfl
    | some p => exact absent_input hnone hp
  | callback i own call =>
    rw [Deed.perform, run_quiet, onInput_absent hnone]
    rfl
  | partClone how =>
    refine provided_absent ?_ _
    unfold live at hnone
    exact decide_eq_false (by omega)
  | partOutput i how => exact onOutput_absent hnone i _
  | partInput i own how =>
    rw [Deed.perform, run_quiet, Act.run_bind_error _ (onInput_absent hnone i own _)]
    rfl
  | monitorEnds i =>
    refine provided_absent ?_ _
    cases hp : t.inputs[i]? with
    | none => rfl
    | some p =>
      have hheld := absent_input hnone hp
      unfold InputHold.held InputHold.holders at hheld
      have hholders := of_decide_eq_false hheld
      exact decide_eq_false (by omega)

theorem Counted.run_absent (ht : t.Counted h) (hnone : t.live = 0) (deeds : List (Deed κ)) :
    (Tenants.run h deeds t).2 = t := by
  induction deeds with
  | nil => rfl
  | cons d deeds ih =>
    show (Tenants.run h deeds ((d.perform h).run t).2).2 = t
    rw [ht.absent hnone d]
    exact ih

/-- A run that begins with tenants releases the handle once if it leaves none, and else never. -/
theorem Counted.releases (ht : t.Counted h) (deeds : List (Deed κ)) :
    Tenants.releases h deeds t =
      if t.live ≠ 0 ∧ (Tenants.run h deeds t).2.live = 0 then 1 else 0 := by
  induction deeds generalizing t with
  | nil =>
    show 0 = if t.live ≠ 0 ∧ t.live = 0 then 1 else 0
    rw [if_neg (fun hboth => hboth.1 hboth.2)]
  | cons d deeds ih =>
    have hstep := ht.step d
    have hrest := ih hstep
    show (!t.released h && Tenants.released h ((d.perform h).run t).2).toNat +
      Tenants.releases h deeds ((d.perform h).run t).2 = if t.live ≠ 0 ∧
        (Tenants.run h deeds ((d.perform h).run t).2).2.live = 0 then 1 else 0
    rw [ht.released, hstep.released, hrest]
    by_cases hnone : t.live = 0
    · -- nothing happens any more
      rw [ht.absent hnone d]
      simp [hnone]
    · by_cases hgone : ((d.perform h).run t).2.live = 0
      · rw [hstep.run_absent hgone]
        simp [hnone, hgone]
      · simp [hnone, hgone]

/-! ## Runs of the release -/

section Live

omit [Backend β]

theorem live_hub {n : Nat} (t : Tenants β κ) (s : Hub β) (ht : n ≤ t.live) :
    n ≤ live { t with hub := s } := ht

/-- Calling an input port makes no tenant fewer. -/
theorem live_onInput {n : Nat} (i : Nat) (own : Bool) (x : Act (InputPort κ) Unit) :
    (onInput h i own x : Act (Tenants β κ) Unit).Keeps fun t => n ≤ t.live := by
  intro t ht
  refine after_onInput (P := fun t => n ≤ t.live) ht fun p hp howned => ?_
  have hlive := live_modifyInput (fun p' => p'.after own (x.run p.port).2) hp
  rw [InputHold.after_held own _ howned] at hlive
  omega

end Live

/-- A deed that parts with no reference makes no tenant fewer. -/
theorem live_step {n : Nat} {d : Deed κ} (hd : d.parts? = none) :
    (d.perform h : Act (Tenants β κ) Answer).Keeps fun t => n ≤ t.live := by
  cases d with
  | pin call => exact keeps_provided (keeps_onHub live_hub _)
  | handle call => exact keeps_provided (keeps_onHub live_hub _)
  | clone =>
    exact keeps_provided <| keeps_quiet <|
      (keeps_onHub live_hub _).bind fun _ => Act.Keeps.modify fun t ht =>
        (live_addClone t t.hub).symm ▸ Nat.le_succ_of_le ht
  | join plan =>
    exact keeps_provided <| keeps_quiet <|
      (keeps_onHub live_hub _).bind fun _ => Act.Keeps.modify fun t ht =>
        (live_addClone t t.hub).symm ▸ Nat.le_succ_of_le ht
  | openInput pins settings now =>
    exact keeps_provided <| keeps_quiet <|
      (keeps_onHub live_hub _).bind fun port => Act.Keeps.modify fun t ht =>
        (live_addInput t t.hub port).symm ▸ Nat.le_succ_of_le ht
  | openOutput pins =>
    exact keeps_provided <| keeps_quiet <|
      (keeps_onHub live_hub _).bind fun port => Act.Keeps.modify fun t ht =>
        (live_addOutput t t.hub port).symm ▸ Nat.le_succ_of_le ht
  | output i call => exact keeps_onOutput fun _ => keeps_onHub live_hub _
  | readOutput i index => exact keeps_onOutput fun _ => keeps_onHub live_hub _
  | readOutputs i => exact keeps_onOutput fun _ => keeps_onHub live_hub _
  | sample i mcu => exact keeps_provided ((keeps_onHub live_hub _).map _)
  | callback i own call => exact keeps_quiet (live_onInput i own _)
  | partClone how => cases hd
  | partOutput i how => cases hd
  | partInput i own how => cases hd
  | monitorEnds i => cases hd

omit [Backend β] in
/-- Where no tenant is left, every reference was given up. -/
theorem vacates_of_none (hnone : t.live = 0) (d : Deed κ) : d.vacates t = true := by
  have hinput : ∀ i : Nat, t.inputs[i]?.any InputHold.held = false := by
    intro i
    cases hp : t.inputs[i]? with
    | none => rfl
    | some p => exact absent_input hnone hp
  cases d with
  | partInput i own how => exact congrArg not (hinput i)
  | monitorEnds i => exact congrArg not (hinput i)
  | _ => rfl

/-- The deed that leaves no tenant is the one that runs the release, and no other does. -/
theorem Counted.takesLeave (ht : t.Counted h) (d : Deed κ) :
    takesLeave h d t = (!t.released h && Tenants.released h ((d.perform h).run t).2) := by
  have hstep := ht.step d
  have hleft : ((d.perform h).run t).2.hub.isLive h =
      decide (0 < ((d.perform h).run t).2.live) := by
    rw [Hub.isLive, hstep.stands.refs]
  rw [ht.released, hstep.released]
  unfold Tenants.takesLeave
  simp only
  rw [hleft]
  by_cases hnone : ((d.perform h).run t).2.live = 0
  · rw [vacates_of_none hnone]
    cases hd : d.parts? with
    | none =>
      have hkept := live_step (h := h) (n := t.live) hd t (Nat.le_refl _)
      have hcan : d.canPart t = false := by cases d <;> first | rfl | cases hd
      simp [hnone, hcan, show t.live = 0 by omega]
    | some how =>
      have hparting := ht.parting hd
      generalize (d.perform h).run t = r at hparting hnone
      cases hparting with
      | nobody hcan => simp [hcan, hnone]
      | quiet _ hlive => exact absurd hnone (Nat.ne_of_gt hlive)
      | last hcan hlast => simp [hcan, hlast, hnone]
  · have hpos : 0 < ((d.perform h).run t).2.live := Nat.pos_of_ne_zero hnone
    simp [hnone, hpos]

/-- The release is run as often as the handle becomes marked by it. -/
theorem Counted.farewells (ht : t.Counted h) (deeds : List (Deed κ)) :
    Tenants.farewells h deeds t = Tenants.releases h deeds t := by
  induction deeds generalizing t with
  | nil => rfl
  | cons d deeds ih =>
    rw [Tenants.farewells, Tenants.releases, ht.takesLeave d, ih (ht.step d)]

/-! ## Monitors that are not waited for -/

/-- No monitor is left that was stopped and not waited for. -/
def Settled (t : Tenants β κ) : Prop := ∀ p ∈ t.inputs, p.leaving = 0

section Settled

omit [Backend β]

/-- The hub knows nothing of monitors. -/
theorem settled_hub (t : Tenants β κ) (s : Hub β) (ht : t.Settled) :
    Settled { t with hub := s } := ht

theorem settled_modifyInput {i : Nat} {f : InputHold κ → InputHold κ}
    (hf : ∀ p, p.leaving = 0 → (f p).leaving = 0) :
    (Act.modify fun t : Tenants β κ => t.modifyInput i f).Keeps Settled :=
  Act.Keeps.modify fun _ ht =>
    forall_mem_modify ht fun p hp => hf p (ht p (List.mem_of_getElem? hp))

/-- Who is not the monitor waits for it. -/
theorem settled_onInput (i : Nat) (x : Act (InputPort κ) Unit) :
    (onInput h i false x : Act (Tenants β κ) Unit).Keeps Settled := by
  intro t ht
  refine after_onInput ht fun p hp _ => ?_
  refine settled_modifyInput (fun p' hp' => ?_) t ht
  simp [InputHold.after, hp']

theorem live_eq_values (ht : t.Counted h) (hsettled : t.Settled) : t.live = t.values := by
  have hsame : t.inputs.countP InputHold.held = t.inputs.countP InputHold.owned := by
    refine List.countP_congr fun p hp => ?_
    have hgone := ht.tidy p hp
    cases howned : p.owned with
    | true => simp [InputHold.held_of_owned howned]
    | false => simp [InputHold.held, InputHold.holders, howned, hgone howned, hsettled p hp]
  unfold live values
  rw [hsame]

end Settled

theorem settled_step {d : Deed κ} (hd : d.byMonitor = false) :
    (d.perform h : Act (Tenants β κ) Answer).Keeps Settled := by
  cases d with
  | pin call => exact keeps_provided (keeps_onHub settled_hub _)
  | handle call => exact keeps_provided (keeps_onHub settled_hub _)
  | clone =>
    exact keeps_provided <| keeps_quiet <|
      (keeps_onHub settled_hub _).bind fun _ => Act.Keeps.modify fun _ ht => ht
  | join plan =>
    exact keeps_provided <| keeps_quiet <|
      (keeps_onHub settled_hub _).bind fun _ => Act.Keeps.modify fun _ ht => ht
  | openInput pins settings now =>
    refine keeps_provided <| keeps_quiet <|
      (keeps_onHub settled_hub _).bind fun port => Act.Keeps.modify fun t ht p hp => ?_
    rcases List.mem_append.mp hp with hp | hp
    · exact ht p hp
    · cases List.mem_singleton.mp hp
      rfl
  | openOutput pins =>
    exact keeps_provided <| keeps_quiet <|
      (keeps_onHub settled_hub _).bind fun _ => Act.Keeps.modify fun _ ht => ht
  | output i call => exact keeps_onOutput fun _ => keeps_onHub settled_hub _
  | readOutput i index => exact keeps_onOutput fun _ => keeps_onHub settled_hub _
  | readOutputs i => exact keeps_onOutput fun _ => keeps_onHub settled_hub _
  | sample i mcu => exact keeps_provided ((keeps_onHub settled_hub _).map _)
  | callback i own call =>
    cases own with
    | false => exact keeps_quiet (settled_onInput i _)
    | true => cases hd
  | partClone how =>
    exact keeps_provided <| keeps_quiet <|
      Act.Keeps.bind (Act.Keeps.modify fun _ ht => ht) fun _ => keeps_onHub settled_hub _
  | partOutput i how =>
    exact keeps_onOutput fun _ => keeps_quiet <|
      Act.Keeps.bind (Act.Keeps.modify fun _ ht => ht) fun _ => keeps_onHub settled_hub _
  | partInput i own how =>
    cases own with
    | false =>
      exact keeps_quiet <| (settled_onInput i _).bind fun _ =>
        (settled_modifyInput (f := InputHold.disowned) fun _ hp => hp).bind fun _ =>
          keeps_vacate settled_hub h i how
    | true => cases hd
  | monitorEnds i =>
    refine keeps_provided <| keeps_quiet <|
      (settled_modifyInput fun p hp => ?_).bind fun _ => keeps_vacate settled_hub h i .dropped
    simp [InputHold.ended, hp]

theorem settled_run {deeds : List (Deed κ)} (hdeeds : ∀ d ∈ deeds, d.byMonitor = false)
    (ht : t.Settled) : (Tenants.run h deeds t).2.Settled := by
  induction deeds generalizing t with
  | nil => exact ht
  | cons d deeds ih =>
    exact ih (fun d' hd' => hdeeds d' (List.mem_cons_of_mem d hd'))
      (settled_step (hdeeds d List.mem_cons_self) t ht)

end Tenants

namespace Hub

variable {β : Type} [Backend β] {plan : HandlePlan} {s s₀ : Hub β} {h : Nat}

/-- A handle was opened, on its own or to be shared where there was none to join. -/
inductive Opened (plan : HandlePlan) (s : Hub β) (h : Nat) (s₀ : Hub β) : Prop where
  | own (hrun : (build plan).run s = (.ok h, s₀))
  | shared (hnone : s.joinable? = none) (hrun : (openShared plan).run s = (.ok h, s₀))

/-- A handle of one's own has one reference. -/
theorem stands_build (hrun : (build plan).run s = (.ok h, s₀)) : Stands h 1 false s₀ := by
  obtain ⟨i, table, rig, -, -, -, -, -, hrefs, hsite⟩ := built hrun
  exact ⟨hrefs, _, hsite, rfl⟩

theorem Opened.stands (hopen : Opened plan s h s₀) : Stands h 1 false s₀ := by
  cases hopen with
  | own hrun => exact stands_build hrun
  | shared hnone hrun =>
    rw [openShared, Act.run_bind_ok _ (Act.run_gets _ s), hnone] at hrun
    obtain ⟨k, s₁, hbuild, hrest⟩ := Act.run_bind_eq_ok_iff.mp hrun
    cases hrest
    have hs := stands_build hbuild
    exact ⟨hs.refs, hs.site⟩

end Hub

/-! ## The account -/

namespace Tenants

variable {β κ : Type} [Backend β] {h : Nat}

/-- What holds when tenants `t` are left of `t₀` after a run. -/
structure Accounted (h : Nat) (deeds : List (Deed κ)) (t₀ t : Tenants β κ) : Prop where
  /-- Every tenant is counted once. -/
  refs : t.hub.refs h = t.live
  /-- The tenants are the clones and ports that the program has, as long as no callback of a monitor
  stops that monitor. If one does, the inside of its port is held until the monitor ends, whether or
  not the program still has the port. -/
  owners : (∀ d ∈ deeds, d.byMonitor = false) → t.live = t.values
  /-- The handle becomes marked as released once, by the last of its tenants. -/
  releases : releases h deeds t₀ = if t.live = 0 then 1 else 0
  /-- And the release is run once. -/
  farewells : farewells h deeds t₀ = if t.live = 0 then 1 else 0
  parting : ∀ (d : Deed κ) (how : Farewell), d.parts? = some how →
    Parting h how (d.canPart t) t ((d.perform h).run t)

/-- Whatever is done with a handle, by whom and in whatever order, its references are accounted
for. -/
theorem references_counted {plan : HandlePlan} {s s₀ : Hub β}
    (hopen : Hub.Opened plan s h s₀) (deeds : List (Deed κ)) :
    Accounted h deeds { hub := s₀ } (run h deeds { hub := s₀ }).2 := by
  have hstart : Counted h ({ hub := s₀ } : Tenants β κ) :=
    Counted.of hopen.stands rfl rfl fun p hp => absurd hp List.not_mem_nil
  have hcounted := hstart.run deeds
  have hreleases : releases h deeds ({ hub := s₀ } : Tenants β κ) =
      if (run h deeds ({ hub := s₀ } : Tenants β κ)).2.live = 0 then 1 else 0 := by
    have hlive : ({ hub := s₀ } : Tenants β κ).live = 1 := rfl
    rw [hstart.releases deeds]
    simp [hlive]
  refine ⟨hcounted.stands.refs, fun hdeeds => ?_, hreleases, ?_, fun d how hd =>
    hcounted.parting hd⟩
  · exact live_eq_values hcounted (settled_run hdeeds fun p hp => absurd hp List.not_mem_nil)
  · rw [hstart.farewells deeds]
    exact hreleases

/-! ## A port that its own monitor drops -/

def simulated : Hub Sim := { rigs := #[{ device := .fresh 2 }] }

def simulatedBuilt : Hub Sim := ((Hub.build Hub.twoPinsPlan).run simulated).2

/-- A callback drops its own port; then the handle and its clone are parted with. -/
def dropped : List (Deed Unit) :=
  [.clone, .openInput [{ pin := 0, pull := .up }] {} 0, .callback 0 false (.install 0 ()),
    .partClone .closed, .partInput 0 true .dropped, .partClone .dropped]

def droppedTenants : Tenants Sim Unit := (run 0 dropped { hub := simulatedBuilt }).2

/-- The program has nothing left, but the handle is released only when the monitor ends. -/
theorem references_counted_dropped :
    Hub.Opened Hub.twoPinsPlan simulated 0 simulatedBuilt ∧
      droppedTenants.values = 0 ∧ droppedTenants.live = 1 ∧
        Accounted 0 dropped { hub := simulatedBuilt } droppedTenants ∧
          releases 0 (dropped ++ [.monitorEnds 0]) { hub := simulatedBuilt } = 1 := by
  have hopen : Hub.Opened Hub.twoPinsPlan simulated 0 simulatedBuilt := .own rfl
  have hended := (references_counted hopen (dropped ++ [.monitorEnds 0])).releases
  have hnone : (run 0 (dropped ++ [.monitorEnds 0]) { hub := simulatedBuilt }).2.live = 0 := by
    decide +kernel
  rw [if_pos hnone] at hended
  exact ⟨hopen, by decide +kernel, by decide +kernel, references_counted hopen dropped, hended⟩

end Tenants

end BoardGpio
