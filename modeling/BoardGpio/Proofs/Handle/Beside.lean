import BoardGpio.Proofs.Handle.References

/-!
# What is done beside a handle

A deed with one handle leaves all other handles as they are, and so which of them is the current
one (`Hub.Beside`, `Tenants.beside_perform`). A handle whose own entry is the same stands as it did
(`Hub.Stands.of_same`).
-/

set_option autoImplicit false

namespace BoardGpio

open Bench

namespace Hub

variable {β κ α : Type} {s s₀ t : Hub β} {h k n : Nat} {m : Bool}

/-- All handles but `h` are as in `s₀`, and so is which one is the current one. No handle and no
backend is new. -/
structure Beside (h : Nat) (s₀ s : Hub β) : Prop where
  handles : ∀ k, k ≠ h → s.handles[k]? = s₀.handles[k]?
  count : s.handles.size = s₀.handles.size
  rigs : s.rigs.size = s₀.rigs.size
  current : s.current = s₀.current

theorem Beside.refl (h : Nat) (s : Hub β) : Beside h s s := ⟨fun _ _ => rfl, rfl, rfl, rfl⟩

theorem beside_onHandle (x : Act (Gpio (Line β)) α) : (onHandle h x).Keeps (Beside h s₀) := by
  intro s hs
  cases hshared : s.handles[h]? with
  | none => simpa only [Act.run, onHandle, hshared] using hs
  | some shared =>
    cases hrig : s.rigs[shared.rig]? with
    | none => simpa only [Act.run, onHandle, hshared, hrig] using hs
    | some rig =>
      simp only [Act.run, onHandle, hshared, hrig]
      refine ⟨fun k hk => ?_, ?_, ?_, hs.current⟩
      · rw [Array.getElem?_setIfInBounds_ne hk.symm]
        exact hs.handles k hk
      · exact Array.size_setIfInBounds.trans hs.count
      · exact Array.size_setIfInBounds.trans hs.rigs

theorem beside_countRefs (f : Nat → Nat) :
    (countRefs h f : Act (Hub β) Unit).Keeps (Beside h s₀) := by
  refine Act.Keeps.modify fun s hs => ⟨fun k hk => ?_, ?_, hs.rigs, hs.current⟩
  · rw [Array.getElem?_modify, if_neg hk.symm]
    exact hs.handles k hk
  · exact Array.size_modify.trans hs.count

/-- A handle whose entry is the same stands as it did, as long as no backend is gone. -/
theorem Stands.of_same (hs : Stands k n m s) (hentry : t.handles[k]? = s.handles[k]?)
    (hrigs : s.rigs.size ≤ t.rigs.size) : Stands k n m t := by
  obtain ⟨g, hg, hmark⟩ := hs.site
  obtain ⟨shared, rig, hshared, hrig, rfl⟩ := site?_eq_some_iff.mp hg
  have hsize : shared.rig < t.rigs.size :=
    Nat.lt_of_lt_of_le (Array.getElem?_eq_some_iff.mp hrig).1 hrigs
  have hrefs : t.refs k = s.refs k := by rw [Hub.refs, Hub.refs, hentry]
  refine ⟨hrefs.trans hs.refs,
    { handle := shared.handle, backend := ⟨t.rigs[shared.rig], shared.direct⟩ }, ?_, hmark⟩
  exact site?_eq_some_iff.mpr
    ⟨shared, _, hentry.trans hshared, Array.getElem?_eq_getElem hsize, rfl⟩

variable [Backend β]

theorem beside_letGo (how : Farewell) : (letGo h how).Keeps (Beside h s₀) := by
  refine (beside_countRefs _).bind fun _ => (Act.Leaves.gets _).keeps.bind fun left => ?_
  split
  · exact Act.Keeps.pure ()
  · exact beside_onHandle _

theorem beside_openInput (pins : List InputPin) (settings : InputSettings) (now : Nat) :
    (openInput h pins settings now : Act (Hub β) (InputPort κ)).Keeps (Beside h s₀) :=
  (beside_onHandle _).bind fun _ => (beside_countRefs _).bind fun _ =>
    ((beside_onHandle _).matches.orCleanUp (beside_letGo .dropped).matches).keeps

theorem beside_openOutput (pins : List OutputPin) : (openOutput h pins).Keeps (Beside h s₀) :=
  (beside_onHandle _).bind fun _ => (beside_countRefs _).bind fun _ => Act.Keeps.pure _

theorem run_openShared_join (hjoin : s.joinable? = some h) (plan : HandlePlan) :
    (openShared plan).run s = (.ok h, { s with
      handles := s.handles.modify h fun shared => { shared with refs := shared.refs + 1 }
      log := s.log ++ [.joined (s.refs h + 1)] }) := by
  -- a live handle is one of the hub's, so the reference that is taken is counted
  have hsize : h < s.handles.size := by
    have hlive := (joinable?_eq_some_iff.mp hjoin).2
    apply Nat.lt_of_not_le
    intro hge
    simp [isLive, refs, hge] at hlive
  have hrefs : ((retain h).run s).2.refs h = s.refs h + 1 := by
    rw [retain, refs_countRefs, if_pos ⟨rfl, hsize⟩]
  have hretain : (retain h).run s = (.ok (), ((retain h).run s).2) := rfl
  rw [openShared, Act.run_bind_ok _ (Act.run_gets _ s), hjoin]
  rw [Act.run_bind_ok _ hretain, Act.run_bind_ok _ (Act.run_gets _ _), hrefs]
  rfl

end Hub

namespace Tenants

variable {β κ α : Type} {h k : Nat} {t : Tenants β κ} {s₀ : Hub β}

/-- The tenants of a handle do not mind what is done beside it. -/
theorem Counted.of_same (ht : t.Counted k) {s : Hub β}
    (hentry : s.handles[k]? = t.hub.handles[k]?) (hrigs : t.hub.rigs.size ≤ s.rigs.size) :
    Counted k { t with hub := s } :=
  ⟨ht.stands.of_same hentry hrigs, ht.tidy⟩

def Beside (h : Nat) (s₀ : Hub β) (t : Tenants β κ) : Prop := Hub.Beside h s₀ t.hub

theorem beside_onHub {x : Act (Hub β) α} (hx : x.Keeps (Hub.Beside h s₀)) :
    (onHub x : Act (Tenants β κ) α).Keeps (Beside h s₀) := fun t ht => hx t.hub ht

theorem beside_modifyInput (i : Nat) (f : InputHold κ → InputHold κ) :
    (Act.modify fun t : Tenants β κ => t.modifyInput i f).Keeps (Beside h s₀) :=
  Act.Keeps.modify fun _ ht => ht

theorem beside_onInput (i : Nat) (own : Bool) (x : Act (InputPort κ) Unit) :
    (onInput h i own x : Act (Tenants β κ) Unit).Keeps (Beside h s₀) :=
  fun _ ht => after_onInput ht fun _ _ _ => ht

variable [Backend β]

theorem beside_vacate (i : Nat) (how : Farewell) :
    (vacate h i how : Act (Tenants β κ) Unit).Keeps (Beside h s₀) := by
  refine (Act.Leaves.gets _).keeps.bind fun held => ?_
  split
  · exact Act.Keeps.pure ()
  · exact beside_onHub (Hub.beside_letGo how)

theorem beside_join (plan : HandlePlan) :
    ((Deed.join plan).perform h : Act (Tenants β κ) Answer).Keeps (Beside h s₀) := by
  intro t ht
  refine after_provided ht fun hcan => ?_
  have hjoin : t.hub.joinable? = some h := by simpa using hcan
  rw [run_quiet_state, Act.run_bind, run_onHub, Hub.run_openShared_join hjoin]
  refine ⟨fun k hk => ?_, ?_, ht.rigs, ht.current⟩
  · show (t.hub.handles.modify h _)[k]? = _
    rw [Array.getElem?_modify, if_neg hk.symm]
    exact ht.handles k hk
  · exact Array.size_modify.trans ht.count

/-- A deed with one handle leaves what is beside it. -/
theorem beside_perform (d : Deed κ) :
    (d.perform h : Act (Tenants β κ) Answer).Keeps (Beside h s₀) := by
  cases d with
  | pin call => exact keeps_provided (beside_onHub (Hub.beside_onHandle _))
  | handle call => exact keeps_provided (beside_onHub (Hub.beside_onHandle _))
  | clone =>
    exact keeps_provided <| keeps_quiet <|
      (beside_onHub (Hub.beside_countRefs _)).bind fun _ => Act.Keeps.modify fun _ ht => ht
  | join plan => exact beside_join plan
  | openInput pins settings now =>
    exact keeps_provided <| keeps_quiet <|
      (beside_onHub (Hub.beside_openInput pins settings now)).bind fun _ =>
        Act.Keeps.modify fun _ ht => ht
  | openOutput pins =>
    exact keeps_provided <| keeps_quiet <|
      (beside_onHub (Hub.beside_openOutput pins)).bind fun _ => Act.Keeps.modify fun _ ht => ht
  | output i call => exact keeps_onOutput fun _ => beside_onHub (Hub.beside_onHandle _)
  | readOutput i index => exact keeps_onOutput fun _ => beside_onHub (Hub.beside_onHandle _)
  | readOutputs i => exact keeps_onOutput fun _ => beside_onHub (Hub.beside_onHandle _)
  | sample i mcu => exact keeps_provided ((beside_onHub (Hub.beside_onHandle _)).map _)
  | callback i own call => exact keeps_quiet (beside_onInput i own _)
  | partClone how =>
    exact keeps_provided <| keeps_quiet <|
      Act.Keeps.bind (Act.Keeps.modify fun _ ht => ht) fun _ => beside_onHub (Hub.beside_letGo how)
  | partOutput i how =>
    exact keeps_onOutput fun _ => keeps_quiet <|
      Act.Keeps.bind (Act.Keeps.modify fun _ ht => ht) fun _ => beside_onHub (Hub.beside_letGo how)
  | partInput i own how =>
    exact keeps_quiet <| (beside_onInput i own _).bind fun _ =>
      (beside_modifyInput i _).bind fun _ => beside_vacate i how
  | monitorEnds i =>
    exact keeps_provided <| keeps_quiet <|
      (beside_modifyInput i _).bind fun _ => beside_vacate i .dropped

end Tenants

end BoardGpio
