import BoardGpio.Handle.Ports
import BoardGpio.Proofs.Act.Match
import BoardGpio.Proofs.Handle.LastClose

/-!
# Handles at related sites

A handle may stand on two hubs at related sites, with as many references on both (`Hub.Sited`). What
matches at the sites matches in the hubs (`Hub.Sited.onHandle`). So do opening ports on the handle
and parting with it, if the parts of these that are done at the sites match.
-/

set_option autoImplicit false

namespace BoardGpio

/-- The site `g` once an action has left it as `k`, without the log. -/
def Gpio.moved {β : Type} (g k : Gpio (Line β)) : Gpio (Line β) where
  handle := k.handle
  backend := ⟨k.backend.rig, g.backend.direct⟩

namespace Hub

variable {β γ α δ : Type}

/-- The relation does not look at the log, nor at where a line goes but at the start. -/
def Lasting (R : Gpio (Line β) → Gpio (Line γ) → Prop) : Prop :=
  ∀ g g' k k', R g g' → R k k' → R (g.moved k) (g'.moved k')

/-- The handle stands on both hubs, at related sites and with as many references. -/
structure Sited (R : Gpio (Line β) → Gpio (Line γ) → Prop) (h : Nat) (s : Hub β) (s' : Hub γ) :
    Prop where
  sites : ∃ g g', s.site? h = some g ∧ s'.site? h = some g' ∧ R g g'
  refs : s.refs h = s'.refs h

variable {R : Gpio (Line β) → Gpio (Line γ) → Prop} {h : Nat}

theorem lt_size_of_site {s : Hub β} {g : Gpio (Line β)} (hg : s.site? h = some g) :
    h < s.handles.size := by
  obtain ⟨shared, -, hshared, -, -⟩ := site?_eq_some_iff.mp hg
  exact (Array.getElem?_eq_some_iff.mp hshared).1

theorem sited_countRefs (f : Nat → Nat) :
    Act.Matches (Sited R h) (countRefs h f) (countRefs h f) := by
  intro s s' hs
  obtain ⟨g, g', hg, hg', hrel⟩ := hs.sites
  refine ⟨rfl, ⟨g, g', ?_, ?_, hrel⟩, ?_⟩
  · rw [site?_countRefs, hg]
  · rw [site?_countRefs, hg']
  · rw [refs_countRefs, refs_countRefs, if_pos ⟨rfl, lt_size_of_site hg⟩,
      if_pos ⟨rfl, lt_size_of_site hg'⟩, hs.refs]

/-- What matches at the sites of the handle matches in the hubs. -/
theorem Sited.onHandle (hR : Lasting R) {s : Hub β} {s' : Hub γ} (hs : Sited R h s s')
    {x : Act (Gpio (Line β)) α} {y : Act (Gpio (Line γ)) α}
    (hx : ∀ g g', s.site? h = some g → R g g' → Act.MatchesAt R x y g g') :
    Act.MatchesAt (Sited R h) (Hub.onHandle h x) (Hub.onHandle h y) s s' := by
  obtain ⟨g, g', hg, hg', hrel⟩ := hs.sites
  obtain ⟨hres, hafter⟩ := hx g g' hg hrel
  obtain ⟨hres₁, hsite, -⟩ := run_onHandle hg x
  obtain ⟨hres₂, hsite', -⟩ := run_onHandle hg' y
  refine ⟨hres₁.trans (hres.trans hres₂.symm), ⟨_, _, hsite, hsite', ?_⟩, ?_⟩
  · exact hR g g' _ _ hrel hafter
  · rw [refs_onHandle, refs_onHandle, hs.refs]

theorem sited_onHandle (hR : Lasting R) {x : Act (Gpio (Line β)) α} {y : Act (Gpio (Line γ)) α}
    (hx : Act.Matches R x y) : Act.Matches (Sited R h) (onHandle h x) (onHandle h y) :=
  fun _ _ hs => hs.onHandle hR fun g g' _ hrel => hx g g' hrel

theorem map_onHandle (f : α → δ) (x : Act (Gpio (Line β)) α) :
    f <$> onHandle h x = onHandle h (f <$> x) := by
  funext s
  show (f <$> onHandle h x).run s = (onHandle h (f <$> x)).run s
  rw [Act.run_map]
  simp only [Act.run, onHandle]
  cases hs : s.handles[h]? with
  | none => rfl
  | some shared =>
    cases hr : s.rigs[shared.rig]? with
    | none => simp only [hr]; rfl
    | some rig =>
      have hmap := Act.run_map f x { handle := shared.handle, backend := ⟨rig, shared.direct⟩ }
      simp only [Act.run] at hmap
      simp only [hr, hmap]

section Ports

variable [Backend β] [Backend γ]

/-- Taking leave of the handle matches if putting pins back does. -/
theorem matches_farewell (hrelease : Act.Matches R Gpio.release Gpio.release)
    (hnote : ∀ n, Act.Matches R (Gpio.note n) (Gpio.note n)) (how : Farewell) :
    Act.Matches R (farewell how) (farewell how) := by
  cases how with
  | closed => exact hrelease
  | dropped =>
    refine hrelease.attempt.bind fun outcome => ?_
    split
    · exact Act.Matches.pure ()
    · exact hnote _

/-- The last reference goes at the same time, and with the same outcome. -/
theorem sited_letGo (hR : Lasting R) {how : Farewell}
    (hbye : Act.Matches R (farewell how) (farewell how)) :
    Act.Matches (Sited R h) (letGo h how) (letGo h how) := by
  refine (sited_countRefs _).bind fun _ s s' hs => ?_
  have hlive : s.isLive h = s'.isLive h := by
    unfold isLive
    rw [hs.refs]
  unfold Act.MatchesAt
  rw [Act.run_bind_ok _ (Act.run_gets _ s), Act.run_bind_ok _ (Act.run_gets _ s'), hlive]
  split
  · exact ⟨rfl, hs⟩
  · exact sited_onHandle hR hbye s s' hs

/-- Output ports that are alike, as far as `φ` tells, take their references alike. -/
theorem sited_openOutput (hR : Lasting R) {φ : OutputPort → δ} {pins pins' : List OutputPin}
    (hopen : Act.Matches R (φ <$> OutputPort.openPort pins) (φ <$> OutputPort.openPort pins')) :
    Act.Matches (Sited R h) (φ <$> openOutput h pins) (φ <$> openOutput h pins') := by
  have hport := sited_onHandle (h := h) hR hopen
  rw [← map_onHandle, ← map_onHandle] at hport
  unfold openOutput
  simp only [map_bind, map_pure]
  refine hport.bind_map fun p q hpq => (sited_countRefs _).bind fun _ => ?_
  rw [hpq]
  exact Act.Matches.pure _

theorem sited_openInput {κ : Type} (hR : Lasting R) {φ : InputPort κ → δ}
    {pins pins' : List InputPin} {settings : InputSettings} {now : Nat}
    (hprepare : Act.Matches R (InputPort.prepare pins settings)
      (InputPort.prepare pins' settings))
    (hfinish : ∀ mcus, Act.Matches R (φ <$> InputPort.finish pins mcus settings now)
      (φ <$> InputPort.finish pins' mcus settings now))
    (hbye : Act.Matches R (farewell .dropped) (farewell .dropped)) :
    Act.Matches (Sited R h) (φ <$> openInput h pins settings now)
      (φ <$> openInput h pins' settings now) := by
  unfold openInput
  simp only [map_bind]
  refine (sited_onHandle hR hprepare).bind fun mcus => (sited_countRefs _).bind fun _ => ?_
  have hport := sited_onHandle (h := h) hR (hfinish mcus)
  rw [← map_onHandle, ← map_onHandle] at hport
  rw [Act.map_orCleanUp, Act.map_orCleanUp]
  exact hport.orCleanUp (sited_letGo hR hbye)

end Ports

end Hub

end BoardGpio
