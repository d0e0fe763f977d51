import BoardGpio.Bench.Report
import BoardGpio.Proofs.Input.Lifecycle
import Mathlib.Logic.Relation

/-!
# Cycles take turns

Cycles of a port take turns: a monitor whose wait has ended stays at the door until the cycle that
goes on has ended, with all its callbacks (`Cycles.Step`). A callback that takes the last callback
away waits for the monitor to end, and a monitor at the door waits for the cycle that called the
callback. So it matters what came first, the message to stop or the end of the monitor's wait: after
the one the call returns, and after the other it never does (`Cycles.join_in_turn`).
-/

set_option autoImplicit false

namespace BoardGpio

open InputPort Relation

variable {κ : Type}

namespace Scene

variable {s s' : Scene κ} {h : Happening κ} {c : Caller} {m : Nat} {t : MonitorThread}

theorem thread_modify {ts : List MonitorThread} (ht : ts[m]? = some t) (j : Nat)
    (f : MonitorThread → MonitorThread) :
    (ts.modify j f)[m]? = some (if j = m then f t else t) := by
  rw [List.getElem?_modify, ht]
  by_cases hj : j = m
  · simp [hj]
  · simp [hj]

theorem thread_decide (s : Scene κ) (c : Caller) (ht : s.threads[m]? = some t) :
    ∃ t', (s.decide c).threads[m]? = some t' ∧ (t.stopSent = true → t'.stopSent = true) ∧
      t'.phase = t.phase := by
  unfold decide
  split
  · exact ⟨t, List.getElem?_append_left (List.getElem?_eq_some_iff.mp ht).1 ▸ ht, id, rfl⟩
  · refine ⟨_, thread_modify ht _ _, fun hsent => ?_, ?_⟩
    · split
      · rfl
      · exact hsent
    · split <;> rfl
  · exact ⟨t, ht, id, rfl⟩

/-- What can happen to a monitor in a step. No message is taken back. -/
theorem Step.thread (hstep : s.Step h s') (ht : s.threads[m]? = some t) :
    ∃ t', s'.threads[m]? = some t' ∧ (t.stopSent = true → t'.stopSent = true) ∧
      (t'.phase = t.phase ∨
        t'.phase = .cycling ∧ t.phase = .waiting ∧ t.stopSent = false ∨
        t'.phase = .waiting ∧ h = .finished m ∨
        t'.phase = .ended ∧ t.phase = .waiting) := by
  have hmoved : ∀ (j : Nat) (phase : MonitorPhase), j = m →
      (s.threads.modify j fun t => { t with phase := phase })[m]? =
        some { t with phase := phase } := by
    intro j phase hj
    rw [thread_modify ht, if_pos hj]
  have hkept : ∀ (j : Nat) (phase : MonitorPhase), j ≠ m →
      (s.threads.modify j fun t => { t with phase := phase })[m]? = some t := by
    intro j phase hj
    rw [thread_modify ht, if_neg hj]
  cases hstep with
  | place c call hidle hinside hplace => exact ⟨t, ht, id, .inl rfl⟩
  | refuse c call hidle hinside hplace => exact ⟨t, ht, id, .inl rfl⟩
  | decide c hstage =>
    obtain ⟨t', ht', hsent, hphase⟩ := s.thread_decide c ht
    exact ⟨t', ht', hsent, .inl hphase⟩
  | leave c hstage hjoin => exact ⟨t, ht, id, .inl rfl⟩
  | tick j hj hphase hsent =>
    by_cases hjm : j = m
    · obtain rfl := Option.some.inj (ht.symm.trans (hjm ▸ hj))
      exact ⟨_, hmoved j .cycling hjm, id, .inr (.inl ⟨rfl, hphase, hsent⟩)⟩
    · exact ⟨t, hkept j .cycling hjm, id, .inl rfl⟩
  | finish j hj hphase hidle =>
    by_cases hjm : j = m
    · exact ⟨_, hmoved j .waiting hjm, id, .inr (.inr (.inl ⟨rfl, hjm ▸ rfl⟩))⟩
    · exact ⟨t, hkept j .waiting hjm, id, .inl rfl⟩
  | hear j hj hphase hsent =>
    by_cases hjm : j = m
    · obtain rfl := Option.some.inj (ht.symm.trans (hjm ▸ hj))
      exact ⟨_, hmoved j .ended hjm, id, .inr (.inr (.inr ⟨rfl, hphase⟩))⟩
    · exact ⟨t, hkept j .ended hjm, id, .inl rfl⟩
  | other hcalm => exact ⟨t, ht, id, .inl rfl⟩

/-- A thread that waits for a monitor waits on, unless the monitor has ended. -/
theorem Step.waits (hstep : s.Step h s') (hjoin : s.stage c = .leaving (some m)) :
    s'.stage c = .leaving (some m) ∨ ∃ t, s.threads[m]? = some t ∧ t.phase = .ended := by
  -- a thread that is at another stage than it waits at is another thread
  have hother : ∀ (d : Caller) (stage : CallStage), s.stage d ≠ .leaving (some m) →
      Function.update s.stage d stage c = .leaving (some m) := by
    intro d stage hd
    have hne : c ≠ d := by
      rintro rfl
      exact hd hjoin
    rw [Function.update_of_ne hne]
    exact hjoin
  cases hstep with
  | place d call hidle hinside hplace => exact .inl (hother d _ (by rw [hidle]; nofun))
  | refuse d call hidle hinside hplace => exact .inl hjoin
  | decide d hstage =>
    obtain ⟨join, hdecide⟩ := stage_decide s d
    left
    rw [hdecide]
    exact hother d _ (by rw [hstage]; nofun)
  | leave d hstage hended =>
    by_cases hd : s.stage d = .leaving (some m)
    · rw [hd] at hstage
      cases hstage
      exact .inr (hended m rfl)
    · exact .inl (hother d _ hd)
  | tick j hj hphase hsent => exact .inl hjoin
  | finish j hj hphase hidle => exact .inl hjoin
  | hear j hj hphase hsent => exact .inl hjoin
  | other hcalm => exact .inl hjoin

/-- Whoever waits for a monitor is another thread, and the monitor has been sent the message. -/
def Joined (s : Scene κ) : Prop :=
  ∀ (c : Caller) (m : Nat), s.stage c = .leaving (some m) →
    c ≠ .monitor m ∧ ∃ t, s.threads[m]? = some t ∧ t.stopSent = true

/-- Whoever decides that a monitor is to stop has sent it the message, and waits for it unless it is
that monitor itself. -/
theorem Sound.join_decide (hs : s.Sound) (c : Caller) :
    ∃ join, (s.decide c).stage = Function.update s.stage c (.leaving join) ∧
      ∀ m, join = some m →
        c ≠ .monitor m ∧ ∃ t, (s.decide c).threads[m]? = some t ∧ t.stopSent = true := by
  unfold Scene.decide
  split
  case h_1 => exact ⟨none, rfl, fun _ h => by cases h⟩
  case h_3 => exact ⟨none, rfl, fun _ h => by cases h⟩
  case h_2 j _ hslot =>
    refine ⟨_, rfl, fun m hm => ?_⟩
    obtain ⟨t, ht, -⟩ := hs.occupant j hslot
    by_cases hself : c = .monitor j
    · rw [if_pos hself] at hm
      cases hm
    · rw [if_neg hself] at hm
      cases hm
      refine ⟨hself, _, thread_modify ht _ _, ?_⟩
      rw [if_pos rfl]

theorem Joined.decide (hs : s.Joined) (hsound : s.Sound) (c : Caller) : (s.decide c).Joined := by
  intro d m hjoin
  obtain ⟨join, hstage, hnew⟩ := hsound.join_decide c
  rw [hstage] at hjoin
  by_cases hd : d = c
  · subst hd
    rw [Function.update_self] at hjoin
    cases hjoin
    exact hnew m rfl
  · rw [Function.update_of_ne hd] at hjoin
    obtain ⟨hapart, t, ht, hsent⟩ := hs d m hjoin
    obtain ⟨t', ht', hkept, -⟩ := s.thread_decide c ht
    exact ⟨hapart, t', ht', hkept hsent⟩

theorem Step.joined (hstep : s.Step h s') (hsound : s.Sound) (hs : s.Joined) : s'.Joined := by
  -- a thread that begins to wait does so by deciding
  have hold : ∀ {d : Caller} {stage : CallStage}, (∀ m, stage ≠ .leaving (some m)) →
      ∀ c m, Function.update s.stage d stage c = .leaving (some m) →
        s.stage c = .leaving (some m) := by
    intro d stage hstage c m hjoin
    by_cases hc : c = d
    · subst hc
      rw [Function.update_self] at hjoin
      exact absurd hjoin (hstage m)
    · rw [Function.update_of_ne hc] at hjoin
      exact hjoin
  have hthreads : ∀ c m, s.stage c = .leaving (some m) →
      c ≠ .monitor m ∧ ∃ t, s'.threads[m]? = some t ∧ t.stopSent = true := by
    intro c m hjoin
    obtain ⟨hapart, t, ht, hsent⟩ := hs c m hjoin
    obtain ⟨t', ht', hkept, -⟩ := hstep.thread ht
    exact ⟨hapart, t', ht', hkept hsent⟩
  intro c m hjoin
  cases hstep with
  | place d call hidle hinside hplace => exact hthreads c m (hold (fun m h => by cases h) c m hjoin)
  | refuse d call hidle hinside hplace => exact hthreads c m hjoin
  | decide d hstage => exact hs.decide hsound d c m hjoin
  | leave d hstage hended => exact hthreads c m (hold (fun m h => by cases h) c m hjoin)
  | tick j hj hphase hsent => exact hthreads c m hjoin
  | finish j hj hphase hidle => exact hthreads c m hjoin
  | hear j hj hphase hsent => exact hthreads c m hjoin
  | other hcalm => exact hthreads c m hjoin

theorem Run.joined {hs : List (Happening κ)} (hrun : Run s hs s') (hsound : s.Sound)
    (hjoined : s.Joined) : s'.Joined := by
  induction hrun with
  | none => exact hjoined
  | step hrun hstep ih => exact hstep.joined (hrun.sound hsound) ih

end Scene

/-! ## Turns -/

/-- A port with its monitors, and the thread whose cycle goes on. -/
structure Cycles (κ : Type) where
  scene : Scene κ
  turn : Option Caller := none

/-- Whether this can happen in that turn. Callbacks of a monitor are called in its turn, and a cycle
ends by passing the turn on. -/
def Happening.fits (turn : Option Caller) : Happening κ → Prop
  | placed (.monitor m) _ => turn = some (.monitor m)
  | refused (.monitor m) _ _ => turn = some (.monitor m)
  | finished _ => False
  | _ => True

namespace Cycles

inductive Step : Cycles κ → Cycles κ → Prop where
  | poll (s : Cycles κ) (k : Nat) (hfree : s.turn = none)
      (hidle : s.scene.stage (.program k) = .idle) :
      Step s { s with turn := some (.program k) }
  | polled (s : Cycles κ) (k : Nat) (hturn : s.turn = some (.program k))
      (hidle : s.scene.stage (.program k) = .idle) :
      Step s { s with turn := none }
  /-- A monitor whose wait has ended gets its turn. -/
  | enter (s : Cycles κ) (m : Nat) {t : MonitorThread} (hfree : s.turn = none)
      (ht : s.scene.threads[m]? = some t) (hphase : t.phase = .cycling) :
      Step s { s with turn := some (.monitor m) }
  | finish (s : Cycles κ) (m : Nat) {scene : Scene κ} (hturn : s.turn = some (.monitor m))
      (hstep : s.scene.Step (.finished m) scene) : Step s { scene := scene }
  /-- Anything else that threads do, be it in a turn or not. -/
  | act (s : Cycles κ) {h : Happening κ} {scene : Scene κ} (hstep : s.scene.Step h scene)
      (hfits : h.fits s.turn) : Step s { s with scene := scene }

variable {s s' : Cycles κ} {c : Caller} {m : Nat}

/-- Turns aside, threads do what they do without them. -/
theorem scene_run (hrun : ReflTransGen Step s s') : ∃ hs, Scene.Run s.scene hs s'.scene := by
  induction hrun with
  | refl => exact ⟨[], .none _⟩
  | tail _ hstep ih =>
    obtain ⟨hs, hrun⟩ := ih
    cases hstep with
    | poll k hfree hidle => exact ⟨hs, hrun⟩
    | polled k hturn hidle => exact ⟨hs, hrun⟩
    | enter m hfree ht hphase => exact ⟨hs, hrun⟩
    | finish m hturn hstep => exact ⟨_, hrun.step hstep⟩
    | act hstep hfits => exact ⟨_, hrun.step hstep⟩

/-- The thread waits in its turn for a monitor that waits for its own. -/
structure Deadlock (s : Cycles κ) (c : Caller) (m : Nat) : Prop where
  turn : s.turn = some c
  joins : s.scene.stage c = .leaving (some m)
  apart : c ≠ .monitor m
  waits : ∃ t, s.scene.threads[m]? = some t ∧ t.phase = .cycling

theorem Deadlock.step (hs : s.Deadlock c m) (hstep : s.Step s') : s'.Deadlock c m := by
  obtain ⟨t, ht, hphase⟩ := hs.waits
  have hturn := hs.turn
  have hjoins := hs.joins
  cases hstep with
  | poll k hfree hidle =>
    rw [hturn] at hfree
    cases hfree
  | polled k hk hidle =>
    rw [hturn] at hk
    cases hk
    rw [hjoins] at hidle
    cases hidle
  | enter j hfree ht hphase =>
    rw [hturn] at hfree
    cases hfree
  | finish j hj hstep =>
    -- the turn is that of the thread that waits, and it is in a call
    rw [hturn] at hj
    cases hj
    cases hstep with
    | finish _ _ _ hidle =>
      rw [hjoins] at hidle
      cases hidle
  | @act h scene hstep hfits =>
    obtain ⟨t', ht', -, hmove⟩ := hstep.thread ht
    have hphase' : t'.phase = .cycling := by
      rcases hmove with hsame | ⟨hstarted, -⟩ | ⟨-, rfl⟩ | ⟨-, hwaiting⟩
      · rw [hsame, hphase]
      · exact hstarted
      · cases hfits
      · rw [hphase] at hwaiting
        cases hwaiting
    refine ⟨hturn, ?_, hs.apart, t', ht', hphase'⟩
    rcases hstep.waits hjoins with hwaits | ⟨u, hu, hended⟩
    · exact hwaits
    · rw [ht] at hu
      cases hu
      rw [hphase] at hended
      cases hended

theorem Deadlock.run (hs : s.Deadlock c m) (hrun : ReflTransGen Step s s') : s'.Deadlock c m := by
  induction hrun with
  | refl => exact hs
  | tail _ hstep ih => exact ih.step hstep

/-- The monitor has been sent the message to stop while it was not in a cycle. -/
def InTime (s : Cycles κ) (m : Nat) : Prop :=
  ∃ t, s.scene.threads[m]? = some t ∧ t.stopSent = true ∧ t.phase ≠ .cycling

/-- Such a monitor begins no cycle any more. -/
theorem InTime.step (hs : s.InTime m) (hstep : s.Step s') : s'.InTime m := by
  obtain ⟨t, ht, hsent, hphase⟩ := hs
  have hscene : ∀ {h : Happening κ} {scene : Scene κ}, s.scene.Step h scene →
      ∃ t', scene.threads[m]? = some t' ∧ t'.stopSent = true ∧ t'.phase ≠ .cycling := by
    intro h scene hstep
    obtain ⟨t', ht', hkept, hmove⟩ := hstep.thread ht
    refine ⟨t', ht', hkept hsent, ?_⟩
    rcases hmove with hsame | ⟨-, -, hunsent⟩ | ⟨hwaiting, -⟩ | ⟨hended, -⟩
    · rw [hsame]
      exact hphase
    · rw [hsent] at hunsent
      cases hunsent
    · rw [hwaiting]
      decide
    · rw [hended]
      decide
  cases hstep with
  | poll k hfree hidle => exact ⟨t, ht, hsent, hphase⟩
  | polled k hturn hidle => exact ⟨t, ht, hsent, hphase⟩
  | enter j hfree ht' hphase' => exact ⟨t, ht, hsent, hphase⟩
  | finish j hturn hstep => exact hscene hstep
  | act hstep hfits => exact hscene hstep

theorem InTime.run (hs : s.InTime m) (hrun : ReflTransGen Step s s') : s'.InTime m := by
  induction hrun with
  | refl => exact hs
  | tail _ hstep ih => exact ih.step hstep

/-- A call that waits for such a monitor can return. -/
theorem InTime.returns (hs : s.InTime m) (hjoin : s.scene.stage c = .leaving (some m)) :
    ∃ s', ReflTransGen Step s s' ∧ s'.scene.stage c = .idle := by
  obtain ⟨t, ht, hsent, hphase⟩ := hs
  have hreturn : ∀ s : Cycles κ, s.scene.stage c = .leaving (some m) →
      (∃ t, s.scene.threads[m]? = some t ∧ t.phase = .ended) →
        ∃ s', s.Step s' ∧ s'.scene.stage c = .idle := by
    intro s hjoin hended
    refine ⟨_, .act s (.leave s.scene c hjoin fun j hj => ?_) trivial, Function.update_self ..⟩
    cases hj
    exact hended
  cases hp : t.phase with
  | cycling => exact absurd hp hphase
  | ended =>
    obtain ⟨s', hstep, hidle⟩ := hreturn s hjoin ⟨t, ht, hp⟩
    exact ⟨s', .single hstep, hidle⟩
  | waiting =>
    -- it takes the message first
    let heard : Cycles κ := { s with scene := { s.scene with
      threads := s.scene.threads.modify m fun t => { t with phase := .ended } } }
    have hhear : s.Step heard := .act s (.hear s.scene m ht hp hsent) trivial
    have hended : ∃ t, heard.scene.threads[m]? = some t ∧ t.phase = .ended := by
      refine ⟨_, Scene.thread_modify ht m _, ?_⟩
      rw [if_pos rfl]
    obtain ⟨s', hstep, hidle⟩ := hreturn heard hjoin hended
    exact ⟨s', (ReflTransGen.single hhear).tail hstep, hidle⟩

end Cycles

/-- Whatever threads do from the opening of a port on. A thread that waits for a monitor in its turn
either is in a deadlock and stays in it, or it is in none, never comes to be in one, and can
return. -/
theorem Cycles.join_in_turn {β : Type} [Backend β] {pins : List InputPin} {settings : InputSettings}
    {now : Nat} {g g' : Gpio β} {p : InputPort κ}
    (hopen : (openPort pins settings now).run g = (.ok p, g')) {s : Cycles κ}
    (hrun : ReflTransGen Step { scene := { port := p } } s) {c : Caller} {m : Nat}
    (hturn : s.turn = some c) (hjoin : s.scene.stage c = .leaving (some m)) :
    (s.Deadlock c m ∧ ∀ s', ReflTransGen Step s s' → s'.Deadlock c m) ∨
      (∀ s', ReflTransGen Step s s' → ¬s'.Deadlock c m) ∧
        ∃ s', ReflTransGen Step s s' ∧ s'.scene.stage c = .idle := by
  have hsound : Scene.Sound { port := p } := sound_openPort hopen
  obtain ⟨hs, hscene⟩ := scene_run hrun
  have hjoined : s.scene.Joined := hscene.joined hsound fun _ _ h => by cases h
  obtain ⟨hapart, t, ht, hsent⟩ := hjoined c m hjoin
  by_cases hlate : t.phase = .cycling
  · have hdead : s.Deadlock c m := ⟨hturn, hjoin, hapart, t, ht, hlate⟩
    exact .inl ⟨hdead, fun s' => hdead.run⟩
  · have hintime : s.InTime m := ⟨t, ht, hsent, hlate⟩
    refine .inr ⟨fun s' hrun' hdead => ?_, hintime.returns hjoin⟩
    obtain ⟨u, hu, -, hphase⟩ := hintime.run hrun'
    obtain ⟨u', hu', hcycling⟩ := hdead.waits
    rw [hu] at hu'
    cases hu'
    exact hphase hcycling

/-- A thread polls, the wait of the monitor ends meanwhile, and a callback takes the last callback
away: it never returns. -/
theorem Cycles.join_in_turn_stuck :
    openPair.run pairGpio = (.ok pairPort, (openPair.run pairGpio).2) ∧
      ∃ s : Cycles Unit, ReflTransGen Step { scene := { port := pairPort } } s ∧
        s.turn = some (.program 0) ∧ s.scene.stage (.program 0) = .leaving (some 0) ∧
          ∀ s', ReflTransGen Step s s' → s'.Deadlock (.program 0) 0 := by
  have hmonitored : ReflTransGen Step { scene := { port := pairPort } }
      { scene := pairMonitored, turn := none } :=
    ((ReflTransGen.single (.act _ (.place _ (.program 0) (.install 0 ()) rfl
      (fun _ h => by cases h) rfl) trivial)).tail
        (.act _ (.decide _ (.program 0) rfl) trivial)).tail
          (.act _ (.leave _ (.program 0) rfl fun _ h => by cases h) trivial)
  have hpolling := hmonitored.tail (.poll _ 0 rfl rfl)
  have hover := hpolling.tail (.act _ (.tick _ 0 (t := {}) rfl rfl rfl) trivial)
  have hcleared := hover.tail (.act _ (.place _ (.program 0) (.uninstall 0) rfl
    (fun _ h => by cases h) rfl) trivial)
  have hstuck := hcleared.tail (.act _ (.decide _ (.program 0) rfl) trivial)
  refine ⟨run_openPair, _, hstuck, rfl, rfl, ?_⟩
  rcases join_in_turn run_openPair hstuck rfl rfl with ⟨-, hdead⟩ | ⟨hnever, -⟩
  · exact hdead
  · exact absurd ⟨rfl, rfl, by decide, _, rfl, rfl⟩ (hnever _ .refl)

open Bench in
/-- On a bench: the debounced port is due every second, and its cycle takes three. -/
def debouncedClearing : List Command :=
  [.newSim "s" (.fresh 4),
    .build "g" { rig := some "s", direct := false, table := some ⟨"lone", [some 0], []⟩
                 settings := {} },
    .openInput "i" "g" [{ pin := 0 }]
      { pollInterval := .ofMillis 1000, debounce := some (.ofMillis 3000) },
    .call "i" (.input (.setEdge 0 .both)),
    .call "i" (.input (.install 0 (.make "t" [.port (.uninstall 0)] none))),
    .call "s" (.rig (.sim (.force 0 true))),
    .call "i" .poll]

theorem Bench.reports_debouncedClearing :
    (reports debouncedClearing {}).map Report.reply =
      [.ok .done, .ok .done, .ok .done, .ok .done, .ok .done, .ok .done,
        .error (.fault .deadlock)] := by
  decide +kernel

end BoardGpio
