import BoardGpio.Proofs.Input.Account

/-!
# Cycles that fail lose nothing

A cycle fails exactly if one of its reads does. It then counts its first sample, if it got so far,
and leaves everything else as it was. A cycle that accepts a sample reports the differences between
it and the sample accepted before (`Reports`): each difference that a trigger lets through is told
to the callback that was collected for it or put into the flag of its input, once. Main statement:
however many cycles have failed in between, the next one that accepts a sample reports all its
differences from the last sample that was accepted (`nothing_lost`).
-/

set_option autoImplicit false

namespace BoardGpio

open InputPort

namespace InputPort

variable {κ : Type}

theorem matched_of_mem_matchesOf (p : InputPort κ) (levels : List Bool) :
    ∀ e ∈ p.matchesOf levels, e.isMatched = true :=
  matched_of_mem p.group 0 p.inputs levels

theorem matched_of_mem_differences (p : InputPort κ) (new : List Bool) :
    ∀ e ∈ p.differences p.levels new, e.isMatched = true := by
  rw [← matchesOf_eq_differences]
  exact matched_of_mem_matchesOf p new

/-- Each input has one difference at most. -/
theorem filter_differences {p : InputPort κ} {new : List Bool} (hsize : new.length = p.size)
    {index : Nat} {e : Edge} {told : Option (Target κ)}
    (hmem : .matched index e told ∈ p.differences p.levels new) :
    (p.differences p.levels new).filter (fun ev => ev.index == index) =
      [.matched index e told] := by
  rw [← matchesOf_eq_differences] at hmem ⊢
  have hown : .matched index e told ∈
      (p.matchesOf new).filter fun ev => ev.index == index :=
    List.mem_filter.mpr ⟨hmem, beq_self_eq_true index⟩
  cases accepted p new hsize index with
  | unmatched hmatches _ _ =>
    rw [hmatches] at hown
    cases hown
  | flagged e' hmatches _ _ =>
    rw [hmatches] at hown ⊢
    rw [List.mem_singleton.mp hown]
  | called e' target _ hmatches _ _ =>
    rw [hmatches] at hown ⊢
    rw [List.mem_singleton.mp hown]

/-- Calls on a port match nothing. -/
theorem unmatched_of_mem_eventsOf (p : InputPort κ) (calls : List (PortCall κ)) :
    ∀ e ∈ p.eventsOf calls, e.isMatched = false := by
  induction calls generalizing p with
  | nil => simp [eventsOf]
  | cons call calls ih =>
    have hcall : ∀ e ∈ call.events p, e.isMatched = false := by
      unfold PortCall.events
      split <;> simp [Event.isMatched]
    rw [eventsOf, List.forall_mem_append]
    exact ⟨hcall, ih (p.after call)⟩

end InputPort

/-! ## What is reported -/

/-- The collected call that an event settles: its callback is called, or its edge goes into the
flag. -/
def Event.settled? {κ : Type} : Event κ → Option (PendingCall κ)
  | .called c _ => some c
  | .flagged c => some c
  | _ => none

theorem filterMap_settled_matches {κ : Type} (es : List (Event κ))
    (h : ∀ e ∈ es, e.isMatched = true) : es.filterMap Event.settled? = [] := by
  refine List.filterMap_eq_nil_iff.mpr fun e he => ?_
  have hmatched := h e he
  cases e with
  | matched => rfl
  | called => cases hmatched
  | flagged => cases hmatched
  | taken => cases hmatched

/-- Calls are settled in the order in which they were collected. -/
theorem Trace.settled {κ : Type} {m m' : Moment κ} {es : List (Event κ)} (h : Trace m es m') :
    m.pending ++ es.filterMap callOf? = es.filterMap Event.settled? ++ m'.pending := by
  induction h with
  | none => exact List.append_nil _
  | @step m' m'' es es' _ hstep ih =>
    have hnext : m'.pending ++ es'.filterMap callOf? =
        es'.filterMap Event.settled? ++ m''.pending := by
      cases hstep with
      | call m call =>
        unfold PortCall.events
        split <;> exact List.append_nil _
      | accept p levels hsize =>
        rw [filterMap_settled_matches _ (matched_of_mem_matchesOf p levels)]
        exact (callsFrom_eq p.group 0 p.inputs levels).symm
      | sample => rfl
      | enter => exact List.append_nil _
      | leave => exact List.append_nil _
      | skip => exact List.append_nil _
      | report => exact List.append_nil _
    rw [List.filterMap_append, List.filterMap_append, ← List.append_assoc, ih, List.append_assoc,
      hnext, List.append_assoc]

/-- What becomes of an edge that a cycle matches: it is told to the callback that was collected for
it, or the cycle leaves it in the flag of its input, or it was in the flag and a callback took it
there before the cycle was over. -/
inductive Ends {κ : Type} (es : List (Event κ)) (q : InputPort κ) (index : Nat) (e : Edge)
    (told : Option (Target κ)) : Prop where
  | told (target : Target κ) (active : PinSet) (htold : told = some target)
      (hcalled : .called ⟨index, e, target⟩ active ∈ es)
  | flagged (hflag : q.flagOf index = some e)
  | taken (htaken : .taken index (some e) ∈ es)

/-- What a cycle reports of the differences between two samples: the events `es` that it leaves on
the way from one desk to another. -/
structure Reports {κ ε : Type} (log : ε → List (κ × Occasion)) (last new : List Bool)
    (d : Desk κ ε) (es : List (Event κ)) (d' : Desk κ ε) : Prop where
  /-- The edges that are matched are the differences that the triggers in force let through. -/
  matched : es.filter Event.isMatched = d.port.differences last new
  /-- Each of them is told, or left in the flag. -/
  ends : ∀ index e told, .matched index e told ∈ d.port.differences last new →
    Ends es d'.port index e told
  /-- Every callback that was collected for a match is called, or its edge goes into the flag. -/
  settled : es.filterMap Event.settled? = es.filterMap callOf?
  /-- Nothing waits in the end, and every flag holds what its events say. -/
  fates : ∀ index, (es.filter fun e => e.index == index).foldlM Fate.next?
    ⟨d.port.flagOf index, none⟩ = some ⟨d'.port.flagOf index, none⟩
  counted : d'.port.stats.edges = d.port.stats.edges + (d.port.differences last new).length
  /-- The callbacks that are called are those of the events. -/
  seen : log d'.around = log d.around ++ Event.invocations es
  levels : d'.port.levels = new

namespace Fate

variable {κ : Type}

/-- An edge that is in the flag, or is put there, stays unless it is taken, as long as nothing is
matched. -/
theorem flag_kept {f f' : Fate} {es : List (Event κ)} {e : Edge}
    (hes : ∀ ev ∈ es, ev.isMatched = false) (hrun : es.foldlM next? f = some f')
    (hflag : f.flag = some e ∨ ∃ c, .flagged c ∈ es ∧ c.edge = e) :
    f'.flag = some e ∨ ∃ index, .taken index (some e) ∈ es := by
  induction es generalizing f with
  | nil =>
    cases hrun
    rcases hflag with hflag | ⟨c, hc, -⟩
    · exact .inl hflag
    · cases hc
  | cons ev es ih =>
    obtain ⟨f₁, hnext, hrest⟩ := Option.bind_eq_some_iff.mp hrun
    have hlater : ∀ ev' ∈ es, ev'.isMatched = false := fun ev' hev =>
      hes ev' (List.mem_cons_of_mem _ hev)
    -- what is in the flag after this event is kept by the others
    have hkept : (f₁.flag = some e ∨ ∃ c, .flagged c ∈ es ∧ c.edge = e) →
        f'.flag = some e ∨ ∃ index, .taken index (some e) ∈ ev :: es := by
      intro h
      rcases ih hlater hrest h with h | ⟨index, h⟩
      · exact .inl h
      · exact .inr ⟨index, List.mem_cons_of_mem _ h⟩
    cases ev with
    | matched index e' told => cases hes _ List.mem_cons_self
    | called c active =>
      simp only [next?, Option.ite_none_right_eq_some, Option.some.injEq] at hnext
      obtain ⟨-, rfl⟩ := hnext
      refine hkept (hflag.imp_right ?_)
      rintro ⟨c', hc', he⟩
      exact ⟨c', (List.mem_cons.mp hc').resolve_left (by simp), he⟩
    | flagged c =>
      simp only [next?, Option.ite_none_right_eq_some, Option.some.injEq] at hnext
      obtain ⟨⟨hempty, -⟩, rfl⟩ := hnext
      refine hkept ?_
      rcases hflag with hflag | ⟨c', hc', he⟩
      · rw [hempty] at hflag
        cases hflag
      · rcases List.mem_cons.mp hc' with hsame | hc'
        · cases hsame
          exact .inl (congrArg some he)
        · exact .inr ⟨c', hc', he⟩
    | taken index r =>
      simp only [next?, Option.ite_none_right_eq_some, Option.some.injEq] at hnext
      obtain ⟨rfl, rfl⟩ := hnext
      rcases hflag with hflag | ⟨c', hc', he⟩
      · exact .inr ⟨index, by rw [hflag]; exact List.mem_cons_self⟩
      · exact hkept (.inr ⟨c', (List.mem_cons.mp hc').resolve_left (by simp), he⟩)

end Fate

namespace Moment

variable {κ : Type}

/-- What the books say of a stretch of events between two moments at which nothing waits. -/
theorem Books.stretch {p q : InputPort κ} {es es' : List (Event κ)}
    (hp : Books es ⟨p, [], none⟩) (hq : Books (es ++ es') ⟨q, [], none⟩) :
    q.stats.edges = p.stats.edges + es'.countP Event.isMatched ∧
      ∀ index, (es'.filter fun e => e.index == index).foldlM Fate.next?
        ⟨p.flagOf index, none⟩ = some ⟨q.flagOf index, none⟩ := by
  constructor
  · rw [hp.edges, hq.edges, List.countP_append]
  · intro index
    have hafter := hq.fates index
    rw [Fate.after?_append, hp.fates index] at hafter
    exact hafter

end Moment

namespace Desk

variable {κ ε : Type} {log : ε → List (κ × Occasion)} {s : Surroundings ε} {invoke : Invoke κ ε}
  {conduct : Conduct κ ε}

/-- Whatever becomes of the collected calls, nothing is matched. -/
theorem unmatched_of_mem_turnsEvents (s : Surroundings ε) (invoke : Invoke κ ε)
    (conduct : Conduct κ ε) (active : PinSet) (calls : List (PendingCall κ)) (d : Desk κ ε) :
    ∀ e ∈ turnsEvents s invoke conduct active calls d, e.isMatched = false := by
  induction calls generalizing d with
  | nil => simp [turnsEvents]
  | cons c calls ih =>
    have hturn : ∀ e ∈ turnEvents conduct active c d, e.isMatched = false := by
      unfold turnEvents
      split
      · exact List.forall_mem_cons.mpr ⟨rfl, unmatched_of_mem_eventsOf d.port _⟩
      · simp [Event.isMatched]
    rw [turnsEvents, List.forall_mem_append]
    exact ⟨hturn, ih (makeCall s invoke active c d).2⟩

/-- The edges that a cycle matches are the differences of the sample that it accepts. -/
theorem filter_cycleEvents (s : Surroundings ε) (invoke : Invoke κ ε) (conduct : Conduct κ ε)
    (d : Desk κ ε) {x : Sight} (w : ε) {levels : List Bool} {active : PinSet}
    (hx : x.accepted? = some levels) (hactive : PinSet.ofLevels? levels = .ok active) :
    (cycleEvents s invoke conduct d x w).filter Event.isMatched =
      d.port.differences d.port.levels levels := by
  have hmatches := List.filter_eq_self.mpr (matched_of_mem_differences d.port levels)
  have hnone : (turnsEvents s invoke conduct active (d.port.calls levels)
      ⟨d.port.countSample.accept levels, w⟩).filter Event.isMatched = [] := by
    apply List.filter_eq_nil_iff.mpr
    intro e he
    rw [unmatched_of_mem_turnsEvents s invoke conduct active _ _ e he]
    exact Bool.false_ne_true
  rw [cycleEvents_accepted s invoke conduct d w hx hactive, List.filter_append, hmatches, hnone,
    List.append_nil]

/-- Where the account of an input is in order and every collected call is settled, no difference is
lost. -/
theorem ends_of_fates {p q : InputPort κ} {new : List Bool} (hsize : new.length = p.size)
    {es es' : List (Event κ)} (hes : es = p.differences p.levels new ++ es')
    (hunmatched : ∀ ev ∈ es', ev.isMatched = false)
    (hsettled : es.filterMap Event.settled? = es.filterMap callOf?)
    (hfates : ∀ index, (es.filter fun ev => ev.index == index).foldlM Fate.next?
      ⟨p.flagOf index, none⟩ = some ⟨q.flagOf index, none⟩)
    {index : Nat} {e : Edge} {told : Option (Target κ)}
    (hmem : .matched index e told ∈ p.differences p.levels new) : Ends es q index e told := by
  have hall : .matched index e told ∈ es := by
    rw [hes]
    exact List.mem_append_left _ hmem
  have hown : ∀ ev ∈ es'.filter (fun ev => ev.index == index), ev.isMatched = false := fun ev hev =>
    hunmatched ev (List.mem_filter.mp hev).1
  have hrun := hfates index
  rw [hes, List.filter_append, filter_differences hsize hmem, List.cons_append, List.nil_append,
    List.foldlM_cons] at hrun
  -- an edge that the flag holds after its match, or once its call is skipped, is still there or
  -- was taken
  have hkept : ∀ {f : Fate}, (es'.filter fun ev => ev.index == index).foldlM Fate.next? f =
      some ⟨q.flagOf index, none⟩ →
        (f.flag = some e ∨
          ∃ c, .flagged c ∈ es'.filter (fun ev => ev.index == index) ∧ c.edge = e) →
          Ends es q index e told := by
    intro f hf hflag
    rcases Fate.flag_kept hown hf hflag with hheld | ⟨j, htaken⟩
    · exact .flagged hheld
    · obtain ⟨hlater, hj⟩ := List.mem_filter.mp htaken
      have hsame : j = index := beq_iff_eq.mp hj
      rw [hsame] at hlater
      exact .taken (hes ▸ List.mem_append_right _ hlater)
  cases told with
  | none => exact hkept hrun (.inl rfl)
  | some target =>
    have hcollected : ⟨index, e, target⟩ ∈ es.filterMap Event.settled? := by
      rw [hsettled]
      exact List.mem_filterMap.mpr ⟨_, hall, rfl⟩
    obtain ⟨ev, hev, hcall⟩ := List.mem_filterMap.mp hcollected
    cases ev with
    | matched j e' told => cases hcall
    | taken j r => cases hcall
    | called c active =>
      cases hcall
      exact .told target active rfl hev
    | flagged c =>
      cases hcall
      rw [hes] at hev
      have hlater : .flagged ⟨index, e, target⟩ ∈ es' :=
        (List.mem_append.mp hev).resolve_left fun hmatch =>
          nomatch matched_of_mem_differences p new _ hmatch
      exact hkept hrun (.inr ⟨_, List.mem_filter.mpr ⟨hlater, beq_self_eq_true index⟩, rfl⟩)

/-- A cycle that accepts a sample does not fail, and reports the differences from the last one. -/
theorem poll_reports (hlog : Witnesses log s invoke) (hfollows : Follows conduct invoke)
    {d : Desk κ ε} (hfew : d.port.size ≤ PinSet.capacity) {before : List (Event κ)}
    (hbooks : Moment.Books before ⟨d.port, [], none⟩)
    (horderly : Moment.Orderly (⟨d.port, [], none⟩ : Moment κ)) {x : Sight} {w : ε}
    (hsees : Sees s d.port d.around x w) {levels : List Bool} (hx : x.accepted? = some levels) :
    ∃ made d', (poll s invoke).run d = (.ok made, d') ∧
      Reports log d.port.levels levels d (cycleEvents s invoke conduct d x w) d' := by
  obtain ⟨hsize, -⟩ := hsees.accepted hx
  have hfits : levels.length ≤ PinSet.capacity := hsize ▸ hfew
  obtain ⟨active, hactive⟩ := PinSet.ofLevels?_ok hfits
  obtain ⟨_, hsettle⟩ := run_settle_ok s invoke hfits ⟨d.port.countSample, w⟩
  obtain ⟨made, hmade⟩ : ∃ made, ((poll s invoke).run d).1 = .ok made :=
    ⟨_, congrArg Prod.fst ((run_poll_accepts invoke hsees hx).trans hsettle)⟩
  obtain ⟨htrace, hseen⟩ := poll_trace hlog hfollows hsees
  have hlevels : ((poll s invoke).run d).2.port.levels = levels := by
    rw [levels_poll hfollows.behaved hfew hsees, hx, Option.getD_some]
  have hevents := cycleEvents_accepted s invoke conduct d w hx hactive
  have hunmatched := unmatched_of_mem_turnsEvents s invoke conduct active (d.port.calls levels)
    ⟨d.port.countSample.accept levels, w⟩
  obtain ⟨hcount, hfates⟩ := hbooks.stretch (htrace.books hbooks horderly).1
  have hsettled := htrace.settled
  rw [List.nil_append, List.append_nil] at hsettled
  have hmatched := filter_cycleEvents s invoke conduct d w hx hactive
  rw [List.countP_eq_length_filter, hmatched] at hcount
  refine ⟨made, ((poll s invoke).run d).2, Prod.ext hmade rfl, hmatched,
    fun index e told hmem => ?_, hsettled.symm, hfates, hcount, hseen, hlevels⟩
  exact ends_of_fates hsize hevents hunmatched hsettled.symm hfates hmem

/-- A cycle fails exactly if a read does, and then leaves the port as it was but for its first
sample, if it was taken. -/
theorem run_poll_eq_error_iff (invoke : Invoke κ ε) {d d' : Desk κ ε} {e : Failure}
    (hfew : d.port.size ≤ PinSet.capacity) :
    (poll s invoke).run d = (.error e, d') ↔
      ∃ taken, Sees s d.port d.around (.failed e taken) d'.around ∧
        d'.port = { d.port with
          stats := { d.port.stats with
            samples := d.port.stats.samples + if taken then 1 else 0 } } := by
  have hport : ∀ taken : Bool, (if taken then d.port.countSample else d.port) =
      { d.port with
        stats := { d.port.stats with
          samples := d.port.stats.samples + if taken then 1 else 0 } } := by
    intro taken
    cases taken <;> rfl
  constructor
  · intro hrun
    obtain ⟨x, w, hsees⟩ := Sees.exists s d.port d.around
    have hdoes := run_poll_sees invoke hsees
    rw [show (⟨d.port, d.around⟩ : Desk κ ε) = d from rfl, hrun] at hdoes
    cases hx : x.accepted? with
    | some levels =>
      obtain ⟨active, hsettle⟩ := run_settle_ok s invoke ((hsees.accepted hx).1 ▸ hfew)
        ⟨d.port.countSample, w⟩
      have haccepts := (run_poll_accepts invoke hsees hx).trans hsettle
      rw [show (⟨d.port, d.around⟩ : Desk κ ε) = d from rfl, hrun] at haccepts
      cases haccepts
    | none =>
      cases x with
      | failed e' taken =>
        cases hdoes
        exact ⟨taken, hsees, hport taken⟩
      | same => cases hdoes
      | bounced first again => cases hdoes
      | once levels => cases hx
      | twice levels => cases hx
  · rintro ⟨taken, hsees, hleft⟩
    rw [show d = ⟨d.port, d.around⟩ from rfl, run_poll_sees invoke hsees]
    refine Prod.ext rfl ?_
    show (⟨_, d'.around⟩ : Desk κ ε) = d'
    rw [hport, ← hleft]

end Desk

/-! ## Runs from the opening of a port on -/

namespace Desk

variable {β κ ε : Type} [Backend β] {pins : List InputPin} {settings : InputSettings} {now : Nat}
  {g g' : Gpio β} {p : InputPort κ} {log : ε → List (κ × Occasion)} {w₀ : ε} {xs : List Sight}
  {d : Desk κ ε}

/-- The inputs of a port fit into a set, whatever has been done since it was opened. -/
theorem Viewing.few (hopen : (openPort pins settings now).run g = (.ok p, g'))
    (hrun : Viewing log Behaved ⟨p, w₀⟩ xs d) : d.port.size ≤ PinSet.capacity := by
  rw [hrun.size fun _ h => h]
  exact (reference_openPort hopen).1

/-- After every run the next cycle that accepts a sample does not fail, and reports. -/
theorem Viewing.reports (hopen : (openPort pins settings now).run g = (.ok p, g'))
    (hrun : Viewing log Behaved ⟨p, w₀⟩ xs d) {s : Surroundings ε} {invoke : Invoke κ ε}
    {conduct : Conduct κ ε} (hlog : Witnesses log s invoke) (hfollows : Follows conduct invoke)
    {x : Sight} {w : ε} (hsees : Sees s d.port d.around x w) {levels : List Bool}
    (hx : x.accepted? = some levels) :
    ∃ made d', (Desk.poll s invoke).run d = (.ok made, d') ∧
      Reports log d.port.levels levels d (cycleEvents s invoke conduct d x w) d' := by
  -- the books of the port are in order since it was opened
  obtain ⟨before, hchronicle⟩ := hrun.chronicle
  obtain ⟨hempty, hclear⟩ := Moment.books_openPort hopen
  obtain ⟨hbooks, horderly⟩ := hchronicle.trace.1.books hempty hclear
  exact poll_reports hlog hfollows (hrun.few hopen) hbooks horderly hsees hx

end Desk

/-- At every point of every run from the opening of a port on, with any number of cycles since the
last one that accepted a sample: a cycle fails exactly if one of its reads does; then no callback is
called, and the port is left as it was but for its first sample, if it was taken. If the cycle
accepts a sample, it reports all differences from the last one that was accepted, by the events that
its samples and the conduct of its callbacks make. -/
theorem nothing_lost {β κ ε : Type} [Backend β] {pins : List InputPin} {settings : InputSettings}
    {now : Nat} {g g' : Gpio β} {p : InputPort κ}
    (hopen : (openPort pins settings now).run g = (.ok p, g')) {log : ε → List (κ × Occasion)}
    {w₀ : ε} {xs ys : List Sight} {d : Desk κ ε}
    (hrun : Desk.Viewing log Desk.Behaved ⟨p, w₀⟩ (xs ++ ys) d)
    (hys : ∀ y ∈ ys, y.accepted? = none) {s : Surroundings ε} {invoke : Invoke κ ε}
    {conduct : Desk.Conduct κ ε} (hlog : Desk.Witnesses log s invoke)
    (hfollows : Desk.Follows conduct invoke) :
    d.port.levels = lastAccepted p.levels xs ∧
      (∀ e d', (Desk.poll s invoke).run d = (.error e, d') ↔
        ∃ taken, Desk.Sees s d.port d.around (.failed e taken) d'.around ∧
          d'.port = { d.port with
            stats := { d.port.stats with
              samples := d.port.stats.samples + if taken then 1 else 0 } }) ∧
      (∀ e d', (Desk.poll s invoke).run d = (.error e, d') → log d'.around = log d.around) ∧
      ∀ x w levels, Desk.Sees s d.port d.around x w → x.accepted? = some levels →
        ∃ made d', (Desk.poll s invoke).run d = (.ok made, d') ∧
          Reports log (lastAccepted p.levels xs) levels d
            (Desk.cycleEvents s invoke conduct d x w) d' := by
  have hlast : d.port.levels = lastAccepted p.levels xs := by
    rw [hrun.levels (fun _ h => h) (reference_openPort hopen).1, lastAccepted_append _ _ hys]
  have hfew := hrun.few hopen
  refine ⟨hlast, fun e d' => Desk.run_poll_eq_error_iff invoke hfew, ?_, ?_⟩
  · intro e d' hfailed
    obtain ⟨taken, hsees, -⟩ := (Desk.run_poll_eq_error_iff invoke hfew).mp hfailed
    exact hsees.unseen hlog
  · intro x w levels hsees hx
    rw [← hlast]
    exact hrun.reports hopen hlog hfollows hsees hx

/-! ## A pin that cannot be read for a while -/

def beHeard : Invoke Unit Readings := fun action occasion d =>
  (none, { d with around := (d.around.1, d.around.2 ++ [(action, occasion)]) })

theorem witnesses_readings : Desk.Witnesses Prod.snd readings beHeard :=
  readings_witnessed fun _ _ _ => rfl

/-- They do nothing to their port. -/
theorem follows_beHeard : Desk.Follows (fun _ _ _ => []) beHeard := fun _ _ _ => rfl

theorem behaved_beHeard : Desk.Behaved beHeard := follows_beHeard.behaved

/-- Both levels have risen, but the second pin cannot be read. -/
def pairUnread : Desk Unit Readings := ⟨pairPort.after (.setEdge 0 .both), ([true], [])⟩

/-- The port after that cycle, in a world where both pins can be read. -/
def pairReadable : Desk Unit Readings :=
  ⟨((Desk.poll readings beHeard).run pairUnread).2.port, ([true, true], [])⟩

/-- The first cycle fails at the second input; the next one reports the edge of the first. -/
theorem nothing_lost_unread :
    openPair.run pairGpio = (.ok pairPort, (openPair.run pairGpio).2) ∧
      (∃ e d', (Desk.poll readings beHeard).run pairUnread = (.error e, d') ∧
        d'.port = pairUnread.port) ∧
      ∃ made d' es, (Desk.poll readings beHeard).run pairReadable = (.ok made, d') ∧
        Reports Prod.snd [false, false] [true, true] pairReadable es d' ∧
          es = [.matched 0 .rising none] ∧ d'.port.flagOf 0 = some .rising := by
  have hstart : Desk.Viewing Prod.snd Desk.Behaved ⟨pairPort, ([true], [])⟩ ([] ++ []) pairUnread :=
    Desk.Viewing.start.call (.setEdge 0 .both)
  have hfails : Act.FailsAt readings.read pairUnread.port.chipPins pairUnread.around 1
      (.error (.io (.other "no level"))) ([], []) := ⟨[true], ([], []), 1, rfl, rfl, rfl⟩
  have hfailed := hstart.poll witnesses_readings behaved_beHeard (.unread hfails)
  have hreadable := hfailed.elsewhere ([true, true], []) rfl
  have hread : (Act.collect readings.read pairReadable.port.chipPins).run pairReadable.around =
      (.ok [true, true], ([], [])) := rfl
  have hnothing : ∀ y ∈ [Sight.failed (.error (.io (.other "no level"))) false],
      y.accepted? = none := by
    simp [Sight.accepted?]
  obtain ⟨-, -, -, hreports⟩ :=
    nothing_lost run_openPair hreadable hnothing witnesses_readings follows_beHeard
  obtain ⟨made, d', hpoll, hreport⟩ :=
    hreports _ _ [true, true] (.once hread (by decide) rfl) rfl
  refine ⟨run_openPair, ⟨_, _, rfl, rfl⟩, made, d', _, hpoll, hreport, rfl, ?_⟩
  have hrun : (Desk.poll readings beHeard).run pairReadable =
      (.ok [], ((Desk.poll readings beHeard).run pairReadable).2) := rfl
  rw [(Prod.mk.inj (hpoll.symm.trans hrun)).2]
  rfl

end BoardGpio
