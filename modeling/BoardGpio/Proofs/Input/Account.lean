import BoardGpio.Backend.Sim
import BoardGpio.Proofs.Input.Chronicle
import BoardGpio.Proofs.Input.Opened

/-!
# Every matched edge is told once

An edge that matched a trigger has one fate: the callback collected for it is called, or the edge is
put into the flag of its input. The account of an input (`Fate`) says which of its events may follow
which. It refuses an edge that is told twice, one that is told and put into the flag, a second match
while the first still waits, and a flag that loses its value in any other way than by being taken or
by a newer match. The main statement is that the account of every input is in order at every moment
of every trace, and so at every moment of every chronicle, with the flag the port shows and the call
that still waits (`edges_accounted`); the counters of the port follow.
-/

set_option autoImplicit false

namespace BoardGpio

open InputPort

variable {κ : Type}

/-- The account of one input: what its flag holds, and the matched edge whose callback, with this
serial number, still has to be called. -/
structure Fate where
  flag : Option Edge := none
  waiting : Option (Edge × Nat) := none
  deriving DecidableEq

namespace Fate

def ofCall (c : PendingCall κ) : Edge × Nat := (c.edge, c.callback.serial)

/-- The account after an event, if the event can follow. -/
def next? (f : Fate) : Event κ → Option Fate
  | .matched _ e none => if f.waiting = none then some ⟨some e, none⟩ else none
  | .matched index e (some target) =>
    if f.waiting = none then some ⟨none, some (ofCall (PendingCall.mk index e target))⟩ else none
  | .called c _ => if f.waiting = some (ofCall c) then some ⟨f.flag, none⟩ else none
  | .flagged c =>
    if f.flag = none ∧ f.waiting = some (ofCall c) then some ⟨some c.edge, none⟩ else none
  | .taken _ r => if f.flag = r then some ⟨none, f.waiting⟩ else none

/-- The account of an input after some events, if they can follow one another. -/
def after? (index : Nat) (es : List (Event κ)) : Option Fate :=
  (es.filter fun e => e.index == index).foldlM next? {}

theorem after?_append (index : Nat) (es es' : List (Event κ)) :
    after? index (es ++ es') =
      (after? index es).bind fun f => (es'.filter fun e => e.index == index).foldlM next? f := by
  rw [after?, List.filter_append, List.foldlM_append]
  rfl

end Fate

namespace Event

def isMatched : Event κ → Bool
  | .matched .. => true
  | _ => false

def isCalled : Event κ → Bool
  | .called .. => true
  | _ => false

def isLeft : Event κ → Bool
  | .matched _ _ none => true
  | .flagged _ => true
  | _ => false

end Event

namespace Moment

/-- The calls about an input that are still to be made. -/
def waiting (m : Moment κ) (index : Nat) : List (PendingCall κ) :=
  m.pending.filter fun c => c.index == index

/-- The account that the port itself shows. -/
def fate (m : Moment κ) (index : Nat) : Fate :=
  ⟨m.port.flagOf index, (m.waiting index).head?.map Fate.ofCall⟩

def callsRunning (m : Moment κ) : Nat := if m.running.isSome then 1 else 0

/-- What events and counters say of one another at a moment. -/
structure Books (es : List (Event κ)) (m : Moment κ) : Prop where
  /-- Every input's account is in order. -/
  fates : ∀ index, Fate.after? index es = some (m.fate index)
  edges : m.port.stats.edges = es.countP Event.isMatched
  callbacks : m.port.stats.callbacks + m.callsRunning = es.countP Event.isCalled
  failures_le : m.port.stats.failures ≤ m.port.stats.callbacks
  /-- Every matched edge was told, is left in a flag, or waits. -/
  balance : m.port.stats.edges =
    m.port.stats.callbacks + m.callsRunning + es.countP Event.isLeft + m.pending.length

/-- At most one call about an input waits, and its flag is empty until then. -/
structure Orderly (m : Moment κ) : Prop where
  once : ∀ index, (m.waiting index).length ≤ 1
  clear : ∀ c ∈ m.pending, m.port.flagOf c.index = none
  inside : ∀ c ∈ m.pending, c.index < m.port.size

end Moment

namespace InputPort

/-- The matches of a sample are matches and nothing else. -/
theorem matched_of_mem (group : Option (Installed κ)) (first : Nat) (inputs : List (Input κ))
    (levels : List Bool) :
    ∀ e ∈ matchesFrom group first inputs levels, e.isMatched = true := by
  induction inputs generalizing first levels with
  | nil => cases levels <;> simp [matchesFrom]
  | cons i inputs ih =>
    cases levels with
    | nil => simp [matchesFrom]
    | cons level levels =>
      intro e he
      simp only [matchesFrom] at he
      split at he
      · rcases List.mem_cons.mp he with rfl | he
        · rfl
        · exact ih _ _ e he
      · exact ih _ _ e he

/-- The port counts the matches of a sample. -/
theorem length_matchesFrom (group : Option (Installed κ)) (first : Nat) (inputs : List (Input κ))
    (levels : List Bool) :
    (matchesFrom group first inputs levels).length =
      (List.zipWith Input.edgeTo? inputs levels).countP Option.isSome := by
  induction inputs generalizing first levels with
  | nil => cases levels <;> rfl
  | cons i inputs ih =>
    cases levels with
    | nil => rfl
    | cons level levels =>
      simp only [matchesFrom, List.zipWith_cons_cons, List.countP_cons]
      cases i.edgeTo? level with
      | none => simpa using ih (first + 1) levels
      | some e => simpa using ih (first + 1) levels

/-- A match either asks for a call or is left in a flag. -/
theorem length_callOf (es : List (Event κ)) (h : ∀ e ∈ es, e.isMatched = true) :
    es.length = (es.filterMap callOf?).length + es.countP Event.isLeft := by
  induction es with
  | nil => rfl
  | cons e es ih =>
    have hrest := ih fun e he => h e (List.mem_cons_of_mem _ he)
    have hhead := h e (by simp)
    rw [List.filterMap_cons, List.countP_cons, List.length_cons]
    cases e with
    | matched index edge told =>
      cases told with
      | none =>
        simp only [callOf?, Event.isLeft, if_true]
        omega
      | some target =>
        simp only [callOf?, Event.isLeft, List.length_cons]
        simp only [Bool.false_eq_true, if_false]
        omega
    | called c active => cases hhead
    | flagged c => cases hhead
    | taken index r => cases hhead

/-- The counts of a sample: all its events are matches, and each asks for a call or is left in a
flag. -/
theorem counts_matchesOf (p : InputPort κ) (levels : List Bool) :
    (p.matchesOf levels).countP Event.isMatched = p.matched levels ∧
      (p.matchesOf levels).countP Event.isCalled = 0 ∧
        p.matched levels = (p.calls levels).length + (p.matchesOf levels).countP Event.isLeft := by
  have hall := matched_of_mem p.group 0 p.inputs levels
  have hlen : (p.matchesOf levels).length = p.matched levels :=
    length_matchesFrom p.group 0 p.inputs levels
  refine ⟨?_, ?_, ?_⟩
  · rw [← hlen]
    exact List.countP_eq_length.mpr hall
  · rw [List.countP_eq_zero]
    intro e he
    have := hall e he
    cases e <;> simp_all [Event.isMatched, Event.isCalled]
  · rw [← hlen, calls, callsFrom_eq]
    exact length_callOf _ hall

end InputPort

namespace Moment

variable {m m' : Moment κ} {es es' : List (Event κ)}

/-- Events that can follow carry an account on. -/
theorem after?_step {index : Nat} {f f' : Fate} (h : Fate.after? index es = some f)
    (h' : (es'.filter fun e => e.index == index).foldlM Fate.next? f = some f') :
    Fate.after? index (es ++ es') = some f' := by
  rw [Fate.after?_append, h]
  exact h'

theorem flagOf_flag (p : InputPort κ) {index : Nat} (hsize : index < p.size) (e : Edge) (j : Nat) :
    (p.flag index e).flagOf j = if j = index then some e else p.flagOf j := by
  rw [flag, flagOf_modify, flagOf]
  by_cases hj : j = index
  · subst hj
    obtain ⟨i, hi⟩ : ∃ i, p.inputs[j]? = some i := ⟨_, List.getElem?_eq_getElem hsize⟩
    simp [hi]
  · cases p.inputs[j]? <;> simp [hj, Ne.symm hj]

theorem flagOf_outside {p : InputPort κ} {index : Nat} (h : ¬index < p.size) :
    p.flagOf index = none := by
  have hi : p.inputs[index]? = none := List.getElem?_eq_none_iff.mpr (Nat.le_of_not_lt h)
  rw [flagOf, hi]
  rfl

/-- A change of the port that shows in no flag and no counter. -/
theorem Books.alike (hb : Books es m) (ho : Orderly m) (q : InputPort κ) (hq : m.port.Alike q) :
    Books es { m with port := q } ∧ Orderly { m with port := q } := by
  have hfate : ∀ index, ({ m with port := q } : Moment κ).fate index = m.fate index := by
    intro index
    show Fate.mk _ _ = Fate.mk _ _
    rw [hq.flags index]
    rfl
  refine ⟨⟨fun index => ?_, ?_, ?_, ?_, ?_⟩, ⟨ho.once, fun c hc => ?_, fun c hc => ?_⟩⟩
  · rw [hfate index]
    exact hb.fates index
  · rw [hq.stats]
    exact hb.edges
  · rw [hq.stats]
    exact hb.callbacks
  · rw [hq.stats]
    exact hb.failures_le
  · rw [hq.stats]
    exact hb.balance
  · rw [hq.flags]
    exact ho.clear c hc
  · rw [hq.size]
    exact ho.inside c hc

/-- Taking an edge, which is the one the account says is in the flag. -/
theorem Books.takeEdge (hb : Books es m) (ho : Orderly m) (index : Nat) :
    Books (es ++ (PortCall.takeEdge index).events m.port)
        { m with port := m.port.after (.takeEdge index) } ∧
      Orderly { m with port := m.port.after (.takeEdge index) } := by
  obtain ⟨hstats, hsize, hflags, hevents⟩ := takeEdge_frame m.port index
  have hcounts : ∀ count : Event κ → Bool, (∀ r, count (.taken index r) = false) →
      (es ++ (PortCall.takeEdge index).events m.port).countP count = es.countP count := by
    intro count hcount
    rw [List.countP_append, hevents]
    split
    · simp [hcount]
    · simp
  refine ⟨⟨fun j => ?_, ?_, ?_, ?_, ?_⟩, ⟨ho.once, fun c hc => ?_, fun c hc => ?_⟩⟩
  · refine after?_step (hb.fates j) ?_
    show _ = some (Fate.mk ((m.port.after (.takeEdge index)).flagOf j) _)
    rw [hflags, hevents]
    -- the account of this input gives what its flag holds; the others have no event
    by_cases hj : j = index
    · subst hj
      by_cases hin : j < m.port.size
      · simp [hin, Event.index, Fate.next?, fate, waiting]
      · simp [hin, fate, waiting, flagOf_outside hin]
    · have hne : (index == j) = false := by simpa using Ne.symm hj
      rw [if_neg hj]
      split <;> simp [hne, Event.index, fate, waiting]
  · rw [hstats, hcounts _ fun _ => rfl]
    exact hb.edges
  · rw [hstats, hcounts _ fun _ => rfl]
    exact hb.callbacks
  · rw [hstats]
    exact hb.failures_le
  · rw [hstats, hcounts _ fun _ => rfl]
    exact hb.balance
  · rw [hflags]
    split
    · rfl
    · exact ho.clear c hc
  · rw [hsize]
    exact ho.inside c hc

theorem Books.accept {p : InputPort κ} (hb : Books es ⟨p, [], none⟩) (levels : List Bool)
    (hsize : levels.length = p.size) :
    Books (es ++ p.matchesOf levels) ⟨p.accept levels, p.calls levels, none⟩ ∧
      Orderly ⟨p.accept levels, p.calls levels, none⟩ := by
  obtain ⟨hmatched, hcalled, hbalance⟩ := counts_matchesOf p levels
  have hsame := size_accept p hsize
  have hedges := hb.edges
  have hcallbacks := hb.callbacks
  have hfailures := hb.failures_le
  have hold : p.stats.edges = p.stats.callbacks + 0 + es.countP Event.isLeft + 0 := hb.balance
  have hmember : ∀ c ∈ p.calls levels,
      c ∈ (p.calls levels).filter fun c' => c'.index == c.index := fun c hc =>
    List.mem_filter.mpr ⟨hc, by simp⟩
  refine ⟨⟨fun j => ?_, ?_, ?_, hfailures, ?_⟩, ⟨fun j => ?_, fun c hc => ?_, fun c hc => ?_⟩⟩
  · -- nothing waits before a sample, so an edge in the flag is all that a match can replace
    refine after?_step (hb.fates j) ?_
    cases accepted p levels hsize j with
    | unmatched hm hc hf => simp [hm, fate, waiting, hc, hf]
    | flagged e hm hc hf => simp [hm, fate, waiting, hc, hf, Fate.next?]
    | called e target _ hm hc hf => simp [hm, fate, waiting, hc, hf, Fate.next?]
  · show p.stats.edges + p.matched levels = _
    rw [List.countP_append, hmatched, ← hedges]
  · rw [List.countP_append, hcalled]
    exact hcallbacks
  · show p.stats.edges + p.matched levels = p.stats.callbacks + 0 +
      (es ++ p.matchesOf levels).countP Event.isLeft + (p.calls levels).length
    rw [List.countP_append]
    omega
  · show ((p.calls levels).filter fun c => c.index == j).length ≤ 1
    cases accepted p levels hsize j with
    | unmatched _ hc _ => simp [hc]
    | flagged _ _ hc _ => simp [hc]
    | called _ _ _ _ hc _ => simp [hc]
  · have hmem := hmember c hc
    cases accepted p levels hsize c.index with
    | unmatched _ hc _ => simp [hc] at hmem
    | flagged _ _ hc _ => simp [hc] at hmem
    | called _ _ _ _ _ hf => exact hf
  · have hmem := hmember c hc
    show c.index < (p.accept levels).size
    rw [hsame]
    cases accepted p levels hsize c.index with
    | unmatched _ hc _ => simp [hc] at hmem
    | flagged _ _ hc _ => simp [hc] at hmem
    | called _ _ hj _ _ _ => exact hj

/-- The call at the head of the list is the only one about its input. -/
theorem Orderly.head {p : InputPort κ} {c : PendingCall κ} {rest : List (PendingCall κ)}
    {running : Option (PendingCall κ)} (ho : Orderly ⟨p, c :: rest, running⟩) :
    (rest.filter fun c' => c'.index == c.index) = [] := by
  have h := ho.once c.index
  simp only [waiting, List.filter_cons, beq_self_eq_true, if_true, List.length_cons] at h
  exact List.length_eq_zero_iff.mp (by omega)

theorem Orderly.tail {p q : InputPort κ} {c : PendingCall κ} {rest : List (PendingCall κ)}
    {running running' : Option (PendingCall κ)} (ho : Orderly ⟨p, c :: rest, running⟩)
    (hsize : q.size = p.size) (hflags : ∀ j, j ≠ c.index → q.flagOf j = p.flagOf j) :
    Orderly ⟨q, rest, running'⟩ := by
  have hhead := ho.head
  refine ⟨fun j => ?_, fun c' hc' => ?_, fun c' hc' => ?_⟩
  · have h := ho.once j
    simp only [waiting, List.filter_cons] at h ⊢
    split at h
    · rw [List.length_cons] at h
      omega
    · exact h
  · -- the flag that may have changed is not that of another call's input
    have hne : c'.index ≠ c.index := by
      intro heq
      have hmem : c' ∈ rest.filter fun c' => c'.index == c.index :=
        List.mem_filter.mpr ⟨hc', by simp [heq]⟩
      rw [hhead] at hmem
      cases hmem
    show q.flagOf c'.index = none
    rw [hflags _ hne]
    exact ho.clear c' (List.mem_cons_of_mem _ hc')
  · show c'.index < q.size
    rw [hsize]
    exact ho.inside c' (List.mem_cons_of_mem _ hc')

/-- Calling the callback at the head of the list, which takes the edge it was collected for. -/
theorem Books.enter {p : InputPort κ} {c : PendingCall κ} {rest : List (PendingCall κ)}
    (hb : Books es ⟨p, c :: rest, none⟩) (ho : Orderly ⟨p, c :: rest, none⟩) (active : PinSet) :
    Books (es ++ [.called c active]) ⟨p, rest, some c⟩ ∧ Orderly ⟨p, rest, some c⟩ := by
  have hhead := ho.head
  have hcallbacks : p.stats.callbacks + 0 = es.countP Event.isCalled := hb.callbacks
  have hold : p.stats.edges =
      p.stats.callbacks + 0 + es.countP Event.isLeft + (rest.length + 1) := hb.balance
  refine ⟨⟨fun j => ?_, ?_, ?_, hb.failures_le, ?_⟩, ho.tail rfl fun _ _ => rfl⟩
  · refine after?_step (hb.fates j) ?_
    by_cases hj : j = c.index
    · subst hj
      simp [Event.index, Fate.next?, fate, waiting, hhead]
    · have hne : (c.index == j) = false := by simpa using Ne.symm hj
      simp [Event.index, hne, fate, waiting]
  · rw [List.countP_append]
    exact hb.edges
  · show p.stats.callbacks + 1 = _
    rw [List.countP_append, ← hcallbacks]
    rfl
  · show p.stats.edges = p.stats.callbacks + 1 +
      (es ++ [Event.called c active]).countP Event.isLeft + rest.length
    have hnone : [Event.called c active].countP Event.isLeft = 0 := rfl
    rw [List.countP_append, hnone]
    omega

theorem Books.leave {p : InputPort κ} {c : PendingCall κ} {rest : List (PendingCall κ)}
    (hb : Books es ⟨p, rest, some c⟩) (ho : Orderly ⟨p, rest, some c⟩) (failed : Bool) :
    Books es ⟨p.countCall failed, rest, none⟩ ∧ Orderly ⟨p.countCall failed, rest, none⟩ := by
  have hcallbacks : p.stats.callbacks + 1 = es.countP Event.isCalled := hb.callbacks
  have hfailures : p.stats.failures ≤ p.stats.callbacks := hb.failures_le
  have hold : p.stats.edges =
      p.stats.callbacks + 1 + es.countP Event.isLeft + rest.length := hb.balance
  refine ⟨⟨hb.fates, hb.edges, ?_, ?_, ?_⟩, ho.once, ho.clear, ho.inside⟩
  · show p.stats.callbacks + 1 + 0 = _
    omega
  · show p.stats.failures + (if failed = true then 1 else 0) ≤ p.stats.callbacks + 1
    split <;> omega
  · show p.stats.edges = p.stats.callbacks + 1 + 0 + _ + rest.length
    omega

/-- Leaving the edge of a call that is not to be made any more in the flag, which is empty. -/
theorem Books.skip {p : InputPort κ} {c : PendingCall κ} {rest : List (PendingCall κ)}
    (hb : Books es ⟨p, c :: rest, none⟩) (ho : Orderly ⟨p, c :: rest, none⟩) :
    Books (es ++ [.flagged c]) ⟨p.flag c.index c.edge, rest, none⟩ ∧
      Orderly ⟨p.flag c.index c.edge, rest, none⟩ := by
  have hhead := ho.head
  have hin : c.index < p.size := ho.inside c (by simp)
  have hempty : p.flagOf c.index = none := ho.clear c (by simp)
  have hcallbacks : p.stats.callbacks + 0 = es.countP Event.isCalled := hb.callbacks
  have hold : p.stats.edges =
      p.stats.callbacks + 0 + es.countP Event.isLeft + (rest.length + 1) := hb.balance
  have hsize : (p.flag c.index c.edge).size = p.size := List.length_modify ..
  refine ⟨⟨fun j => ?_, ?_, ?_, hb.failures_le, ?_⟩,
    ho.tail hsize fun j hj => by rw [flagOf_flag p hin, if_neg hj]⟩
  · -- the flag was emptied when the call was collected, so no edge is lost here
    refine after?_step (hb.fates j) ?_
    show _ = some (Fate.mk ((p.flag c.index c.edge).flagOf j) _)
    rw [flagOf_flag p hin]
    by_cases hj : j = c.index
    · subst hj
      simp [Event.index, Fate.next?, fate, waiting, hhead, hempty]
    · have hne : (c.index == j) = false := by simpa using Ne.symm hj
      simp [Event.index, hne, hj, fate, waiting]
  · rw [List.countP_append]
    exact hb.edges
  · rw [List.countP_append]
    exact hcallbacks
  · show p.stats.edges = p.stats.callbacks + 0 +
      (es ++ [Event.flagged c]).countP Event.isLeft + rest.length
    have hone : [Event.flagged c].countP Event.isLeft = 1 := rfl
    rw [List.countP_append, hone]
    omega

theorem Step.books (hstep : m.Step es' m') (hb : Books es m) (ho : Orderly m) :
    Books (es ++ es') m' ∧ Orderly m' := by
  cases hstep with
  | call m call =>
    by_cases htake : ∃ index, call = .takeEdge index
    · obtain ⟨index, rfl⟩ := htake
      exact hb.takeEdge ho index
    · have hne : ∀ index, call ≠ .takeEdge index := fun index h => htake ⟨index, h⟩
      obtain ⟨halike, hnone⟩ := after_frame m.port hne
      rw [hnone, List.append_nil]
      exact hb.alike ho _ halike
  | sample p =>
    rw [List.append_nil]
    exact ⟨⟨hb.fates, hb.edges, hb.callbacks, hb.failures_le, hb.balance⟩, ho.once, ho.clear,
      ho.inside⟩
  | accept p levels hsize => exact hb.accept levels hsize
  | enter p c rest active _ => exact hb.enter ho active
  | leave p c rest failed =>
    rw [List.append_nil]
    exact hb.leave ho failed
  | skip p c rest _ => exact hb.skip ho
  | report m throttle =>
    rw [List.append_nil]
    exact hb.alike ho _ ⟨rfl, rfl, fun _ => rfl⟩

end Moment

theorem Trace.books {m m' : Moment κ} {es es' : List (Event κ)} (h : Trace m es' m')
    (hb : m.Books es) (ho : m.Orderly) : m'.Books (es ++ es') ∧ m'.Orderly := by
  induction h with
  | none => exact ⟨by rw [List.append_nil]; exact hb, ho⟩
  | step _ hstep ih =>
    rw [← List.append_assoc]
    exact hstep.books ih.1 ih.2

namespace Moment

variable {κ : Type}

/-- The books of a port that has just been opened are empty. -/
theorem books_openPort {β : Type} [Backend β] {pins : List InputPin} {settings : InputSettings}
    {now : Nat} {g g' : Gpio β} {p : InputPort κ}
    (hopen : (openPort pins settings now).run g = (.ok p, g')) :
    Books [] (⟨p, [], none⟩ : Moment κ) ∧ Orderly (⟨p, [], none⟩ : Moment κ) := by
  obtain ⟨hstats, hflags, -⟩ := fresh_openPort hopen
  refine ⟨⟨fun index => ?_, ?_, ?_, ?_, ?_⟩, ⟨fun index => ?_, ?_, ?_⟩⟩
  · simp [Fate.after?, fate, waiting, hflags]
  all_goals simp [callsRunning, waiting, hstats]

/-- What is known of a moment and of the events until then. -/
structure Accounted (es : List (Event κ)) (m : Moment κ) : Prop where
  books : m.Books es
  callbacks_le : m.port.stats.callbacks ≤ m.port.stats.edges
  /-- Where no call waits or is being made, every edge was told or left in a flag. -/
  idle : m.pending = [] → m.running = none →
    m.port.stats.edges = m.port.stats.callbacks + es.countP Event.isLeft
  /-- A call that waits is made if its turn comes exactly if its callback is still the one that the
  edges of the input are told to. -/
  current : ∀ c ∈ m.pending,
    (c.isCurrent m.port = true ↔ m.port.targetOf? c.index = some c.target)

/-- Every moment of every trace from the opening of a port on is accounted for. -/
theorem accounted_of_trace {β : Type} [Backend β] {pins : List InputPin} {settings : InputSettings}
    {now : Nat} {g g' : Gpio β} {p : InputPort κ}
    (hopen : (openPort pins settings now).run g = (.ok p, g')) {es : List (Event κ)} {m : Moment κ}
    (htrace : Trace ⟨p, [], none⟩ es m) : m.Accounted es := by
  obtain ⟨hempty, hclear⟩ := books_openPort hopen
  have hm : m.Books es := (htrace.books hempty hclear).1
  have hbalance := hm.balance
  refine ⟨hm, by omega, fun hpending hrunning => ?_, fun c hc =>
    (htrace.distinct (distinct_openPort hopen)).isCurrent_iff hc⟩
  simp only [Moment.callsRunning, hpending, hrunning, Option.isSome_none, Bool.false_eq_true,
    if_false, List.length_nil] at hbalance
  omega

end Moment

/-- From the opening of a port on, the account of every edge is in order at every moment. This holds
of all traces, whatever calls are made on the port between any two steps. It holds of every
chronicle, with the events of its own cycles and calls: after each of them, and within the next
cycle before every call and inside every callback, after any number of the calls that the callback
makes. The callbacks that the world sees called are those of the events, and every session has a
chronicle. -/
theorem edges_accounted {β : Type} [Backend β] {pins : List InputPin} {settings : InputSettings}
    {now : Nat} {g g' : Gpio β} {p : InputPort κ}
    (hopen : (InputPort.openPort pins settings now).run g = (.ok p, g')) :
    (∀ (es : List (Event κ)) (m : Moment κ), Trace ⟨p, [], none⟩ es m → m.Accounted es) ∧
      ∀ {ε : Type} (log : ε → List (κ × Occasion)) (w₀ : ε),
        (∀ d : Desk κ ε, Desk.Session log ⟨p, w₀⟩ d → ∃ es, Desk.Chronicle log ⟨p, w₀⟩ es d) ∧
          ∀ (es : List (Event κ)) (d : Desk κ ε), Desk.Chronicle log ⟨p, w₀⟩ es d →
            Moment.Accounted es ⟨d.port, [], none⟩ ∧
              log d.around = log w₀ ++ Event.invocations es ∧
                ∀ (s : Surroundings ε) (invoke : Invoke κ ε) (conduct : Desk.Conduct κ ε)
                  (x : Sight) (w : ε), Desk.Witnesses log s invoke →
                    Desk.Follows conduct invoke → Desk.Sees s d.port d.around x w →
                      ∀ es' m, Desk.Amid s invoke conduct d x w es' m →
                        m.Accounted (es ++ es') := by
  refine ⟨fun es m htrace => Moment.accounted_of_trace hopen htrace, fun log w₀ =>
    ⟨fun d hsession => hsession.chronicle, fun es d hrun => ?_⟩⟩
  obtain ⟨htrace, hseen⟩ := hrun.trace
  refine ⟨Moment.accounted_of_trace hopen htrace, hseen, ?_⟩
  intro s invoke conduct x w hlog hfollows hsees es' m hamid
  exact Moment.accounted_of_trace hopen (htrace.trans (hamid.trace hlog hfollows hsees))

def pairGpio : Gpio Sim := ⟨.create ⟨"two", [some 0, some 1], []⟩ {} 2, .fresh 2, []⟩

def openPair : Act (Gpio Sim) (InputPort Unit) :=
  InputPort.openPort [{ pin := 0 }, { pin := 1 }] {} 0

def pairPort : InputPort Unit where
  inputs := [{ pin := { pin := 0 }, mcu := 0, level := false },
    { pin := { pin := 1 }, mcu := 1, level := false }]
  settings := {}
  throttle := .begin InputPort.reportWindowMs InputPort.reportCap 0

theorem run_openPair : openPair.run pairGpio = (.ok pairPort, (openPair.run pairGpio).2) := by
  have hport : (openPair.run pairGpio).1 = .ok pairPort := rfl
  rw [← hport]

/-- The port with a callback for the edges of both inputs. -/
def pairReady : InputPort Unit :=
  pairPort.afterAll [.setEdge 0 .both, .setEdge 1 .both, .callback (.install 0 ()),
    .callback (.install 1 ())]

/-- A world with a list of the raw levels that are still to be read, and one of the calls that it
has seen. Where there is no level left, reading fails. -/
abbrev Readings : Type := List Bool × List (Unit × Occasion)

def readings : Surroundings Readings where
  read _ := fun w =>
    match w.1 with
    | high :: rest => (.ok high, (rest, w.2))
    | [] => (.error (.error (.io (.other "no level"))), w)
  pause _ w := w
  now _ := 0
  note _ w := w

theorem readings_witnessed {invoke : Invoke Unit Readings}
    (h : ∀ action occasion d,
      (invoke action occasion d).2.around.2 = d.around.2 ++ [(action, occasion)]) :
    Desk.Witnesses Prod.snd readings invoke where
  read mcu w := by
    rcases w with ⟨_ | _, _⟩ <;> rfl
  pause _ _ := rfl
  note _ _ := rfl
  invoke := h

/-- Whoever is called takes away the callback of the second input. -/
def clearSecond : Invoke Unit Readings := fun action occasion d =>
  (none, ⟨d.port.after (.callback (.uninstall 1)), (d.around.1, d.around.2 ++ [(action, occasion)])⟩)

def clearsSecond : Desk.Conduct Unit Readings := fun _ _ _ => [.callback (.uninstall 1)]

/-- Both levels have risen. -/
def pairRising : Desk Unit Readings := ⟨pairReady, ([true, true], [])⟩

def pairTold : Desk Unit Readings := ((Desk.poll readings clearSecond).run pairRising).2

/-- Both inputs rise, and the first callback takes the second away: one edge is told, the other is
left in the flag. While the first callback runs, the call of the second waits and is not to be made.
-/
theorem edges_accounted_cleared :
    openPair.run pairGpio = (.ok pairPort, (openPair.run pairGpio).2) ∧
      ∃ (es : List (Event Unit)), Desk.Chronicle Prod.snd ⟨pairPort, ([true, true], [])⟩ es
          pairTold ∧
        Moment.Accounted es ⟨pairTold.port, [], none⟩ ∧ pairTold.port.stats.edges = 2 ∧
          pairTold.port.stats.callbacks = 1 ∧ es.countP Event.isLeft = 1 ∧
            pairTold.port.flagOf 1 = some .rising ∧
              pairTold.around.2 = [((), .single .rising)] ∧
                ∃ (es' : List (Event Unit)) (m : Moment Unit),
                  Desk.Amid readings clearSecond clearsSecond pairRising (.once [true, true])
                    ([], []) es' m ∧
                  m.Accounted es' ∧ m.running.isSome = true ∧
                    m.pending = [⟨1, .rising, .own ⟨1, ()⟩⟩] ∧ m.port.targetOf? 1 = none := by
  have hlog : Desk.Witnesses Prod.snd readings clearSecond := readings_witnessed fun _ _ _ => rfl
  have hfollows : Desk.Follows clearsSecond clearSecond := fun _ _ _ => rfl
  have hready : Desk.Chronicle Prod.snd ⟨pairPort, ([true, true], [])⟩ [] pairRising :=
    (((Desk.Chronicle.start.call (.setEdge 0 .both)).call (.setEdge 1 .both)).call
      (.callback (.install 0 ()))).call (.callback (.install 1 ()))
  have hread : (Act.collect readings.read pairRising.port.chipPins).run pairRising.around =
      (.ok [true, true], ([], [])) := rfl
  have hsees : Desk.Sees readings pairRising.port pairRising.around (.once [true, true]) ([], []) :=
    .once hread (by decide) rfl
  obtain ⟨-, hruns⟩ := edges_accounted run_openPair
  obtain ⟨-, hchronicle⟩ := hruns Prod.snd ([true, true], [])
  obtain ⟨hcleared, -, -⟩ := hchronicle _ _ (hready.poll hlog hfollows hsees)
  obtain ⟨-, -, hwithin⟩ := hchronicle _ _ hready
  have hamid : Desk.Amid readings clearSecond clearsSecond pairRising (.once [true, true]) ([], [])
      _ _ := .turn rfl rfl (.inside _ _ _ rfl [.callback (.uninstall 1)] [] rfl)
  have hinside := hwithin _ _ _ _ _ hlog hfollows hsees _ _ hamid
  refine ⟨run_openPair, _, hready.poll hlog hfollows hsees, hcleared, rfl, rfl, ?_, rfl, rfl, _, _,
    hamid, hinside, rfl, rfl, rfl⟩
  have hbalance := hcleared.idle rfl rfl
  exact Nat.add_left_cancel (hbalance.symm.trans rfl)

end BoardGpio
