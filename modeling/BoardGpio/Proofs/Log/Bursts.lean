import BoardGpio.Log.Throttle

/-!
# Bursts of records

A throttle has room for `cap` records in each of its windows. A record that is let through takes one
place, and only a new window gives room again (`passed_add_room`). A window begins later than the
time the one before it lasts, so a stretch of time that is no longer than a window meets at most two
of them (`passed_le_room_add_cap`), and at most twice the cap is let through in it. Every record that
is asked for is let through, was counted among those that were taken, or is still counted as refused
(`asked_add_suppressed`).
-/

set_option autoImplicit false

namespace BoardGpio.Throttle

variable {t : Throttle} {p : Nat → Bool}

/-! ## What is counted -/

/-- Whether a record was let through. -/
def Answer.passes (a : Answer) : Bool := decide (a = .allowed true)

/-- The number of refused records that an answer tells. -/
def Answer.told : Answer → Nat
  | allowed _ => 0
  | taken n => n

/-- The number of refused records that answers tell together. -/
def told : List Answer → Nat
  | [] => 0
  | a :: answers => a.told + told answers

/-- How many records were let through at marks that pass a test; every answer has one mark. -/
def passed (p : Nat → Bool) (marks : List Nat) (answers : List Answer) : Nat :=
  (marks.zip answers).countP fun (mark, a) => p mark && a.passes

/-- How many records were asked for. -/
def asked (calls : List (Nat × Call)) : Nat :=
  calls.countP fun c => decide (c.2 = .allow)

/-- When the window began that each call falls into. -/
def windows (t : Throttle) : List (Nat × Call) → List Nat
  | [] => []
  | (now, call) :: rest =>
    let t := (t.perform now call).2
    t.start :: t.windows rest

/-- Length of a window in ticks. -/
def span (t : Throttle) : Nat := t.windowMs * t.ticks

/-- How many more records fit into the current window. -/
def room (t : Throttle) : Nat := t.cap - t.count

theorem room_le_cap (t : Throttle) : t.room ≤ t.cap := Nat.sub_le _ _

@[simp] theorem passed_nil (p : Nat → Bool) (marks : List Nat) : passed p marks [] = 0 := by
  simp [passed]

theorem passed_cons (p : Nat → Bool) (mark : Nat) (marks : List Nat) (a : Answer)
    (answers : List Answer) :
    passed p (mark :: marks) (a :: answers) =
      passed p marks answers + (p mark && a.passes).toNat := by
  rw [passed, List.zip_cons_cons, List.countP_cons]
  show _ + (if (p mark && a.passes) = true then 1 else 0) = _
  cases p mark && a.passes <;> rfl

/-- Where no mark passes the test, nothing is counted. -/
theorem passed_eq_zero {marks : List Nat} (h : ∀ mark ∈ marks, p mark = false)
    (answers : List Answer) : passed p marks answers = 0 := by
  rw [passed, List.countP_eq_zero]
  intro x hx
  have hmark := h x.1 (List.of_mem_zip hx).1
  simp [hmark]

/-! ## One call -/

/-- The throttle in the window that a call falls into. Only asking for a record begins a window. -/
def entered (t : Throttle) (now : Nat) : Call → Throttle
  | .allow => t.roll now
  | .take => t

/-- A window that is over began longer ago than a window lasts, and the new one begins now. -/
theorem entered_cases (t : Throttle) (now : Nat) (call : Call) :
    t.entered now call = t ∨
      t.start + t.span < now ∧ t.entered now call = { t with start := now, count := 0 } := by
  cases call with
  | take => exact .inl rfl
  | allow =>
    show t.roll now = t ∨ _ ∧ t.roll now = _
    unfold roll
    split
    · rename_i helapsed
      refine .inr ⟨?_, rfl⟩
      have hlong : t.windowMs < (now - t.start) / t.ticks :=
        Nat.lt_of_lt_of_le helapsed (Nat.mod_le _ _)
      have hticks : 0 < t.ticks := by
        rcases Nat.eq_zero_or_pos t.ticks with h | h
        · simp [h] at hlong
        · exact h
      have hmul : (t.windowMs + 1) * t.ticks ≤ now - t.start := Nat.mul_le_of_le_div _ _ _ hlong
      rw [Nat.succ_mul] at hmul
      unfold span
      omega
    · exact .inl rfl

/-- Until a window is over, calls fall into it. -/
theorem entered_within {now : Nat} (h : now ≤ t.start + t.span) (call : Call) :
    t.entered now call = t := by
  rcases t.entered_cases now call with hentered | ⟨hover, -⟩
  · exact hentered
  · omega

theorem cap_entered (t : Throttle) (now : Nat) (call : Call) :
    (t.entered now call).cap = t.cap := by
  rcases t.entered_cases now call with h | ⟨-, h⟩ <;> rw [h]

theorem span_entered (t : Throttle) (now : Nat) (call : Call) :
    (t.entered now call).span = t.span := by
  rcases t.entered_cases now call with h | ⟨-, h⟩ <;> rw [h]
  rfl

theorem suppressed_entered (t : Throttle) (now : Nat) (call : Call) :
    (t.entered now call).suppressed = t.suppressed := by
  rcases t.entered_cases now call with h | ⟨-, h⟩ <;> rw [h]

/-- A call changes the two counts only, once its window has been entered. -/
theorem perform_frame (t : Throttle) (now : Nat) (call : Call) :
    (t.perform now call).2.start = (t.entered now call).start ∧
      (t.perform now call).2.cap = t.cap ∧ (t.perform now call).2.span = t.span := by
  rw [← cap_entered t now call, ← span_entered t now call]
  cases call with
  | take => exact ⟨rfl, rfl, rfl⟩
  | allow =>
    show (t.allow now).2.start = (t.roll now).start ∧ (t.allow now).2.cap = (t.roll now).cap ∧
      (t.allow now).2.span = (t.roll now).span
    unfold allow
    dsimp only
    split <;> exact ⟨rfl, rfl, rfl⟩

/-- A record that is let through takes one place of its window. Counting stops only beyond the cap,
so a window that is full stays full. -/
theorem passes_add_room (hcap : t.cap < countMax) (now : Nat) (call : Call) :
    (t.perform now call).1.passes.toNat + (t.perform now call).2.room =
      (t.entered now call).room := by
  cases call with
  | take => exact Nat.zero_add _
  | allow =>
    have hcap' : (t.roll now).cap < countMax := by
      have hsame : (t.roll now).cap = t.cap := cap_entered t now .allow
      omega
    show (decide (Answer.allowed (t.allow now).1 = .allowed true)).toNat + (t.allow now).2.room =
      (t.roll now).room
    unfold allow room
    dsimp only
    split
    · simp only [decide_true, Bool.toNat_true]
      omega
    · simp
      omega

/-- A record that is asked for is let through or counted as refused, and the count is told when it
is taken. -/
theorem asked_perform (t : Throttle) (now : Nat) (call : Call) :
    (decide (call = .allow)).toNat + t.suppressed =
      (t.perform now call).1.passes.toNat + (t.perform now call).1.told +
        (t.perform now call).2.suppressed := by
  cases call with
  | take =>
    show 0 + t.suppressed = 0 + t.suppressed + 0
    rfl
  | allow =>
    have hsame : (t.roll now).suppressed = t.suppressed := suppressed_entered t now .allow
    show 1 + t.suppressed = (decide (Answer.allowed (t.allow now).1 = .allowed true)).toNat + 0 +
      (t.allow now).2.suppressed
    unfold allow
    dsimp only
    split
    · simp only [decide_true, Bool.toNat_true]
      omega
    · simp
      omega

theorem history_cons (t : Throttle) (now : Nat) (call : Call) (rest : List (Nat × Call)) :
    t.history ((now, call) :: rest) =
      ((t.perform now call).1 :: ((t.perform now call).2.history rest).1,
        ((t.perform now call).2.history rest).2) := rfl

/-! ## Runs of calls -/

/-- Every record that was asked for was let through, was told among the refused ones, or is still
counted. -/
theorem asked_add_suppressed (t : Throttle) (calls : List (Nat × Call)) :
    asked calls + t.suppressed =
      (t.history calls).1.countP Answer.passes + told (t.history calls).1 +
        (t.history calls).2.suppressed := by
  induction calls generalizing t with
  | nil => rfl
  | cons c rest ih =>
    obtain ⟨now, call⟩ := c
    have hone := asked_perform t now call
    have hrest := ih (t.perform now call).2
    have hasked : asked ((now, call) :: rest) = asked rest + (decide (call = .allow)).toNat := by
      rw [asked, List.countP_cons]
      cases call <;> rfl
    rw [hasked, history_cons, List.countP_cons, told]
    cases hpasses : (t.perform now call).1.passes <;> simp [hpasses] at hone ⊢ <;> omega

/-- What the first of some calls adds to the records that were let through. -/
theorem passed_history_cons (p : Nat → Bool) (mark : Nat) (marks : List Nat) (t : Throttle)
    (now : Nat) (call : Call) (rest : List (Nat × Call)) :
    passed p (mark :: marks) (t.history ((now, call) :: rest)).1 =
      passed p marks ((t.perform now call).2.history rest).1 +
        (p mark && (t.perform now call).1.passes).toNat := by
  rw [history_cons, passed_cons]

theorem toNat_and_le (a b : Bool) : (a && b).toNat ≤ b.toNat := by
  cases a <;> simp

/-- Calls after the time that a test is about count for nothing. -/
theorem passed_of_later {hi now : Nat} {calls : List (Nat × Call)} {call : Call}
    (hp : ∀ time, p time = true → time ≤ hi) (hnow : hi < now)
    (hlater : ∀ time ∈ calls.map Prod.fst, now ≤ time) (answers : List Answer) :
    passed p (((now, call) :: calls).map Prod.fst) answers = 0 := by
  apply passed_eq_zero
  intro time htime
  have hle : now ≤ time := by
    rcases List.mem_cons.mp htime with rfl | hmem
    · exact Nat.le_refl _
    · exact hlater time hmem
  cases hpass : p time with
  | false => rfl
  | true =>
    have hbound := hp time hpass
    omega

/-- As long as the current window lasts, no more is let through than it has room for. -/
theorem passed_le_room {hi : Nat} (hp : ∀ time, p time = true → time ≤ hi)
    (calls : List (Nat × Call)) (hordered : (calls.map Prod.fst).Pairwise (· ≤ ·))
    (hcap : t.cap < countMax) (hwindow : hi ≤ t.start + t.span) :
    passed p (calls.map Prod.fst) (t.history calls).1 ≤ t.room := by
  induction calls generalizing t with
  | nil => simp [history]
  | cons c rest ih =>
    obtain ⟨now, call⟩ := c
    obtain ⟨hlater, hrest⟩ := List.pairwise_cons.mp hordered
    by_cases hnow : now ≤ hi
    · obtain ⟨hstart, hsameCap, hspan⟩ := perform_frame t now call
      have hroom := passes_add_room hcap now call
      rw [entered_within (by omega)] at hstart hroom
      have htail := ih hrest (t := (t.perform now call).2) (by omega) (by omega)
      have hone := toNat_and_le (p now) (t.perform now call).1.passes
      rw [List.map_cons, passed_history_cons p now]
      omega
    · rw [passed_of_later hp (by omega) hlater]
      exact Nat.zero_le _

/-- A stretch of time that is no longer than a window meets the window it begins in and at most one
more. -/
theorem passed_le_room_add_cap {lo : Nat} (hp : ∀ time, p time = true → time ≤ lo + t.span)
    (calls : List (Nat × Call)) (hordered : (calls.map Prod.fst).Pairwise (· ≤ ·))
    (hlo : ∀ time ∈ calls.map Prod.fst, lo ≤ time) (hcap : t.cap < countMax) :
    passed p (calls.map Prod.fst) (t.history calls).1 ≤ t.room + t.cap := by
  induction calls generalizing t with
  | nil => simp [history]
  | cons c rest ih =>
    obtain ⟨now, call⟩ := c
    obtain ⟨hlater, hrest⟩ := List.pairwise_cons.mp hordered
    have hlonow : lo ≤ now := hlo now List.mem_cons_self
    by_cases hnow : now ≤ lo + t.span
    · obtain ⟨hstart, hsameCap, hspan⟩ := perform_frame t now call
      have hroom := passes_add_room hcap now call
      have hone := toNat_and_le (p now) (t.perform now call).1.passes
      rw [List.map_cons, passed_history_cons p now]
      rcases t.entered_cases now call with hentered | ⟨-, hentered⟩
      · -- The call falls into the window before it.
        rw [hentered] at hroom
        have htail := ih (t := (t.perform now call).2) (by rwa [hspan]) hrest
          (fun time htime => hlo time (List.mem_cons_of_mem _ htime)) (by omega)
        omega
      · -- The call begins a window, which lasts to the end of the stretch.
        rw [hentered] at hstart hroom
        have hnew : (t.perform now call).2.start = now := hstart
        have htail := passed_le_room (t := (t.perform now call).2) hp rest hrest (by omega)
          (by omega)
        have hempty : ({ t with start := now, count := 0 } : Throttle).room = t.cap := rfl
        omega
    · rw [passed_of_later hp (by omega) hlater]
      exact Nat.zero_le _

/-- A stretch of time that is no longer than a window lets at most twice the cap through. -/
theorem passed_le_two_mul_cap (lo : Nat)
    (hp : ∀ time, p time = true → lo ≤ time ∧ time ≤ lo + t.span)
    (calls : List (Nat × Call)) (hordered : (calls.map Prod.fst).Pairwise (· ≤ ·))
    (hcap : t.cap < countMax) :
    passed p (calls.map Prod.fst) (t.history calls).1 ≤ 2 * t.cap := by
  induction calls generalizing t with
  | nil => simp [history]
  | cons c rest ih =>
    obtain ⟨now, call⟩ := c
    obtain ⟨hlater, hrest⟩ := List.pairwise_cons.mp hordered
    by_cases hnow : lo ≤ now
    · have hlo : ∀ time ∈ ((now, call) :: rest).map Prod.fst, lo ≤ time := by
        intro time htime
        rcases List.mem_cons.mp htime with rfl | hmem
        · exact hnow
        · exact Nat.le_trans hnow (hlater time hmem)
      have hbound := passed_le_room_add_cap (fun time h => (hp time h).2) _ hordered hlo hcap
      have hroom := t.room_le_cap
      omega
    · obtain ⟨-, hsameCap, hspan⟩ := perform_frame t now call
      have hearly : p now = false := by
        cases hpass : p now with
        | false => rfl
        | true => exact absurd (hp now hpass).1 hnow
      have htail := ih (t := (t.perform now call).2) (by rwa [hspan]) hrest (by omega)
      rw [List.map_cons, passed_history_cons p now, hearly, Bool.false_and, Bool.toNat_false]
      omega

/-! ## One window -/

theorem start_le_of_mem_windows (calls : List (Nat × Call)) :
    ∀ begun ∈ t.windows calls, t.start ≤ begun := by
  induction calls generalizing t with
  | nil => simp [windows]
  | cons c rest ih =>
    obtain ⟨now, call⟩ := c
    have hstart : t.start ≤ (t.perform now call).2.start := by
      rw [(perform_frame t now call).1]
      rcases t.entered_cases now call with hentered | ⟨hover, hentered⟩
      · exact Nat.le_of_eq (congrArg Throttle.start hentered.symm)
      · have hnow : (t.entered now call).start = now := congrArg Throttle.start hentered
        omega
    intro begun hbegun
    rcases List.mem_cons.mp hbegun with rfl | hmem
    · exact hstart
    · exact Nat.le_trans hstart (ih begun hmem)

/-- The current window lets no more through than it has room for. -/
theorem passed_current_le_room (calls : List (Nat × Call)) (hcap : t.cap < countMax) :
    passed (fun begun => decide (begun = t.start)) (t.windows calls) (t.history calls).1 ≤
      t.room := by
  induction calls generalizing t with
  | nil => simp [history]
  | cons c rest ih =>
    obtain ⟨now, call⟩ := c
    obtain ⟨hstart, hsameCap, -⟩ := perform_frame t now call
    rcases t.entered_cases now call with hentered | ⟨hover, hentered⟩
    · have hroom := passes_add_room hcap now call
      rw [hentered] at hstart hroom
      have htail := ih (t := (t.perform now call).2) (by omega)
      rw [hstart] at htail
      have hone := toNat_and_le (decide ((t.perform now call).2.start = t.start))
        (t.perform now call).1.passes
      rw [windows, passed_history_cons]
      omega
    · -- The windows from here on have begun later.
      have hnew : (t.perform now call).2.start = now := by
        rw [hstart, hentered]
      have hnone : ∀ begun ∈ t.windows ((now, call) :: rest),
          decide (begun = t.start) = false := by
        intro begun hbegun
        have hle : now ≤ begun := by
          rcases List.mem_cons.mp hbegun with rfl | hmem
          · exact Nat.le_of_eq hnew.symm
          · exact hnew ▸ start_le_of_mem_windows rest begun hmem
        exact decide_eq_false (by omega)
      rw [passed_eq_zero hnone]
      exact Nat.zero_le _

/-- Every window lets at most the cap through. -/
theorem passed_window_le_cap (begun : Nat) (calls : List (Nat × Call)) (hcap : t.cap < countMax) :
    passed (fun b => decide (b = begun)) (t.windows calls) (t.history calls).1 ≤ t.cap := by
  induction calls generalizing t with
  | nil => simp [history]
  | cons c rest ih =>
    obtain ⟨now, call⟩ := c
    obtain ⟨-, hsameCap, -⟩ := perform_frame t now call
    rw [windows, passed_history_cons]
    by_cases hbegun : (t.perform now call).2.start = begun
    · subst hbegun
      have hroom := passes_add_room hcap now call
      have htail := passed_current_le_room (t := (t.perform now call).2) rest (by omega)
      have hone := toNat_and_le
        (decide ((t.perform now call).2.start = (t.perform now call).2.start))
        (t.perform now call).1.passes
      have hlimit := room_le_cap (t.entered now call)
      rw [cap_entered] at hlimit
      omega
    · have htail := ih (t := (t.perform now call).2) (by omega)
      rw [decide_eq_false hbegun, Bool.false_and, Bool.toNat_false]
      omega

/-- However calls come, a stretch of time that is no longer than a window lets at most twice the cap
through and a single window at most the cap, and no record goes uncounted: every one that was asked
for was let through, was told among those refused, or is still counted as refused. The last of these
counts is no larger than the number of calls. -/
theorem bursts_bounded {windowMs cap : Nat} (hcap : cap < countMax) (begun ticks : Nat)
    (calls : List (Nat × Call)) (hordered : (calls.map Prod.fst).Pairwise (· ≤ ·)) :
    (∀ lo hi, hi ≤ lo + windowMs * ticks →
        passed (fun time => decide (lo ≤ time ∧ time ≤ hi)) (calls.map Prod.fst)
          ((begin windowMs cap begun ticks).history calls).1 ≤ 2 * cap) ∧
      (∀ start, passed (fun b => decide (b = start))
        ((begin windowMs cap begun ticks).windows calls)
        ((begin windowMs cap begun ticks).history calls).1 ≤ cap) ∧
      asked calls =
        ((begin windowMs cap begun ticks).history calls).1.countP Answer.passes +
          told ((begin windowMs cap begun ticks).history calls).1 +
          ((begin windowMs cap begun ticks).history calls).2.suppressed ∧
      ((begin windowMs cap begun ticks).history calls).2.suppressed ≤ calls.length := by
  have haccount := asked_add_suppressed (begin windowMs cap begun ticks) calls
  have hasked : asked calls ≤ calls.length := List.countP_le_length
  have hnone : (begin windowMs cap begun ticks).suppressed = 0 := rfl
  refine ⟨?_, ?_, by omega, by omega⟩
  · intro lo hi hshort
    refine passed_le_two_mul_cap (t := begin windowMs cap begun ticks) lo ?_ calls hordered hcap
    intro time htime
    obtain ⟨hlo, hhi⟩ := of_decide_eq_true htime
    exact ⟨hlo, Nat.le_trans hhi hshort⟩
  · intro start
    exact passed_window_le_cap start calls hcap

/-- Calls around the end of the first window, of which the last comes too late for the second. -/
def burst : List (Nat × Call) :=
  [(9, .allow), (10, .allow), (10, .allow), (10, .take), (11, .allow), (12, .allow), (12, .allow)]

/-- Two windows next to each other are both filled within the length of one. -/
theorem bursts_bounded_met :
    passed (fun time => decide (9 ≤ time ∧ time ≤ 19)) (burst.map Prod.fst)
        ((begin 10 2 0 1).history burst).1 = 2 * 2 ∧
      passed (fun time => decide (9 ≤ time ∧ time ≤ 19)) (burst.map Prod.fst)
        ((begin 10 2 0 1).history burst).1 ≤ 2 * 2 ∧
      passed (fun b => decide (b = 11)) ((begin 10 2 0 1).windows burst)
        ((begin 10 2 0 1).history burst).1 ≤ 2 ∧
      asked burst = 6 ∧ told ((begin 10 2 0 1).history burst).1 = 1 ∧
      ((begin 10 2 0 1).history burst).2.suppressed = 1 := by
  obtain ⟨hstretch, hwindow, haccount, -⟩ :=
    @bursts_bounded 10 2 (by decide) 0 1 burst (by decide)
  have hasked : asked burst = 6 := by decide
  have hpassed : ((begin 10 2 0 1).history burst).1.countP Answer.passes = 4 := by decide
  have htold : told ((begin 10 2 0 1).history burst).1 = 1 := by decide
  exact ⟨by decide, hstretch 9 19 (by decide), hwindow 11, hasked, htold, by omega⟩

end BoardGpio.Throttle
