import BoardGpio.Json.Shape

/-!
# What a reader can give

Whatever the text: what a reader `Yields` is true of every value that it gives. Numbers stay below
their bound (`yields_natural`), and what every field keeps true of the draft of a record is true of
the draft when it is finished (`yields_record`), whether the record stands as an object or as an
array.
-/

set_option autoImplicit false

namespace BoardGpio.Json

variable {α β ρ : Type}

/-- Every value that the reader gives has a property. -/
def Yields (r : Reader α) (P : α → Prop) : Prop :=
  ∀ (cs : List Char) (a : α) (rest : List Char), r.run cs = .ok (a, rest) → P a

variable {P : α → Prop} {Q : β → Prop}

theorem yields_true (r : Reader α) : Yields r fun _ => True := by
  intro cs a rest _
  trivial

theorem yields_pure {a : α} (ha : P a) : Yields (pure a) P := by
  intro cs b rest h
  cases h
  exact ha

theorem yields_malformed : Yields Reader.malformed P := by
  intro cs a rest h
  cases h

theorem yields_mismatch (m : Mismatch) : Yields (Reader.mismatch m) P := by
  intro cs a rest h
  cases h

theorem Yields.bind {x : Reader α} {f : α → Reader β} (hx : Yields x P)
    (hf : ∀ a, P a → Yields (f a) Q) : Yields (x >>= f) Q := by
  intro cs b rest h
  rw [StateT.run_bind] at h
  cases hrun : x.run cs with
  | error p =>
    rw [hrun] at h
    cases h
  | ok given =>
    obtain ⟨a, mid⟩ := given
    rw [hrun] at h
    exact hf a (hx cs a mid hrun) mid b rest h

/-- What is read first does not matter. -/
theorem Yields.after (x : Reader α) {f : α → Reader β} (hf : ∀ a, Yields (f a) Q) :
    Yields (x >>= f) Q :=
  (yields_true x).bind fun a _ => hf a

theorem Yields.map {r : Reader α} {f : α → β} (h : Yields r P) (hf : ∀ a, P a → Q (f a)) :
    Yields (f <$> r) Q := by
  rw [map_eq_pure_bind]
  exact h.bind fun a ha => yields_pure (hf a ha)

/-- However the value is named, a value of the wrong type is refused. -/
theorem yields_wrongType (expected : String) : Yields (Reader.wrongType expected) P := by
  have hend : ∀ found, Yields (Reader.mismatch (.wrongType found expected)) P :=
    fun found => yields_mismatch _
  apply Yields.after
  intro next
  dsimp only
  split
  · exact .after _ fun _ => .after _ fun _ => .after _ hend
  · exact .after _ fun _ => .after _ fun _ => .after _ hend
  · exact .after _ fun _ => .after _ fun _ => .after _ hend
  · exact .after _ fun _ => .after _ fun _ => .after _ hend
  · exact .after _ fun _ => .after _ fun _ => .after _ hend
  · exact .after _ hend
  · exact .after _ hend
  · split
    · exact .after _ fun _ => .after _ hend
    · exact .after _ hend
  · exact .after _ hend

/-! ## Single values -/

/-- A number that is read is in bounds, or refused. -/
theorem yields_number (bound : Nat) (expected : String) (n : Number) :
    Yields (match n with
      | .natural n =>
        if n < bound then pure n else Reader.mismatch (.wrongValue (.integer n) expected)
      | .negative n => Reader.mismatch (.wrongValue (.integer n) expected)
      | .float bits => Reader.mismatch (.wrongType (.float bits) expected))
      fun n => n < bound := by
  cases n with
  | natural n =>
    by_cases hn : n < bound
    · simp only [if_pos hn]
      exact yields_pure hn
    · simp only [if_neg hn]
      exact yields_mismatch _
  | negative n => exact yields_mismatch _
  | float bits => exact yields_mismatch _

theorem yields_natural (bound : Nat) (expected : String) :
    Yields (Reader.natural bound expected) fun n => n < bound := by
  apply Yields.after
  intro next
  dsimp only
  split
  · exact .after _ fun _ => .after _ (yields_number bound expected)
  · split
    · exact .after _ (yields_number bound expected)
    · exact .after _ (yields_number bound expected)
  · exact .after _ (yields_number bound expected)

/-- The value with a name is one of those to choose from. -/
theorem mem_of_named {options : List α} {name : α → String} {key : String} {a : α}
    (h : Shape.named options name key = .ok a) : a ∈ options := by
  unfold Shape.named at h
  split at h
  · rename_i b hfind
    cases h
    exact List.mem_of_find?_eq_some hfind
  · cases h

theorem yields_named (options : List α) (name : α → String) :
    Yields (Shape.readNamed options name) fun a => a ∈ options := by
  refine Yields.after _ fun _ => Yields.after _ fun key => ?_
  split
  · rename_i a hnamed
    exact yields_pure (mem_of_named hnamed)
  · exact yields_mismatch _

theorem yields_choice (options : List α) (name : α → String) :
    Yields (Shape.readChoice options name) fun a => a ∈ options := by
  apply Yields.after
  intro next
  split
  · exact yields_named options name
  · refine Yields.after _ fun _ => Yields.after _ fun next => ?_
    split
    · exact (yields_named options name).bind fun a ha =>
        Yields.after _ fun _ => Yields.after _ fun _ => Yields.after _ fun _ => yields_pure ha
    · exact yields_malformed
  · exact yields_malformed

theorem yields_plainNatural (bound : Nat) :
    Yields (Reader.plainNatural bound) fun n => n < bound := by
  apply Yields.after
  intro next
  split
  · refine Yields.after _ fun ds => ?_
    by_cases hn : ds.foldl (fun acc d => 10 * acc + digitValue d) 0 < bound
    · simp only [if_pos hn]
      exact yields_pure hn
    · simp only [if_neg hn]
      exact yields_malformed
  · exact yields_malformed

theorem yields_optional {value : Reader α} (h : Yields value P) :
    Yields (Reader.optional value) fun o => ∀ a ∈ o, P a := by
  apply Yields.after
  intro next
  split
  · refine Yields.after _ fun _ => Yields.after _ fun _ => yields_pure ?_
    intro a ha
    cases ha
  · refine h.bind fun a ha => yields_pure ?_
    intro b hb
    cases hb
    exact ha

/-! ## Records -/

/-- What a value of the field does to a draft keeps something true of it. -/
def FieldShape.Keeps (I : ρ → Prop) (f : FieldShape ρ) : Prop :=
  Yields f.shape.read fun set => ∀ draft, I draft → I (set draft)

variable {I : ρ → Prop} {fields : List (FieldShape ρ)}

theorem yields_items (expected : String) (hfields : ∀ f ∈ fields, f.Keeps I) (first : Bool)
    (index : Nat) {draft : ρ} (hdraft : I draft) :
    Yields (FieldShape.readItems expected first index fields draft) I := by
  induction fields generalizing first index draft with
  | nil => exact yields_pure hdraft
  | cons f fs ih =>
    have hrest := ih fun f hf => hfields f (List.mem_cons_of_mem _ hf)
    apply Yields.after
    intro more
    cases more with
    | true =>
      rw [if_pos rfl]
      exact (hfields f List.mem_cons_self).bind fun set hset => hrest _ _ (hset draft hdraft)
    | false =>
      rw [if_neg (by simp)]
      split
      · exact hrest _ _ hdraft
      · exact yields_mismatch _

theorem yields_members (hfields : ∀ f ∈ fields, f.Keeps I) (fuel : Nat) (first : Bool) {draft : ρ}
    (hdraft : I draft) : Yields (FieldShape.readMembers fields fuel first draft) I := by
  induction fuel generalizing first draft with
  | zero => exact yields_malformed
  | succ fuel ih =>
    apply Yields.after
    intro more
    cases more with
    | false =>
      rw [if_neg (by simp)]
      exact yields_pure hdraft
    | true =>
      rw [if_pos rfl]
      refine Yields.after _ fun _ => Yields.after _ fun key => ?_
      split
      · rename_i f hnamed
        have hf : f ∈ fields := List.mem_of_find?_eq_some hnamed
        split
        · exact yields_mismatch _
        · refine Yields.after _ fun _ => ?_
          exact (hfields f hf).bind fun set hset => ih false (hset draft hdraft)
      · exact Yields.after _ fun _ => Yields.after _ fun _ => ih false hdraft

/-- A draft gives what it is finished to, if it can be finished. -/
theorem yields_finished {result : Except Mismatch α} (h : ∀ a, result = .ok a → P a) :
    Yields (match result with
      | .ok a => pure a
      | .error m => Reader.mismatch m) P := by
  cases result with
  | ok a => exact yields_pure (h a rfl)
  | error m => exact yields_mismatch m

theorem yields_record {name : String} {empty : ρ} {finish : ρ → Except Mismatch α}
    (hempty : I empty) (hfields : ∀ f ∈ fields, f.Keeps I)
    (hfinish : ∀ draft a, I draft → finish draft = .ok a → P a) :
    Yields (Shape.readRecord name fields empty finish) P := by
  have hend := fun draft (hdraft : I draft) => yields_finished fun a => hfinish draft a hdraft
  apply Yields.after
  intro next
  split
  · refine Yields.after _ fun _ => ?_
    refine (yields_items _ hfields true 0 hempty).bind fun draft hdraft => ?_
    exact Yields.after _ fun _ => (yields_pure hdraft).bind hend
  · refine Yields.after _ fun _ => Yields.after _ fun _ => ?_
    refine (yields_members hfields _ true hempty).bind fun draft hdraft => ?_
    exact Yields.after _ fun _ => (yields_pure hdraft).bind hend
  · exact (yields_wrongType _).bind hend
  · exact yields_malformed.bind hend

/-- What holds of every value that a reader gives holds of the value of a document. -/
theorem Yields.document {r : Reader α} (h : Yields r P) {cs : List Char} {a : α}
    (hdocument : r.document cs = .ok a) : P a := by
  unfold Reader.document at hdocument
  cases hrun : r.run cs with
  | error p =>
    rw [hrun] at hdocument
    cases hdocument
  | ok given =>
    obtain ⟨b, rest⟩ := given
    have hend : (if (skipSpace rest).isEmpty then pure b else Except.error Problem.malformed) =
        Except.ok a := by
      rw [hrun] at hdocument
      exact hdocument
    split at hend
    · cases hend
      exact h cs _ rest hrun
    · cases hend

end BoardGpio.Json
