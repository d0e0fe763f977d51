import BoardGpio.Proofs.Act.Invariant

/-!
# Actions that match

Two actions on states of two kinds match under a relation of the states if from related states they
end with the same result and leave related states. Every way of building an action from matching
parts gives matching actions. An invariant of one action is a match of the action with itself, on
equal states that satisfy the invariant (`Matches.keeps`).
-/

set_option autoImplicit false

namespace BoardGpio.Act

variable {σ τ σ' τ' α β : Type} {R : σ → τ → Prop}

/-- From these two states the actions end alike and leave related states. -/
def MatchesAt (R : σ → τ → Prop) (x : Act σ α) (y : Act τ α) (s : σ) (t : τ) : Prop :=
  (x.run s).1 = (y.run t).1 ∧ R (x.run s).2 (y.run t).2

/-- From related states the actions end alike and leave related states. -/
def Matches (R : σ → τ → Prop) (x : Act σ α) (y : Act τ α) : Prop :=
  ∀ s t, R s t → MatchesAt R x y s t

theorem Matches.pure (a : α) : Matches R (pure a) (pure a) := fun _ _ h => ⟨rfl, h⟩

theorem Matches.fail (e : Error) : Matches R (fail e : Act σ α) (fail e) := fun _ _ h => ⟨rfl, h⟩

theorem Matches.lift (x : Except Error α) : Matches R (lift x) (lift x) := by
  cases x with
  | ok a => exact Matches.pure a
  | error e => exact Matches.fail e

theorem Matches.gets {f : σ → α} {g : τ → α} (h : ∀ s t, R s t → f s = g t) :
    Matches R (gets f) (gets g) := fun s t hst => ⟨congrArg Except.ok (h s t hst), hst⟩

theorem Matches.modify {f : σ → σ} {g : τ → τ} (h : ∀ s t, R s t → R (f s) (g t)) :
    Matches R (modify f) (modify g) := fun s t hst => ⟨rfl, h s t hst⟩

/-- Actions in turn match from two states if the first match there, and the next match from
whatever states these leave. -/
theorem MatchesAt.bind {x : Act σ α} {y : Act τ α} {f : α → Act σ β} {g : α → Act τ β} {s : σ}
    {t : τ} (hx : MatchesAt R x y s t)
    (hf : ∀ a s' t', x.run s = (.ok a, s') → y.run t = (.ok a, t') → R s' t' →
      MatchesAt R (f a) (g a) s' t') :
    MatchesAt R (x >>= f) (y >>= g) s t := by
  obtain ⟨hres, hrel⟩ := hx
  unfold MatchesAt
  rw [run_bind, run_bind]
  rcases hxs : x.run s with ⟨e | a, s'⟩ <;> rcases hyt : y.run t with ⟨e' | a', t'⟩ <;>
    rw [hxs, hyt] at hres hrel
  · cases hres
    exact ⟨rfl, hrel⟩
  · cases hres
  · cases hres
  · cases hres
    exact hf a s' t' hxs hyt hrel

theorem Matches.bind {x : Act σ α} {y : Act τ α} {f : α → Act σ β} {g : α → Act τ β}
    (hx : Matches R x y) (hf : ∀ a, Matches R (f a) (g a)) : Matches R (x >>= f) (y >>= g) :=
  fun s t h => MatchesAt.bind (hx s t h) fun a s' t' _ _ h' => hf a s' t' h'

theorem MatchesAt.map {x : Act σ α} {y : Act τ α} {s : σ} {t : τ} (f : α → β)
    (hx : MatchesAt R x y s t) : MatchesAt R (f <$> x) (f <$> y) s t := by
  rw [← bind_pure_comp, ← bind_pure_comp]
  exact hx.bind fun a s' t' _ _ h' => Matches.pure (f a) s' t' h'

theorem Matches.map {x : Act σ α} {y : Act τ α} (f : α → β) (hx : Matches R x y) :
    Matches R (f <$> x) (f <$> y) := fun s t h => (hx s t h).map f

theorem Matches.attempt {x : Act σ α} {y : Act τ α} (hx : Matches R x y) :
    Matches R (attempt x) (attempt y) := by
  intro s t h
  obtain ⟨hres, hrel⟩ := hx s t h
  unfold MatchesAt
  rw [run_attempt, run_attempt]
  rcases hxs : x.run s with ⟨(_ | _) | _, s'⟩ <;> rcases hyt : y.run t with ⟨(_ | _) | _, t'⟩ <;>
    rw [hxs, hyt] at hres hrel <;> cases hres <;> exact ⟨rfl, hrel⟩

theorem Matches.each {f : α → Act σ Unit} {g : α → Act τ Unit} (hf : ∀ a, Matches R (f a) (g a))
    (as : List α) : Matches R (each f as) (each g as) := by
  induction as with
  | nil => exact Matches.pure ()
  | cons a as ih => exact (hf a).bind fun _ => ih

theorem Matches.collect {f : α → Act σ β} {g : α → Act τ β} (hf : ∀ a, Matches R (f a) (g a))
    (as : List α) : Matches R (collect f as) (collect g as) := by
  induction as with
  | nil => exact Matches.pure []
  | cons a as ih => exact (hf a).bind fun b => ih.bind fun bs => Matches.pure (b :: bs)

/-- Actions whose values are alike, as far as `φ` tells, may be followed by what matches for such
values. -/
theorem Matches.bind_map {γ : Type} {φ : α → γ} {x : Act σ α} {y : Act τ α} {f : α → Act σ β}
    {g : α → Act τ β} (hx : Matches R (φ <$> x) (φ <$> y))
    (hf : ∀ a b, φ a = φ b → Matches R (f a) (g b)) : Matches R (x >>= f) (y >>= g) := by
  intro s t h
  obtain ⟨hres, hrel⟩ := hx s t h
  rw [run_map, run_map] at hres hrel
  unfold MatchesAt
  rw [run_bind, run_bind]
  rcases hxs : x.run s with ⟨e | a, s'⟩ <;> rcases hyt : y.run t with ⟨e' | b, t'⟩ <;>
    rw [hxs, hyt] at hres hrel
  · cases hres
    exact ⟨rfl, hrel⟩
  · cases hres
  · cases hres
  · exact hf a b (Except.ok.inj hres) s' t' hrel

/-- Values are collected alike from lists whose elements give alike values one by one. -/
theorem Matches.collect_map {γ : Type} {P : α → α → Prop} {φ : β → γ} {f : α → Act σ β}
    {g : α → Act τ β} (hf : ∀ a b, P a b → Matches R (φ <$> f a) (φ <$> g b)) {as bs : List α}
    (h : List.Forall₂ P as bs) :
    Matches R (List.map φ <$> Act.collect f as) (List.map φ <$> Act.collect g bs) := by
  induction h with
  | nil => exact Matches.pure []
  | cons hab _ ih =>
    simp only [Act.collect, map_bind, map_pure, List.map_cons]
    refine Matches.bind_map (hf _ _ hab) fun c d hcd => ?_
    refine Matches.bind_map ih fun cs ds hcds => ?_
    rw [hcd, hcds]
    exact Matches.pure _

theorem map_orCleanUp (f : α → β) (x : Act σ α) (clean : Act σ Unit) :
    f <$> Act.orCleanUp x clean = Act.orCleanUp (f <$> x) clean := by
  funext s
  show (f <$> Act.orCleanUp x clean).run s = (Act.orCleanUp (f <$> x) clean).run s
  rw [run_map, run_orCleanUp, run_orCleanUp, run_map]
  rcases x.run s with ⟨_ | _, _⟩ <;> rfl

theorem Matches.orCleanUp {x : Act σ α} {y : Act τ α} {c : Act σ Unit} {d : Act τ Unit}
    (hx : Matches R x y) (hc : Matches R c d) :
    Matches R (Act.orCleanUp x c) (Act.orCleanUp y d) := by
  intro s t h
  obtain ⟨hres, hrel⟩ := hx s t h
  unfold MatchesAt
  rw [run_orCleanUp, run_orCleanUp]
  rcases hxs : x.run s with ⟨e | a, s'⟩ <;> rcases hyt : y.run t with ⟨e' | b, t'⟩ <;>
    rw [hxs, hyt] at hres hrel <;> cases hres
  · exact ⟨rfl, (hc s' t' hrel).2⟩
  · exact ⟨rfl, hrel⟩

/-- What is done to parts of the states matches if it does so on the parts, and related parts put
back give related states. -/
theorem Matches.within {part : σ → σ'} {put : σ' → σ → σ} {part' : τ → τ'} {put' : τ' → τ → τ}
    {Q : σ' → τ' → Prop} {x : Act σ' α} {y : Act τ' α} (hx : Matches Q x y)
    (hpart : ∀ s t, R s t → Q (part s) (part' t))
    (hput : ∀ s t p q, R s t → Q p q → R (put p s) (put' q t)) :
    Matches R (within part put x) (within part' put' y) := by
  intro s t h
  obtain ⟨hres, hrel⟩ := hx _ _ (hpart s t h)
  exact ⟨hres, hput s t _ _ h hrel⟩

/-- A match of an action with itself on equal states keeps what is true of the states. -/
theorem Matches.keeps {I : σ → Prop} {x : Act σ α}
    (hx : Matches (fun s t => s = t ∧ I s) x x) : x.Keeps I := fun s hs =>
  (hx s s ⟨rfl, hs⟩).2.2

/-- What keeps an invariant matches itself on equal states that satisfy it. -/
theorem Keeps.matches {I : σ → Prop} {x : Act σ α} (hx : x.Keeps I) :
    Matches (fun s t => s = t ∧ I s) x x := by
  rintro s t ⟨rfl, hs⟩
  exact ⟨rfl, rfl, hx s hs⟩

end BoardGpio.Act
