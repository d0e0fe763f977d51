import BoardGpio.Proofs.Act.Invariant

/-!
# Errors without effect

An action that ends with an error may have changed something before. It refuses (`Refuses`) if it
does so only before it has changed anything, so that an error leaves the state as it was found. A
part of the state that does not matter is left out by looking at the state through a function `v`.
An action that asks first (`Retains`) and then refuses, refuses; so does one that refuses first and
then cannot end with an error any more (`Sure`). Breaking off with a fault is another matter
(`Calm`).
-/

set_option autoImplicit false

namespace BoardGpio.Act

variable {σ τ ω α β : Type} {v : σ → ω} {P : ω → Error → Prop}

/-- The action leaves what is seen of the state as it finds it. -/
def Retains (v : σ → ω) (x : Act σ α) : Prop :=
  ∀ s, v (x.run s).2 = v s

/-- The action ends with no error, though it may break off. -/
def Sure (x : Act σ α) : Prop :=
  ∀ s e, (x.run s).1 ≠ .error (.error e)

/-- An error of the action leaves what is seen of the state as it was, and has its reason there. -/
def Refuses (v : σ → ω) (P : ω → Error → Prop) (x : Act σ α) : Prop :=
  ∀ s e, (x.run s).1 = .error (.error e) → v (x.run s).2 = v s ∧ P (v s) e

/-- Where this is true, the action does not break off with a fault. -/
def Calm (I : σ → Prop) (x : Act σ α) : Prop :=
  ∀ s f, I s → (x.run s).1 ≠ .error (.fault f)

/-- Two actions in turn end with a failure of the first, or as the second does. -/
theorem run_bind_failing {x : Act σ α} {f : α → Act σ β} {s : σ} {e : Failure}
    (h : ((x >>= f).run s).1 = .error e) :
    (x.run s).1 = .error e ∧ ((x >>= f).run s).2 = (x.run s).2 ∨
      ∃ a t, x.run s = (.ok a, t) ∧ (x >>= f).run s = (f a).run t := by
  rw [run_bind] at h ⊢
  rcases hr : x.run s with ⟨e' | a, t⟩
  · rw [hr] at h
    cases h
    exact .inl ⟨rfl, rfl⟩
  · exact .inr ⟨a, t, rfl, rfl⟩

theorem Leaves.retains {x : Act σ α} (hx : x.Leaves) : x.Retains v := fun s =>
  congrArg v (hx s)

/-! ## Actions that end with no error -/

theorem Sure.pure (a : α) : (pure a : Act σ α).Sure := nofun

theorem Sure.gets (f : σ → α) : (gets f).Sure := nofun

theorem Sure.modify (f : σ → σ) : (modify f).Sure := nofun

theorem Sure.bind {x : Act σ α} {f : α → Act σ β} (hx : x.Sure) (hf : ∀ a, (f a).Sure) :
    (x >>= f).Sure := by
  intro s e h
  obtain ⟨hfirst, -⟩ | ⟨a, t, -, hrest⟩ := run_bind_failing h
  · exact hx s e hfirst
  · exact hf a t e (hrest ▸ h)

theorem Sure.within {part : σ → τ} {put : τ → σ → σ} {x : Act τ α} (hx : x.Sure) :
    (within part put x).Sure := fun s => hx (part s)

/-! ## Actions that refuse -/

theorem Sure.refuses {x : Act σ α} (hx : x.Sure) : x.Refuses v P := fun s e h =>
  absurd h (hx s e)

theorem Refuses.fail {e : Error} (he : ∀ s, P (v s) e) : (fail e : Act σ α).Refuses v P := by
  intro s e' h
  cases h
  exact ⟨rfl, he s⟩

/-- What asks and refuses may be followed by what refuses. -/
theorem Refuses.bind {x : Act σ α} {f : α → Act σ β} (hx : x.Refuses v P) (hsees : x.Retains v)
    (hf : ∀ a, (f a).Refuses v P) : (x >>= f).Refuses v P := by
  intro s e h
  obtain ⟨hfirst, hstate⟩ | ⟨a, t, hr, hrest⟩ := run_bind_failing h
  · rw [hstate]
    exact hx s e hfirst
  · have hsame : v t = v s := by
      rw [← hsees s, hr]
    rw [hrest] at h ⊢
    rw [← hsame]
    exact hf a t e h

/-- What refuses may be followed by what ends with no error. -/
theorem Refuses.surely {x : Act σ α} {f : α → Act σ β} (hx : x.Refuses v P)
    (hf : ∀ a, (f a).Sure) : (x >>= f).Refuses v P := by
  intro s e h
  obtain ⟨hfirst, hstate⟩ | ⟨a, t, -, hrest⟩ := run_bind_failing h
  · rw [hstate]
    exact hx s e hfirst
  · exact absurd (hrest ▸ h) (hf a t e)

theorem Refuses.map {x : Act σ α} (f : α → β) (hx : x.Refuses v P) : (f <$> x).Refuses v P := by
  rw [← bind_pure_comp]
  exact hx.surely fun a => Sure.pure (f a)

/-! ## Actions that do not break off -/

section

variable {I : σ → Prop}

theorem Calm.pure (a : α) : (pure a : Act σ α).Calm I := nofun

theorem Calm.fail (e : Error) : (fail e : Act σ α).Calm I := nofun

theorem Calm.gets (f : σ → α) : (gets f).Calm I := nofun

theorem Calm.modify (f : σ → σ) : (modify f).Calm I := nofun

theorem Calm.bind {x : Act σ α} {f : α → Act σ β} (hx : x.Calm I) (hkeeps : x.Keeps I)
    (hf : ∀ a, (f a).Calm I) : (x >>= f).Calm I := by
  intro s g hs h
  obtain ⟨hfirst, -⟩ | ⟨a, t, hr, hrest⟩ := run_bind_failing h
  · exact hx s g hs hfirst
  · have hkept : I t := by
      rw [show t = (x.run s).2 by rw [hr]]
      exact hkeeps s hs
    exact hf a t g hkept (hrest ▸ h)

theorem Calm.map {x : Act σ α} (f : α → β) (hx : x.Calm I) : (f <$> x).Calm I := by
  intro s g hs h
  rw [run_map] at h
  refine hx s g hs ?_
  rcases hr : (x.run s).1 with e | a <;> rw [hr] at h <;> cases h
  rfl

/-- What breaks off with a value left out of account breaks off. -/
theorem Calm.of_map {x : Act σ α} {f : α → β} (hx : (f <$> x).Calm I) : x.Calm I := by
  intro s g hs h
  refine hx s g hs ?_
  rw [run_map, h]
  rfl

theorem Calm.within {part : σ → τ} {put : τ → σ → σ} {x : Act τ α} {J : τ → Prop} (hx : x.Calm J) :
    (within part put x).Calm fun s => J (part s) := fun s f hs => hx (part s) f hs

end

end BoardGpio.Act
