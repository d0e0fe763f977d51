import BoardGpio.Act
import Mathlib.Data.List.Forall2

/-!
# Invariants of actions

An action keeps an invariant if it leaves it true whatever the outcome. Failing is no way out: what
was changed before a failure stays changed, so an action that fails half-way has to keep the
invariant as well. Every way of building an action keeps what its parts keep.
-/

set_option autoImplicit false

namespace BoardGpio.Act

variable {σ τ α β : Type} {I : σ → Prop}

/-- The action leaves the invariant true whenever it finds it true. -/
def Keeps (I : σ → Prop) (x : Act σ α) : Prop :=
  ∀ s, I s → I (x.run s).2

/-- The action leaves the state as it finds it. -/
def Leaves (x : Act σ α) : Prop :=
  ∀ s, (x.run s).2 = s

theorem run_map (f : α → β) (x : Act σ α) (s : σ) :
    (f <$> x).run s = ((x.run s).1.map f, (x.run s).2) := by
  rw [← bind_pure_comp, run_bind]
  rcases x.run s with ⟨_ | _, _⟩ <;> rfl

theorem Leaves.keeps {x : Act σ α} (h : x.Leaves) : x.Keeps I := by
  intro s hs
  rw [h s]
  exact hs

theorem Leaves.pure (a : α) : (pure a : Act σ α).Leaves := fun _ => rfl

theorem Leaves.fail (e : Error) : (fail e : Act σ α).Leaves := fun _ => rfl

theorem Leaves.gets (f : σ → α) : (gets f).Leaves := fun _ => rfl

theorem Leaves.lift (x : Except Error α) : (lift x : Act σ α).Leaves := by
  intro s
  cases x <;> rfl

/-- What holds after one action, and is kept by the next, holds after both. -/
theorem Keeps.after_bind {x : Act σ α} {f : α → Act σ β} {s : σ} (hf : ∀ a, (f a).Keeps I)
    (hx : I (x.run s).2) : I ((x >>= f).run s).2 := by
  rw [run_bind]
  rcases hr : x.run s with ⟨_ | a, t⟩
  · simpa [hr] using hx
  · rw [hr] at hx
    exact hf a t hx

/-- What one action keeps and the next keeps after it is kept by both together. -/
theorem Keeps.bind {x : Act σ α} {f : α → Act σ β} (hx : x.Keeps I) (hf : ∀ a, (f a).Keeps I) :
    (x >>= f).Keeps I := fun s hs => Keeps.after_bind hf (hx s hs)

theorem Leaves.bind {x : Act σ α} {f : α → Act σ β} (hx : x.Leaves) (hf : ∀ a, (f a).Leaves) :
    (x >>= f).Leaves := by
  intro s
  have hx := hx s
  rw [run_bind]
  rcases hr : x.run s with ⟨_ | a, t⟩
  · simpa [hr] using hx
  · rw [hr] at hx
    rw [← hx]
    exact hf a t

theorem Keeps.pure (a : α) : (pure a : Act σ α).Keeps I := (Leaves.pure a).keeps

theorem Keeps.map {x : Act σ α} (f : α → β) (hx : x.Keeps I) : (f <$> x).Keeps I := by
  rw [← bind_pure_comp]
  exact hx.bind fun a => Keeps.pure (f a)

theorem Keeps.modify {f : σ → σ} (h : ∀ s, I s → I (f s)) : (modify f).Keeps I := h

/-- An invariant about a part of the state is kept by what is done to the part. -/
theorem Keeps.within {part : σ → τ} {put : τ → σ → σ} {x : Act τ α} {J : τ → Prop}
    (hx : x.Keeps J) (hput : ∀ t s, part (put t s) = t) :
    (within part put x).Keeps fun s => J (part s) := by
  intro s hs
  rw [run_within]
  show J (part (put _ s))
  rw [hput]
  exact hx (part s) hs

theorem run_attempt_state (x : Act σ α) (s : σ) : ((attempt x).run s).2 = (x.run s).2 := by
  rw [run_attempt]
  rcases x.run s with ⟨(_ | _) | _, _⟩ <;> rfl

theorem Keeps.attempt {x : Act σ α} (hx : x.Keeps I) : (attempt x).Keeps I := by
  intro s hs
  rw [run_attempt_state]
  exact hx s hs

theorem Keeps.each {f : α → Act σ Unit} (hf : ∀ a, (f a).Keeps I) (as : List α) :
    (each f as).Keeps I := by
  induction as with
  | nil => exact Keeps.pure ()
  | cons a as ih => exact (hf a).bind fun _ => ih

theorem Keeps.collect {f : α → Act σ β} (hf : ∀ a, (f a).Keeps I) (as : List α) :
    (collect f as).Keeps I := by
  induction as with
  | nil => exact Keeps.pure []
  | cons a as ih => exact (hf a).bind fun b => ih.bind fun bs => Keeps.pure (b :: bs)

/-! ## Actions that went well -/

/-- Two actions in turn went well exactly if each did. -/
theorem run_bind_eq_ok_iff {x : Act σ α} {f : α → Act σ β} {s t : σ} {b : β} :
    (x >>= f).run s = (.ok b, t) ↔ ∃ a u, x.run s = (.ok a, u) ∧ (f a).run u = (.ok b, t) := by
  rw [run_bind]
  rcases x.run s with ⟨e | a, u⟩
  · simp
  · constructor
    · intro h
      exact ⟨a, u, rfl, h⟩
    · rintro ⟨a', u', h, h'⟩
      cases h
      exact h'

/-- An attempt gives the value of an action that went well. -/
theorem run_attempt_eq_ok_iff {x : Act σ α} {s t : σ} {a : α} :
    (attempt x).run s = (.ok (.ok a), t) ↔ x.run s = (.ok a, t) := by
  rw [run_attempt]
  rcases x.run s with ⟨(e | f) | b, u⟩ <;> simp

/-- What every single action gives when it goes well holds of all that were collected. -/
theorem collect_all {f : α → Act σ β} {P : β → Prop}
    (hf : ∀ a s b t, (f a).run s = (.ok b, t) → P b) (as : List α) {s t : σ} {bs : List β}
    (h : (collect f as).run s = (.ok bs, t)) : ∀ b ∈ bs, P b := by
  induction as generalizing s bs with
  | nil =>
    cases h
    simp
  | cons a as ih =>
    obtain ⟨b, u, hb, hrest⟩ := run_bind_eq_ok_iff.mp h
    obtain ⟨bs', v, hbs', hpure⟩ := run_bind_eq_ok_iff.mp hrest
    cases hpure
    intro c hc
    rcases List.mem_cons.mp hc with rfl | hc
    · exact hf a s c u hb
    · exact ih hbs' c hc

/-- What is collected is, element by element, what the single actions give where an invariant
holds. -/
theorem collect_forall₂ {f : α → Act σ β} {P : α → β → Prop} (hkeeps : ∀ a, (f a).Keeps I)
    (hf : ∀ a s b t, I s → (f a).run s = (.ok b, t) → P a b) (as : List α) {s t : σ} {bs : List β}
    (hs : I s) (h : (collect f as).run s = (.ok bs, t)) : List.Forall₂ P as bs := by
  induction as generalizing s bs with
  | nil =>
    cases h
    exact .nil
  | cons a as ih =>
    obtain ⟨b, u, hb, hrest⟩ := run_bind_eq_ok_iff.mp h
    obtain ⟨bs', v, hbs', hpure⟩ := run_bind_eq_ok_iff.mp hrest
    cases hpure
    have hu : I u := by
      have hkept := hkeeps a s hs
      rw [hb] at hkept
      exact hkept
    exact .cons (hf a s b u hs hb) (ih hu hbs')

theorem collect_length {f : α → Act σ β} (as : List α) {s t : σ} {bs : List β}
    (h : (collect f as).run s = (.ok bs, t)) : bs.length = as.length := by
  induction as generalizing s bs with
  | nil =>
    cases h
    rfl
  | cons a as ih =>
    obtain ⟨b, u, -, hrest⟩ := run_bind_eq_ok_iff.mp h
    obtain ⟨bs', v, hbs', hpure⟩ := run_bind_eq_ok_iff.mp hrest
    cases hpure
    rw [List.length_cons, List.length_cons, ih hbs']

end BoardGpio.Act
