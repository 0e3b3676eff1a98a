/-
# Replaying requests

A system answers requests one after the other: a step gives the answer to a
request and the state that the request leaves.  `replay` goes through a list of
requests.  Two systems that answer every single request alike and stay related
answer a list of requests alike and stay related (`replay_relates`).
-/

namespace Labyrinth

variable {σ τ ι ρ : Type}

/-- Goes through the requests in order: all answers, and the state in the end. -/
def replay (step : σ → ι → ρ × σ) : σ → List ι → List ρ × σ
  | s, [] => ([], s)
  | s, i :: is =>
    let rest := replay step (step s i).2 is
    ((step s i).1 :: rest.1, rest.2)

/-- The first input is answered first, and the others by the state that it leaves. -/
theorem replay_cons (step : σ → ι → ρ × σ) (s : σ) (i : ι) (is : List ι) :
    replay step s (i :: is) =
      ((step s i).1 :: (replay step (step s i).2 is).1, (replay step (step s i).2 is).2) :=
  rfl

/-- What comes after the first requests is a replay of its own. -/
theorem replay_append (step : σ → ι → ρ × σ) (s : σ) (before after : List ι) :
    replay step s (before ++ after) =
      ((replay step s before).1 ++ (replay step (replay step s before).2 after).1,
        (replay step (replay step s before).2 after).2) := by
  induction before generalizing s with
  | nil => rfl
  | cons i before ih => rw [List.cons_append, replay_cons, ih, replay_cons, List.cons_append]

/-- **What every request preserves, a list of requests preserves.** -/
theorem replay_preserves (step : σ → ι → ρ × σ) {P : σ → Prop}
    (hstep : ∀ s i, P s → P (step s i).2) {s : σ} (h : P s) (is : List ι) :
    P (replay step s is).2 := by
  induction is generalizing s with
  | nil => exact h
  | cons i is ih => exact ih (hstep s i h)

/-- **Systems that answer every request alike answer a list of requests alike.** -/
theorem replay_relates (step : σ → ι → ρ × σ) (step' : τ → ι → ρ × τ) {R : σ → τ → Prop}
    (hstep : ∀ s t i, R s t → (step s i).1 = (step' t i).1 ∧ R (step s i).2 (step' t i).2)
    {s : σ} {t : τ} (hst : R s t) (is : List ι) :
    (replay step s is).1 = (replay step' t is).1 ∧
      R (replay step s is).2 (replay step' t is).2 := by
  induction is generalizing s t with
  | nil => exact ⟨rfl, hst⟩
  | cons i is ih =>
    obtain ⟨hanswer, hnext⟩ := hstep s t i hst
    obtain ⟨hanswers, hlast⟩ := ih hnext
    exact ⟨List.cons_eq_cons.2 ⟨hanswer, hanswers⟩, hlast⟩

end Labyrinth
