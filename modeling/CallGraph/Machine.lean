/-!
Machines that cannot do everything at every time.

A step takes a state and an action to another state, with what was done, unless the action cannot be
done. A run is a list of actions each of which can be done where those before it have led, and its
record is all that was done, in order.
-/

namespace CallGraph.Machine

variable {σ α δ : Type}

/-- Actions one after the other, and the record of what they do. -/
def run (step : σ → α → Option (σ × List δ)) (s : σ) : List α → Option (σ × List δ)
  | [] => some (s, [])
  | a :: as =>
    match step s a with
    | none => none
    | some (t, done) => (run step t as).map fun r => (r.1, done ++ r.2)

variable {step : σ → α → Option (σ × List δ)} {s t u : σ} {a : α} {as bs : List α}
  {done more : List δ}

theorem run_append (step : σ → α → Option (σ × List δ)) (s : σ) (as bs : List α) :
    run step s (as ++ bs) =
      (run step s as).bind fun r => (run step r.1 bs).map fun q => (q.1, r.2 ++ q.2) := by
  induction as generalizing s with
  | nil => simp [run]
  | cons a as ih =>
    rw [List.cons_append, run, run]
    cases step s a with
    | none => rfl
    | some r => simp [ih, Option.bind_map, Option.map_bind, Function.comp_def, List.append_assoc]

theorem run_trans (h : run step s as = some (t, done)) (h' : run step t bs = some (u, more)) :
    run step s (as ++ bs) = some (u, done ++ more) := by
  rw [run_append, h, Option.bind_some, h', Option.map_some]

theorem run_singleton (step : σ → α → Option (σ × List δ)) (s : σ) (a : α) :
    run step s [a] = step s a := by
  rw [run]
  cases step s a with
  | none => rfl
  | some r => simp [run]

theorem run_cons {first rest : List δ} (h : step s a = some (t, first))
    (h' : run step t as = some (u, rest)) : run step s (a :: as) = some (u, first ++ rest) := by
  rw [run, h]
  simp only
  rw [h', Option.map_some]

theorem run_cons_eq_some (h : run step s (a :: as) = some (u, done)) :
    ∃ t first rest, step s a = some (t, first) ∧ run step t as = some (u, rest) ∧
      done = first ++ rest := by
  rw [run] at h
  cases hstep : step s a with
  | none =>
    rw [hstep] at h
    cases h
  | some r =>
    rw [hstep] at h
    obtain ⟨⟨v, rest⟩, hrest, heq⟩ := Option.map_eq_some_iff.mp h
    cases heq
    exact ⟨r.1, r.2, rest, rfl, hrest, rfl⟩

/-- What holds at the start and is kept by every step that can be done holds after every run, of the
actions, the state they have led to and the record. -/
theorem run_invariant {P : List α → σ → List δ → Prop} (hstart : P [] s [])
    (hstep : ∀ as t done a u more, run step s as = some (t, done) → P as t done →
      step t a = some (u, more) → P (as ++ [a]) u (done ++ more))
    (h : run step s as = some (u, done)) : P as u done := by
  -- some of the actions have been done, and the induction is on those that are left
  suffices hrest : ∀ before t earlier later, run step s before = some (t, earlier) →
      P before t earlier → run step t as = some (u, later) →
      P (before ++ as) u (earlier ++ later) from
    hrest [] s [] done rfl hstart h
  clear h
  induction as with
  | nil =>
    intro before t earlier later _ hP hrun
    cases hrun
    rwa [List.append_nil, List.append_nil]
  | cons a as ih =>
    intro before t earlier later hbefore hP hrun
    obtain ⟨v, first, rest, hfirst, hlast, rfl⟩ := run_cons_eq_some hrun
    have hnext : run step s (before ++ [a]) = some (v, earlier ++ first) :=
      run_trans hbefore ((run_singleton step t a).trans hfirst)
    have hall := ih (before ++ [a]) v (earlier ++ first) rest hnext
      (hstep before t earlier a v first hbefore hP hfirst) hlast
    rwa [List.append_assoc, List.append_assoc] at hall

end CallGraph.Machine
