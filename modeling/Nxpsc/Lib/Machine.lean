/-!
# Machines with events

A step is a function that says which events are possible, so a run can be
played from a list of them. What every harmless event keeps, a run keeps, or
it has a harmful event in it and one can say where.
-/

namespace Machine

variable {S E : Type} {step : S → E → Option S}

/-- The events one after the other, as long as they are possible. -/
def run (step : S → E → Option S) (s : S) (events : List E) : Option S :=
  events.foldlM step s

theorem run_nil {s : S} : run step s [] = some s := rfl

theorem run_cons {s s₁ : S} {e : E} {events : List E}
    (h : step s e = some s₁) : run step s (e :: events) = run step s₁ events := by
  rw [run, List.foldlM_cons, h]
  rfl

theorem run_cons_some {s s' : S} {e : E} {events : List E}
    (h : run step s (e :: events) = some s') :
    ∃ s₁, step s e = some s₁ ∧ run step s₁ events = some s' := by
  rw [run, List.foldlM_cons] at h
  exact Option.bind_eq_some_iff.mp h

/-- Somewhere in the run is an event that `P` is looking for. -/
def Occurs (step : S → E → Option S) (P : S → E → Prop) (s : S)
    (events : List E) : Prop :=
  ∃ pre e post s₁, events = pre ++ e :: post ∧ run step s pre = some s₁ ∧
    P s₁ e

theorem occurs_head {P : S → E → Prop} {s : S} {e : E} (h : P s e)
    (events : List E) : Occurs step P s (e :: events) :=
  ⟨[], e, events, s, rfl, rfl, h⟩

theorem Occurs.later {P : S → E → Prop} {s s₁ : S} {e : E} {events : List E}
    (hstep : step s e = some s₁) (h : Occurs step P s₁ events) :
    Occurs step P s (e :: events) := by
  obtain ⟨pre, e', post, s₂, rfl, hrun, hP⟩ := h
  exact ⟨e :: pre, e', post, s₂, rfl, (run_cons hstep).trans hrun, hP⟩

theorem not_occurs_nil {P : S → E → Prop} {s : S} :
    ¬ Occurs step P s [] := by
  rintro ⟨pre, e, post, s₁, hnil, -, -⟩
  exact List.append_ne_nil_of_right_ne_nil pre (List.cons_ne_nil _ _)
    hnil.symm

theorem occurs_cons_iff {P : S → E → Prop} {s s₁ : S} {e : E}
    {events : List E} (hstep : step s e = some s₁) :
    Occurs step P s (e :: events) ↔ P s e ∨ Occurs step P s₁ events := by
  constructor
  · rintro ⟨pre, e', post, s₂, heq, hrun, hP⟩
    cases pre with
    | nil =>
        cases heq
        cases hrun
        exact .inl hP
    | cons x pre =>
        cases heq
        rw [run_cons hstep] at hrun
        exact .inr ⟨pre, e', post, s₂, rfl, hrun, hP⟩
  · rintro (hP | hlater)
    · exact occurs_head hP _
    · exact hlater.later hstep

/-- The events lead from `s` to `s'`, and none of them is one that `P` is looking
for. -/
def Avoids (step : S → E → Option S) (P : S → E → Prop) (s : S)
    (events : List E) (s' : S) : Prop :=
  run step s events = some s' ∧ ¬ Occurs step P s events

theorem avoids_nil {P : S → E → Prop} {s : S} : Avoids step P s [] s :=
  ⟨run_nil, not_occurs_nil⟩

theorem Avoids.cons {P : S → E → Prop} {s s₁ s' : S} {e : E}
    {events : List E} (h : Avoids step P s₁ events s')
    (hstep : step s e = some s₁) (hno : ¬ P s e) :
    Avoids step P s (e :: events) s' :=
  ⟨(run_cons hstep).trans h.1,
    fun hoccurs => ((occurs_cons_iff hstep).mp hoccurs).elim hno h.2⟩

theorem Avoids.append {P : S → E → Prop} {s s₁ s' : S} {first next : List E}
    (h : Avoids step P s first s₁) (hnext : Avoids step P s₁ next s') :
    Avoids step P s (first ++ next) s' := by
  induction first generalizing s with
  | nil =>
      cases h.1
      exact hnext
  | cons e rest ih =>
      obtain ⟨t, hstep, hrest⟩ := run_cons_some h.1
      have hno := not_or.mp fun hor => h.2 ((occurs_cons_iff hstep).mpr hor)
      exact (ih ⟨hrest, hno.2⟩).cons hstep hno.1

/-- The induction over runs. -/
theorem run_keeps {I : S → Prop} {harmful : S → E → Prop}
    (hstep : ∀ s e s', I s → step s e = some s' → ¬ harmful s e → I s')
    {s s' : S} {events : List E} (hI : I s)
    (hrun : run step s events = some s') :
    Occurs step harmful s events ∨ I s' := by
  induction events generalizing s with
  | nil =>
      cases hrun
      exact .inr hI
  | cons e rest ih =>
      obtain ⟨s₁, hfirst, hrest⟩ := run_cons_some hrun
      by_cases hharm : harmful s e
      · exact .inl (occurs_head hharm rest)
      · rcases ih (hstep s e s₁ hI hfirst hharm) hrest with hlater | hend
        · exact .inl (hlater.later hfirst)
        · exact .inr hend

end Machine
