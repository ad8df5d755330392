import Nxpsc.Lib.Dialogue

/-!
# Runs: one completed call after another

A component offers a family of calls, `prog : ι → Prog …`, on one state. A
run is any sequence of completed calls, each on whatever script the outside
party chose for it; a call that is still waiting has no successor, so it is
never inside a run.

Properties of a run are read along it with a *ghost*: a value of a type of
the verifier's own, updated by each step, that remembers what the component
itself does not store (what the other side must believe by now, say).
`Along` states a property at every step against the ghost at that point, and
`Run.along` is the induction: an invariant tying ghost and state together,
kept by every step that meets the run's side condition, carries the property
to every step of every such run. Where a step does not decide what it leaves of
the other side there is no ghost to compute: `Beside` has the other side take
any step that a relation allows it, and `Run.beside` is the same induction.
-/

namespace Dialogue

variable {σ Q A ε ι Γ : Type}

/-- One completed call: where it started, what was said, how it ended. -/
structure Step (σ Q A ε ι : Type) where
  call : ι
  before : σ
  said : List (Q × A)
  result : Except ε Unit
  after : σ

/-- The step really is one of the component's. -/
def Step.Of (prog : ι → Prog σ Q A ε Unit) (st : Step σ Q A ε ι) : Prop :=
  ∃ script rest,
    prog st.call st.before script = .done st.said st.result st.after rest

/-- A sequence of completed calls, each starting where the last one ended. -/
inductive Run (prog : ι → Prog σ Q A ε Unit) :
    σ → List (Step σ Q A ε ι) → σ → Prop where
  | nil {s : σ} : Run prog s [] s
  | cons {st : Step σ Q A ε ι} {steps : List (Step σ Q A ε ι)} {s : σ}
      (hof : st.Of prog) (hrest : Run prog st.after steps s) :
      Run prog st.before (st :: steps) s

/-- `P` at every step, against the ghost as it stands before that step. -/
def Along (ghost : Γ → Step σ Q A ε ι → Γ) (P : Γ → Step σ Q A ε ι → Prop) :
    Γ → List (Step σ Q A ε ι) → Prop
  | _, [] => True
  | g, st :: rest => P g st ∧ Along ghost P (ghost g st) rest

/-- The ghost at the end of a run. -/
def ghostAfter (ghost : Γ → Step σ Q A ε ι → Γ) :
    Γ → List (Step σ Q A ε ι) → Γ :=
  List.foldl ghost

/-- The other side beside a run: at each step it does one of the things that
`R` allows. -/
inductive Beside (R : Γ → Step σ Q A ε ι → Γ → Prop) :
    Γ → List (Step σ Q A ε ι) → Γ → Prop where
  | nil {g : Γ} : Beside R g [] g
  | cons {g g₁ g' : Γ} {st : Step σ Q A ε ι} {steps : List (Step σ Q A ε ι)}
      (hstep : R g st g₁) (hrest : Beside R g₁ steps g') :
      Beside R g (st :: steps) g'

variable {prog : ι → Prog σ Q A ε Unit}

theorem Run.cons_done {call : ι} {s s₁ s' : σ} {script rest : List A}
    {said : List (Q × A)} {r : Except ε Unit} {steps : List (Step σ Q A ε ι)}
    (h : prog call s script = .done said r s₁ rest)
    (hrest : Run prog s₁ steps s') :
    Run prog s (⟨call, s, said, r, s₁⟩ :: steps) s' :=
  have hof : Step.Of prog ⟨call, s, said, r, s₁⟩ := ⟨script, rest, h⟩
  .cons hof hrest

/-- Every step of a run is one of the component's. -/
theorem Run.of_mem {s s' : σ} {steps : List (Step σ Q A ε ι)}
    (hrun : Run prog s steps s') : ∀ st ∈ steps, st.Of prog := by
  induction hrun with
  | nil => exact fun _ h => (List.not_mem_nil h).elim
  | cons hof _ ih => exact List.forall_mem_cons.mpr ⟨hof, ih⟩

theorem along_const {ghost : Γ → Step σ Q A ε ι → Γ}
    {C : Step σ Q A ε ι → Prop} {steps : List (Step σ Q A ε ι)}
    (h : ∀ st ∈ steps, C st) {g : Γ} :
    Along ghost (fun _ st => C st) g steps := by
  induction steps generalizing g with
  | nil => trivial
  | cons st rest ih =>
      exact ⟨h st (.head _), ih fun st hst => h st (.tail _ hst)⟩

/-- The induction over runs. -/
theorem Run.along {ghost : Γ → Step σ Q A ε ι → Γ} (Inv : Γ → σ → Prop)
    (C : Γ → Step σ Q A ε ι → Prop) {P : Γ → Step σ Q A ε ι → Prop}
    (hstep : ∀ g st, st.Of prog → Inv g st.before → C g st →
      P g st ∧ Inv (ghost g st) st.after)
    {s s' : σ} {steps : List (Step σ Q A ε ι)} (hrun : Run prog s steps s') :
    ∀ {g : Γ}, Inv g s → Along ghost C g steps →
      Along ghost P g steps ∧ Inv (ghostAfter ghost g steps) s' := by
  induction hrun with
  | nil => exact fun hI _ => ⟨trivial, hI⟩
  | cons hof _ ih =>
      intro g hI hC
      obtain ⟨hP, hI'⟩ := hstep g _ hof hI hC.1
      obtain ⟨hrest, hend⟩ := ih hI' hC.2
      exact ⟨⟨hP, hrest⟩, hend⟩

/-- The induction over runs with another side. -/
theorem Run.beside {R : Γ → Step σ Q A ε ι → Γ → Prop} (Inv : Γ → σ → Prop)
    (hstep : ∀ g st g', st.Of prog → R g st g' → Inv g st.before →
      Inv g' st.after)
    {s s' : σ} {steps : List (Step σ Q A ε ι)} (hrun : Run prog s steps s') :
    ∀ {g g' : Γ}, Beside R g steps g' → Inv g s → Inv g' s' := by
  induction hrun with
  | nil =>
      intro g g' hbeside hI
      cases hbeside
      exact hI
  | cons hof _ ih =>
      intro g g' hbeside hI
      cases hbeside with
      | cons hR hrest => exact ih hrest (hstep _ _ _ hof hR hI)

/-- What every step keeps, a run keeps. -/
theorem Run.keeps {I : σ → Prop}
    (hstep : ∀ st : Step σ Q A ε ι, st.Of prog → I st.before → I st.after)
    {s s' : σ} {steps : List (Step σ Q A ε ι)}
    (hrun : Run prog s steps s') (hI : I s) : I s' := by
  induction hrun with
  | nil => exact hI
  | cons hof _ ih => exact ih (hstep _ hof hI)

/-- An invariant and exactly what it needs of the steps: where `C` says of each
step whether it keeps `I`, it says so of the whole run. -/
theorem Run.invariant_iff {I : σ → Prop} {C : Step σ Q A ε ι → Prop}
    (hstep : ∀ st, st.Of prog → I st.before → (I st.after ↔ C st))
    {s s' : σ} {steps : List (Step σ Q A ε ι)} (hrun : Run prog s steps s')
    (hI : I s) : (∀ st ∈ steps, I st.after) ↔ ∀ st ∈ steps, C st := by
  induction hrun with
  | nil => exact ⟨fun _ _ h => (List.not_mem_nil h).elim,
      fun _ _ h => (List.not_mem_nil h).elim⟩
  | @cons st steps _ hof _ ih =>
      have hone := hstep st hof hI
      rw [List.forall_mem_cons, List.forall_mem_cons]
      constructor
      · rintro ⟨hafter, hrest⟩
        exact ⟨hone.mp hafter, (ih hafter).mp hrest⟩
      · rintro ⟨hC, hrest⟩
        have hafter := hone.mpr hC
        exact ⟨hafter, (ih hafter).mpr hrest⟩

end Dialogue
