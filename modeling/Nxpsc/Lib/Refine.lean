import Nxpsc.Lib.Party

/-!
# Systems that refine a service

A service is a state and what it answers to a call. A system of a program for
every call and a party at the other end refines it when each call, made in a
state the two are related in, runs to the answer of the service and leaves
the two related. From one call this carries over to every list of calls, and
where programs run in one way against a party there is no other run.

A party may also be taken for another one, through a map of its states, as
long as it does not end where the two differ.
-/

namespace Dialogue

variable {σ Q A ε P P' T ι α β γ : Type}

/-! ## A loop against a party -/

section

variable {party : P → Q → A × P} {request : β → σ → Except ε Q}
  {react : β → A → σ → Except ε (β ⊕ γ) × σ} {b b' : β} {s s' s'' : σ} {q : Q}
  {p p' : P}

theorem meets_again {said : List (Q × A)} {r : Except ε γ}
    (hq : request b s = .ok q)
    (hr : react b (party p q).1 s = (.ok (.inl b'), s'))
    (h : Meets party (Prog.converse request react b') s' (party p q).2 said r
      s'' p') :
    Meets party (Prog.converse request react b) s p
      ((q, (party p q).1) :: said) r s'' p' := by
  refine ⟨fun rest => ?_, rfl, h.took⟩
  rw [List.map_cons, List.cons_append, Prog.converse_next _ hq hr, h.run]
  rfl

theorem meets_leave {c : γ} (hq : request b s = .ok q)
    (hr : react b (party p q).1 s = (.ok (.inr c), s')) :
    Meets party (Prog.converse request react b) s p [(q, (party p q).1)]
      (.ok c) s' (party p q).2 :=
  ⟨fun _ => Prog.converse_leave _ hq hr, rfl, rfl⟩

end

/-! ## Calls in a row -/

/-- The calls were made in this order, with these results. -/
inductive Calls (party : P → Q → A × P) (call : ι → Prog σ Q A ε α) :
    σ → P → List ι → List (Except ε α) → σ → P → Prop where
  | nil {s : σ} {p : P} : Calls party call s p [] [] s p
  | cons {s s₁ s' : σ} {p p₁ p' : P} {said : List (Q × A)} {i : ι}
      {calls : List ι} {r : Except ε α} {results : List (Except ε α)}
      (head : Meets party (call i) s p said r s₁ p₁)
      (tail : Calls party call s₁ p₁ calls results s' p') :
      Calls party call s p (i :: calls) (r :: results) s' p'

/-- There is one way to make them. -/
theorem Calls.unique {party : P → Q → A × P} {call : ι → Prog σ Q A ε α}
    (hcausal : ∀ i, (call i).Causal) {s s₁ s₂ : σ} {p p₁ p₂ : P}
    {calls : List ι} {results₁ results₂ : List (Except ε α)}
    (h₁ : Calls party call s p calls results₁ s₁ p₁)
    (h₂ : Calls party call s p calls results₂ s₂ p₂) :
    results₁ = results₂ ∧ s₁ = s₂ ∧ p₁ = p₂ := by
  induction h₁ generalizing results₂ with
  | nil =>
      cases h₂
      exact ⟨rfl, rfl, rfl⟩
  | cons head tail ih =>
      cases h₂ with
      | cons head' tail' =>
          obtain ⟨-, rfl, rfl, rfl⟩ := head.unique (hcausal _) head'
          obtain ⟨rfl, rfl, rfl⟩ := ih tail'
          exact ⟨rfl, rfl, rfl⟩

/-! ## Services -/

/-- What is answered to a call, and the state afterwards. -/
abbrev Service (T ι ρ : Type) := T → ι → ρ × T

variable {ρ : Type}

def Service.answers (spec : Service T ι ρ) : T → List ι → List ρ × T
  | t, [] => ([], t)
  | t, i :: calls =>
      ((spec t i).1 :: (spec.answers (spec t i).2 calls).1,
        (spec.answers (spec t i).2 calls).2)

theorem Service.answers_concat (spec : Service T ι ρ) (t : T) (calls : List ι)
    (i : ι) : spec.answers t (calls ++ [i]) =
      ((spec.answers t calls).1 ++ [(spec (spec.answers t calls).2 i).1],
        (spec (spec.answers t calls).2 i).2) := by
  induction calls generalizing t with
  | nil => rfl
  | cons j rest ih =>
      rw [List.cons_append, answers, ih]
      rfl

theorem Service.length_answers (spec : Service T ι ρ) (t : T)
    (calls : List ι) : (spec.answers t calls).1.length = calls.length := by
  induction calls generalizing t with
  | nil => rfl
  | cons i rest ih => exact congrArg (· + 1) (ih _)

/-- Each of the calls may be made in the state it is made in. -/
def Service.Admits (spec : Service T ι ρ) (legal : T → ι → Prop) :
    T → List ι → Prop
  | _, [] => True
  | t, i :: calls => legal t i ∧ spec.Admits legal (spec t i).2 calls

theorem Service.admits_append {spec : Service T ι ρ} {legal : T → ι → Prop}
    {t : T} {calls more : List ι} :
    spec.Admits legal t (calls ++ more) ↔
      spec.Admits legal t calls ∧
        spec.Admits legal (spec.answers t calls).2 more := by
  induction calls generalizing t with
  | nil => exact (and_iff_right trivial).symm
  | cons j rest ih => exact (and_congr_right fun _ => ih).trans and_assoc.symm

/-- Every call, made in related states, comes back with the answer of the
service and leaves them related. -/
def Refines (party : P → Q → A × P) (call : ι → Prog σ Q A ε α)
    (spec : Service T ι (Except ε α)) (legal : T → ι → Prop)
    (rel : σ → P → T → Prop) : Prop :=
  ∀ s p t i, rel s p t → legal t i → ∃ said s' p',
    Meets party (call i) s p said (spec t i).1 s' p' ∧ rel s' p' (spec t i).2

section

variable {party : P → Q → A × P} {call : ι → Prog σ Q A ε α}
  {spec : Service T ι (Except ε α)} {legal : T → ι → Prop}
  {rel : σ → P → T → Prop}

theorem Refines.run (h : Refines party call spec legal rel) {s : σ} {p : P}
    {t : T} (hrel : rel s p t) {calls : List ι}
    (hcalls : spec.Admits legal t calls) :
    ∃ s' p', Calls party call s p calls (spec.answers t calls).1 s' p' ∧
      rel s' p' (spec.answers t calls).2 := by
  induction calls generalizing s p t with
  | nil => exact ⟨s, p, .nil, hrel⟩
  | cons i rest ih =>
      obtain ⟨said, s₁, p₁, hmeets, hrel₁⟩ := h s p t i hrel hcalls.1
      obtain ⟨s', p', hrest, hrel'⟩ := ih hrel₁ hcalls.2
      exact ⟨s', p', .cons hmeets hrest, hrel'⟩

/-- Whatever run there is, it has the answers of the service. -/
theorem Refines.every_run (h : Refines party call spec legal rel)
    (hcausal : ∀ i, (call i).Causal) {s s' : σ} {p p' : P} {t : T}
    (hrel : rel s p t) {calls : List ι} (hcalls : spec.Admits legal t calls)
    {results : List (Except ε α)}
    (hrun : Calls party call s p calls results s' p') :
    results = (spec.answers t calls).1 ∧
      rel s' p' (spec.answers t calls).2 := by
  obtain ⟨s₁, p₁, hrun₁, hrel₁⟩ := h.run hrel hcalls
  obtain ⟨rfl, rfl, rfl⟩ := hrun.unique hcausal hrun₁
  exact ⟨rfl, hrel₁⟩

end

/-! ## One party for another -/

/-- A party in the place of another one that says the same, until it is
`lost`. -/
theorem Took.map {party : P → Q → A × P} {party' : P' → Q → A × P'}
    {f : P → P'} {lost : P → Prop} (hlost : ∀ p q, lost p → lost (party p q).2)
    (hstep : ∀ p q, ¬ lost (party p q).2 →
      party' (f p) q = ((party p q).1, f (party p q).2))
    {p p' : P} {said : List (Q × A)} (h : Took party p said p')
    (hend : ¬ lost p') : Took party' (f p) said (f p') := by
  have hback : ∀ {p : P} {said : List (Q × A)},
      Took party p said p' → ¬ lost p := by
    intro p said h hp
    induction said generalizing p with
    | nil =>
        cases h
        exact hend hp
    | cons qa rest ih => exact ih h.2 (hlost _ _ hp)
  induction said generalizing p with
  | nil =>
      cases h
      rfl
  | cons qa rest ih =>
      obtain ⟨ha, hrest⟩ := h
      have hsame := hstep p qa.1 (hback hrest)
      rw [Took, hsame]
      exact ⟨ha, ih hrest⟩

theorem Meets.map {party : P → Q → A × P} {party' : P' → Q → A × P'}
    {f : P → P'} {lost : P → Prop} (hlost : ∀ p q, lost p → lost (party p q).2)
    (hstep : ∀ p q, ¬ lost (party p q).2 →
      party' (f p) q = ((party p q).1, f (party p q).2))
    {m : Prog σ Q A ε α} {s s' : σ} {p p' : P} {said : List (Q × A)}
    {r : Except ε α} (h : Meets party m s p said r s' p')
    (hend : ¬ lost p') : Meets party' m s (f p) said r s' (f p') :=
  ⟨h.run, h.took.map hlost hstep hend⟩

end Dialogue
