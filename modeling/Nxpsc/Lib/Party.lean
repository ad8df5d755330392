import Nxpsc.Lib.Bounded

/-!
# Parties that react

A script is fixed before a run starts. A party chooses: its answer depends on
the query and on the state its earlier answers left it in. `Took` says that a
party took part in a stretch of conversation, `Meets` that a completed run of
a program is one against the party; such runs compose as programs do.

A program has one run against a party. That is not built into `Prog`, whose
values are functions of a whole script, so it is proved of the operations:
two completed runs from one state differ first in an answer, never in a query.
-/

namespace Dialogue

variable {σ Q A ε P α β γ : Type}

/-! ## Runs against a party -/

/-- The party said its part of the stretch, from one state to another. -/
def Took (party : P → Q → A × P) : P → List (Q × A) → P → Prop
  | p, [], p' => p = p'
  | p, (q, a) :: rest, p' =>
      (party p q).1 = a ∧ Took party (party p q).2 rest p'

/-- A completed run against the party. It reads its own part of a longer
script. -/
structure Meets (party : P → Q → A × P) (m : Prog σ Q A ε α) (s : σ) (p : P)
    (said : List (Q × A)) (r : Except ε α) (s' : σ) (p' : P) : Prop where
  run : ∀ rest, m s (said.map Prod.snd ++ rest) = .done said r s' rest
  took : Took party p said p'

variable {party : P → Q → A × P}

theorem took_append {p p' : P} {u v : List (Q × A)} :
    Took party p (u ++ v) p' ↔
      ∃ p₁, Took party p u p₁ ∧ Took party p₁ v p' := by
  induction u generalizing p with
  | nil =>
      constructor
      · intro h
        exact ⟨p, rfl, h⟩
      · rintro ⟨p₁, rfl, h⟩
        exact h
  | cons qa rest ih =>
      rw [List.cons_append, Took, ih]
      constructor
      · rintro ⟨ha, p₁, hu, hv⟩
        exact ⟨p₁, ⟨ha, hu⟩, hv⟩
      · rintro ⟨p₁, ⟨ha, hu⟩, hv⟩
        exact ⟨ha, p₁, hu, hv⟩

theorem meets_act (f : σ → Except ε α × σ) (s : σ) (p : P) :
    Meets party (Prog.act f) s p [] (f s).1 (f s).2 p :=
  ⟨fun _ => rfl, rfl⟩

theorem meets_bind {m : Prog σ Q A ε α} {f : α → Prog σ Q A ε β} {s s₁ s' : σ}
    {p p₁ p' : P} {u v : List (Q × A)} {a : α} {r : Except ε β}
    (hm : Meets party m s p u (.ok a) s₁ p₁)
    (hf : Meets party (f a) s₁ p₁ v r s' p') :
    Meets party (m >>= f) s p (u ++ v) r s' p' := by
  refine ⟨fun rest => ?_, took_append.mpr ⟨p₁, hm.took, hf.took⟩⟩
  rw [List.map_append, List.append_assoc, Prog.bind_ok (hm.run _), hf.run]
  rfl

/-- A program that asks once meets the party in that one question. -/
theorem meets_once {m : Prog σ Q A ε α} {q : σ → Q}
    {f : A → σ → Except ε α × σ} (hm : m.Once q f) (s : σ) (p : P) :
    Meets party m s p [(q s, (party p (q s)).1)]
      (f (party p (q s)).1 s).1 (f (party p (q s)).1 s).2 (party p (q s)).2 :=
  ⟨fun rest => hm.reads s _ rest, rfl, rfl⟩

/-- Two questions, the second one made of the answer to the first. -/
theorem meets_twoPass {τ : Type} {first : Prog σ Q A ε α}
    {second : β → Prog σ Q A ε α} {opening : α → σ → Except ε (β × τ)}
    {closing : τ → α → σ → Except ε γ × σ} {s s₁ s₂ s' : σ} {p p₁ p₂ : P}
    {u v : List (Q × A)} {x y : α} {b : β} {kept : τ} {r : Except ε γ}
    (hfirst : Meets party first s p u (.ok x) s₁ p₁)
    (hopening : opening x s₁ = .ok (b, kept))
    (hsecond : Meets party (second b) s₁ p₁ v (.ok y) s₂ p₂)
    (hclosing : closing kept y s₂ = (r, s')) :
    Meets party (Prog.twoPass first second opening closing) s p
      (u ++ ([] ++ (v ++ []))) r s' p₂ := by
  have hopen : Meets party (Prog.act fun s => (opening x s, s)) s₁ p₁ []
      (.ok (b, kept)) s₁ p₁ := by
    rw [← hopening]
    exact meets_act _ s₁ p₁
  have hclose : Meets party (Prog.act (closing kept y)) s₂ p₂ [] r s' p₂ := by
    have hact : Meets party (Prog.act (closing kept y)) s₂ p₂ [] _ _ p₂ :=
      meets_act _ s₂ p₂
    rw [hclosing] at hact
    exact hact
  exact meets_bind hfirst (meets_bind hopen (meets_bind hsecond hclose))

/-- Programs that run alike meet the party alike. -/
theorem Meets.congr {m m' : Prog σ Q A ε α} {s s₁ s' : σ} {p p' : P}
    {said : List (Q × A)} {r : Except ε α}
    (heq : ∀ script, m s script = m' s₁ script)
    (h : Meets party m' s₁ p said r s' p') :
    Meets party m s p said r s' p' :=
  ⟨fun rest => (heq _).trans (h.run rest), h.took⟩

/-! ## One run for each party -/

/-- Two stretches part where a query is answered in two ways. -/
def Parts (u v : List (Q × A)) : Prop :=
  ∃ pre q a b post post', u = pre ++ (q, a) :: post ∧
    v = pre ++ (q, b) :: post' ∧ a ≠ b

theorem Parts.append {u v : List (Q × A)} (h : Parts u v)
    (x y : List (Q × A)) : Parts (u ++ x) (v ++ y) := by
  obtain ⟨pre, q, a, b, post, post', rfl, rfl, hne⟩ := h
  refine ⟨pre, q, a, b, post ++ x, post' ++ y, ?_, ?_, hne⟩
  · rw [List.append_assoc, List.cons_append]
  · rw [List.append_assoc, List.cons_append]

theorem Parts.prepend {u v : List (Q × A)} (h : Parts u v)
    (x : List (Q × A)) : Parts (x ++ u) (x ++ v) := by
  obtain ⟨pre, q, a, b, post, post', rfl, rfl, hne⟩ := h
  refine ⟨x ++ pre, q, a, b, post, post', ?_, ?_, hne⟩
  · rw [List.append_assoc]
  · rw [List.append_assoc]

theorem Took.unique {p p₁ p₂ : P} {said : List (Q × A)}
    (h : Took party p said p₁) (h' : Took party p said p₂) : p₁ = p₂ := by
  induction said generalizing p with
  | nil => exact h.symm.trans h'
  | cons qa rest ih => exact ih h.2 h'.2

/-- A party never answers one query in two ways. -/
theorem not_parts {p p₁ p₂ : P} {u v : List (Q × A)}
    (hu : Took party p u p₁) (hv : Took party p v p₂) : ¬ Parts u v := by
  rintro ⟨pre, q, a, b, post, post', rfl, rfl, hne⟩
  obtain ⟨pm, hpre, ha, -⟩ := took_append.mp hu
  obtain ⟨pm', hpre', hb, -⟩ := took_append.mp hv
  rw [hpre.unique hpre'] at ha
  exact hne (ha.symm.trans hb)

namespace Prog

/-- Two completed runs from one state are the same up to an answer. -/
def Causal (m : Prog σ Q A ε α) : Prop :=
  ∀ s script₁ script₂ said₁ said₂ r₁ r₂ s₁ s₂ rest₁ rest₂,
    m s script₁ = .done said₁ r₁ s₁ rest₁ →
    m s script₂ = .done said₂ r₂ s₂ rest₂ →
    Parts said₁ said₂ ∨ (said₁ = said₂ ∧ r₁ = r₂ ∧ s₁ = s₂)

theorem causal_act (f : σ → Except ε α × σ) :
    Causal (act f : Prog σ Q A ε α) := by
  intro s script₁ script₂ said₁ said₂ r₁ r₂ s₁ s₂ rest₁ rest₂ h₁ h₂
  cases h₁
  cases h₂
  exact .inr ⟨rfl, rfl, rfl⟩

theorem causal_pure (a : α) : Causal (Pure.pure a : Prog σ Q A ε α) := by
  intro s script₁ script₂ said₁ said₂ r₁ r₂ s₁ s₂ rest₁ rest₂ h₁ h₂
  cases h₁
  cases h₂
  exact .inr ⟨rfl, rfl, rfl⟩

theorem causal_bind {m : Prog σ Q A ε α} {f : α → Prog σ Q A ε β}
    (hm : Causal m) (hf : ∀ a, Causal (f a)) : Causal (m >>= f) := by
  intro s script₁ script₂ said₁ said₂ r₁ r₂ s₁ s₂ rest₁ rest₂ h₁ h₂
  rcases bind_eq_done.mp h₁ with ⟨e, g₁, rfl⟩ |
    ⟨u₁, a, t₁, left₁, v₁, g₁, hf₁, rfl⟩
  · rcases bind_eq_done.mp h₂ with ⟨e', g₂, rfl⟩ |
      ⟨u₂, b, t₂, left₂, v₂, g₂, hf₂, rfl⟩
    · rcases hm _ _ _ _ _ _ _ _ _ _ _ g₁ g₂ with hparts | ⟨rfl, hr, rfl⟩
      · exact .inl hparts
      · cases hr
        exact .inr ⟨rfl, rfl, rfl⟩
    · rcases hm _ _ _ _ _ _ _ _ _ _ _ g₁ g₂ with hparts | ⟨-, hr, -⟩
      · have := hparts.append [] v₂
        rw [List.append_nil] at this
        exact .inl this
      · cases hr
  · rcases bind_eq_done.mp h₂ with ⟨e', g₂, rfl⟩ |
      ⟨u₂, b, t₂, left₂, v₂, g₂, hf₂, rfl⟩
    · rcases hm _ _ _ _ _ _ _ _ _ _ _ g₁ g₂ with hparts | ⟨-, hr, -⟩
      · have := hparts.append v₁ []
        rw [List.append_nil] at this
        exact .inl this
      · cases hr
    · rcases hm _ _ _ _ _ _ _ _ _ _ _ g₁ g₂ with hparts | ⟨rfl, hr, rfl⟩
      · exact .inl (hparts.append v₁ v₂)
      · cases hr
        rcases hf _ _ _ _ _ _ _ _ _ _ _ _ hf₁ hf₂ with hparts |
          ⟨rfl, rfl, rfl⟩
        · exact .inl (hparts.prepend u₁)
        · exact .inr ⟨rfl, rfl, rfl⟩

theorem causal_ite {p : Prop} [Decidable p] {m m' : Prog σ Q A ε α}
    (hm : Causal m) (hm' : Causal m') : Causal (if p then m else m') := by
  split
  · exact hm
  · exact hm'

theorem causal_twoPass {τ : Type} {first : Prog σ Q A ε α}
    {second : β → Prog σ Q A ε α} {opening : α → σ → Except ε (β × τ)}
    {closing : τ → α → σ → Except ε γ × σ} (hfirst : Causal first)
    (hsecond : ∀ b, Causal (second b)) :
    Causal (twoPass first second opening closing) :=
  causal_bind hfirst fun _ => causal_bind (causal_act _) fun _ =>
    causal_bind (hsecond _) fun _ => causal_act _

/-- A loop that was not refused began with its query and the first answer. -/
theorem converse_asked {request : β → σ → Except ε Q}
    {react : β → A → σ → Except ε (β ⊕ γ) × σ} {b : β} {s s' : σ} {q : Q}
    {a : A} {tail rest : List A} {said : List (Q × A)} {r : Except ε γ}
    (hq : request b s = .ok q)
    (h : converse request react b s (a :: tail) = .done said r s' rest) :
    ∃ post, said = (q, a) :: post := by
  cases converse_ends h with
  | refused hq' => cases hq.symm.trans hq'
  | failed hq' =>
      cases hq.symm.trans hq'
      exact ⟨[], rfl⟩
  | finished hq' =>
      cases hq.symm.trans hq'
      exact ⟨[], rfl⟩
  | again hq' =>
      cases hq.symm.trans hq'
      exact ⟨_, rfl⟩

theorem causal_converse (request : β → σ → Except ε Q)
    (react : β → A → σ → Except ε (β ⊕ γ) × σ) (b : β) :
    Causal (converse request react b) := by
  intro s script₁
  induction script₁ generalizing b s with
  | nil =>
      intro script₂ said₁ said₂ r₁ r₂ s₁ s₂ rest₁ rest₂ h₁ h₂
      cases converse_ends h₁ with
      | refused hq =>
          rw [converse_refused hq] at h₂
          cases h₂
          exact .inr ⟨rfl, rfl, rfl⟩
  | cons a₁ tail₁ ih =>
      intro script₂ said₁ said₂ r₁ r₂ s₁ s₂ rest₁ rest₂ h₁ h₂
      cases hq : request b s with
      | error e =>
          rw [converse_refused hq] at h₁ h₂
          cases h₁
          cases h₂
          exact .inr ⟨rfl, rfl, rfl⟩
      | ok q =>
      cases script₂ with
      | nil =>
          rw [converse_waits hq] at h₂
          cases h₂
      | cons a₂ tail₂ =>
      -- one query: the answers differ, or the rounds are the same
      by_cases ha : a₁ = a₂
      · subst ha
        rcases hr : react b a₁ s with ⟨e | b₁ | c, t⟩
        · rw [converse_fail _ hq hr] at h₁ h₂
          cases h₁
          cases h₂
          exact .inr ⟨rfl, rfl, rfl⟩
        · rw [converse_next _ hq hr] at h₁ h₂
          obtain ⟨u₁, g₁, rfl⟩ := Outcome.prepend_eq_done.mp h₁
          obtain ⟨u₂, g₂, rfl⟩ := Outcome.prepend_eq_done.mp h₂
          rcases ih _ _ _ _ _ _ _ _ _ _ _ g₁ g₂ with hparts |
            ⟨rfl, rfl, rfl⟩
          · exact .inl (hparts.prepend [(q, a₁)])
          · exact .inr ⟨rfl, rfl, rfl⟩
        · rw [converse_leave _ hq hr] at h₁ h₂
          cases h₁
          cases h₂
          exact .inr ⟨rfl, rfl, rfl⟩
      · obtain ⟨post₁, rfl⟩ := converse_asked hq h₁
        obtain ⟨post₂, rfl⟩ := converse_asked hq h₂
        exact .inl ⟨[], q, a₁, a₂, post₁, post₂, rfl, rfl, ha⟩

end Prog

/-- A program whose runs part only in answers has one run against a party. -/
theorem Meets.unique {m : Prog σ Q A ε α} (hm : m.Causal) {s s₁ s₂ : σ}
    {p p₁ p₂ : P} {said₁ said₂ : List (Q × A)} {r₁ r₂ : Except ε α}
    (h₁ : Meets party m s p said₁ r₁ s₁ p₁)
    (h₂ : Meets party m s p said₂ r₂ s₂ p₂) :
    said₁ = said₂ ∧ r₁ = r₂ ∧ s₁ = s₂ ∧ p₁ = p₂ := by
  rcases hm _ _ _ _ _ _ _ _ _ _ _ (h₁.run []) (h₂.run []) with hparts |
    ⟨rfl, rfl, rfl⟩
  · exact absurd hparts (not_parts h₁.took h₂.took)
  · exact ⟨rfl, rfl, rfl, h₁.took.unique h₂.took⟩

end Dialogue
