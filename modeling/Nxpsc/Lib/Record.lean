import Nxpsc.Lib.Bounded

/-!
# What a program takes down of the answer it ends on

A program may keep a record of what it was answered, some part `rec` of its
state. `Records rec T e` is about the runs that end in a value or in the error
`e`: the program waited for their last answer, and `T` holds between the record
at that time, the query, the answer, and the record at the end. A run that read
no answer has the record it began with. Other errors may leave anything.

The state a program waits in is no part of its outcome, so it is found by
running the program again on the answers before the last one.
-/

namespace Dialogue

variable {σ Q A ε α β γ ρ : Type}

/-- A value, or the error `e`. -/
def EndsIn (e : ε) (r : Except ε α) : Prop := ∀ e', r = .error e' → e' = e

theorem endsIn_ok (e : ε) (a : α) : EndsIn e (.ok a) := by
  rintro e' ⟨⟩

theorem endsIn_error (e : ε) : EndsIn e (.error e : Except ε α) := by
  rintro e' ⟨⟩
  rfl

theorem EndsIn.eq {e e' : ε} (h : EndsIn e (.error e' : Except ε α)) :
    e' = e := h e' rfl

namespace Prog

/-! ## Waiting -/

theorem bind_waiting {m : Prog σ Q A ε α} {s s' : σ} {script : List A}
    {said : List (Q × A)} {q : Q} (h : m s script = .waiting said q s')
    (f : α → Prog σ Q A ε β) :
    (m >>= f) s script = .waiting said q s' := by
  rw [bind_def, Prog.bind, h]

/-- Behind the answers that end the first part, the second one waits. -/
theorem Replays.bind_waiting {m : Prog σ Q A ε α} (hm : m.Replays)
    {f : α → Prog σ Q A ε β} {s s₁ s₂ : σ} {script script' rest : List A}
    {said said' : List (Q × A)} {a : α} {q : Q}
    (h : m s script = .done said (.ok a) s₁ rest)
    (hf : f a s₁ script' = .waiting said' q s₂) :
    (m >>= f) s (said.map Prod.snd ++ script') =
      .waiting (said ++ said') q s₂ := by
  rw [bind_ok (hm _ _ _ _ _ _ h script'), hf]
  rfl

theorem attempt_waiting {m : Prog σ Q A ε α} {s s' : σ} {script : List A}
    {said : List (Q × A)} {q : Q} (h : m s script = .waiting said q s') :
    attempt m s script = .waiting said q s' := by
  rw [attempt, h]

theorem ignore_waiting {m : Prog σ Q A ε α} {s s' : σ} {script : List A}
    {said : List (Q × A)} {q : Q} (h : m s script = .waiting said q s') :
    m.ignore s script = .waiting said q s' := bind_waiting h _

/-- The last round of a loop: the answer that ended it, or the one after which
the next query was refused. -/
structure LastRound (request : β → σ → Except ε Q)
    (react : β → A → σ → Except ε (β ⊕ γ) × σ) (b : β) (s : σ) (q : Q) (a : A)
    (r : Except ε γ) (s' : σ) : Prop where
  asked : request b s = .ok q
  ends : react b a s = (r.map .inr, s') ∨
    ∃ b' e, react b a s = (.ok (.inl b'), s') ∧ request b' s' = .error e ∧
      r = .error e

/-- How a loop ended: it was refused its first query, or it waited for the
answer of its last round. `I` is what the rounds keep of the state. -/
theorem converse_last {request : β → σ → Except ε Q}
    {react : β → A → σ → Except ε (β ⊕ γ) × σ} {I : σ → Prop}
    (hround : ∀ b a s b' s', I s → react b a s = (.ok (.inl b'), s') → I s')
    {b : β} {s s' : σ} {script rest : List A} {said : List (Q × A)}
    {r : Except ε γ} (hI : I s)
    (h : converse request react b s script = .done said r s' rest) :
    (said = [] ∧ s' = s ∧ ∃ e, request b s = .error e ∧ r = .error e) ∨
      ∃ pre q a b₁ s₁, said = pre ++ [(q, a)] ∧ I s₁ ∧
        converse request react b s (pre.map Prod.snd) = .waiting pre q s₁ ∧
        LastRound request react b₁ s₁ q a r s' := by
  induction script generalizing b s said with
  | nil =>
      cases converse_ends h with
      | refused hq => exact .inl ⟨rfl, rfl, _, hq, rfl⟩
  | cons a tail ih =>
      cases converse_ends h with
      | refused hq => exact .inl ⟨rfl, rfl, _, hq, rfl⟩
      | failed hq hr | finished hq hr =>
          exact .inr ⟨[], _, a, b, s, rfl, hI, converse_waits hq, hq, .inl hr⟩
      | again hq hr hrest =>
          rcases ih (hround _ _ _ _ _ hI hr) hrest with
            ⟨rfl, rfl, e, he, rfl⟩ |
            ⟨pre, q', a', b₁, s₂, rfl, hI₂, hwait, hlast⟩
          · exact .inr ⟨[], _, a, b, s, rfl, hI, converse_waits hq, hq,
              .inr ⟨_, e, hr, he, rfl⟩⟩
          · refine .inr ⟨_ :: pre, q', a', b₁, s₂, rfl, hI₂, ?_, hlast⟩
            rw [List.map_cons, converse_next _ hq hr, hwait]
            rfl

/-! ## The record -/

/-- What is recorded of the last answer of a run that ends in a value or in
`e`. -/
def Records (rec : σ → ρ) (T : ρ → Q → A → ρ → Prop) (e : ε)
    (m : Prog σ Q A ε α) : Prop :=
  ∀ s script said r s' rest, m s script = .done said r s' rest → EndsIn e r →
    (said = [] ∧ rec s' = rec s) ∨
      ∃ pre q a s₁, said = pre ++ [(q, a)] ∧
        m s (pre.map Prod.snd) = .waiting pre q s₁ ∧
        T (rec s₁) q a (rec s')

variable {rec : σ → ρ} {T : ρ → Q → A → ρ → Prop} {e : ε}

theorem records_act {f : σ → Except ε α × σ} (h : ∀ s, rec (f s).2 = rec s) :
    Records rec T e (act f : Prog σ Q A ε α) := by
  intro s script said r s' rest hdone _
  cases hdone
  exact .inl ⟨rfl, h s⟩

theorem records_pure (a : α) :
    Records rec T e (Pure.pure a : Prog σ Q A ε α) := by
  intro s script said r s' rest hdone _
  cases hdone
  exact .inl ⟨rfl, rfl⟩

theorem records_fail (e' : ε) :
    Records rec T e (fail e' : Prog σ Q A ε α) := records_act fun _ => rfl

theorem records_ofExcept (r : Except ε α) :
    Records rec T e (ofExcept r : Prog σ Q A ε α) := records_act fun _ => rfl

theorem records_ite {p : Prop} [Decidable p] {m m' : Prog σ Q A ε α}
    (hm : Records rec T e m) (hm' : Records rec T e m') :
    Records rec T e (if p then m else m') := by
  split
  · exact hm
  · exact hm'

/-- Two parts in sequence: the record of the first stands where the second
reads no answer. What the second part waits for the whole has to wait for, by
`hagain`. -/
theorem records_bind_of {m : Prog σ Q A ε α} {f : α → Prog σ Q A ε β}
    (hm : Records rec T e m) (hf : ∀ a, Records rec T e (f a))
    (hagain : ∀ s script said a s₁ rest pre q s₂,
      m s script = .done said (.ok a) s₁ rest →
      f a s₁ (pre.map Prod.snd) = .waiting pre q s₂ →
      (m >>= f) s (said.map Prod.snd ++ pre.map Prod.snd) =
        .waiting (said ++ pre) q s₂) : Records rec T e (m >>= f) := by
  intro s script said r s' rest h hend
  rcases bind_eq_done.mp h with ⟨e', h₁, rfl⟩ |
    ⟨said₁, a, s₁, rest₁, said₂, h₁, h₂, rfl⟩
  · rcases hm _ _ _ _ _ _ h₁ (fun _ he => hend _ (by cases he; rfl)) with
      hnil | ⟨pre, q, a, s₁, hsaid, hwait, hT⟩
    · exact .inl hnil
    · exact .inr ⟨pre, q, a, s₁, hsaid, bind_waiting hwait f, hT⟩
  · rcases hf a _ _ _ _ _ _ h₂ hend with ⟨rfl, hsame⟩ |
      ⟨pre, q, a', s₂, rfl, hwait, hT⟩
    · rw [List.append_nil, hsame]
      rcases hm _ _ _ _ _ _ h₁ (endsIn_ok e a) with hnil |
        ⟨pre, q, a', s₂, hsaid, hwait, hT⟩
      · exact .inl hnil
      · exact .inr ⟨pre, q, a', s₂, hsaid, bind_waiting hwait f, hT⟩
    · refine .inr ⟨said₁ ++ pre, q, a', s₂, (List.append_assoc ..).symm, ?_,
        hT⟩
      rw [List.map_append]
      exact hagain _ _ _ _ _ _ _ _ _ h₁ hwait

theorem records_bind {m : Prog σ Q A ε α} {f : α → Prog σ Q A ε β}
    (hm : Records rec T e m) (hagain : m.Replays)
    (hf : ∀ a, Records rec T e (f a)) : Records rec T e (m >>= f) :=
  records_bind_of hm hf fun _ _ _ _ _ _ _ _ _ h₁ hwait =>
    hagain.bind_waiting h₁ hwait

/-- A local step behind a program leaves its record. -/
theorem records_bind_act {m : Prog σ Q A ε α} {g : α → σ → Except ε β × σ}
    (hm : Records rec T e m) (hg : ∀ a s, rec (g a s).2 = rec s) :
    Records rec T e (m >>= fun a => act (g a)) :=
  records_bind_of hm (fun a => records_act (hg a))
    fun _ _ _ _ _ _ _ _ _ _ hwait => by cases hwait

theorem records_act_bind {g : σ → Except ε α × σ} {f : α → Prog σ Q A ε β}
    (hg : ∀ s, rec (g s).2 = rec s) (hf : ∀ a, Records rec T e (f a)) :
    Records rec T e (act g >>= f) :=
  records_bind (records_act hg) (replays_act g) hf

theorem records_get_bind {f : σ → Prog σ Q A ε β}
    (hf : ∀ a, Records rec T e (f a)) : Records rec T e (get >>= f) :=
  records_act_bind (fun _ => rfl) hf

theorem records_ofExcept_bind (r : Except ε α) {f : α → Prog σ Q A ε β}
    (hf : ∀ a, Records rec T e (f a)) : Records rec T e (ofExcept r >>= f) :=
  records_act_bind (fun _ => rfl) hf

theorem records_twoPass {τ γ : Type} {first : Prog σ Q A ε α}
    {second : β → Prog σ Q A ε α} {opening : α → σ → Except ε (β × τ)}
    {closing : τ → α → σ → Except ε γ × σ} (hfirst : Records rec T e first)
    (hagain : first.Replays) (hsecond : ∀ b, Records rec T e (second b))
    (hclosing : ∀ kept y s, rec (closing kept y s).2 = rec s) :
    Records rec T e (twoPass first second opening closing) :=
  records_bind hfirst hagain fun _ => records_act_bind (fun _ => rfl) fun _ =>
    records_bind_act (hsecond _) fun _ => hclosing _ _

theorem records_ignore {m : Prog σ Q A ε α} (hm : Records rec T e m) :
    Records rec T e m.ignore := by
  intro s script said r s' rest h hend
  obtain ⟨r', hrun, rfl⟩ := ignore_eq_done.mp h
  rcases hm _ _ _ _ _ _ hrun (fun e' he => hend e' (by rw [he]; rfl)) with
    hnil | ⟨pre, q, a, s₁, hsaid, hwait, hT⟩
  · exact .inl hnil
  · exact .inr ⟨pre, q, a, s₁, hsaid, ignore_waiting hwait, hT⟩

/-- An attempt whose error comes back behind a step that leaves the record
alone. -/
theorem records_attempt (g : σ → σ) (last : Except ε α → Except ε β)
    {m : Prog σ Q A ε α} (hm : Records rec T e m)
    (hg : ∀ s, rec (g s) = rec s)
    (hlast : ∀ e', last (.error e') = .error e') :
    Records rec T e (do
      let rc ← attempt m
      modify g
      ofExcept (last rc)) := by
  intro s script said r s' rest h hend
  rcases bind_eq_done.mp h with ⟨e', hatt, -⟩ |
    ⟨said₁, rc, s₁, rest₁, said₂, hatt, hback, rfl⟩
  · obtain ⟨r', hr, -⟩ := attempt_eq_done.mp hatt
    cases hr
  obtain ⟨r', hr, hrun⟩ := attempt_eq_done.mp hatt
  cases hr
  rw [modify_bind, ofExcept_run] at hback
  cases hback
  rw [List.append_nil, hg]
  rcases hm _ _ _ _ _ _ hrun
      (fun e' he => hend e' (by rw [he, hlast])) with
    hnil | ⟨pre, q, a, s₂, hsaid, hwait, hT⟩
  · exact .inl hnil
  · exact .inr ⟨pre, q, a, s₂, hsaid,
      bind_waiting (attempt_waiting hwait) _, hT⟩

theorem records_once {m : Prog σ Q A ε α} {q : σ → Q}
    {f : A → σ → Except ε α × σ} (hm : Once m q f)
    (h : ∀ s a, EndsIn e (f a s).1 → T (rec s) (q s) a (rec (f a s).2)) :
    Records rec T e m := by
  intro s script said r s' rest hrun hend
  obtain ⟨a, rfl, rfl, rfl, rfl⟩ := hm.done_iff.mp hrun
  exact .inr ⟨[], q s, a, s, rfl, hm.waits s, h s a hend⟩

/-- A loop whose queries are never refused with `e`. -/
theorem records_converse {request : β → σ → Except ε Q}
    {react : β → A → σ → Except ε (β ⊕ γ) × σ}
    (hask : ∀ b s, request b s ≠ .error e)
    (hreact : ∀ b s q a r s', request b s = .ok q →
      react b a s = (r, s') → EndsIn e r → (∀ b', r ≠ .ok (.inl b')) →
      T (rec s) q a (rec s')) (b : β) :
    Records rec T e (converse request react b) := by
  intro s script said r s' rest h hend
  rcases converse_last (I := fun _ => True) (fun _ _ _ _ _ _ _ => trivial)
      trivial h with
    ⟨rfl, rfl, -⟩ | ⟨pre, q, a, b₁, s₁, rfl, -, hwait, hround⟩
  · exact .inl ⟨rfl, rfl⟩
  · refine .inr ⟨pre, q, a, s₁, rfl, hwait, ?_⟩
    rcases hround.ends with hr | ⟨b', e', -, he, rfl⟩
    · refine hreact b₁ s₁ q a _ s' hround.asked hr ?_ ?_
      · intro e' he
        cases r with
        | error e₁ =>
            cases he
            exact hend e' rfl
        | ok c => cases he
      · intro b' hb
        cases r with
        | error e₁ => cases hb
        | ok c => cases hb
    · rw [hend e' rfl] at he
      exact absurd he (hask b' s')

end Prog
end Dialogue
