import Nxpsc.Lib.Dialogue

/-!
# What was said between two states

A completed run is a state, a stretch of conversation and another state. A
property of all three that holds of saying nothing and composes is proved of
a program part by part, as an invariant of the state alone is by `Keeps`; it
may follow the other party through the conversation, which the state does not
record.

A run that still waits has no end state, so what it may put to the party is
stated query by query: `Puts` is a query together with everything that was
said before it.
-/

namespace Dialogue

variable {σ Q A ε α β γ : Type}

/-- A property of stretches of a run that composes. -/
structure Composes (R : σ → List (Q × A) → σ → Prop) : Prop where
  nil : ∀ s, R s [] s
  append : ∀ {s s₁ s₂ : σ} {u v : List (Q × A)}, R s u s₁ → R s₁ v s₂ →
    R s (u ++ v) s₂

/-- The query was put after `pre` was said. -/
def Outcome.Puts (o : Outcome σ Q A ε α) (pre : List (Q × A)) (q : Q) : Prop :=
  match o with
  | .done said _ _ _ => ∃ a post, said = pre ++ (q, a) :: post
  | .waiting said q' _ =>
      (pre = said ∧ q = q') ∨ ∃ a post, said = pre ++ (q, a) :: post

/-- The queries of a run, with the one that still waits. -/
def Outcome.queries : Outcome σ Q A ε α → List Q
  | .done said _ _ _ => said.map Prod.fst
  | .waiting said q _ => said.map Prod.fst ++ [q]

theorem Outcome.queries_prepend (pre : List (Q × A)) (o : Outcome σ Q A ε α) :
    (o.prepend pre).queries = pre.map Prod.fst ++ o.queries := by
  cases o with
  | done said r s rest => exact List.map_append
  | waiting said q s =>
      simp only [prepend, queries, List.map_append, List.append_assoc]

/-- A query put after a first exchange is that one's, or comes later. -/
theorem Outcome.puts_prepend {o : Outcome σ Q A ε α} {x : Q × A}
    {pre : List (Q × A)} {q : Q} (h : (o.prepend [x]).Puts pre q) :
    (pre = [] ∧ q = x.1) ∨ ∃ tail, pre = x :: tail ∧ o.Puts tail q := by
  have hsplit : ∀ {said : List (Q × A)} {a : A} {post : List (Q × A)},
      x :: said = pre ++ (q, a) :: post → (pre = [] ∧ q = x.1) ∨
        ∃ tail, pre = x :: tail ∧ said = tail ++ (q, a) :: post := by
    intro said a post heq
    cases pre with
    | nil =>
        cases heq
        exact .inl ⟨rfl, rfl⟩
    | cons y tail =>
        cases heq
        exact .inr ⟨tail, rfl, rfl⟩
  cases o with
  | done said r s rest =>
      obtain ⟨a, post, heq⟩ := h
      rcases hsplit heq with hfirst | ⟨tail, hpre, hsaid⟩
      · exact .inl hfirst
      · exact .inr ⟨tail, hpre, a, post, hsaid⟩
  | waiting said q' s =>
      rcases h with ⟨hpre, hq⟩ | ⟨a, post, heq⟩
      · exact .inr ⟨said, hpre, .inl ⟨rfl, hq⟩⟩
      · rcases hsplit heq with hfirst | ⟨tail, hpre, hsaid⟩
        · exact .inl hfirst
        · exact .inr ⟨tail, hpre, .inr ⟨a, post, hsaid⟩⟩

namespace Prog

/-- Every completed run of the program stands in `R`. -/
def Traces (R : σ → List (Q × A) → σ → Prop) (m : Prog σ Q A ε α) : Prop :=
  ∀ s script said r s' rest, m s script = .done said r s' rest → R s said s'

variable {R : σ → List (Q × A) → σ → Prop}

theorem traces_act {f : σ → Except ε α × σ} (h : ∀ s, R s [] (f s).2) :
    Traces R (act f : Prog σ Q A ε α) := by
  intro s script said r s' rest hdone
  cases hdone
  exact h s

theorem traces_ask {q : Q} (h : ∀ s a, R s [(q, a)] s) :
    Traces R (ask q : Prog σ Q A ε A) := by
  intro s script said r s' rest hdone
  cases script with
  | nil => cases hdone
  | cons a tail =>
      cases hdone
      exact h s a

theorem traces_bind (hR : Composes R) {m : Prog σ Q A ε α}
    {f : α → Prog σ Q A ε β} (hm : Traces R m) (hf : ∀ a, Traces R (f a)) :
    Traces R (m >>= f) := by
  intro s script said r s' rest h
  rcases bind_eq_done.mp h with ⟨e, h, -⟩ |
    ⟨said₁, a, s₁, rest₁, said₂, h₁, h₂, rfl⟩
  · exact hm _ _ _ _ _ _ h
  · exact hR.append (hm _ _ _ _ _ _ h₁) (hf _ _ _ _ _ _ _ h₂)

theorem traces_ite {p : Prop} [Decidable p] {m m' : Prog σ Q A ε α}
    (hm : Traces R m) (hm' : Traces R m') :
    Traces R (if p then m else m') := by
  split
  · exact hm
  · exact hm'

theorem traces_ignore {m : Prog σ Q A ε α} (hm : Traces R m) :
    Traces R (ignore m) := by
  intro s script said r s' rest h
  obtain ⟨r', h, -⟩ := ignore_eq_done.mp h
  exact hm _ _ _ _ _ _ h

theorem traces_pure (hR : Composes R) (a : α) :
    Traces R (Pure.pure a : Prog σ Q A ε α) := by
  intro s script said r s' rest hdone
  cases hdone
  exact hR.nil s

theorem traces_fail (hR : Composes R) (e : ε) :
    Traces R (fail e : Prog σ Q A ε α) :=
  traces_act hR.nil

theorem traces_ofExcept (hR : Composes R) (r : Except ε α) :
    Traces R (ofExcept r : Prog σ Q A ε α) :=
  traces_act hR.nil

theorem traces_get (hR : Composes R) : Traces R (get : Prog σ Q A ε σ) :=
  traces_act hR.nil

/-- What a loop puts: `J` holds of what was said, the loop value and the state
at the head of every round. -/
theorem converse_puts {request : β → σ → Except ε Q}
    {react : β → A → σ → Except ε (β ⊕ γ) × σ}
    (J : List (Q × A) → β → σ → Prop) (P : List (Q × A) → Q → Prop)
    (hput : ∀ said b s q, J said b s → request b s = .ok q → P said q)
    (hround : ∀ said b s q a b' s', J said b s → request b s = .ok q →
      react b a s = (.ok (.inl b'), s') → J (said ++ [(q, a)]) b' s')
    {b : β} {s : σ} {script : List A} {pre : List (Q × A)} {q : Q}
    (hJ : J [] b s) (h : (converse request react b s script).Puts pre q) :
    P pre q := by
  have hgen : ∀ (script : List A) (front : List (Q × A)) (b : β) (s : σ)
      (pre : List (Q × A)), J front b s →
      (converse request react b s script).Puts pre q →
      P (front ++ pre) q := by
    intro script
    induction script with
    | nil =>
        intro front b s pre hJ h
        cases hq : request b s with
        | error e =>
            rw [converse_refused hq] at h
            obtain ⟨a, post, hnil⟩ := h
            exact absurd hnil (by simp)
        | ok q' =>
            rw [converse_waits hq] at h
            rcases h with ⟨rfl, rfl⟩ | ⟨a, post, hnil⟩
            · rw [List.append_nil]
              exact hput _ _ _ _ hJ hq
            · exact absurd hnil (by simp)
    | cons a tail ih =>
        intro front b s pre hJ h
        cases hq : request b s with
        | error e =>
            rw [converse_refused hq] at h
            obtain ⟨a, post, hnil⟩ := h
            exact absurd hnil (by simp)
        | ok q' =>
        have hhere := hput _ _ _ _ hJ hq
        have hone : ∀ a' post, [(q', a)] = pre ++ (q, a') :: post →
            P (front ++ pre) q := by
          intro a' post heq
          cases pre with
          | nil =>
              cases heq
              rwa [List.append_nil]
          | cons x xs => simp at heq
        rcases hr : react b a s with ⟨e | b' | c, s'⟩
        · rw [converse_fail tail hq hr] at h
          obtain ⟨a', post, heq⟩ := h
          exact hone a' post heq
        · rw [converse_next tail hq hr] at h
          -- the query of this round, or one of a later round
          rcases Outcome.puts_prepend h with ⟨rfl, rfl⟩ | ⟨tail', rfl, hlater⟩
          · rwa [List.append_nil]
          · have := ih (front ++ [(q', a)]) b' s' tail'
              (hround _ _ _ _ _ _ _ hJ hq hr) hlater
            rwa [List.append_assoc] at this
        · rw [converse_leave tail hq hr] at h
          obtain ⟨a', post, heq⟩ := h
          exact hone a' post heq
  exact hgen script [] b s pre hJ h

/-- A loop that still waits went round again on every answer it read. -/
theorem converse_waiting {request : β → σ → Except ε Q}
    {react : β → A → σ → Except ε (β ⊕ γ) × σ} {I : σ → Prop} {P : A → Prop}
    (hround : ∀ b a s b' s', I s → react b a s = (.ok (.inl b'), s') →
      P a ∧ I s')
    {b : β} {s s' : σ} {script : List A} {said : List (Q × A)} {q : Q}
    (hI : I s) (h : converse request react b s script = .waiting said q s') :
    ∀ a ∈ script, P a := by
  induction script generalizing b s s' said q with
  | nil => intro a ha; cases ha
  | cons a tail ih =>
      cases hq : request b s with
      | error e =>
          rw [converse_refused hq] at h
          cases h
      | ok q₀ =>
      rcases hr : react b a s with ⟨e | b₁ | c, s₁⟩
      · rw [converse_fail tail hq hr] at h
        cases h
      · rw [converse_next tail hq hr] at h
        obtain ⟨hP, hI₁⟩ := hround b a s b₁ s₁ hI hr
        cases hrest : converse request react b₁ s₁ tail with
        | done said₁ r s₂ rest =>
            rw [hrest] at h
            cases h
        | waiting said₁ q₁ s₂ =>
            intro a' ha'
            rcases List.mem_cons.mp ha' with rfl | hmem
            · exact hP
            · exact ih hI₁ hrest a' hmem
      · rw [converse_leave tail hq hr] at h
        cases h

/-! ## The queries of a run, counted -/

/-- The queries of what comes behind an outcome. -/
def behind (o : Outcome σ Q A ε α) (f : α → Prog σ Q A ε β) : List Q :=
  match o with
  | .done _ (.ok a) s rest => (f a s rest).queries
  | .done _ (.error _) _ _ | .waiting .. => []

theorem queries_bind (m : Prog σ Q A ε α) (f : α → Prog σ Q A ε β) (s : σ)
    (script : List A) :
    ((m >>= f) s script).queries =
      (m s script).queries ++ behind (m s script) f := by
  rw [bind_def, Prog.bind]
  cases m s script with
  | waiting said q s' => exact (List.append_nil _).symm
  | done said r s' rest =>
      cases r with
      | error e => exact (List.append_nil _).symm
      | ok a => exact Outcome.queries_prepend said (f a s' rest)

theorem behind_congr {f : α → Prog σ Q A ε β} {g : α → Prog σ Q A ε γ}
    (h : ∀ a s script, (f a s script).queries = (g a s script).queries)
    (o : Outcome σ Q A ε α) : behind o f = behind o g := by
  cases o with
  | waiting said q s => rfl
  | done said r s rest =>
      cases r with
      | error e => rfl
      | ok a => exact h a s rest

theorem behind_silent {f : α → Prog σ Q A ε β}
    (hf : ∀ a s script, (f a s script).queries = []) (o : Outcome σ Q A ε α) :
    behind o f = [] := by
  cases o with
  | waiting said q s => rfl
  | done said r s rest =>
      cases r with
      | error e => rfl
      | ok a => exact hf a s rest

theorem queries_bind_congr {m : Prog σ Q A ε α} {f : α → Prog σ Q A ε β}
    {g : α → Prog σ Q A ε γ}
    (h : ∀ a s script, (f a s script).queries = (g a s script).queries) (s : σ)
    (script : List A) :
    ((m >>= f) s script).queries = ((m >>= g) s script).queries := by
  rw [queries_bind, queries_bind, behind_congr h]

/-- What puts no queries behind a program leaves them as they are. -/
theorem queries_bind_silent {m : Prog σ Q A ε α} {f : α → Prog σ Q A ε β}
    (hf : ∀ a s script, (f a s script).queries = []) (s : σ)
    (script : List A) :
    ((m >>= f) s script).queries = (m s script).queries := by
  rw [queries_bind, behind_silent hf, List.append_nil]

theorem queries_attempt (m : Prog σ Q A ε α) (s : σ) (script : List A) :
    (m.attempt s script).queries = (m s script).queries := by
  rw [attempt]
  cases m s script <;> rfl

theorem queries_ignore (m : Prog σ Q A ε α) (s : σ) (script : List A) :
    (m.ignore s script).queries = (m s script).queries :=
  queries_bind_silent (fun _ _ _ => rfl) s script

/-- A loop that may ask puts the query of its first round. -/
theorem queries_converse {request : β → σ → Except ε Q}
    {react : β → A → σ → Except ε (β ⊕ γ) × σ} {b : β} {s : σ} {q : Q}
    (hq : request b s = .ok q) (script : List A) :
    ∃ qs, (converse request react b s script).queries = q :: qs := by
  cases script with
  | nil =>
      rw [converse_waits hq]
      exact ⟨[], rfl⟩
  | cons a tail =>
      rcases hr : react b a s with ⟨e | b' | c, s'⟩
      · rw [converse_fail tail hq hr]
        exact ⟨[], rfl⟩
      · rw [converse_next tail hq hr, Outcome.queries_prepend]
        exact ⟨_, rfl⟩
      · rw [converse_leave tail hq hr]
        exact ⟨[], rfl⟩

/-- What comes behind a program leaves its first query where it is. -/
theorem queries_bind_first {m : Prog σ Q A ε α} {s : σ} {script : List A}
    {q : Q} {qs : List Q} (f : α → Prog σ Q A ε β)
    (h : (m s script).queries = q :: qs) :
    ∃ qs', ((m >>= f) s script).queries = q :: qs' := by
  rw [queries_bind, h]
  exact ⟨_, rfl⟩

section

variable {request : β → σ → Except ε Q}
  {react : β → A → σ → Except ε (β ⊕ γ) × σ} {f : γ → Prog σ Q A ε α}
  {b b' : β} {c : γ} {e : ε} {s s' : σ} {q : Q} {a : A}

theorem converse_bind_nil (hq : request b s = .ok q) :
    (converse request react b >>= f) s [] = .waiting [] q s := by
  rw [bind_def, Prog.bind, converse_waits hq]

theorem converse_bind_error (hq : request b s = .ok q)
    (hr : react b a s = (.error e, s')) (rest : List A) :
    (converse request react b >>= f) s (a :: rest) =
      .done [(q, a)] (.error e) s' rest :=
  bind_error (converse_fail rest hq hr)

theorem converse_bind_leave (hq : request b s = .ok q)
    (hr : react b a s = (.ok (.inr c), s')) (rest : List A) :
    (converse request react b >>= f) s (a :: rest) =
      (f c s' rest).prepend [(q, a)] :=
  bind_ok (converse_leave rest hq hr)

/-- A round is before whatever the loop goes on to. -/
theorem converse_bind_again (hq : request b s = .ok q)
    (hr : react b a s = (.ok (.inl b'), s')) (rest : List A) :
    (converse request react b >>= f) s (a :: rest) =
      ((converse request react b' >>= f) s' rest).prepend [(q, a)] :=
  bind_prepend (converse_next rest hq hr) f

end

end Prog
end Dialogue
