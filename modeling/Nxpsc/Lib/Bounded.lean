import Nxpsc.Lib.Dialogue

/-!
# How many questions a program asks

`AtMost n` bounds the queries of every run, completed or not, so a program
that keeps it comes to an end once it was given `n` answers. The bounds add up
along a program. `Once` is the program of one question, by what it asks and
what it makes of the answer; `twoPass` is a challenge and its response, two
questions with a computation after each.
-/

namespace Dialogue

variable {σ Q A ε α β : Type}

/-- At most `n` queries were put, and the run waits only where a script of
`len` answers ends. -/
def Outcome.Within (n len : Nat) : Outcome σ Q A ε α → Prop
  | .done said _ _ rest => said.length ≤ n ∧ len = said.length + rest.length
  | .waiting said _ _ => said.length < n ∧ len = said.length

namespace Prog

/-- No run puts more than `n` queries. -/
def AtMost (n : Nat) (m : Prog σ Q A ε α) : Prop :=
  ∀ s script, (m s script).Within n script.length

/-- Enough answers end a run. -/
theorem AtMost.done {n : Nat} {m : Prog σ Q A ε α} (hm : m.AtMost n) (s : σ)
    {script : List A} (hlen : n ≤ script.length) :
    ∃ said r s' rest, m s script = .done said r s' rest := by
  have h := hm s script
  cases hrun : m s script with
  | done said r s' rest => exact ⟨said, r, s', rest, rfl⟩
  | waiting said q s' =>
      rw [hrun, Outcome.Within] at h
      omega

theorem atMost_act (n : Nat) (f : σ → Except ε α × σ) :
    (act f : Prog σ Q A ε α).AtMost n :=
  fun _ _ => ⟨Nat.zero_le n, (Nat.zero_add _).symm⟩

theorem atMost_bind {n k : Nat} {m : Prog σ Q A ε α} {f : α → Prog σ Q A ε β}
    (hm : m.AtMost n) (hf : ∀ a, (f a).AtMost k) :
    (m >>= f).AtMost (n + k) := by
  intro s script
  have h₁ := hm s script
  rw [bind_def, Prog.bind]
  cases hrun : m s script with
  | waiting said q s' =>
      rw [hrun] at h₁
      exact ⟨Nat.lt_add_right k h₁.1, h₁.2⟩
  | done said r s' rest =>
  rw [hrun, Outcome.Within] at h₁
  cases r with
  | error e => exact ⟨Nat.le_trans h₁.1 (Nat.le_add_right n k), h₁.2⟩
  | ok a =>
  have h₂ := hf a s' rest
  show ((f a s' rest).prepend said).Within _ _
  cases hnext : f a s' rest with
  | waiting said' q t =>
      rw [hnext, Outcome.Within] at h₂
      simp only [Outcome.prepend, Outcome.Within, List.length_append]
      omega
  | done said' r' t rest' =>
      rw [hnext, Outcome.Within] at h₂
      simp only [Outcome.prepend, Outcome.Within, List.length_append]
      omega

theorem atMost_ite {n : Nat} {p : Prop} [Decidable p] {m m' : Prog σ Q A ε α}
    (hm : m.AtMost n) (hm' : m'.AtMost n) :
    (if p then m else m').AtMost n := by
  split
  · exact hm
  · exact hm'

/-! ## One question -/

/-- The program asks `q` and makes `f` of the answer. -/
structure Once (m : Prog σ Q A ε α) (q : σ → Q)
    (f : A → σ → Except ε α × σ) : Prop where
  waits : ∀ s, m s [] = .waiting [] (q s) s
  reads : ∀ s a rest,
    m s (a :: rest) = .done [(q s, a)] (f a s).1 (f a s).2 rest

theorem once_ask_act (q : Q) (f : A → σ → Except ε α × σ) :
    Once (ask q >>= fun a => act (f a)) (fun _ => q) f :=
  ⟨fun _ => rfl, fun _ _ _ => rfl⟩

variable {m : Prog σ Q A ε α} {q : σ → Q} {f : A → σ → Except ε α × σ}

theorem Once.atMost (hm : Once m q f) : m.AtMost 1 := by
  intro s script
  cases script with
  | nil =>
      rw [hm.waits]
      exact ⟨Nat.zero_lt_one, rfl⟩
  | cons a rest =>
      rw [hm.reads]
      exact ⟨Nat.le_refl 1, Nat.add_comm _ _⟩

theorem Once.keeps (hm : Once m q f) {I : σ → Prop}
    (h : ∀ a s, I s → I (f a s).2) : m.Keeps I := by
  intro s script said r s' rest hI hrun
  cases script with
  | nil =>
      rw [hm.waits] at hrun
      cases hrun
  | cons a tail =>
      rw [hm.reads] at hrun
      cases hrun
      exact h a s hI

/-- A run behind the answer to one question. -/
theorem Once.bind_done (hm : Once m q f) {g : α → Prog σ Q A ε β} {s s' : σ}
    {script rest : List A} {said : List (Q × A)} {r : Except ε β}
    (h : (m >>= g) s script = .done said r s' rest) :
    ∃ a tail, script = a :: tail ∧
      ((∃ e, (f a s).1 = .error e ∧ said = [(q s, a)] ∧ r = .error e ∧
          s' = (f a s).2 ∧ rest = tail) ∨
        ∃ x said', (f a s).1 = .ok x ∧ said = (q s, a) :: said' ∧
          g x (f a s).2 tail = .done said' r s' rest) := by
  cases script with
  | nil =>
      rw [bind_def, Prog.bind, hm.waits] at h
      cases h
  | cons a tail =>
      refine ⟨a, tail, rfl, ?_⟩
      rw [bind_def, Prog.bind, hm.reads] at h
      cases hr : (f a s).1 with
      | error e =>
          rw [hr] at h
          cases h
          exact .inl ⟨e, rfl, rfl, rfl, rfl, rfl⟩
      | ok x =>
          rw [hr] at h
          obtain ⟨said', hg, rfl⟩ := Outcome.prepend_eq_done.mp h
          exact .inr ⟨x, said', rfl, rfl, hg⟩

theorem Once.done_iff (hm : Once m q f) {s s' : σ} {script rest : List A}
    {said : List (Q × A)} {r : Except ε α} :
    m s script = .done said r s' rest ↔
      ∃ a, script = a :: rest ∧ said = [(q s, a)] ∧ r = (f a s).1 ∧
        s' = (f a s).2 := by
  cases script with
  | nil =>
      rw [hm.waits]
      simp only [reduceCtorEq, false_and, exists_false]
  | cons a tail =>
      rw [hm.reads]
      constructor
      · intro h
        cases h
        exact ⟨a, rfl, rfl, rfl, rfl⟩
      · rintro ⟨a', ha, rfl, rfl, rfl⟩
        cases ha
        rfl

theorem Once.replays (hm : Once m q f) : m.Replays := by
  intro s script said r s' rest h rest'
  obtain ⟨a, rfl, rfl, rfl, rfl⟩ := hm.done_iff.mp h
  exact hm.reads s a rest'

/-- Goes on with a local step where the last one ended in a value. -/
def andThen (r : Except ε α × σ) (g : α → σ → Except ε β × σ) :
    Except ε β × σ :=
  match r.1 with
  | .ok x => g x r.2
  | .error e => (.error e, r.2)

/-- One question stays one when a local step follows. -/
theorem Once.bind_act (hm : Once m q f) (g : α → σ → Except ε β × σ) :
    Once (m >>= fun x => act (g x)) q fun a s => andThen (f a s) g where
  waits s := by rw [bind_def, Prog.bind, hm.waits]
  reads s a rest := by
    rw [bind_def, Prog.bind, hm.reads, andThen]
    cases (f a s).1 <;> rfl

/-- A bound on what follows each answer to one question. -/
theorem atMost_answered (hm : Once m q f) {g : α → Prog σ Q A ε β} {n : Nat}
    (hg : ∀ s a x, (f a s).1 = .ok x →
      ∀ script, (g x (f a s).2 script).Within n script.length) :
    (m >>= g).AtMost (n + 1) := by
  intro s script
  rw [bind_def, Prog.bind]
  cases script with
  | nil =>
      rw [hm.waits]
      exact ⟨Nat.zero_lt_succ n, rfl⟩
  | cons a tail =>
  rw [hm.reads]
  cases hr : (f a s).1 with
  | error e => exact ⟨Nat.le_add_left 1 n, Nat.add_comm _ _⟩
  | ok x =>
  have h := hg s a x hr tail
  show ((g x (f a s).2 tail).prepend [(q s, a)]).Within _ _
  cases hrun : g x (f a s).2 tail with
  | waiting said q' t =>
      rw [hrun, Outcome.Within] at h
      simp only [Outcome.prepend, Outcome.Within, List.length_cons,
        List.singleton_append]
      omega
  | done said r t rest =>
      rw [hrun, Outcome.Within] at h
      simp only [Outcome.prepend, Outcome.Within, List.length_cons,
        List.singleton_append]
      omega

/-! ## Challenge and response -/

/-- Two questions. The second is made of the answer to the first, and what is
kept of that answer is there when the second one is judged. -/
def twoPass {τ β γ : Type} (first : Prog σ Q A ε α)
    (second : β → Prog σ Q A ε α)
    (opening : α → σ → Except ε (β × τ))
    (closing : τ → α → σ → Except ε γ × σ) : Prog σ Q A ε γ := do
  let x ← first
  let made ← act fun s => (opening x s, s)
  let y ← second made.1
  act (closing made.2 y)

/-- Local computations in a row are one. -/
theorem ofExcept_bind_bind {γ : Type} (r : Except ε α) (f : α → Except ε β)
    (g : β → Prog σ Q A ε γ) :
    (ofExcept r >>= fun a => ofExcept (f a) >>= g) =
      (ofExcept (r >>= f) >>= g) := by
  cases r with
  | error e => rw [ofExcept_error_bind]; exact (ofExcept_error_bind e g).symm
  | ok a => rw [ofExcept_ok_bind]; rfl

section

variable {τ γ : Type} {first : Prog σ Q A ε α} {second : β → Prog σ Q A ε α}
  {opening : α → σ → Except ε (β × τ)}
  {closing : τ → α → σ → Except ε γ × σ} {q₁ : σ → Q} {q₂ : β → σ → Q}
  {f₁ f₂ : A → σ → Except ε α × σ}

/-- The run of a challenge and response, up to where it failed. -/
theorem twoPass_done (hfirst : Once first q₁ f₁)
    (hsecond : ∀ x s b kept, opening x s = .ok (b, kept) →
      Once (second b) (q₂ b) f₂)
    {s s' : σ} {script rest : List A} {said : List (Q × A)} {r : Except ε γ}
    (h : twoPass first second opening closing s script =
      .done said r s' rest) :
    (∃ a e, script = a :: rest ∧ said = [(q₁ s, a)] ∧ r = .error e ∧
      s' = (f₁ a s).2 ∧ ((f₁ a s).1 = .error e ∨
        ∃ x, (f₁ a s).1 = .ok x ∧ opening x s' = .error e)) ∨
    ∃ a b x made, script = a :: b :: rest ∧
      said = [(q₁ s, a), (q₂ made.1 (f₁ a s).2, b)] ∧
      (f₁ a s).1 = .ok x ∧ opening x (f₁ a s).2 = .ok made ∧
      ((∃ e, (f₂ b (f₁ a s).2).1 = .error e ∧ r = .error e ∧
          s' = (f₂ b (f₁ a s).2).2) ∨
        ∃ y, (f₂ b (f₁ a s).2).1 = .ok y ∧
          closing made.2 y (f₂ b (f₁ a s).2).2 = (r, s')) := by
  obtain ⟨a, tail, rfl, hone⟩ := hfirst.bind_done h
  rcases hone with ⟨e, hf, rfl, rfl, rfl, rfl⟩ | ⟨x, said₁, hf, rfl, h₁⟩
  · exact .inl ⟨a, e, rfl, rfl, rfl, rfl, .inl hf⟩
  rw [act_bind] at h₁
  cases hopen : opening x (f₁ a s).2 with
  | error e =>
      simp only [hopen, Outcome.done.injEq] at h₁
      obtain ⟨rfl, rfl, rfl, rfl⟩ := h₁
      exact .inl ⟨a, e, rfl, rfl, rfl, rfl, .inr ⟨x, hf, hopen⟩⟩
  | ok made =>
  simp only [hopen] at h₁
  obtain ⟨b, tail₂, rfl, htwo⟩ := (hsecond _ _ _ _ hopen).bind_done h₁
  refine .inr ⟨a, b, x, made, ?_⟩
  rcases htwo with ⟨e, hg, rfl, rfl, rfl, rfl⟩ | ⟨y, said₂, hg, rfl, h₂⟩
  · exact ⟨rfl, rfl, hf, hopen, .inl ⟨e, hg, rfl, rfl⟩⟩
  · cases h₂
    exact ⟨rfl, rfl, hf, hopen, .inr ⟨y, hg, rfl⟩⟩

/-- Apart from the two questions, only the closing writes. -/
theorem keeps_twoPass {I : σ → Prop} (hfirst : Keeps I first)
    (hsecond : ∀ b, Keeps I (second b))
    (hclosing : ∀ kept y s, I s → I (closing kept y s).2) :
    Keeps I (twoPass first second opening closing) :=
  keeps_bind hfirst fun _ => keeps_bind (keeps_act fun _ hI => hI) fun _ =>
    keeps_bind (hsecond _) fun _ => keeps_act (hclosing _ _)

theorem spares_twoPass {I : σ → Prop} (hfirst : Keeps I first)
    (hsecond : ∀ b, Keeps I (second b))
    (hclosing : ∀ kept y s e, I s → (closing kept y s).1 = .error e →
      I (closing kept y s).2) :
    Spares I (twoPass first second opening closing) :=
  spares_bind hfirst fun _ => spares_bind (keeps_act fun _ hI => hI) fun _ =>
    spares_bind (hsecond _) fun _ => spares_act (hclosing _ _)

theorem leaves_twoPass {P : σ → Prop}
    (hclosing : ∀ kept y s c s', closing kept y s = (.ok c, s') → P s') :
    Leaves P (twoPass first second opening closing) :=
  leaves_bind fun _ => leaves_bind fun _ => leaves_bind fun _ =>
    leaves_act (hclosing _ _)

/-- It reads one answer, or two of which it may make a result. -/
theorem twoPass_read (hfirst : Once first q₁ f₁)
    (hsecond : ∀ x s b kept, opening x s = .ok (b, kept) →
      Once (second b) (q₂ b) f₂)
    {s s' : σ} {script rest : List A} {said : List (Q × A)} {r : Except ε γ}
    (h : twoPass first second opening closing s script =
      .done said r s' rest) :
    said ≠ [] ∧ script = said.map Prod.snd ++ rest ∧
      ((∃ c, r = .ok c) → said.length = 2) := by
  rcases twoPass_done hfirst hsecond h with ⟨a, e, rfl, rfl, rfl, -⟩ |
    ⟨a, b, x, made, rfl, rfl, -⟩
  · refine ⟨List.cons_ne_nil _ _, rfl, ?_⟩
    rintro ⟨c, hc⟩
    cases hc
  · exact ⟨List.cons_ne_nil _ _, rfl, fun _ => rfl⟩

theorem twoPass_atMost (hfirst : Once first q₁ f₁)
    (hsecond : ∀ x s b kept, opening x s = .ok (b, kept) →
      Once (second b) (q₂ b) f₂) :
    (twoPass first second opening closing).AtMost 2 := by
  refine atMost_answered hfirst fun s a x hx => ?_
  intro script
  rw [act_bind]
  cases hopen : opening x (f₁ a s).2 with
  | error e => exact ⟨Nat.zero_le 1, (Nat.zero_add _).symm⟩
  | ok made =>
      exact atMost_bind (hsecond _ _ _ _ hopen).atMost
        (fun y => atMost_act 0 (closing made.2 y)) _ script

end

end Prog
end Dialogue
