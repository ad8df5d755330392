import Mathlib.Data.List.Basic

/-!
# Dialogues: programs that talk to a party they cannot trust

A program here owns a state `σ`, puts queries of type `Q` to an outside
party and reads back answers of type `A`; it ends in a value or in an error
of type `ε`. Nothing is assumed of the party: a run is a function of the
state and of the *script*, the list of answers the party will give, and a
statement about every script is a statement about every party, a reactive
and hostile one included, because whatever such a party answers during a
run is a list in the end.

The script is also what bounds a run. A loop that waits for an answer on
every round, as `converse` does, recurses on the script itself, so there is
no fuel to choose and none to run out of: a program that would talk forever
simply has no outcome `done` for any script, only ever longer ones that end
in `waiting`.

What was said is returned rather than accumulated in the state, so a fact
about one call reads the same wherever in a longer run the call stands.
-/

namespace Dialogue

/-- How far a run came on its script: it ended, with the script's unread
rest, or it is waiting for the answer to a query it has already put. -/
inductive Outcome (σ Q A ε α : Type) where
  | done (said : List (Q × A)) (r : Except ε α) (s : σ) (rest : List A)
  | waiting (said : List (Q × A)) (q : Q) (s : σ)

/-- A program: its outcome from a state, on a script of answers. -/
def Prog (σ Q A ε α : Type) := σ → List A → Outcome σ Q A ε α

variable {σ Q A ε α β γ : Type}

/-- Puts an earlier part of the conversation before an outcome. -/
def Outcome.prepend (pre : List (Q × A)) :
    Outcome σ Q A ε α → Outcome σ Q A ε α
  | .done said r s rest => .done (pre ++ said) r s rest
  | .waiting said q s => .waiting (pre ++ said) q s

@[simp] theorem Outcome.prepend_nil (o : Outcome σ Q A ε α) :
    o.prepend [] = o := by
  cases o <;> rfl

@[simp] theorem Outcome.prepend_prepend (xs ys : List (Q × A))
    (o : Outcome σ Q A ε α) :
    (o.prepend ys).prepend xs = o.prepend (xs ++ ys) := by
  cases o <;> simp [Outcome.prepend]

theorem Outcome.prepend_eq_done {pre said : List (Q × A)}
    {o : Outcome σ Q A ε α} {r : Except ε α} {s : σ} {rest : List A} :
    o.prepend pre = .done said r s rest ↔
      ∃ said', o = .done said' r s rest ∧ said = pre ++ said' := by
  cases o with
  | done said₀ r₀ s₀ rest₀ =>
      simp only [Outcome.prepend, Outcome.done.injEq]
      constructor
      · rintro ⟨rfl, rfl, rfl, rfl⟩
        exact ⟨said₀, ⟨rfl, rfl, rfl, rfl⟩, rfl⟩
      · rintro ⟨said', ⟨rfl, rfl, rfl, rfl⟩, rfl⟩
        exact ⟨rfl, rfl, rfl, rfl⟩
  | waiting said₀ q s₀ => simp [Outcome.prepend]

namespace Prog

/-! ## The operations -/

def pure (a : α) : Prog σ Q A ε α := fun s script => .done [] (.ok a) s script

/-- Runs the first program and, when it ended in a value, the second on what
is left of the script. An error ends the whole. -/
def bind (m : Prog σ Q A ε α) (f : α → Prog σ Q A ε β) : Prog σ Q A ε β :=
  fun s script =>
    match m s script with
    | .done said (.ok a) s' rest => (f a s' rest).prepend said
    | .done said (.error e) s' rest => .done said (.error e) s' rest
    | .waiting said q s' => .waiting said q s'

instance : Monad (Prog σ Q A ε) where
  pure := Prog.pure
  bind := Prog.bind

/-- A local step: reads and writes the state, says nothing. -/
def act (f : σ → Except ε α × σ) : Prog σ Q A ε α :=
  fun s script => .done [] (f s).1 (f s).2 script

def fail (e : ε) : Prog σ Q A ε α := act fun s => (.error e, s)

def get : Prog σ Q A ε σ := act fun s => (.ok s, s)

def modify (f : σ → σ) : Prog σ Q A ε Unit := act fun s => (.ok (), f s)

def ofExcept (r : Except ε α) : Prog σ Q A ε α := act fun s => (r, s)

/-- Puts one query and returns its answer. -/
def ask (q : Q) : Prog σ Q A ε A := fun s script =>
  match script with
  | [] => .waiting [] q s
  | a :: rest => .done [(q, a)] (.ok a) s rest

/-- Turns an error into a value, so that the program can go on after it. -/
def attempt (m : Prog σ Q A ε α) : Prog σ Q A ε (Except ε α) :=
  fun s script =>
    match m s script with
    | .done said r s' rest => .done said (.ok r) s' rest
    | .waiting said q s' => .waiting said q s'

/-- Forgets the value, keeps everything else. -/
def ignore (m : Prog σ Q A ε α) : Prog σ Q A ε Unit := m.bind fun _ => pure ()

/-- The rounds of `converse`, on the script they read. -/
def converseOn (request : β → σ → Except ε Q)
    (react : β → A → σ → Except ε (β ⊕ γ) × σ) :
    List A → β → σ → Outcome σ Q A ε γ
  | [], b, s =>
      match request b s with
      | .error e => .done [] (.error e) s []
      | .ok q => .waiting [] q s
  | a :: rest, b, s =>
      match request b s with
      | .error e => .done [] (.error e) s (a :: rest)
      | .ok q =>
          match react b a s with
          | (.error e, s') => .done [(q, a)] (.error e) s' rest
          | (.ok (.inr c), s') => .done [(q, a)] (.ok c) s' rest
          | (.ok (.inl b'), s') =>
              (converseOn request react rest b' s').prepend [(q, a)]

/-- A loop that asks on every round: make the query, read the answer, go
round again with a new loop value or leave with a result. The query may be
refused before it is put. -/
def converse (request : β → σ → Except ε Q)
    (react : β → A → σ → Except ε (β ⊕ γ) × σ) (b : β) : Prog σ Q A ε γ :=
  fun s script => converseOn request react script b s

/-! ## The rounds of a loop -/

section

variable {request : β → σ → Except ε Q}
  {react : β → A → σ → Except ε (β ⊕ γ) × σ} {b b' : β} {s s' : σ} {q : Q}
  {a : A}

theorem converse_refused {e : ε} (hq : request b s = .error e)
    (script : List A) :
    converse request react b s script = .done [] (.error e) s script := by
  cases script with
  | nil => simp only [converse, converseOn, hq]
  | cons a tail => simp only [converse, converseOn, hq]

/-- The query of a round is put before its answer is there. -/
theorem converse_waits (hq : request b s = .ok q) :
    converse request react b s [] = .waiting [] q s := by
  simp only [converse, converseOn, hq]

/-- A round that goes on. -/
theorem converse_next (rest : List A) (hq : request b s = .ok q)
    (hr : react b a s = (.ok (.inl b'), s')) :
    converse request react b s (a :: rest) =
      (converse request react b' s' rest).prepend [(q, a)] := by
  simp only [converse, converseOn, hq, hr]

/-- A round that leaves with a result. -/
theorem converse_leave {c : γ} (rest : List A) (hq : request b s = .ok q)
    (hr : react b a s = (.ok (.inr c), s')) :
    converse request react b s (a :: rest) =
      .done [(q, a)] (.ok c) s' rest := by
  simp only [converse, converseOn, hq, hr]

/-- A round that fails. -/
theorem converse_fail {e : ε} (rest : List A) (hq : request b s = .ok q)
    (hr : react b a s = (.error e, s')) :
    converse request react b s (a :: rest) =
      .done [(q, a)] (.error e) s' rest := by
  simp only [converse, converseOn, hq, hr]

end

/-! ## How a run that ended came about

Peeling a completed run apart, one operation at a time. -/

theorem bind_def (m : Prog σ Q A ε α) (f : α → Prog σ Q A ε β) :
    m >>= f = m.bind f := rfl

theorem pure_def (a : α) : (Pure.pure a : Prog σ Q A ε α) = Prog.pure a := rfl

theorem bind_eq_done {m : Prog σ Q A ε α} {f : α → Prog σ Q A ε β} {s s' : σ}
    {script rest : List A} {said : List (Q × A)} {r : Except ε β} :
    (m >>= f) s script = .done said r s' rest ↔
      (∃ e, m s script = .done said (.error e) s' rest ∧ r = .error e) ∨
      (∃ said₁ a s₁ rest₁ said₂, m s script = .done said₁ (.ok a) s₁ rest₁ ∧
        f a s₁ rest₁ = .done said₂ r s' rest ∧ said = said₁ ++ said₂) := by
  rw [bind_def, Prog.bind]
  split
  · next said₁ a s₁ rest₁ hm =>
      rw [hm, Outcome.prepend_eq_done]
      constructor
      · rintro ⟨said₂, hf, hsaid⟩
        exact .inr ⟨said₁, a, s₁, rest₁, said₂, rfl, hf, hsaid⟩
      · rintro (⟨e, he, -⟩ | ⟨said₁', a', s₁', rest₁', said₂, heq, hf, hsaid⟩)
        · simp at he
        · simp only [Outcome.done.injEq, Except.ok.injEq] at heq
          obtain ⟨rfl, rfl, rfl, rfl⟩ := heq
          exact ⟨said₂, hf, hsaid⟩
  · next said₁ e s₁ rest₁ hm =>
      rw [hm]
      simp only [Outcome.done.injEq, Except.error.injEq, reduceCtorEq,
        false_and, and_false, exists_false, or_false]
      constructor
      · rintro ⟨rfl, rfl, rfl, rfl⟩
        exact ⟨e, ⟨rfl, rfl, rfl, rfl⟩, rfl⟩
      · rintro ⟨e', ⟨rfl, rfl, rfl, rfl⟩, rfl⟩
        exact ⟨rfl, rfl, rfl, rfl⟩
  · next said₁ q s₁ hm => rw [hm]; simp

theorem bind_ok {m : Prog σ Q A ε α} {f : α → Prog σ Q A ε β} {s s₁ : σ}
    {script rest : List A} {said : List (Q × A)} {a : α}
    (h : m s script = .done said (.ok a) s₁ rest) :
    (m >>= f) s script = (f a s₁ rest).prepend said := by
  rw [bind_def, Prog.bind, h]

theorem bind_error {m : Prog σ Q A ε α} {f : α → Prog σ Q A ε β} {s s₁ : σ}
    {script rest : List A} {said : List (Q × A)} {e : ε}
    (h : m s script = .done said (.error e) s₁ rest) :
    (m >>= f) s script = .done said (.error e) s₁ rest := by
  rw [bind_def, Prog.bind, h]

/-- Where a program ran as another did behind a part of the script, so does
what it is followed by. -/
theorem bind_prepend {m m' : Prog σ Q A ε α} {s s' : σ}
    {script script' : List A} {pre : List (Q × A)}
    (h : m s script = (m' s' script').prepend pre) (f : α → Prog σ Q A ε β) :
    (m >>= f) s script = ((m' >>= f) s' script').prepend pre := by
  rw [bind_def, bind_def, Prog.bind, Prog.bind, h]
  cases hm : m' s' script' with
  | done said r s₁ rest =>
      cases r with
      | ok a => exact (Outcome.prepend_prepend pre said _).symm
      | error e => rfl
  | waiting said q s₁ => rfl

@[simp] theorem act_bind (g : σ → Except ε α × σ) (f : α → Prog σ Q A ε β)
    (s : σ) (script : List A) :
    (act g >>= f) s script =
      match (g s).1 with
      | .ok a => f a (g s).2 script
      | .error e => .done [] (.error e) (g s).2 script := by
  rw [bind_def, Prog.bind, act]
  cases (g s).1 <;> simp

@[simp] theorem get_bind (f : σ → Prog σ Q A ε β) (s : σ) (script : List A) :
    (get >>= f) s script = f s s script := by
  rw [get, act_bind]

@[simp] theorem modify_bind (g : σ → σ) (f : Unit → Prog σ Q A ε β) (s : σ)
    (script : List A) :
    (modify g >>= f) s script = f () (g s) script := by
  rw [modify, act_bind]

@[simp] theorem ofExcept_ok_bind (a : α) (f : α → Prog σ Q A ε β) :
    (ofExcept (.ok a) >>= f) = f a := by
  funext s script
  rw [ofExcept, act_bind]

@[simp] theorem ofExcept_error_bind (e : ε) (f : α → Prog σ Q A ε β) :
    (ofExcept (.error e) >>= f) = fail e := by
  funext s script
  rw [ofExcept, act_bind]
  rfl

@[simp] theorem pure_bind' (a : α) (f : α → Prog σ Q A ε β) :
    (Pure.pure a >>= f) = f a := by
  funext s script
  rw [bind_def, Prog.bind, pure_def, Prog.pure]
  simp

@[simp] theorem pure_run (a : α) (s : σ) (script : List A) :
    (Pure.pure a : Prog σ Q A ε α) s script = .done [] (.ok a) s script := rfl

@[simp] theorem act_run (f : σ → Except ε α × σ) (s : σ) (script : List A) :
    (act f : Prog σ Q A ε α) s script = .done [] (f s).1 (f s).2 script := rfl

@[simp] theorem fail_run (e : ε) (s : σ) (script : List A) :
    (fail e : Prog σ Q A ε α) s script = .done [] (.error e) s script := rfl

@[simp] theorem ofExcept_run (r : Except ε α) (s : σ) (script : List A) :
    (ofExcept r : Prog σ Q A ε α) s script = .done [] r s script := rfl

theorem attempt_eq_done {m : Prog σ Q A ε α} {s s' : σ}
    {script rest : List A} {said : List (Q × A)}
    {r : Except ε (Except ε α)} :
    attempt m s script = .done said r s' rest ↔
      ∃ r', r = .ok r' ∧ m s script = .done said r' s' rest := by
  rw [attempt]
  split
  · next hm =>
      rw [hm]
      simp only [Outcome.done.injEq]
      constructor
      · rintro ⟨rfl, rfl, rfl, rfl⟩
        exact ⟨_, rfl, rfl, rfl, rfl, rfl⟩
      · rintro ⟨r', rfl, rfl, rfl, rfl, rfl⟩
        exact ⟨rfl, rfl, rfl, rfl⟩
  · next hm => rw [hm]; simp

theorem ignore_eq_done {m : Prog σ Q A ε α} {s s' : σ} {script rest : List A}
    {said : List (Q × A)} {r : Except ε Unit} :
    ignore m s script = .done said r s' rest ↔
      ∃ r', m s script = .done said r' s' rest ∧ r = r'.map fun _ => () := by
  rw [ignore, Prog.bind]
  split
  · next said₁ a s₁ rest₁ hm =>
      rw [hm]
      simp only [Prog.pure, Outcome.prepend, List.append_nil,
        Outcome.done.injEq]
      constructor
      · rintro ⟨rfl, rfl, rfl, rfl⟩
        exact ⟨.ok a, ⟨rfl, rfl, rfl, rfl⟩, rfl⟩
      · rintro ⟨r', ⟨rfl, rfl, rfl, rfl⟩, rfl⟩
        exact ⟨rfl, rfl, rfl, rfl⟩
  · next said₁ e s₁ rest₁ hm =>
      rw [hm]
      simp only [Outcome.done.injEq]
      constructor
      · rintro ⟨rfl, rfl, rfl, rfl⟩
        exact ⟨.error e, ⟨rfl, rfl, rfl, rfl⟩, rfl⟩
      · rintro ⟨r', ⟨rfl, rfl, rfl, rfl⟩, rfl⟩
        exact ⟨rfl, rfl, rfl, rfl⟩
  · next said₁ q s₁ hm => rw [hm]; simp

theorem ignore_unit (m : Prog σ Q A ε Unit) : m.ignore = m := by
  funext s script
  rw [ignore, Prog.bind]
  split
  · next said a s' rest hm =>
      rw [hm]
      show Outcome.done (said ++ []) (.ok a) s' rest = _
      rw [List.append_nil]
  · next hm => exact hm.symm
  · next hm => exact hm.symm

theorem bind_hand (m : Prog σ Q A ε α) :
    (m >>= fun a => act fun s => (.ok a, s)) = m := by
  funext s script
  rw [bind_def, Prog.bind]
  split
  · next hm => rw [hm, act_run, Outcome.prepend, List.append_nil]
  · next hm => exact hm.symm
  · next hm => exact hm.symm

/-- How a loop that ended came about: the query was refused, or there was an
answer and one of the three things that a round makes of it. -/
inductive ConverseEnds (request : β → σ → Except ε Q)
    (react : β → A → σ → Except ε (β ⊕ γ) × σ) (b : β) (s : σ) :
    List A → List (Q × A) → Except ε γ → σ → List A → Prop where
  | refused {script : List A} {e : ε} (hq : request b s = .error e) :
      ConverseEnds request react b s script [] (.error e) s script
  | failed {q : Q} {a : A} {tail : List A} {e : ε} {s' : σ}
      (hq : request b s = .ok q) (hr : react b a s = (.error e, s')) :
      ConverseEnds request react b s (a :: tail) [(q, a)] (.error e) s' tail
  | finished {q : Q} {a : A} {tail : List A} {c : γ} {s' : σ}
      (hq : request b s = .ok q) (hr : react b a s = (.ok (.inr c), s')) :
      ConverseEnds request react b s (a :: tail) [(q, a)] (.ok c) s' tail
  | again {q : Q} {a : A} {tail rest : List A} {b₁ : β} {s₁ s' : σ}
      {said : List (Q × A)} {r : Except ε γ} (hq : request b s = .ok q)
      (hr : react b a s = (.ok (.inl b₁), s₁))
      (hrest : converse request react b₁ s₁ tail = .done said r s' rest) :
      ConverseEnds request react b s (a :: tail) ((q, a) :: said) r s' rest

theorem converse_ends {request : β → σ → Except ε Q}
    {react : β → A → σ → Except ε (β ⊕ γ) × σ} {b : β} {s s' : σ}
    {script rest : List A} {said : List (Q × A)} {r : Except ε γ}
    (h : converse request react b s script = .done said r s' rest) :
    ConverseEnds request react b s script said r s' rest := by
  cases hq : request b s with
  | error e =>
      rw [converse_refused hq] at h
      cases h
      exact .refused hq
  | ok q =>
      cases script with
      | nil =>
          rw [converse_waits hq] at h
          cases h
      | cons a tail =>
          rcases hr : react b a s with ⟨e | b₁ | c, s₁⟩
          · rw [converse_fail tail hq hr] at h
            cases h
            exact .failed hq hr
          · rw [converse_next tail hq hr] at h
            obtain ⟨said₁, hrest, rfl⟩ := Outcome.prepend_eq_done.mp h
            exact .again hq hr hrest
          · rw [converse_leave tail hq hr] at h
            cases h
            exact .finished hq hr

/-! ## What a program keeps -/

/-- Every completed run of the program leaves `I` as it found it. -/
def Keeps (I : σ → Prop) (m : Prog σ Q A ε α) : Prop :=
  ∀ s script said r s' rest, I s → m s script = .done said r s' rest → I s'

variable {I : σ → Prop}

theorem keeps_act {f : σ → Except ε α × σ} (h : ∀ s, I s → I (f s).2) :
    Keeps I (act f : Prog σ Q A ε α) := by
  intro s script said r s' rest hI hdone
  cases hdone
  exact h s hI

theorem keeps_fail (e : ε) : Keeps I (fail e : Prog σ Q A ε α) :=
  keeps_act fun _ hI => hI

theorem keeps_ofExcept (r : Except ε α) :
    Keeps I (ofExcept r : Prog σ Q A ε α) :=
  keeps_act fun _ hI => hI

theorem keeps_get : Keeps I (get : Prog σ Q A ε σ) :=
  keeps_act fun _ hI => hI

theorem keeps_bind {m : Prog σ Q A ε α} {f : α → Prog σ Q A ε β}
    (hm : Keeps I m) (hf : ∀ a, Keeps I (f a)) : Keeps I (m >>= f) := by
  intro s script said r s' rest hI h
  rcases bind_eq_done.mp h with ⟨e, h, -⟩ |
    ⟨said₁, a, s₁, rest₁, said₂, h₁, h₂, -⟩
  · exact hm _ _ _ _ _ _ hI h
  · exact hf _ _ _ _ _ _ _ (hm _ _ _ _ _ _ hI h₁) h₂

theorem keeps_ite {p : Prop} [Decidable p] {m m' : Prog σ Q A ε α}
    (hm : Keeps I m) (hm' : Keeps I m') : Keeps I (if p then m else m') := by
  split
  · exact hm
  · exact hm'

theorem keeps_pure (a : α) : Keeps I (Pure.pure a : Prog σ Q A ε α) := by
  intro s script said r s' rest hI hdone
  cases hdone
  exact hI

theorem keeps_ignore {m : Prog σ Q A ε α} (hm : Keeps I m) :
    Keeps I (ignore m) := by
  intro s script said r s' rest hI h
  obtain ⟨r', h, -⟩ := ignore_eq_done.mp h
  exact hm _ _ _ _ _ _ hI h

theorem keeps_attempt {m : Prog σ Q A ε α} (hm : Keeps I m) :
    Keeps I (attempt m) := by
  intro s script said r s' rest hI h
  obtain ⟨r', -, h⟩ := attempt_eq_done.mp h
  exact hm _ _ _ _ _ _ hI h

/-! ## What a failure leaves behind -/

/-- A run that ends in an error leaves `I` as it found it. -/
def Spares (I : σ → Prop) (m : Prog σ Q A ε α) : Prop :=
  ∀ s script said e s' rest, I s →
    m s script = .done said (.error e) s' rest → I s'

theorem Keeps.spares {m : Prog σ Q A ε α} (hm : Keeps I m) : Spares I m :=
  fun _ _ _ _ _ _ hI h => hm _ _ _ _ _ _ hI h

theorem spares_act {f : σ → Except ε α × σ}
    (h : ∀ s e, I s → (f s).1 = .error e → I (f s).2) :
    Spares I (act f : Prog σ Q A ε α) := by
  intro s script said e s' rest hI hdone
  simp only [act_run, Outcome.done.injEq] at hdone
  obtain ⟨-, hr, rfl, -⟩ := hdone
  exact h s e hI hr

/-- Only the last part of a program may write before it succeeds. -/
theorem spares_bind {m : Prog σ Q A ε α} {f : α → Prog σ Q A ε β}
    (hm : Keeps I m) (hf : ∀ a, Spares I (f a)) : Spares I (m >>= f) := by
  intro s script said e s' rest hI h
  rcases bind_eq_done.mp h with ⟨e', h, -⟩ |
    ⟨said₁, a, s₁, rest₁, said₂, h₁, h₂, -⟩
  · exact hm _ _ _ _ _ _ hI h
  · exact hf _ _ _ _ _ _ _ (hm _ _ _ _ _ _ hI h₁) h₂

theorem spares_ite {p : Prop} [Decidable p] {m m' : Prog σ Q A ε α}
    (hm : Spares I m) (hm' : Spares I m') :
    Spares I (if p then m else m') := by
  split
  · exact hm
  · exact hm'

/-! ## What a success leaves behind -/

/-- A run that ends in a value leaves `P`, from whatever state it began. -/
def Leaves (P : σ → Prop) (m : Prog σ Q A ε α) : Prop :=
  ∀ s script said a s' rest, m s script = .done said (.ok a) s' rest → P s'

variable {P : σ → Prop}

theorem leaves_act {f : σ → Except ε α × σ}
    (h : ∀ s a s', f s = (.ok a, s') → P s') :
    Leaves P (act f : Prog σ Q A ε α) := by
  intro s script said a s' rest hdone
  simp only [act_run, Outcome.done.injEq] at hdone
  obtain ⟨-, hok, hs, -⟩ := hdone
  exact h s a s' (Prod.ext hok hs)

theorem leaves_fail (e : ε) : Leaves P (fail e : Prog σ Q A ε α) :=
  leaves_act fun _ _ _ h => by cases h

/-- Only the last part of a program matters. -/
theorem leaves_bind {m : Prog σ Q A ε α} {f : α → Prog σ Q A ε β}
    (hf : ∀ a, Leaves P (f a)) : Leaves P (m >>= f) := by
  intro s script said b s' rest h
  rcases bind_eq_done.mp h with ⟨e, -, h⟩ |
    ⟨said₁, a, s₁, rest₁, said₂, -, h₂, -⟩
  · cases h
  · exact hf _ _ _ _ _ _ _ h₂

theorem leaves_ite {p : Prop} [Decidable p] {m m' : Prog σ Q A ε α}
    (hm : Leaves P m) (hm' : Leaves P m') :
    Leaves P (if p then m else m') := by
  split
  · exact hm
  · exact hm'

/-! ## What a run reads -/

/-- A completed run reads its script from the front, and what it read is what
was answered. -/
def Reads (m : Prog σ Q A ε α) : Prop :=
  ∀ s script said r s' rest, m s script = .done said r s' rest →
    script = said.map Prod.snd ++ rest

theorem reads_act (f : σ → Except ε α × σ) :
    Reads (act f : Prog σ Q A ε α) := by
  intro s script said r s' rest h
  cases h
  rfl

theorem reads_pure (a : α) : Reads (Pure.pure a : Prog σ Q A ε α) := by
  intro s script said r s' rest h
  cases h
  rfl

theorem reads_bind {m : Prog σ Q A ε α} {f : α → Prog σ Q A ε β}
    (hm : Reads m) (hf : ∀ a, Reads (f a)) : Reads (m >>= f) := by
  intro s script said r s' rest h
  rcases bind_eq_done.mp h with ⟨e, h, -⟩ |
    ⟨said₁, a, s₁, rest₁, said₂, h₁, h₂, rfl⟩
  · exact hm _ _ _ _ _ _ h
  · rw [hm _ _ _ _ _ _ h₁, hf _ _ _ _ _ _ _ h₂, List.map_append,
      List.append_assoc]

theorem reads_converse (request : β → σ → Except ε Q)
    (react : β → A → σ → Except ε (β ⊕ γ) × σ) (b : β) :
    Reads (converse request react b) := by
  intro s script
  induction script generalizing b s with
  | nil =>
      intro said r s' rest h
      cases converse_ends h with
      | refused hq => rfl
  | cons a tail ih =>
      intro said r s' rest h
      cases converse_ends h with
      | refused hq => rfl
      | failed hq hr => rfl
      | finished hq hr => rfl
      | again hq hr hrest =>
          rw [ih _ _ _ _ _ _ hrest]
          rfl

/-- Put the same answers again, a program ends the same way, whatever comes
behind them. -/
def Replays (m : Prog σ Q A ε α) : Prop :=
  ∀ s script said r s' rest, m s script = .done said r s' rest →
    ∀ rest', m s (said.map Prod.snd ++ rest') = .done said r s' rest'

theorem replays_act (f : σ → Except ε α × σ) :
    Replays (act f : Prog σ Q A ε α) := by
  intro s script said r s' rest h rest'
  cases h
  rfl

theorem replays_pure (a : α) : Replays (Pure.pure a : Prog σ Q A ε α) := by
  intro s script said r s' rest h rest'
  cases h
  rfl

theorem replays_bind {m : Prog σ Q A ε α} {f : α → Prog σ Q A ε β}
    (hm : Replays m) (hf : ∀ a, Replays (f a)) : Replays (m >>= f) := by
  intro s script said r s' rest h rest'
  rcases bind_eq_done.mp h with ⟨e, hfail, rfl⟩ |
    ⟨said₁, a, s₁, rest₁, said₂, h₁, h₂, rfl⟩
  · exact bind_eq_done.mpr (.inl ⟨e, hm _ _ _ _ _ _ hfail rest', rfl⟩)
  · refine bind_eq_done.mpr (.inr ⟨said₁, a, s₁, _, said₂, ?_,
      hf _ _ _ _ _ _ _ h₂ rest', rfl⟩)
    rw [List.map_append, List.append_assoc]
    exact hm _ _ _ _ _ _ h₁ _

theorem replays_ite {p : Prop} [Decidable p] {m m' : Prog σ Q A ε α}
    (hm : Replays m) (hm' : Replays m') :
    Replays (if p then m else m') := by
  split
  · exact hm
  · exact hm'

theorem replays_converse (request : β → σ → Except ε Q)
    (react : β → A → σ → Except ε (β ⊕ γ) × σ) (b : β) :
    Replays (converse request react b) := by
  intro s script
  induction script generalizing b s with
  | nil =>
      intro said r s' rest h rest'
      cases converse_ends h with
      | refused hq => exact converse_refused hq rest'
  | cons a tail ih =>
      intro said r s' rest h rest'
      cases converse_ends h with
      | refused hq => exact converse_refused hq rest'
      | failed hq hr => exact converse_fail rest' hq hr
      | finished hq hr => exact converse_leave rest' hq hr
      | again hq hr hrest =>
          exact (converse_next _ hq hr).trans
            (congrArg (Outcome.prepend _) (ih _ _ _ _ _ _ hrest rest'))

/-! ## Loops, by what a round preserves -/

/-- The rule of `converse`. `I` holds of what was said so far, the loop value
and the state at the head of every round; whichever way a round leaves the
loop, it establishes `Post` of the whole conversation. -/
theorem converse_done {request : β → σ → Except ε Q}
    {react : β → A → σ → Except ε (β ⊕ γ) × σ}
    (I : List (Q × A) → β → σ → Prop)
    (Post : List (Q × A) → Except ε γ → σ → Prop)
    (hrefuse : ∀ said b s e, I said b s → request b s = .error e →
      Post said (.error e) s)
    (hround : ∀ said b s q a b' s', I said b s → request b s = .ok q →
      react b a s = (.ok (.inl b'), s') → I (said ++ [(q, a)]) b' s')
    (hleave : ∀ said b s q a c s', I said b s → request b s = .ok q →
      react b a s = (.ok (.inr c), s') → Post (said ++ [(q, a)]) (.ok c) s')
    (hfail : ∀ said b s q a e s', I said b s → request b s = .ok q →
      react b a s = (.error e, s') → Post (said ++ [(q, a)]) (.error e) s')
    {b : β} {s s' : σ} {script rest : List A} {said : List (Q × A)}
    {r : Except ε γ} (hI : I [] b s)
    (h : converse request react b s script = .done said r s' rest) :
    Post said r s' := by
  have hgen : ∀ (script : List A) (pre : List (Q × A)) (b : β) (s : σ)
      (said : List (Q × A)), I pre b s →
      converse request react b s script = .done said r s' rest →
      Post (pre ++ said) r s' := by
    intro script
    induction script with
    | nil =>
        intro pre b s said hI h
        cases converse_ends h with
        | refused hq =>
            rw [List.append_nil]
            exact hrefuse _ _ _ _ hI hq
    | cons a tail ih =>
        intro pre b s said hI h
        cases converse_ends h with
        | refused hq =>
            rw [List.append_nil]
            exact hrefuse _ _ _ _ hI hq
        | failed hq hr => exact hfail _ _ _ _ _ _ _ hI hq hr
        | finished hq hr => exact hleave _ _ _ _ _ _ _ hI hq hr
        | again hq hr hrest =>
            have hlater := ih _ _ _ _ (hround _ _ _ _ _ _ _ hI hq hr) hrest
            rwa [List.append_assoc] at hlater
  exact hgen script [] b s said hI h

end Prog
end Dialogue
