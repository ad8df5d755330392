import Nxpsc.Lib.Trace

/-!
# A program that reports in a flag

A caller may hand in a place for a flag, which the program clears when it
starts and sets when it succeeds, and may as well hand in none. The two
programs have one conversation, one result and one state; what the flag says
in the end is the result.
-/

namespace Dialogue

variable {σ Q A ε α β τ : Type}

namespace Prog

/-- Runs a program beside a value it does not touch. -/
def beside (m : Prog σ Q A ε α) : Prog (σ × τ) Q A ε α :=
  fun s script =>
    match m s.1 script with
    | .done said r s' rest => .done said r (s', s.2) rest
    | .waiting said q s' => .waiting said q (s', s.2)

/-- A store to the value beside the state. -/
def store (t : τ) : Prog (σ × τ) Q A ε Unit := modify fun s => (s.1, t)

end Prog

/-- The outcome with the flag that reports it. -/
def Outcome.reported :
    Outcome σ Q A ε α → Outcome (σ × Bool) Q A ε α
  | .done said r s rest => .done said r (s, r.isOk) rest
  | .waiting said q s => .waiting said q (s, false)

theorem Outcome.reported_prepend (pre : List (Q × A))
    (o : Outcome σ Q A ε α) :
    (o.prepend pre).reported = o.reported.prepend pre := by
  cases o <;> rfl

theorem Outcome.reported_eq_done {o : Outcome σ Q A ε α}
    {said : List (Q × A)} {r : Except ε α} {s : σ × Bool} {rest : List A} :
    o.reported = .done said r s rest ↔
      o = .done said r s.1 rest ∧ s.2 = r.isOk := by
  cases o with
  | done said' r' s' rest' =>
      rw [reported]
      constructor
      · intro h
        cases h
        exact ⟨rfl, rfl⟩
      · rintro ⟨h, hflag⟩
        cases h
        rw [← hflag]
  | waiting said' q s' =>
      refine ⟨fun h => ?_, fun h => ?_⟩
      · cases h
      · cases h.1

theorem Outcome.queries_reported (o : Outcome σ Q A ε α) :
    o.reported.queries = o.queries := by
  cases o <;> rfl

namespace Prog

/-- From a cleared flag the second program runs as the first does, and its
flag reports the result. -/
def Reports (m : Prog σ Q A ε α) (m' : Prog (σ × Bool) Q A ε α) : Prop :=
  ∀ s script, m' (s, false) script = (m s script).reported

theorem reports_fail (e : ε) :
    Reports (fail e : Prog σ Q A ε α) (fail e) :=
  fun _ _ => rfl

/-- What fails in any case leaves the flag alone. -/
theorem reports_beside {m : Prog σ Q A ε α}
    (hm : ∀ s script said a s' rest, m s script ≠ .done said (.ok a) s' rest) :
    Reports m m.beside := by
  intro s script
  rw [beside]
  cases h : m s script with
  | done said r s' rest =>
      cases r with
      | ok a => exact absurd h (hm _ _ _ _ _ _)
      | error e => rfl
  | waiting said q s' => rfl

theorem reports_bind {m : Prog σ Q A ε α} {f : α → Prog σ Q A ε β}
    {f' : α → Prog (σ × Bool) Q A ε β} (h : ∀ a, Reports (f a) (f' a)) :
    Reports (m >>= f) (m.beside >>= f') := by
  intro s script
  rw [bind_def, bind_def, Prog.bind, Prog.bind, beside]
  cases m s script with
  | waiting said q s' => rfl
  | done said r s' rest =>
      cases r with
      | error e => rfl
      | ok a =>
          dsimp only
          rw [h a, Outcome.reported_prepend]

theorem reports_ofExcept {r : Except ε α} {f : α → Prog σ Q A ε β}
    {f' : α → Prog (σ × Bool) Q A ε β} (h : ∀ a, Reports (f a) (f' a)) :
    Reports (ofExcept r >>= f) (ofExcept r >>= f') := by
  cases r with
  | ok a =>
      rw [ofExcept_ok_bind, ofExcept_ok_bind]
      exact h a
  | error e =>
      rw [ofExcept_error_bind, ofExcept_error_bind]
      exact reports_fail e

theorem reports_ite {p : Prop} [Decidable p] {m n : Prog σ Q A ε α}
    {m' n' : Prog (σ × Bool) Q A ε α} (hm : Reports m m')
    (hn : Reports n n') :
    Reports (if p then m else n) (if p then m' else n') := by
  split
  · exact hm
  · exact hn

end Prog
end Dialogue
