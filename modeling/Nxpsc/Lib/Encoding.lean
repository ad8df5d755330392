import Nxpsc.Lib.Dialogue

/-!
# One program, two encodings

A program may reach the same party through two encodings of what is asked and
what is replied. An encoding reads a query as what it asks, of type `V`, and
puts a reply of type `R` into an answer. Two runs of one program, each on its
own encoding of one list of replies, are alike when they ask the same and end
the same; the two states may differ in what selects the encoding, a relation
`S` that the operations have to keep.

Outcomes that wait are compared too, so being alike says as much of a program
that never stops.
-/

namespace Dialogue

variable {σ Q A ε α β γ V R : Type}

/-- How queries are read and replies put. -/
structure Encoding (Q A V R : Type) where
  read : Q → V
  put : R → A

/-- What a stretch of conversation asks. -/
def Encoding.asked (e : Encoding Q A V R) (said : List (Q × A)) : List V :=
  said.map fun qa => e.read qa.1

/-- Two outcomes on encodings of the replies `rs`. -/
inductive Outcome.Alike (S : σ → σ → Prop) (e e' : Encoding Q A V R)
    (rs : List R) : Outcome σ Q A ε α → Outcome σ Q A ε α → Prop where
  | done {said said' : List (Q × A)} {r : Except ε α} {s s' : σ}
      {us vs : List R} (hrs : rs = us ++ vs)
      (hsaid : said.map Prod.snd = us.map e.put)
      (hsaid' : said'.map Prod.snd = us.map e'.put)
      (hasked : e.asked said = e'.asked said') (hS : S s s') :
      Outcome.Alike S e e' rs (.done said r s (vs.map e.put))
        (.done said' r s' (vs.map e'.put))
  | waiting {said said' : List (Q × A)} {q q' : Q} {s s' : σ}
      (hsaid : said.map Prod.snd = rs.map e.put)
      (hsaid' : said'.map Prod.snd = rs.map e'.put)
      (hasked : e.asked said = e'.asked said') (hq : e.read q = e'.read q')
      (hS : S s s') :
      Outcome.Alike S e e' rs (.waiting said q s) (.waiting said' q' s')

variable {S : σ → σ → Prop} {e e' : Encoding Q A V R}

theorem Encoding.asked_append (e : Encoding Q A V R) (u v : List (Q × A)) :
    e.asked (u ++ v) = e.asked u ++ e.asked v := List.map_append

/-- A stretch put before two outcomes. -/
theorem Outcome.Alike.prepend {us rs : List R} {u u' : List (Q × A)}
    {o o' : Outcome σ Q A ε α} (hu : u.map Prod.snd = us.map e.put)
    (hu' : u'.map Prod.snd = us.map e'.put) (hasked : e.asked u = e'.asked u')
    (h : o.Alike S e e' rs o') :
    (o.prepend u).Alike S e e' (us ++ rs) (o'.prepend u') := by
  cases h with
  | done hrs hsaid hsaid' hview hS =>
      refine .done (by rw [hrs, ← List.append_assoc]) ?_ ?_ ?_ hS
      · rw [List.map_append, hu, hsaid, List.map_append]
      · rw [List.map_append, hu', hsaid', List.map_append]
      · rw [Encoding.asked_append, hasked, hview, Encoding.asked_append]
  | waiting hsaid hsaid' hview hq hS =>
      refine .waiting ?_ ?_ ?_ hq hS
      · rw [List.map_append, hu, hsaid, List.map_append]
      · rw [List.map_append, hu', hsaid', List.map_append]
      · rw [Encoding.asked_append, hasked, hview, Encoding.asked_append]

theorem Outcome.Alike.symm {rs : List R} {o o' : Outcome σ Q A ε α}
    (h : o.Alike S e e' rs o') :
    o'.Alike (fun s s' => S s' s) e' e rs o := by
  cases h with
  | done hrs hsaid hsaid' hasked hS =>
      exact .done hrs hsaid' hsaid hasked.symm hS
  | waiting hsaid hsaid' hasked hq hS =>
      exact .waiting hsaid' hsaid hasked.symm hq.symm hS

/-- What is like a run that used up its replies used them up too. -/
theorem Outcome.Alike.of_done {rs : List R} {said : List (Q × A)}
    {r : Except ε α} {s : σ} {o' : Outcome σ Q A ε α}
    (h : (Outcome.done said r s []).Alike S e e' rs o') :
    ∃ said' s', o' = .done said' r s' [] ∧
      said'.map Prod.snd = rs.map e'.put ∧ e.asked said = e'.asked said' ∧
      S s s' := by
  generalize ho : Outcome.done said r s [] = o at h
  cases h with
  | @done said₁ said' r₁ s₁ s' us vs hrs hsaid hsaid' hasked hS =>
      simp only [Outcome.done.injEq] at ho
      obtain ⟨rfl, rfl, rfl, hvs⟩ := ho
      obtain rfl : vs = [] := List.map_eq_nil_iff.mp hvs.symm
      rw [List.append_nil] at hrs
      exact ⟨said', s', rfl, by rw [hsaid', hrs], hasked, hS⟩
  | waiting => cases ho

theorem Outcome.Alike.of_waiting {rs : List R} {said : List (Q × A)} {q : Q}
    {s : σ} {o' : Outcome σ Q A ε α}
    (h : (Outcome.waiting said q s).Alike S e e' rs o') :
    ∃ said' q' s', o' = .waiting said' q' s' ∧
      said'.map Prod.snd = rs.map e'.put ∧ e.asked said = e'.asked said' ∧
      e.read q = e'.read q' := by
  generalize ho : Outcome.waiting said q s = o at h
  cases h with
  | done => cases ho
  | waiting hsaid hsaid' hasked hq hS =>
      cases ho
      exact ⟨_, _, _, rfl, hsaid', hasked, hq⟩

namespace Prog

/-- The program runs alike under both encodings. -/
def Alike (S : σ → σ → Prop) (e e' : Encoding Q A V R)
    (m : Prog σ Q A ε α) : Prop :=
  ∀ s s' rs, S s s' →
    (m s (rs.map e.put)).Alike S e e' rs (m s' (rs.map e'.put))

theorem alike_act {f : σ → Except ε α × σ}
    (h : ∀ s s', S s s' → (f s).1 = (f s').1 ∧ S (f s).2 (f s').2) :
    Alike S e e' (act f : Prog σ Q A ε α) := by
  intro s s' rs hS
  obtain ⟨hr, hS'⟩ := h s s' hS
  rw [act_run, act_run, hr]
  exact .done (List.nil_append rs).symm rfl rfl rfl hS'

theorem alike_pure (a : α) :
    Alike S e e' (Pure.pure a : Prog σ Q A ε α) :=
  fun _ _ rs hS => .done (List.nil_append rs).symm rfl rfl rfl hS

theorem alike_ite {p : Prop} [Decidable p] {m m' : Prog σ Q A ε α}
    (hm : Alike S e e' m) (hm' : Alike S e e' m') :
    Alike S e e' (if p then m else m') := by
  split
  · exact hm
  · exact hm'

theorem alike_bind {m : Prog σ Q A ε α} {f : α → Prog σ Q A ε β}
    (hm : Alike S e e' m) (hf : ∀ a, Alike S e e' (f a)) :
    Alike S e e' (m >>= f) := by
  intro s s' rs hS
  have h := hm s s' rs hS
  rw [bind_def, Prog.bind, Prog.bind]
  generalize m s (rs.map e.put) = o at h
  generalize m s' (rs.map e'.put) = o' at h
  cases h with
  | @done said said' r s₁ s₁' us vs hrs hsaid hsaid' hasked hS₁ =>
      cases r with
      | error err => exact .done hrs hsaid hsaid' hasked hS₁
      | ok a =>
          rw [hrs]
          exact (hf a s₁ s₁' vs hS₁).prepend hsaid hsaid' hasked
  | waiting hsaid hsaid' hasked hq hS₁ =>
      exact .waiting hsaid hsaid' hasked hq hS₁

/-- Two requests read the same: both are refused, or both are made. -/
theorem request_cases {q q' : Except ε Q}
    (h : q.map e.read = q'.map e'.read) :
    (∃ err, q = .error err ∧ q' = .error err) ∨
      ∃ asked asked', q = .ok asked ∧ q' = .ok asked' ∧
        e.read asked = e'.read asked' := by
  cases q with
  | error err =>
      cases q' with
      | error err' =>
          cases h
          exact .inl ⟨err, rfl, rfl⟩
      | ok asked' => cases h
  | ok asked =>
      cases q' with
      | error err' => cases h
      | ok asked' => exact .inr ⟨asked, asked', rfl, rfl, Except.ok.inj h⟩

/-- The loop: the same is asked on every round, and a reply is read the same
from either encoding. -/
theorem alike_converse {request : β → σ → Except ε Q}
    {react : β → A → σ → Except ε (β ⊕ γ) × σ}
    (hrequest : ∀ b s s', S s s' →
      (request b s).map e.read = (request b s').map e'.read)
    (hreact : ∀ b x s s', S s s' →
      (react b (e.put x) s).1 = (react b (e'.put x) s').1 ∧
        S (react b (e.put x) s).2 (react b (e'.put x) s').2)
    (b : β) : Alike S e e' (converse request react b) := by
  intro s s' rs hS
  induction rs generalizing b s s' with
  | nil =>
      rw [List.map_nil, List.map_nil]
      rcases request_cases (hrequest b s s' hS) with ⟨err, hq, hq'⟩ |
        ⟨q, q', hq, hq', hread⟩
      · rw [converse_refused hq, converse_refused hq']
        exact .done (List.nil_append []).symm rfl rfl rfl hS
      · rw [converse_waits hq, converse_waits hq']
        exact .waiting rfl rfl rfl hread hS
  | cons x rs ih =>
      obtain ⟨hr, hS₁⟩ := hreact b x s s' hS
      rw [List.map_cons, List.map_cons]
      rcases request_cases (hrequest b s s' hS) with ⟨err, hq, hq'⟩ |
        ⟨q, q', hq, hq', hread⟩
      · rw [converse_refused hq, converse_refused hq']
        exact .done (List.nil_append (x :: rs)).symm rfl rfl rfl hS
      · have hasked : e.asked [(q, e.put x)] =
            e'.asked [(q', e'.put x)] := congrArg (fun v => [v]) hread
        have hone : x :: rs = [x] ++ rs := rfl
        have hput : [(q, e.put x)].map Prod.snd = [x].map e.put := rfl
        have hput' : [(q', e'.put x)].map Prod.snd = [x].map e'.put := rfl
        rcases ht : react b (e.put x) s with ⟨res, s₁⟩
        rcases ht' : react b (e'.put x) s' with ⟨res', s₁'⟩
        rw [ht, ht'] at hr hS₁
        obtain rfl : res = res' := hr
        rcases res with err | b₁ | c
        · rw [converse_fail _ hq ht, converse_fail _ hq' ht']
          exact .done hone rfl rfl hasked hS₁
        · rw [converse_next _ hq ht, converse_next _ hq' ht']
          exact (ih b₁ s₁ s₁' hS₁).prepend hput hput' hasked
        · rw [converse_leave _ hq ht, converse_leave _ hq' ht']
          exact .done hone rfl rfl hasked hS₁

end Prog
end Dialogue
