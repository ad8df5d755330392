import Nxpsc.Lib.Bounded
import Nxpsc.Proofs.Exchange
import Nxpsc.Ref.Auth
import Nxpsc.Spec.CardProof

/-!
# Handshakes as challenge and response

Each native handshake is two frames with a computation after each: what it
makes of the challenge, and what it makes of the proof. Said that way once,
a run against any card is either one answer, or two answers and the end of the
handshake.
-/

namespace Nxpsc

open Dialogue

/-! ## One frame and its answer -/

/-- What a call that sends one frame makes of the answer. -/
def oneAnswer (cap : Nat) (a : Answer) (card : Card) :
    Except Err (UInt8 × Bytes) × Card :=
  match frameResponse card maxApdu a with
  | .error e => (.error e, card)
  | .ok (status, got) =>
      if cap < got.length then (.error .length, card)
      else (.ok (status, got), { card with lastStatus := status })

/-- The frame of a request that fits into one. -/
def oneFrame (cmd : UInt8) (data : Bytes) (card : Card) : Frame :=
  if card.cmdset = .nativeIso ∨ card.cmdset = .iso then .wrapped cmd data
  else .native cmd data

theorem frameRequest_one {cmd : UInt8} {data : Bytes} {card : Card}
    (hlen : data.length ≤ txFrameMax) :
    frameRequest cmd data card = .ok (oneFrame cmd data card) := by
  rw [frameRequest, if_neg, oneFrame]
  · split <;> rfl
  · rw [txFrameMax] at hlen
    rw [maxApdu]
    omega

theorem rawExchangeEx_once (cmd : UInt8) {data : Bytes} (cap : Nat)
    (hlen : data.length ≤ txFrameMax) :
    (rawExchangeEx cmd data cap false).Once (oneFrame cmd data)
      (oneAnswer cap) := by
  have htake : data.take txFrameMax = data := List.take_of_length_le hlen
  have hreq : ∀ card, Pending.request ⟨cmd, data⟩ card =
      .ok (oneFrame cmd data card) := by
    intro card
    rw [Pending.request, htake, frameRequest_one hlen]
  constructor
  · intro card
    rw [rawExchangeEx, Prog.bind_def, Prog.bind, sendRequest, Prog.converse,
      Prog.converseOn, hreq]
  · intro card a rest
    rw [rawExchangeEx, Prog.bind_def, Prog.bind, sendRequest, Prog.converse,
      Prog.converseOn, hreq, oneAnswer]
    simp only [Pending.react, if_neg (Nat.not_lt.mpr hlen)]
    cases hresp : frameResponse card maxApdu a with
    | error e => rfl
    | ok x =>
        obtain ⟨status, got⟩ := x
        dsimp only
        by_cases hcap : cap < got.length
        · rw [if_pos hcap, if_pos hcap]
        · rw [if_neg hcap, if_neg hcap]
          simp only [collect, Bool.false_eq_true, false_and, if_false,
            Prog.pure_bind', Prog.modify_bind, Prog.pure_run]
          rfl

theorem frameResponse_iff {card : Card} {a : Answer} {status : UInt8}
    {got : Bytes} :
    frameResponse card maxApdu a = .ok (status, got) ↔
      answerStatus card.wraps a = some status ∧
        answerData card.wraps a = got := by
  have hq : Carries card 0 (oneFrame 0 [] card) :=
    ⟨[], frameRequest_one (Nat.zero_le _)⟩
  have hsw := hq.hasSw
  constructor
  · intro h
    have hread := frameResponse_ok hq h
    rwa [cardStatus, cardData, hsw] at hread
  · intro h
    cases hresp : frameResponse card maxApdu a with
    | error e =>
        have hnone := frameResponse_error hq hresp
        rw [cardStatus, hsw, h.1] at hnone
        cases hnone
    | ok x =>
        have hread := frameResponse_ok (q := oneFrame 0 [] card) hq hresp
        rw [cardStatus, cardData, hsw, h.1, h.2] at hread
        rw [Option.some.inj hread.1, hread.2]

theorem frameResponse_cases (card : Card) (a : Answer) :
    (∃ e, frameResponse card maxApdu a = .error e ∧
      answerStatus card.wraps a = none) ∨
    ∃ status, frameResponse card maxApdu a =
        .ok (status, answerData card.wraps a) ∧
      answerStatus card.wraps a = some status := by
  cases hresp : frameResponse card maxApdu a with
  | error e =>
      refine .inl ⟨e, rfl, ?_⟩
      have hq : Carries card 0 (oneFrame 0 [] card) :=
        ⟨[], frameRequest_one (Nat.zero_le _)⟩
      have hnone := frameResponse_error hq hresp
      rwa [cardStatus, hq.hasSw] at hnone
  | ok x =>
      obtain ⟨status, got⟩ := x
      obtain ⟨hst, hgot⟩ := frameResponse_iff.mp hresp
      exact .inr ⟨status, by rw [hgot], hst⟩

theorem oneAnswer_ok {cap : Nat} {a : Answer} {card : Card}
    {x : UInt8 × Bytes} :
    (oneAnswer cap a card).1 = .ok x ↔
      answerStatus card.wraps a = some x.1 ∧ answerData card.wraps a = x.2 ∧
        x.2.length ≤ cap := by
  rw [← and_assoc, ← frameResponse_iff, oneAnswer]
  cases hresp : frameResponse card maxApdu a with
  | error e => simp
  | ok y =>
      by_cases hcap : cap < y.2.length
      · simp only [if_pos hcap, reduceCtorEq, Except.ok.injEq, false_iff]
        rintro ⟨rfl, h⟩
        exact Nat.not_lt.mpr h hcap
      · simp only [if_neg hcap, Except.ok.injEq]
        constructor
        · rintro rfl
          exact ⟨rfl, Nat.not_lt.mp hcap⟩
        · rintro ⟨rfl, -⟩
          rfl

theorem oneAnswer_card (cap : Nat) (a : Answer) (card : Card) :
    ∃ status, (oneAnswer cap a card).2 =
      { card with lastStatus := status } := by
  rw [oneAnswer]
  cases hresp : frameResponse card maxApdu a with
  | error e => exact ⟨card.lastStatus, rfl⟩
  | ok x =>
      by_cases hcap : cap < x.2.length
      · exact ⟨card.lastStatus, by simp only [if_pos hcap]⟩
      · exact ⟨x.1, by simp only [if_neg hcap]⟩

/-- An answer the library takes the status and the data out of. -/
def Read (sw : Bool) (a : Answer) (x : UInt8 × Bytes) : Prop :=
  answerStatus sw a = some x.1 ∧ answerData sw a = x.2 ∧ x.2.length ≤ 64

/-- The answers behind a read, as the two answers of a handshake. -/
theorem twoAnswers_of_read {sw : Bool} {answers : List Answer} {a₁ a₂ : Answer}
    {x y : UInt8 × Bytes} (h : answers = [a₁, a₂]) (hx : Read sw a₁ x)
    (hy : Read sw a₂ y) (hst : x.1 = dfSAdditionalFrame)
    (hok : y.1 = dfSOk) : TwoAnswers sw answers x.2 y.2 :=
  ⟨a₁, a₂, h, hst ▸ hx.1, hx.2.1, hok ▸ hy.1, hy.2.1⟩

/-- The two questions of a handshake, when each fits into a frame. -/
theorem native_twoPass {τ : Type} {cmd : UInt8} {data : Bytes}
    {opening : UInt8 × Bytes → Except Err (Bytes × τ)}
    {closing : τ → UInt8 × Bytes → Card → Except Err Unit × Card}
    (hdata : data.length ≤ txFrameMax)
    (htoken : ∀ x made, opening x = .ok made → made.1.length ≤ txFrameMax)
    {Accepts : τ → UInt8 × Bytes → Prop}
    (haccepts : ∀ kept y card, (closing kept y card).1 = .ok () ↔
      Accepts kept y)
    {card card' : Card} {script rest : List Answer} {said : Said}
    {r : Except Err Unit}
    (h : Prog.twoPass (rawExchangeEx cmd data 64 false)
      (fun token => rawExchangeEx dfAdditionalFrame token 64 false)
      (fun x _ => opening x) closing card script = .done said r card' rest) :
    r = .ok () ↔ ∃ a₁ a₂ x made y, script.take 2 = [a₁, a₂] ∧
      Read card.wraps a₁ x ∧ opening x = .ok made ∧ Read card.wraps a₂ y ∧
      Accepts made.2 y := by
  rcases Prog.twoPass_done (rawExchangeEx_once cmd 64 hdata)
    (fun x _ token kept hx => rawExchangeEx_once dfAdditionalFrame 64
      (htoken x (token, kept) hx)) h with
    ⟨a, e, rfl, -, rfl, -, hfailed⟩ | ⟨a, b, x, made, rfl, -, hx, hmade, hend⟩
  · constructor
    · intro h
      cases h
    · rintro ⟨a₁, a₂, x, made, y, hanswers, hx, hmade, -⟩
      obtain rfl : a = a₁ := (List.cons.inj hanswers).1
      rcases hfailed with he | ⟨x', hx', he⟩
      · rw [oneAnswer_ok.mpr hx] at he
        cases he
      · rw [oneAnswer_ok.mpr hx] at hx'
        cases hx'
        rw [hmade] at he
        cases he
  have hwraps : ∀ card₁ : Card, (∃ status,
      card₁ = { card with lastStatus := status }) →
      card₁.wraps = card.wraps := by
    rintro card₁ ⟨status, rfl⟩
    rfl
  have hcard := hwraps _ (oneAnswer_card 64 a card)
  have hread := oneAnswer_ok.mp hx
  constructor
  · rintro rfl
    rcases hend with ⟨e, -, he, -⟩ | ⟨y, hy, hclosing⟩
    · cases he
    have hready := oneAnswer_ok.mp hy
    rw [hcard] at hready
    exact ⟨a, b, x, made, y, rfl, hread, hmade, hready,
      (haccepts _ _ _).mp (congrArg Prod.fst hclosing)⟩
  · rintro ⟨a₁, a₂, x', made', y', hanswers, hread', hmade', hready, hacc⟩
    cases hanswers
    obtain rfl : x = x' := by
      obtain ⟨hst, hgot, -⟩ := hread
      rw [hread'.1] at hst
      rw [hread'.2.1] at hgot
      exact Prod.ext (Option.some.inj hst).symm hgot.symm
    rw [hmade] at hmade'
    cases hmade'
    have hy : (oneAnswer 64 b (oneAnswer 64 a card).2).1 = .ok y' ↔ _ :=
      oneAnswer_ok
    rw [hcard] at hy
    have hy' := hy.mpr hready
    rcases hend with ⟨e, he, -, -⟩ | ⟨y, hyok, hclosing⟩
    · rw [hy'] at he
      cases he
    · rw [hy'] at hyok
      cases hyok
      have := (haccepts made.2 y' (oneAnswer 64 b (oneAnswer 64 a card).2).2
        ).mpr hacc
      rw [hclosing] at this
      exact this

theorem native_atMost {τ : Type} {cmd : UInt8} {data : Bytes}
    {opening : UInt8 × Bytes → Except Err (Bytes × τ)}
    {closing : τ → UInt8 × Bytes → Card → Except Err Unit × Card}
    (hdata : data.length ≤ txFrameMax)
    (htoken : ∀ x made, opening x = .ok made →
      made.1.length ≤ txFrameMax) :
    (Prog.twoPass (rawExchangeEx cmd data 64 false)
      (fun token => rawExchangeEx dfAdditionalFrame token 64 false)
      (fun x _ => opening x) closing).AtMost 2 :=
  Prog.twoPass_atMost (rawExchangeEx_once cmd 64 hdata)
    fun x _ token kept hx => rawExchangeEx_once dfAdditionalFrame 64
      (htoken x (token, kept) hx)

/-- A handshake sends its first frame whatever comes back, and succeeds on
two answers. -/
theorem native_read {τ : Type} {cmd : UInt8} {data : Bytes}
    {opening : UInt8 × Bytes → Except Err (Bytes × τ)}
    {closing : τ → UInt8 × Bytes → Card → Except Err Unit × Card}
    (hdata : data.length ≤ txFrameMax)
    (htoken : ∀ x made, opening x = .ok made → made.1.length ≤ txFrameMax)
    {card card' : Card}
    {script rest : List Answer} {said : Said} {r : Except Err Unit}
    (h : Prog.twoPass (rawExchangeEx cmd data 64 false)
      (fun token => rawExchangeEx dfAdditionalFrame token 64 false)
      (fun x _ => opening x) closing card script = .done said r card' rest) :
    said ≠ [] ∧ script = said.map Prod.snd ++ rest ∧
      ((∃ c, r = .ok c) → said.length = 2) :=
  Prog.twoPass_read (rawExchangeEx_once cmd 64 hdata)
    (fun x _ token kept hx => rawExchangeEx_once dfAdditionalFrame 64
      (htoken x (token, kept) hx)) h

/-- A handshake changes no more than the status, or comes to its end behind two
answers. -/
theorem native_done {τ : Type} {cmd : UInt8} {data : Bytes}
    {opening : UInt8 × Bytes → Except Err (Bytes × τ)}
    {closing : τ → UInt8 × Bytes → Card → Except Err Unit × Card}
    (hdata : data.length ≤ txFrameMax)
    (htoken : ∀ x made, opening x = .ok made → made.1.length ≤ txFrameMax)
    {card card' : Card}
    {script rest : List Answer} {said : Said} {r : Except Err Unit}
    (h : Prog.twoPass (rawExchangeEx cmd data 64 false)
      (fun token => rawExchangeEx dfAdditionalFrame token 64 false)
      (fun x _ => opening x) closing card script = .done said r card' rest) :
    (∃ status, card' = { card with lastStatus := status }) ∨
      ∃ a b x made y status, said.map Prod.snd = [a, b] ∧
        Read card.wraps a x ∧ opening x = .ok made ∧ Read card.wraps b y ∧
        closing made.2 y { card with lastStatus := status } = (r, card') := by
  rcases Prog.twoPass_done (rawExchangeEx_once cmd 64 hdata)
    (fun x _ token kept hx => rawExchangeEx_once dfAdditionalFrame 64
      (htoken x (token, kept) hx)) h with
    ⟨a, e, -, -, -, rfl, -⟩ | ⟨a, b, x, made, -, rfl, hx, hmade, hend⟩
  · exact .inl (oneAnswer_card 64 a card)
  have hread := oneAnswer_ok.mp hx
  obtain ⟨st₁, hcard₁⟩ := oneAnswer_card 64 a card
  rw [hcard₁] at hend
  obtain ⟨st₂, hcard₂⟩ :=
    oneAnswer_card 64 b { card with lastStatus := st₁ }
  rw [hcard₂] at hend
  rcases hend with ⟨e, -, -, rfl⟩ | ⟨y, hy, hclosing⟩
  · exact .inl ⟨st₂, rfl⟩
  · have hread₂ := oneAnswer_ok.mp hy
    exact .inr ⟨a, b, x, made, y, st₂, rfl, hread, hmade, hread₂, hclosing⟩

/-- The answers of a handshake that succeeds are the first two. -/
theorem take_two_of_read {script rest : List Answer} {said : Said}
    (hread : script = said.map Prod.snd ++ rest) (hlen : said.length = 2) :
    script.take 2 = said.map Prod.snd := by
  rw [hread]
  exact List.take_left' (by rw [List.length_map, hlen])

/-- A condition on two answers is one on the answers that were read. -/
theorem ok_iff_answers {script rest : List Answer} {said : Said}
    {r : Except Err Unit} {P : List Answer → Prop}
    (hread : script = said.map Prod.snd ++ rest)
    (htwo : (∃ c, r = .ok c) → said.length = 2)
    (hP : ∀ answers, P answers → answers.length = 2)
    (hok : r = .ok () ↔ P (script.take 2)) :
    r = .ok () ↔ P (said.map Prod.snd) := by
  constructor
  · intro hr
    rw [← take_two_of_read hread (htwo ⟨(), hr⟩)]
    exact hok.mp hr
  · intro h
    have hlen := hP _ h
    rw [List.length_map] at hlen
    rw [hok, take_two_of_read hread hlen]
    exact h

/-! ## The three handshakes -/

theorem ev2Data_length (keyNo : UInt8) (first : Bool) :
    (if first then [keyNo, 0x00] else [keyNo]).length ≤ txFrameMax := by
  split <;> exact Nat.le_of_ble_eq_true rfl

theorem lrpData_length (keyNo : UInt8) (first : Bool) :
    (if first then [keyNo, 0x01, 0x02] else [keyNo]).length ≤ txFrameMax := by
  split <;> exact Nat.le_of_ble_eq_true rfl

section

variable [BlockCipher]

def legacyOpening (rng : Rng) (key : Key) (channel : Channel)
    (x : UInt8 × Bytes) : Except Err (Bytes × Bytes × LegacyToken) :=
  if x.1 ≠ dfSAdditionalFrame ∨ x.2.length ≠ legacyRndLen key then
    .error .auth
  else do
    let rndA ← randomBytes rng (legacyRndLen key)
    let token ← legacyToken key channel rndA x.2
    return (token.both, rndA, token)

def legacyClosing (keyNo : UInt8) (key : Key) (channel : Channel)
    (kept : Bytes × LegacyToken) (y : UInt8 × Bytes) (card : Card) :
    Except Err Unit × Card :=
  if y.1 ≠ dfSOk ∨ y.2.length ≠ legacyRndLen key then (.error .auth, card)
  else legacyAccept keyNo key channel kept.1 kept.2 y.2 card

theorem authLegacy_twoPass (rng : Rng) (keyNo : UInt8) (key : Key)
    (channel : Channel) :
    authLegacy rng keyNo key channel =
      Prog.twoPass (rawExchangeEx (legacyCmd key channel) [keyNo] 64 false)
        (fun token => rawExchangeEx dfAdditionalFrame token 64 false)
        (fun x _ => legacyOpening rng key channel x)
        (legacyClosing keyNo key channel) := by
  refine congrArg (_ >>= ·) (funext fun x => ?_)
  show (if _ then _ else _) = (Prog.ofExcept (legacyOpening rng key channel x)
    >>= _)
  rw [legacyOpening]
  split
  · rw [Prog.ofExcept_error_bind]
  rw [← Prog.ofExcept_bind_bind]
  refine congrArg (_ >>= ·) (funext fun rndA => ?_)
  rw [← Prog.ofExcept_bind_bind]
  refine congrArg (_ >>= ·) (funext fun token => ?_)
  rw [show (pure (token.both, rndA, token) : Except Err _) =
    .ok (token.both, rndA, token) from rfl, Prog.ofExcept_ok_bind]
  refine congrArg (_ >>= ·) (funext fun y => ?_)
  funext card script
  rw [Prog.act_run, legacyClosing]
  split <;> rfl

def ev2Opening (rng : Rng) (key : Key) (x : UInt8 × Bytes) :
    Except Err (Bytes × Bytes × Bytes) :=
  if x.1 ≠ dfSAdditionalFrame then .error .auth
  else do
    let challenge ← ev2Challenge x.2
    let rndA ← randomBytes rng aesBlock
    let token ← ev2Token key rndA challenge
    return (token.1, rndA, token.2)

def ev2Closing (keyNo : UInt8) (key : Key) (first : Bool)
    (kept : Bytes × Bytes) (y : UInt8 × Bytes) (card : Card) :
    Except Err Unit × Card :=
  if y.1 ≠ dfSOk then (.error .auth, card)
  else ev2Accept keyNo key first kept.1 kept.2 y.2 card

theorem authEv2_twoPass (rng : Rng) (keyNo : UInt8) (key : Key)
    (first : Bool) :
    authEv2 rng keyNo key first =
      Prog.twoPass
        (rawExchangeEx (if first then dfAuthenticateEv2f
            else dfAuthenticateEv2nf)
          (if first then [keyNo, 0x00] else [keyNo]) 64 false)
        (fun token => rawExchangeEx dfAdditionalFrame token 64 false)
        (fun x _ => ev2Opening rng key x) (ev2Closing keyNo key first) := by
  refine congrArg (_ >>= ·) (funext fun x => ?_)
  show (if _ then _ else _) = (Prog.ofExcept (ev2Opening rng key x) >>= _)
  rw [ev2Opening]
  split
  · rw [Prog.ofExcept_error_bind]
  rw [← Prog.ofExcept_bind_bind]
  refine congrArg (_ >>= ·) (funext fun challenge => ?_)
  rw [← Prog.ofExcept_bind_bind]
  refine congrArg (_ >>= ·) (funext fun rndA => ?_)
  rw [← Prog.ofExcept_bind_bind]
  refine congrArg (_ >>= ·) (funext fun token => ?_)
  rw [show (pure (token.1, rndA, token.2) : Except Err _) =
    .ok (token.1, rndA, token.2) from rfl, Prog.ofExcept_ok_bind]
  refine congrArg (_ >>= ·) (funext fun y => ?_)
  funext card script
  rw [Prog.act_run, ev2Closing]
  split <;> rfl

def lrpOpening (rng : Rng) (key : Key) (x : UInt8 × Bytes) :
    Except Err (Bytes × Bytes × Bytes) :=
  if x.1 ≠ dfSAdditionalFrame ∨ x.2.length ≠ aesBlock + 1 ∨
      x.2.headD 0 ≠ 0x01 then .error .auth
  else do
    let rndA ← randomBytes rng aesBlock
    let rndB := x.2.drop 1
    let session := sessionKeyLrp key.data.bytes rndA rndB
    return (rndA ++ lrpCmac (lrpInit session 0 true) (rndA ++ rndB), rndA,
      rndB)

def lrpClosing (keyNo : UInt8) (key : Key) (first : Bool)
    (kept : Bytes × Bytes) (y : UInt8 × Bytes) (card : Card) :
    Except Err Unit × Card :=
  if y.1 ≠ dfSOk ∨ y.2.length < aesBlock then (.error .auth, card)
  else
    lrpAccept keyNo key first kept.1 kept.2
      (sessionKeyLrp key.data.bytes kept.1 kept.2) y.2 card

theorem authLrp_twoPass (rng : Rng) (keyNo : UInt8) (key : Key)
    (first : Bool) :
    authLrp rng keyNo key first =
      Prog.twoPass
        (rawExchangeEx (if first then dfAuthenticateEv2f
            else dfAuthenticateEv2nf)
          (if first then [keyNo, 0x01, 0x02] else [keyNo]) 64 false)
        (fun token => rawExchangeEx dfAdditionalFrame token 64 false)
        (fun x _ => lrpOpening rng key x) (lrpClosing keyNo key first) := by
  refine congrArg (_ >>= ·) (funext fun x => ?_)
  show (if _ then _ else _) = (Prog.ofExcept (lrpOpening rng key x) >>= _)
  rw [lrpOpening]
  split
  · rw [Prog.ofExcept_error_bind]
  rw [← Prog.ofExcept_bind_bind]
  refine congrArg (_ >>= ·) (funext fun rndA => ?_)
  rw [show (pure (rndA ++ lrpCmac (lrpInit (sessionKeyLrp key.data.bytes rndA
      (x.2.drop 1)) 0 true) (rndA ++ x.2.drop 1), rndA, x.2.drop 1) :
        Except Err _) = .ok _ from rfl, Prog.ofExcept_ok_bind]
  refine congrArg (_ >>= ·) (funext fun y => ?_)
  funext card script
  rw [Prog.act_run, lrpClosing]
  split <;> rfl

end

end Nxpsc
