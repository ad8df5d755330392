import Nxpsc.Proofs.Soundness
import Nxpsc.Ref.Plus

/-!
# Authenticating again inside a session

The non first handshakes run in the session they are about to replace, and
none of them drops it. Once a frame is out, the session is gone on the card
when the card did not accept; in the handle it stays, on LRP with its counter
cleared. So the calls keep their promise exactly where they send nothing or
where the card proves itself. The one of MIFARE Plus does not ask for a
session in the first place.
-/

namespace Nxpsc

open Dialogue

theorem plusTransceive_once (tx : Bytes) (cap : Nat) :
    (plusTransceive tx cap).Once (fun _ => .plus tx) (plusAnswer cap) :=
  Prog.once_ask_act _ _

theorem plusAnswer_ok {cap : Nat} (hcap : 0 < cap) {a : Answer} {card : Card}
    {x : Bytes} : (plusAnswer cap a card).1 = .ok x ↔
      ∃ rx, a = .ok rx ∧ x = rx.take cap ∧ rx.headD 0 = 0x90 := by
  cases a with
  | error e => simp only [plusAnswer, reduceCtorEq, false_and, exists_false]
  | ok rx =>
  simp only [plusAnswer, Except.ok.injEq, exists_eq_left']
  by_cases hlen : (rx.take cap).length < 1
  · have hnil : rx = [] := by
      cases rx with
      | nil => rfl
      | cons b rest =>
          rw [List.length_take, List.length_cons] at hlen
          omega
    rw [if_pos hlen, hnil]
    simp [show ¬ (0 : UInt8) = 0x90 by decide]
  have hhead : (rx.take cap).headD 0 = rx.headD 0 := by
    cases rx with
    | nil => rw [List.take_nil]
    | cons b rest =>
        obtain ⟨n, rfl⟩ : ∃ n, cap = n + 1 := ⟨cap - 1, by omega⟩
        rfl
  rw [if_neg hlen, hhead]
  by_cases hst : rx.headD 0 = 0x90
  · rw [if_neg (not_not.mpr hst)]
    simp only [Except.ok.injEq, hst, and_true, eq_comm]
  · rw [if_pos hst]
    simp only [reduceCtorEq, hst, and_false]

theorem plusAnswer_card (cap : Nat) (a : Answer) (card : Card) :
    ∃ status, (plusAnswer cap a card).2 =
      { card with lastStatus := status } := by
  cases a with
  | error e => exact ⟨card.lastStatus, rfl⟩
  | ok rx =>
      simp only [plusAnswer]
      repeat' split
      · exact ⟨card.lastStatus, rfl⟩
      · exact ⟨_, rfl⟩
      · exact ⟨_, rfl⟩

theorem keeps_plusTransceive {I : Card → Prop}
    (hstatus : ∀ card status, I card → I { card with lastStatus := status })
    (tx : Bytes) : (plusTransceive tx 64).Keeps I := by
  refine (plusTransceive_once tx 64).keeps fun a card hI => ?_
  obtain ⟨status, hcard⟩ := plusAnswer_card 64 a card
  rw [hcard]
  exact hstatus card status hI

theorem length_plusDataIv (card : Card) (read : Bool) :
    (plusDataIv card read).length = 16 := by
  rw [plusDataIv]
  split
  · rw [List.length_append, card.ti.size]
    rfl
  · rw [List.length_append, card.ti.size]
    rfl

theorem failsClosed_of_refused {card card' : Card} {said : Said}
    {r : Except Err Unit} (hr : ∃ e, r = .error e) (hsaid : said = [])
    (hcard : card' = card) : FailsClosed card said r card' :=
  ⟨fun _ => ⟨hr, hsaid⟩, fun h => absurd hsaid h, fun _ _ => hcard⟩

/-- Behind a frame a session that is kept is kept by a success only. -/
theorem failsClosed_iff_ok {card card' : Card} {said : Said}
    {r : Except Err Unit} (hauth : card.authenticated = true)
    (hsaid : said ≠ []) (hkept : card'.authenticated = true) :
    FailsClosed card said r card' ↔ r = .ok () := by
  constructor
  · intro h
    by_contra hr
    have := h.dropped hsaid hr
    rw [hkept] at this
    cases this
  · intro hr
    refine ⟨fun h => ?_, fun _ h => absurd hr h, fun h => absurd hr h⟩
    rw [hauth] at h
    cases h

/-- The calls that get as far as the first frame. -/
theorem nonfirst_admitted {key : Option Key} {card : Card}
    (hno : ¬ (key = none ∨ card.authenticated = false ∨
      (card.channel ≠ .ev2 ∧ card.channel ≠ .lrp))) :
    ∃ k, key = some k ∧ card.authenticated = true ∧
      (card.channel = .ev2 ∨ card.channel = .lrp) := by
  rw [not_or, not_or] at hno
  obtain ⟨hkey, hauth, hchan⟩ := hno
  obtain ⟨k, hk⟩ := Option.ne_none_iff_exists'.mp hkey
  refine ⟨k, hk, Bool.eq_true_of_not_eq_false hauth, ?_⟩
  by_contra hnot
  exact hchan (not_or.mp hnot)

section

variable [BlockCipher]

/-- Inside a session of EV2 or LRP the call runs, and succeeds with a card
that proves itself. -/
theorem authenticateNonfirst_ok {rng : Rng} {keyNo : UInt8} {key : Key}
    {card card' : Card} {script rest : List Answer} {said : Said}
    {r : Except Err Unit} (hauth : card.authenticated = true)
    (hchan : card.channel = .ev2 ∨ card.channel = .lrp)
    (h : authenticateNonfirst rng keyNo (some key) card script =
      .done said r card' rest) :
    (said ≠ [] ∧ script = said.map Prod.snd ++ rest ∧
      ((∃ c, r = .ok c) → said.length = 2)) ∧
      (r = .ok () ↔
        CardProves rng card.channel false key card.wraps (script.take 2)) := by
  rw [authenticateNonfirst, Prog.get_bind, if_neg (by rw [hauth]; decide)] at h
  rcases hchan with hchan | hchan
  · rw [hchan, if_neg (by decide), if_pos rfl] at h
    rw [hchan]
    refine ⟨?_, authEv2_ok h⟩
    rw [authEv2_twoPass] at h
    exact native_read (ev2Data_length keyNo false)
      (fun x made => ev2Opening_token) h
  · rw [hchan, if_pos rfl] at h
    rw [hchan]
    refine ⟨?_, authLrp_ok h⟩
    rw [authLrp_twoPass] at h
    exact native_read (lrpData_length keyNo false)
      (fun x made => lrpOpening_token) h

/-- Everywhere else it refuses. -/
theorem authenticateNonfirst_declines {rng : Rng} {keyNo : UInt8}
    {key : Option Key} {card card' : Card} {script rest : List Answer}
    {said : Said} {r : Except Err Unit}
    (hno : key = none ∨ card.authenticated = false ∨
      (card.channel ≠ .ev2 ∧ card.channel ≠ .lrp))
    (h : authenticateNonfirst rng keyNo key card script =
      .done said r card' rest) :
    (∃ e, r = .error e) ∧ said = [] ∧ card' = card := by
  cases key with
  | none =>
      cases h
      exact ⟨⟨_, rfl⟩, rfl, rfl⟩
  | some key =>
  rw [authenticateNonfirst, Prog.get_bind] at h
  split at h
  · cases h
    exact ⟨⟨_, rfl⟩, rfl, rfl⟩
  next hauth =>
  have hkey : some key ≠ none := Option.some_ne_none key
  have hchan := (hno.resolve_left hkey).resolve_left hauth
  rw [if_neg hchan.2, if_neg hchan.1] at h
  cases h
  exact ⟨⟨_, rfl⟩, rfl, rfl⟩

/-! ## MIFARE Plus -/

def plusOpening (rng : Rng) (key : Key) (resp : Bytes) (card : Card) :
    Except Err (Bytes × Bytes × Bytes × Bytes) :=
  if resp.length < 17 then .error .length
  else do
    let rndA ← randomBytes rng 16
    let token ← plusToken key (plusDataIv card true) (plusDataIv card false)
      rndA resp
    return (token.1, plusDataIv card true, rndA, token.2)

def plusClosing (keyBlock : UInt16) (key : Key)
    (kept : Bytes × Bytes × Bytes) (resp : Bytes) (card : Card) :
    Except Err Unit × Card :=
  plusAccept keyBlock key false kept.1 kept.2.1 kept.2.2 resp card

theorem plusAuthenticate_twoPass (rng : Rng) (keyBlock : UInt16) {key : Key}
    (htype : key.type = .aes128) (card : Card) (script : List Answer) :
    plusAuthenticate rng keyBlock (some key) false card script =
      Prog.twoPass (plusTransceive (plusAuthFrame keyBlock false) 64)
        (fun token => plusTransceive token 64) (plusOpening rng key)
        (plusClosing keyBlock key) card script := by
  rw [plusAuthenticate, if_neg (not_not.mpr htype), Prog.modify_bind]
  refine congrFun (congrFun (congrArg (_ >>= ·) (funext fun x => ?_)) card)
    script
  funext card₁ script₁
  rw [Prog.act_bind]
  simp only [plusOpening]
  split
  · rfl
  rw [Prog.get_bind]
  cases hrnd : randomBytes rng 16 with
  | error e => rfl
  | ok rndA =>
  rw [Prog.ofExcept_ok_bind]
  cases htoken : plusToken key (plusDataIv card₁ true)
    (plusDataIv card₁ false) rndA x with
  | error e =>
      simp only [Bool.false_eq_true, if_false, htoken, bind, Except.bind]
      rfl
  | ok token =>
      simp only [Bool.false_eq_true, if_false, htoken, bind, Except.bind]
      exact Outcome.prepend_nil _

theorem plusToken_isOk (key : Key) (card : Card) (rnd : Bytes) {resp : Bytes}
    (h : 17 ≤ resp.length) :
    ∃ token, plusToken key (plusDataIv card true) (plusDataIv card false)
      (Bytes.fit 16 rnd) resp = .ok token := by
  have hblock : ((resp.drop 1).take 16).length = 16 :=
    Bytes.length_part (by omega)
  have hiv : blockSize .aes128 ≤ (plusDataIv card true).length :=
    Nat.le_of_eq (length_plusDataIv card true).symm
  have hpos : 0 < ((resp.drop 1).take 16).length := by omega
  have hmod : ((resp.drop 1).take 16).length % blockSize .aes128 = 0 := by
    rw [hblock]
    rfl
  have hreceived := cbcCryptEx_receives .aes128 key.data.bytes
    (plusDataIv card true) hpos hmod
  obtain ⟨hlen, -⟩ := length_decReceived key.data.bytes hiv hpos hmod
  generalize decReceived .aes128 key.data.bytes (plusDataIv card true)
    ((resp.drop 1).take 16) = rndB at *
  have hplain : (Bytes.fit 16 rnd ++ rndB.1.drop 1 ++
      rndB.1.take 1).length = 32 := by
    simp only [List.length_append, Bytes.length_fit, List.length_drop,
      List.length_take, hlen, hblock]
    rfl
  have hplainMod : (Bytes.fit 16 rnd ++ rndB.1.drop 1 ++
      rndB.1.take 1).length % blockSize .aes128 = 0 := by
    rw [hplain]
    rfl
  have hsends := (sameCipher_refl .aes128 key.data.bytes).sends
    (plusDataIv card false) (by omega) hplainMod
  simp only [plusToken, cbcCrypt, hreceived, hsends, bind, Except.bind]
  exact ⟨_, rfl⟩

theorem plusOpening_ok {rng : Rng} {key : Key} {resp : Bytes} {card : Card}
    {made : Bytes × Bytes × Bytes × Bytes} :
    plusOpening rng key resp card = .ok made ↔
      17 ≤ resp.length ∧ ∃ rnd token, rng = .ok rnd ∧
        plusToken key (plusDataIv card true) (plusDataIv card false)
          (Bytes.fit 16 rnd) resp = .ok token ∧
        made = (token.1, plusDataIv card true, Bytes.fit 16 rnd, token.2) := by
  rw [plusOpening]
  split
  · next hshort =>
      refine iff_of_false (fun h => ?_) fun h => ?_
      · cases h
      · omega
  · next hlong =>
      rw [drawn_token_ok (by decide)]
      simp only [Nat.not_lt.mp hlong, true_and]

theorem plusClosing_ok (keyBlock : UInt16) (key : Key) (rndB : Bytes)
    {iv rndA : Bytes} (hiv : iv.length = 16) (hA : rndA.length = 16)
    (resp : Bytes) (card : Card) :
    (plusClosing keyBlock key (iv, rndA, rndB) resp card).1 = .ok () ↔
      resp.length = 17 ∧
        (decReceived .aes128 key.data.bytes iv (resp.drop 1)).1 =
          rol rndA := by
  rw [plusClosing, plusAccept]
  by_cases hlen : resp.length = 17
  swap
  · have hlen' : resp.length ≠ if false = true then 33 else 17 := hlen
    rw [if_pos hlen']
    simp only [reduceCtorEq, hlen, false_and]
  have hlen' : ¬ resp.length ≠ if false = true then 33 else 17 :=
    not_not.mpr hlen
  have hblock : (resp.drop 1).length = 16 := by
    rw [List.length_drop, hlen]
  have hpos : 0 < (resp.drop 1).length := by omega
  have hmod : (resp.drop 1).length % blockSize .aes128 = 0 := by
    rw [hblock]
    rfl
  have hfit : blockSize .aes128 ≤ iv.length := Nat.le_of_eq hiv.symm
  have hreceived : cbcCrypt .aes128 key.data.bytes iv (resp.drop 1) false =
      .ok (decReceived .aes128 key.data.bytes iv (resp.drop 1)) :=
    cbcCryptEx_receives _ _ _ hpos hmod
  have hplain : (decReceived .aes128 key.data.bytes iv
      (resp.drop 1)).1.length = if false = true then 32 else 16 :=
    (length_decReceived _ hfit hpos hmod).1.trans hblock
  rw [if_neg hlen', hreceived]
  generalize decReceived .aes128 key.data.bytes iv (resp.drop 1) = plain at *
  have hiff : rndA = ev2ReturnedRndA plain.1 false ↔ _ :=
    ev2ReturnedRndA_iff hA hplain
  rw [if_neg Bool.false_ne_true] at hiff
  by_cases heq : rndA = ev2ReturnedRndA plain.1 false
  · simp only [← heq, ne_eq, not_true_eq_false, if_false, hlen, true_and]
    simp only [hiff.mp heq]
  · simp only [heq, ne_eq, not_false_eq_true, if_true, reduceCtorEq,
      false_iff, not_and]
    exact fun _ h => heq (hiff.mpr h)

/-- The Plus call runs in any state, and succeeds with a card that proves
itself. -/
theorem plusNonFirst_ok {rng : Rng} {keyBlock : UInt16} {key : Key}
    (htype : key.type = .aes128) {card card' : Card}
    {script rest : List Answer} {said : Said} {r : Except Err Unit}
    (h : plusAuthenticate rng keyBlock (some key) false card script =
      .done said r card' rest) :
    (said ≠ [] ∧ script = said.map Prod.snd ++ rest ∧
      ((∃ c, r = .ok c) → said.length = 2)) ∧
      (r = .ok () ↔
        PlusProves rng key (plusDataIv card true) (script.take 2)) := by
  rw [plusAuthenticate_twoPass rng keyBlock htype] at h
  refine ⟨Prog.twoPass_read (plusTransceive_once _ 64)
    (fun x s token kept _ => plusTransceive_once token 64) h, ?_⟩
  have hiv : ∀ card₁ : Card, (∃ status,
      card₁ = { card with lastStatus := status }) →
      plusDataIv card₁ true = plusDataIv card true := by
    rintro card₁ ⟨status, rfl⟩
    rfl
  rcases Prog.twoPass_done (plusTransceive_once _ 64)
    (fun x s token kept _ => plusTransceive_once token 64) h with
    ⟨a, e, rfl, rfl, rfl, rfl, hfailed⟩ |
    ⟨a, b, x, made, rfl, rfl, hx, hmade, hend⟩
  · rw [iff_false_left (by simp)]
    rintro ⟨rnd, rx₁, rx₂, rfl, hanswers, hlen, hhead, -⟩
    obtain rfl : a = .ok rx₁ := (List.cons.inj hanswers).1
    have hread : (plusAnswer 64 (.ok rx₁) card).1 = .ok (rx₁.take 64) :=
      (plusAnswer_ok (by omega)).mpr ⟨rx₁, rfl, rfl, hhead⟩
    rcases hfailed with he | ⟨x, hx, he⟩
    · rw [hread] at he
      cases he
    · rw [hread] at hx
      cases hx
      have hlong : 17 ≤ (rx₁.take 64).length := by
        rw [List.length_take]
        omega
      obtain ⟨token, htoken⟩ := plusToken_isOk key
        (plusAnswer 64 (.ok rx₁) card).2 rnd hlong
      rw [plusOpening_ok.mpr ⟨hlong, rnd, token, rfl, htoken, rfl⟩] at he
      cases he
  obtain ⟨rx₁, rfl, rfl, hhead₁⟩ := (plusAnswer_ok (by omega)).mp hx
  obtain ⟨hlen, rnd, token, rfl, htoken, rfl⟩ := plusOpening_ok.mp hmade
  have hivs := hiv _ (plusAnswer_card 64 (.ok rx₁) card)
  have hclosing := fun y card₁ => plusClosing_ok keyBlock key token.2
    (length_plusDataIv card true) (Bytes.length_fit 16 rnd) y card₁
  dsimp only at hend
  rw [hivs] at hend
  constructor
  · rintro rfl
    rcases hend with ⟨e, -, he, -⟩ | ⟨y, hy, hclosed⟩
    · cases he
    obtain ⟨rx₂, rfl, rfl, hhead₂⟩ := (plusAnswer_ok (by omega)).mp hy
    obtain ⟨hylen, hproof⟩ := (hclosing _ _).mp (congrArg Prod.fst hclosed)
    rw [List.length_take] at hlen hylen
    have hall : rx₂.take 64 = rx₂ := List.take_of_length_le (by omega)
    rw [hall] at hproof
    exact ⟨rnd, rx₁, rx₂, rfl, rfl, by omega, hhead₁, by omega, hhead₂,
      hproof⟩
  · rintro ⟨rnd', rx₁', rx₂, hrng, hanswers, -, -, hylen, hhead₂, hproof⟩
    cases hrng
    cases hanswers
    have hall : rx₂.take 64 = rx₂ := List.take_of_length_le (by omega)
    have hread : ∀ card₁, (plusAnswer 64 (.ok rx₂) card₁).1 =
        .ok (rx₂.take 64) := fun _ =>
      (plusAnswer_ok (by omega)).mpr ⟨rx₂, rfl, rfl, hhead₂⟩
    rcases hend with ⟨e, he, -, -⟩ | ⟨y, hy, hclosed⟩
    · rw [hread] at he
      cases he
    · rw [hread] at hy
      cases hy
      rw [hall] at hclosed
      have hok := (hclosing rx₂
        (plusAnswer 64 (.ok rx₂) (plusAnswer 64 (.ok rx₁) card).2).2).mpr
        ⟨hylen, hproof⟩
      rw [hclosed] at hok
      exact hok

/-- A property of the handle that the transport does not touch goes through
the handshake as it goes through the acceptance. -/
theorem keeps_plusAuthenticate {I : Card → Prop}
    (hstatus : ∀ card status, I card → I { card with lastStatus := status })
    {rng : Rng} {keyBlock : UInt16} {key : Key} {first : Bool}
    (hreset : first = true → ∀ card, I card → I (resetChannel card))
    (haccept : ∀ ivRead rndA rndB resp card, I card →
      I (plusAccept keyBlock key first ivRead rndA rndB resp card).2) :
    (plusAuthenticate rng keyBlock (some key) first).Keeps I := by
  have hpass := keeps_plusTransceive hstatus
  refine Prog.keeps_ite (Prog.keeps_fail _) (Prog.keeps_bind
    (Prog.keeps_act fun card hI => ?_) fun _ => Prog.keeps_bind (hpass _)
      fun _ => Prog.keeps_ite (Prog.keeps_fail _) (Prog.keeps_bind
        Prog.keeps_get fun _ => Prog.keeps_bind (Prog.keeps_ofExcept _)
          fun _ => Prog.keeps_bind (Prog.keeps_ofExcept _) fun _ =>
            Prog.keeps_bind (hpass _) fun _ =>
              Prog.keeps_act fun card hI => haccept _ _ _ _ card hI))
  cases first with
  | true => exact hreset rfl card hI
  | false => exact hI

theorem plusNonFirst_keeps {rng : Rng} {keyBlock : UInt16} {key : Key} :
    (plusAuthenticate rng keyBlock (some key) false).Keeps
      (·.authenticated = true) := by
  refine keeps_plusAuthenticate (fun _ _ hI => hI)
    (fun h => absurd h Bool.false_ne_true) fun _ _ _ _ card hI => ?_
  simp only [plusAccept]
  repeat' split
  all_goals first | exact hI | rfl

/-! ## The two calls -/

/-- Both calls fail closed exactly where they send nothing or the card proves
itself; the one of MIFARE Plus has to find a session, too. -/
theorem nonFirst_fails_closed (rng : Rng) (card : Card)
    (script : List Answer) :
    (∀ (keyNo : UInt8) (key : Option Key) said r card' rest,
      authenticateNonfirst rng keyNo key card script =
        .done said r card' rest →
      (FailsClosed card said r card' ↔
        card.authenticated = false ∨
        (card.channel ≠ .ev2 ∧ card.channel ≠ .lrp) ∨
        ∀ k, key = some k → CardProves rng card.channel false k card.wraps
          (script.take 2))) ∧
    ∀ (keyBlock : UInt16) (key : Option Key) said r card' rest,
      plusAuthenticate rng keyBlock key false card script =
        .done said r card' rest →
      (FailsClosed card said r card' ↔
        ∀ k, key = some k → k.type = .aes128 →
          card.authenticated = true ∧
          PlusProves rng k (plusDataIv card true) (script.take 2)) := by
  constructor
  · intro keyNo key said r card' rest h
    by_cases hno : key = none ∨ card.authenticated = false ∨
        (card.channel ≠ .ev2 ∧ card.channel ≠ .lrp)
    · obtain ⟨hr, hsaid, hcard⟩ := authenticateNonfirst_declines hno h
      refine iff_of_true (failsClosed_of_refused hr hsaid hcard) ?_
      rcases hno with rfl | hauth | hchan
      · exact .inr (.inr fun k hk => by cases hk)
      · exact .inl hauth
      · exact .inr (.inl hchan)
    obtain ⟨k, rfl, hauth, hchan⟩ := nonfirst_admitted hno
    have hin : ¬ (card.channel ≠ .ev2 ∧ card.channel ≠ .lrp) := fun h =>
      hchan.elim h.1 h.2
    obtain ⟨⟨hsaid, -⟩, hok⟩ := authenticateNonfirst_ok hauth hchan h
    rw [failsClosed_iff_ok hauth hsaid
      (nonfirst_keeps_session _ _ _ _ _ _ _ _ _ hauth h), hok]
    simp only [hauth, hin, Bool.true_eq_false, false_or, Option.some.injEq,
      forall_eq']
  · intro keyBlock key said r card' rest h
    cases key with
    | none =>
        cases h
        exact iff_of_true (failsClosed_of_refused ⟨_, rfl⟩ rfl rfl)
          fun k hk => by cases hk
    | some k =>
    by_cases htype : k.type = .aes128
    swap
    · rw [plusAuthenticate, if_pos htype] at h
      cases h
      refine iff_of_true (failsClosed_of_refused ⟨_, rfl⟩ rfl rfl) ?_
      intro k' hk htype'
      cases hk
      exact absurd htype' htype
    obtain ⟨⟨hsaid, -⟩, hok⟩ := plusNonFirst_ok htype h
    simp only [Option.some.injEq, forall_eq', htype, forall_const]
    cases hauth : card.authenticated with
    | false =>
        simp only [Bool.false_eq_true, false_and, iff_false]
        intro hclosed
        exact hsaid (hclosed.refused hauth).2
    | true =>
        rw [failsClosed_iff_ok hauth hsaid
          (plusNonFirst_keeps _ _ _ _ _ _ hauth h), hok, and_iff_right rfl]

end

theorem nonFirst_fails_closed_opened :
    FailsClosed (Card.opened none) [] (.error .auth) (Card.opened none) ∧
    ∃ said r card' rest, @plusAuthenticate .identity (.ok []) 0 (some zeroKey)
        false (Card.opened none) [.ok [0x06]] = .done said r card' rest ∧
      ¬ FailsClosed (Card.opened none) said r card' := by
  obtain ⟨hnative, hplus⟩ := @nonFirst_fails_closed .identity (.ok [])
    (Card.opened none) [.ok [0x06]]
  refine ⟨(hnative 0 (some zeroKey) _ _ _ _ rfl).mpr (.inl rfl), _, _, _, _,
    rfl, fun hclosed => ?_⟩
  have hsession := (hplus 0 (some zeroKey) _ _ _ _ rfl).mp hclosed zeroKey rfl
    rfl
  exact absurd hsession.1 (by decide)

/-- An EV2 session survives a card that answers with an error. -/
theorem nonFirst_may_keep_session :
    ¬ ∀ (_ : BlockCipher) (rng : Rng) (keyNo : UInt8) (key : Option Key)
      (card : Card) (script : List Answer) (said : Said) (r : Except Err Unit)
      (card' : Card) (rest : List Answer),
      authenticateNonfirst rng keyNo key card script =
        .done said r card' rest → FailsClosed card said r card' := by
  intro hall
  have hclosed := hall .identity (.ok []) 0 (some zeroKey) liveEv2
    [.ok [0xAE]] _ _ _ _ rfl
  exact absurd (hclosed.dropped (by simp) (by simp)) (by decide)

end Nxpsc
