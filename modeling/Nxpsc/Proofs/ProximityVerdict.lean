import Nxpsc.Proofs.Cmac
import Nxpsc.Proofs.Reply
import Nxpsc.Spec.Proximity
import Nxpsc.Spec.Session

/-!
# What a proximity check comes to

The check is a chain of exchanges of one frame each, and goes on only over a
good reply. `Stage` says of a part of it what it put, what it comes to and
what becomes of the session; the parts compose.
-/

namespace Nxpsc

open Dialogue

theorem commandFrames_append (sw : Bool) (front back : List Frame) :
    commandFrames sw (front ++ back) =
      commandFrames sw front ++ commandFrames sw back :=
  List.filter_append ..

theorem commandFrames_command (sw : Bool) {cmd : UInt8} (data : Bytes)
    (m : Nat) (hcmd : cmd ≠ dfAdditionalFrame) :
    commandFrames sw (nativeFrame sw cmd data :: List.replicate m (goOn sw)) =
      [nativeFrame sw cmd data] := by
  have hne : nativeFrame sw cmd data ≠ goOn sw := by
    intro h
    rw [goOn, nativeFrame, nativeFrame] at h
    cases sw <;> exact hcmd (by injection h)
  have hgo : commandFrames sw (List.replicate m (goOn sw)) = [] := by
    rw [commandFrames, List.filter_replicate]
    simp
  rw [commandFrames] at hgo ⊢
  rw [List.filter_cons, if_pos (decide_eq_true hne), hgo]

/-- A part of the check from `card`: the commands it put, whether it was
refused, and what it hands on where it does. -/
inductive Stage {α : Type} (card : Card) (frames : List Frame)
    (refused : Prop) : Option (α × List Answer) →
    Outcome Card Frame Answer Err α → Prop where
  /-- a value, and the session as it was -/
  | goes {said : Said} {a : α} {card' : Card} {rest : List Answer}
      (hput : commandFrames card.wraps (said.map Prod.fst) = frames)
      (hno : ¬ refused) (hwraps : card'.wraps = card.wraps)
      (hauth : card'.authenticated = card.authenticated) :
      Stage card frames refused (some (a, rest)) (.done said (.ok a) card' rest)
  /-- an error, and the session dropped where the card refused -/
  | stops {said : Said} {e : Err} {card' : Card} {rest : List Answer}
      (hput : commandFrames card.wraps (said.map Prod.fst) = frames)
      (hauth : card'.authenticated = false ↔
        card.authenticated = false ∨ refused) :
      Stage card frames refused none (.done said (.error e) card' rest)
  /-- no more answers -/
  | waits {said : Said} {q : Frame} {card' : Card}
      (hput : commandFrames card.wraps (said.map Prod.fst ++ [q]) = frames) :
      Stage card frames refused none (.waiting said q card')

section

variable {α β : Type} {card : Card} {frames : List Frame} {refused : Prop}
  {result : Option (α × List Answer)} {o : Outcome Card Frame Answer Err α}

theorem Stage.frames_eq (h : Stage card frames refused result o) :
    commandFrames card.wraps o.queries = frames := by
  cases h with
  | goes hput => exact hput
  | stops hput => exact hput
  | waits hput => exact hput

theorem Stage.ok_iff (h : Stage card frames refused result o) {a : α}
    {rest : List Answer} :
    (∃ said card', o = .done said (.ok a) card' rest) ↔
      result = some (a, rest) := by
  cases h with
  | goes =>
      constructor
      · rintro ⟨said, card', h⟩
        cases h
        rfl
      · intro h
        cases h
        exact ⟨_, _, rfl⟩
  | stops =>
      refine ⟨?_, fun h => by cases h⟩
      rintro ⟨said, card', h⟩
      cases h
  | waits =>
      refine ⟨?_, fun h => by cases h⟩
      rintro ⟨said, card', h⟩
      cases h

theorem Stage.session_iff (h : Stage card frames refused result o)
    {said : Said} {r : Except Err α} {card' : Card} {rest : List Answer}
    (hdone : o = .done said r card' rest) :
    card'.authenticated = false ↔ card.authenticated = false ∨ refused := by
  cases h with
  | goes hput hno hwraps hauth =>
      cases hdone
      rw [hauth]
      exact ⟨.inl, fun h => h.resolve_right hno⟩
  | stops hput hauth =>
      cases hdone
      exact hauth
  | waits => cases hdone

theorem Stage.bind_goes {m : Api α} {k : α → Api β} {script rest : List Answer}
    {a : α} {frames' : List Frame} {refused refused' : Prop}
    {result' : Option (β × List Answer)}
    (hm : Stage card frames refused (some (a, rest)) (m card script))
    (hk : ∀ card', card'.wraps = card.wraps →
      card'.authenticated = card.authenticated →
      Stage card' frames' refused' result' (k a card' rest)) :
    Stage card (frames ++ frames') refused' result'
      ((m >>= k) card script) := by
  generalize hrun : m card script = o at hm
  cases hm with
  | goes hput hno hwraps hauth =>
      rw [Prog.bind_ok hrun]
      generalize hnext : k a _ rest = o'
      have hstage := hk _ hwraps hauth
      rw [hnext] at hstage
      cases hstage with
      | goes hput' hno' hwraps' hauth' =>
          rw [hwraps] at hput'
          refine .goes ?_ hno' (hwraps'.trans hwraps) (hauth'.trans hauth)
          rw [List.map_append, commandFrames_append, hput, hput']
      | stops hput' hauth' =>
          rw [hwraps] at hput'
          rw [hauth] at hauth'
          refine .stops ?_ hauth'
          rw [List.map_append, commandFrames_append, hput, hput']
      | waits hput' =>
          rw [hwraps] at hput'
          refine .waits ?_
          rw [List.map_append, List.append_assoc, commandFrames_append, hput,
            hput']

theorem Stage.bind_none {m : Api α} {k : α → Api β} {script : List Answer}
    (hm : Stage card frames refused none (m card script)) :
    Stage card frames refused none ((m >>= k) card script) := by
  generalize hrun : m card script = o at hm
  cases hm with
  | stops hput hauth =>
      rw [Prog.bind_error hrun]
      exact .stops hput hauth
  | waits hput =>
      rw [Prog.bind_def, Prog.bind, hrun]
      exact .waits hput

theorem stage_pure (card : Card) (a : α) (script : List Answer) :
    Stage card [] False (some (a, script))
      ((pure a : Api α) card script) :=
  .goes rfl id rfl rfl

theorem stage_fail (card : Card) (e : Err) (script : List Answer) :
    Stage card [] False none ((Prog.fail e : Api α) card script) :=
  .stops rfl ⟨.inl, fun h => h.resolve_right id⟩

theorem stage_drop (card : Card) (e : Err) (script : List Answer) :
    Stage card [] True none ((dropSession e : Api α) card script) := by
  rw [dropSession, Prog.modify_bind, Prog.fail_run]
  exact .stops rfl ⟨fun _ => .inr trivial, fun _ => rfl⟩

/-! ## One exchange -/

theorem pcStatusOk_iff {status : UInt8} :
    pcStatusOk status = true ↔ status = 0x00 ∨ status = 0x90 := by
  rw [pcStatusOk, Bool.or_eq_true, beq_iff_eq, beq_iff_eq]
  rfl

theorem goodReply_eq_some {sw : Bool} {cap : Nat} {script rest : List Answer}
    {data : Bytes} :
    goodReply sw cap script = some (data, rest) ↔ ∃ status,
      cardReply sw cap [] script = some ((status, data), rest) ∧
        pcStatusOk status = true := by
  rw [goodReply]
  split
  · next hnone =>
      rw [hnone]
      simp
  · next status data' rest' hsome =>
      rw [hsome]
      split
      · next hok =>
          rw [← pcStatusOk_iff] at hok
          simp only [Option.some.injEq, Prod.mk.injEq]
          constructor
          · rintro ⟨rfl, rfl⟩
            exact ⟨status, ⟨⟨rfl, rfl⟩, rfl⟩, hok⟩
          · rintro ⟨_, ⟨⟨-, rfl⟩, rfl⟩, -⟩
            exact ⟨rfl, rfl⟩
      · next hbad =>
          rw [← pcStatusOk_iff] at hbad
          constructor
          · intro h
            cases h
          · rintro ⟨_, h, hok⟩
            cases h
            exact absurd hok hbad

theorem goodReply_not_bad {sw : Bool} {cap : Nat} {script rest : List Answer}
    {data : Bytes} (h : goodReply sw cap script = some (data, rest)) :
    ¬ BadReply sw cap script := by
  rintro ⟨status, data', rest', hreply, hbad⟩
  obtain ⟨status', hreply', hok⟩ := goodReply_eq_some.mp h
  rw [hreply'] at hreply
  cases hreply
  exact hbad (pcStatusOk_iff.mp hok)

/-- An exchange of the check, and what it goes on to. -/
def pcExchange (cmd : UInt8) (data : Bytes) (cap : Nat)
    (next : UInt8 × Bytes → Api β) : Api β :=
  rawExchange cmd data cap >>= fun answer =>
    if pcStatusOk answer.1 = false then dropSession .card else next answer

variable {cmd : UInt8} {data : Bytes} {cap : Nat} {script : List Answer}
  {next : UInt8 × Bytes → Api β}

theorem rawExchange_frames (card : Card) (cap : Nat) (script : List Answer)
    (hlen : data.length ≤ txFrameMax) (hcmd : cmd ≠ dfAdditionalFrame) :
    commandFrames card.wraps (rawExchange cmd data cap card script).queries =
      [nativeFrame card.wraps cmd data] := by
  obtain ⟨m, hm⟩ := rawExchange_queries cmd cap card script hlen
  rw [hm, commandFrames_command _ _ _ hcmd]

theorem stage_good {got : Bytes} {rest : List Answer} {frames' : List Frame}
    {refused' : Prop} {result' : Option (β × List Answer)}
    (hlen : data.length ≤ txFrameMax) (hcmd : cmd ≠ dfAdditionalFrame)
    (hgood : goodReply card.wraps cap script = some (got, rest))
    (hnext : ∀ status card', card'.wraps = card.wraps →
      card'.authenticated = card.authenticated →
      Stage card' frames' refused' result' (next (status, got) card' rest)) :
    Stage card (nativeFrame card.wraps cmd data :: frames') refused' result'
      (pcExchange cmd data cap next card script) := by
  obtain ⟨status, hreply, hok⟩ := goodReply_eq_some.mp hgood
  have hput := rawExchange_frames card cap script hlen hcmd
  rcases rawExchange_short_cases cmd cap card script hlen with
    ⟨x, said, rest', hx, hrun⟩ | ⟨hnone, -⟩
  · rw [hreply] at hx
    cases hx
    rw [hrun] at hput
    have hraw : Stage card [nativeFrame card.wraps cmd data] False
        (some ((status, got), rest))
        (rawExchange cmd data cap card script) := by
      rw [hrun]
      exact .goes hput id rfl rfl
    refine hraw.bind_goes fun card' hwraps hauth => ?_
    rw [if_neg (by rw [hok]; exact Bool.noConfusion)]
    exact hnext status card' hwraps hauth
  · rw [hreply] at hnone
    cases hnone

theorem stage_bad (hlen : data.length ≤ txFrameMax)
    (hcmd : cmd ≠ dfAdditionalFrame)
    (hgood : goodReply card.wraps cap script = none) :
    Stage card [nativeFrame card.wraps cmd data]
      (BadReply card.wraps cap script) none
      (pcExchange cmd data cap next card script) := by
  have hput := rawExchange_frames card cap script hlen hcmd
  rcases rawExchange_short_cases cmd cap card script hlen with
    ⟨⟨status, got⟩, said, rest, hreply, hrun⟩ | ⟨hnone, hends⟩
  · have hbad : ¬ pcStatusOk status = true := by
      intro hok
      rw [goodReply_eq_some.mpr ⟨status, hreply, hok⟩] at hgood
      cases hgood
    rw [pcExchange, Prog.bind_ok hrun,
      if_pos (Bool.eq_false_of_not_eq_true hbad), dropSession,
      Prog.modify_bind, Prog.fail_run]
    rw [hrun] at hput
    refine .stops ?_ ⟨fun _ => .inr ?_, fun _ => rfl⟩
    · rw [List.append_nil]
      exact hput
    · rw [pcStatusOk_iff] at hbad
      exact ⟨status, got, rest, hreply, hbad⟩
  · have hno : ¬ BadReply card.wraps cap script := by
      rintro ⟨status, got, rest, hreply, -⟩
      rw [hnone] at hreply
      cases hreply
    rw [pcExchange]
    refine Stage.bind_none ?_
    rcases hends with ⟨said, e, rest, hrun⟩ | ⟨said, q, card', hrun⟩
    · rw [hrun] at hput ⊢
      exact .stops hput ⟨.inl, fun h => h.resolve_right hno⟩
    · rw [hrun] at hput ⊢
      exact .waits hput

theorem Stage.congr {refused' : Prop} (h : Stage card frames refused result o)
    (hiff : refused ↔ refused') : Stage card frames refused' result o := by
  rw [← propext hiff]
  exact h

end

/-! ## The rounds -/

theorem badAmong_none {sw : Bool} {cap n : Nat} {script : List Answer}
    (h : goodReply sw cap script = none) :
    BadAmong sw cap (n + 1) script ↔ BadReply sw cap script := by
  rw [BadAmong]
  refine or_iff_left ?_
  rintro ⟨data, rest, hgood, -⟩
  rw [h] at hgood
  cases hgood

theorem badAmong_some {sw : Bool} {cap n : Nat} {script rest : List Answer}
    {data : Bytes} (h : goodReply sw cap script = some (data, rest)) :
    BadAmong sw cap (n + 1) script ↔ BadAmong sw cap n rest := by
  rw [BadAmong]
  constructor
  · rintro (⟨status, data', rest', hreply, hbad⟩ |
      ⟨data', rest', hgood, hamong⟩)
    · obtain ⟨status', hreply', hok⟩ := goodReply_eq_some.mp h
      rw [hreply'] at hreply
      cases hreply
      exact absurd (pcStatusOk_iff.mp hok) hbad
    · rw [h] at hgood
      cases hgood
      exact hamong
  · exact fun hamong => .inr ⟨data, rest, h, hamong⟩

/-- Where all replies are good, what comes of the next is what matters. -/
theorem badAmong_after {sw : Bool} {cap n : Nat} {script rest : List Answer}
    {datas : List Bytes}
    (h : goodReplies sw cap n script = some (datas, rest)) :
    (¬ BadAmong sw cap n script) ∧
      (BadAmong sw cap (n + 1) script ↔ BadReply sw cap rest) := by
  induction n generalizing script datas with
  | zero =>
      cases h
      refine ⟨id, ?_⟩
      rw [BadAmong]
      refine or_iff_left ?_
      rintro ⟨_, _, -, hno⟩
      exact hno
  | succ n ih =>
      rw [goodReplies] at h
      split at h
      · cases h
      next data rest₁ hgood =>
      obtain ⟨⟨datas', rest'⟩, hrest, heq⟩ := Option.map_eq_some_iff.mp h
      cases heq
      obtain ⟨hno, hiff⟩ := ih hrest
      rw [badAmong_some hgood, badAmong_some hgood]
      exact ⟨hno, hiff⟩

theorem badAmong_stopped {sw : Bool} {cap n : Nat} {script : List Answer}
    (h : goodReplies sw cap n script = none) :
    BadAmong sw cap (n + 1) script ↔ BadAmong sw cap n script := by
  induction n generalizing script with
  | zero => cases h
  | succ n ih =>
      rw [goodReplies] at h
      split at h
      · next hnone => rw [badAmong_none hnone, badAmong_none hnone]
      · next data rest hgood =>
          rw [badAmong_some hgood, badAmong_some hgood]
          exact ih (Option.map_eq_none_iff.mp h)

theorem pcExchanged_cons (part answer : Bytes) (parts answers : List Bytes) :
    pcExchanged (part :: parts) (answer :: answers) =
      answer.take part.length ++ part ++ pcExchanged parts answers := by
  rw [pcExchanged, List.zip_cons_cons, List.map_cons, List.flatten_cons,
    ← pcExchanged]

/-- The rounds collect every answer, each cut to its part, before the part. -/
theorem stage_rounds {split : Nat} (hpos : 0 < split) (hsplit : split ≤ 8)
    (left : Nat) (rest exchanged : Bytes) (card : Card)
    (script : List Answer) (hrest : rest.length = left * split) :
    Stage card (pcRoundFrames card.wraps (Bytes.chunks split left rest) script)
      (BadAmong card.wraps 32 left script)
      ((goodReplies card.wraps 32 left script).map fun r =>
        (exchanged ++ pcExchanged (Bytes.chunks split left rest) r.1, r.2))
      (pcRounds split left rest exchanged card script) := by
  induction left generalizing rest exchanged card script with
  | zero =>
      have h := stage_pure card exchanged script
      rw [pcRounds, Bytes.chunks, goodReplies, Option.map_some, pcExchanged,
        List.zip_nil_left, List.map_nil, List.flatten_nil, List.append_nil]
      exact h
  | succ left ih =>
      rw [Nat.succ_mul] at hrest
      have hpart : (if left = 0 then rest.length else min split rest.length) =
          split := by
        split
        · next hzero =>
            rw [hrest, hzero, Nat.zero_mul, Nat.zero_add]
        · exact Nat.min_eq_left (by omega)
      have htake : (rest.take split).length = split := by
        rw [List.length_take]
        exact Nat.min_eq_left (by omega)
      have hlen : (UInt8.ofNat split :: rest.take split).length ≤
          txFrameMax := by
        rw [List.length_cons, htake, txFrameMax]
        omega
      rw [pcRounds, hpart, if_neg (by omega), Bytes.chunks, pcRoundFrames,
        htake, goodReplies]
      cases hgood : goodReply card.wraps 32 script with
      | none =>
          rw [badAmong_none hgood]
          exact stage_bad hlen (by decide) hgood
      | some found =>
          obtain ⟨got, rest'⟩ := found
          rw [badAmong_some hgood]
          refine stage_good hlen (by decide) hgood ?_
          intro status card' hwraps _
          have h := ih (rest.drop split)
            (exchanged ++ got.take split ++ rest.take split) card' rest'
            (by rw [List.length_drop, hrest, Nat.add_sub_cancel])
          rw [hwraps] at h
          simp only [Option.map_map, Function.comp_def, pcExchanged_cons, htake]
          simp only [List.append_assoc] at h ⊢
          exact h

/-! ## The end of the check -/

theorem drawn_length {rng : Rng} {pcKey : Key} {rounds : Nat}
    {challenge : Bytes}
    (hrounds : rounds = 1 ∨ rounds = 2 ∨ rounds = 4 ∨ rounds = 8)
    (hdrawn : DrawsChallenge rng pcKey challenge) :
    challenge.length = rounds * (8 / rounds) := by
  have hrng := hdrawn.2
  rw [randomBytes, if_neg (by decide)] at hrng
  cases rng with
  | error e => cases hrng
  | ok drawn =>
      cases hrng
      rw [Bytes.length_fit, pcChallengeLen]
      rcases hrounds with rfl | rfl | rfl | rfl <;> rfl

theorem pcOptions_eq (prep : Bytes) :
    pcOptions prep =
      if prep.length < pcOptionsLen prep then none
      else some (prep.take (pcOptionsLen prep)) := by
  rw [pcOptions, pcOptionsLen]
  by_cases hbit : prep.headD 0 &&& 0x01 ≠ 0
  · rw [if_pos hbit, if_pos hbit]
    by_cases h3 : prep.length < 3
    · rw [if_pos h3, if_pos (by omega)]
    · rw [if_neg h3]
  · rw [if_neg hbit, if_neg hbit]

section

variable [BlockCipher]

theorem cmac8_card (key data : Bytes) :
    cmac8 key data = .ok (cardMac key data) := by
  rw [cmac8, cmac_zero, ← truncateMac_nist]

/-- From the exchanged bytes on: the MACs and VerifyPC. -/
def pcFinish (key macInput : Bytes) : Api Unit := do
  let mac ← Prog.ofExcept (cmac8 key (dfVerifyPc :: macInput))
  pcExchange dfVerifyPc mac 32 fun verify =>
    if verify.2.length < pcMacLen then Prog.fail .length
    else do
      let expected ← Prog.ofExcept (cmac8 key (dfSSignature :: macInput))
      if verify.2.take pcMacLen ≠ expected then Prog.fail .auth else pure ()

/-- What VerifyPC comes to: good where the reply is the card's MAC. -/
def pcVerdict (key macInput : Bytes) (sw : Bool) (script : List Answer) :
    Option (Unit × List Answer) :=
  match goodReply sw 32 script with
  | none => none
  | some (verify, rest) =>
      if 8 ≤ verify.length ∧
          cardMac key (0x90 :: macInput) = verify.take 8 then
        some ((), rest)
      else none

theorem stage_finish (key macInput : Bytes) (card : Card)
    (script : List Answer) :
    Stage card [nativeFrame card.wraps 0xFD (cardMac key (0xFD :: macInput))]
      (BadReply card.wraps 32 script)
      (pcVerdict key macInput card.wraps script)
      (pcFinish key macInput card script) := by
  have hshort : (cardMac key (0xFD :: macInput)).length ≤ txFrameMax := by
    rw [length_cardMac, txFrameMax]
    decide
  have hmac : cmac8 key (dfVerifyPc :: macInput) =
      .ok (cardMac key (0xFD :: macInput)) := cmac8_card _ _
  have hexp : cmac8 key (dfSSignature :: macInput) =
      .ok (cardMac key (0x90 :: macInput)) := cmac8_card _ _
  rw [pcFinish, hmac, Prog.ofExcept_ok_bind, pcVerdict]
  cases hgood : goodReply card.wraps 32 script with
  | none => exact stage_bad hshort (by decide) hgood
  | some found =>
      obtain ⟨verify, rest⟩ := found
      have hno := goodReply_not_bad hgood
      refine Stage.congr ?_ ⟨False.elim, hno⟩
      refine stage_good hshort (by decide) hgood fun status card' _ _ => ?_
      rw [hexp, Prog.ofExcept_ok_bind]
      dsimp only
      by_cases hle : verify.length < pcMacLen
      · rw [if_pos hle, if_neg fun h => absurd h.1 (Nat.not_le.mpr hle)]
        exact stage_fail card' _ rest
      rw [if_neg hle]
      by_cases heq : verify.take pcMacLen = cardMac key (0x90 :: macInput)
      · have hok : 8 ≤ verify.length ∧
            cardMac key (0x90 :: macInput) = verify.take 8 :=
          ⟨Nat.not_lt.mp hle, heq.symm⟩
        rw [if_pos hok, if_neg (not_not.mpr heq)]
        exact stage_pure card' () rest
      · have hno : ¬ (8 ≤ verify.length ∧
            cardMac key (0x90 :: macInput) = verify.take 8) :=
          fun h => heq h.2.symm
        rw [if_pos heq, if_neg hno]
        exact stage_fail card' _ rest

/-! ## The check -/

/-- What the whole check comes to, as a value. -/
def pcResult (key challenge : Bytes) (rounds : Nat) (sw : Bool)
    (script : List Answer) : Option (Unit × List Answer) :=
  match goodReply sw 16 script with
  | none => none
  | some (prep, rest) =>
      if prep.length < pcOptionsLen prep then none
      else
        match goodReplies sw 32 rounds rest with
        | none => none
        | some (answers, rest') =>
            pcVerdict key (prep.take (pcOptionsLen prep) ++
              pcExchanged (pcParts rounds challenge) answers) sw rest'

theorem pcResult_iff {key challenge : Bytes} {rounds : Nat} {sw : Bool}
    {script : List Answer} :
    (∃ rest, pcResult key challenge rounds sw script = some ((), rest)) ↔
      PcProved key challenge rounds sw script := by
  constructor
  · rintro ⟨rest, h⟩
    rw [pcResult] at h
    split at h
    · cases h
    next prep s₁ hprep =>
    split at h
    · cases h
    next hlen =>
    split at h
    · cases h
    next answers s₂ hrounds =>
    rw [pcVerdict] at h
    split at h
    · cases h
    next verify s₃ hverify =>
    split at h
    · next hok =>
        exact ⟨prep, answers, verify, s₁, s₂, s₃, hprep, Nat.not_lt.mp hlen,
          hrounds, hverify, hok.1, hok.2⟩
    · cases h
  · rintro ⟨prep, answers, verify, s₁, s₂, s₃, hprep, hlen, hrounds, hverify,
      hle, hmac⟩
    refine ⟨s₃, ?_⟩
    rw [pcResult, hprep]
    simp only [if_neg (Nat.not_lt.mpr hlen), hrounds]
    rw [pcVerdict, hverify]
    exact if_pos ⟨hle, hmac⟩

theorem stage_check {rng : Rng} {pcKey : Key} {rounds : Nat}
    {challenge : Bytes}
    (hrounds : rounds = 1 ∨ rounds = 2 ∨ rounds = 4 ∨ rounds = 8)
    (hdrawn : DrawsChallenge rng pcKey challenge) (card : Card)
    (script : List Answer) :
    Stage card (pcFrames pcKey.data.bytes challenge rounds card.wraps script)
      (PcRefused rounds card.wraps script)
      (pcResult pcKey.data.bytes challenge rounds card.wraps script)
      (proximityCheck rng pcKey rounds card script) := by
  have hlen := drawn_length hrounds hdrawn
  obtain ⟨hkey, hrng⟩ := hdrawn
  have hsplit : 0 < 8 / rounds ∧ 8 / rounds ≤ 8 := by
    rcases hrounds with rfl | rfl | rfl | rfl <;> decide
  rw [proximityCheck, if_neg (by omega), if_neg (not_not.mpr hkey), hrng,
    Prog.ofExcept_ok_bind, pcFrames, pcResult, PcRefused]
  have hshort : ([] : Bytes).length ≤ txFrameMax := Nat.zero_le _
  cases hprep : goodReply card.wraps 16 script with
  | none =>
      refine (stage_bad hshort (by decide) hprep).congr ?_
      simp
  | some found =>
      obtain ⟨prep, s₁⟩ := found
      have hrefused : (prep.length < pcOptionsLen prep ∨
          BadAmong card.wraps 32 (rounds + 1) s₁) ↔
        (BadReply card.wraps 16 script ∨ ∃ prep' rest,
          some (prep, s₁) = some (prep', rest) ∧
            (prep'.length < pcOptionsLen prep' ∨
              BadAmong card.wraps 32 (rounds + 1) rest)) := by
        constructor
        · exact fun h => .inr ⟨prep, s₁, rfl, h⟩
        · rintro (h | ⟨prep', rest, heq, h⟩)
          · exact absurd h (goodReply_not_bad hprep)
          · cases heq
            exact h
      refine Stage.congr ?_ hrefused
      refine stage_good hshort (by decide) hprep ?_
      intro status card₁ hwraps₁ hauth₁
      dsimp only
      rw [pcOptions_eq]
      by_cases hopt : prep.length < pcOptionsLen prep
      · rw [if_pos hopt, if_pos hopt, if_pos hopt]
        exact (stage_drop card₁ .length s₁).congr
          ⟨fun _ => .inl hopt, fun _ => trivial⟩
      rw [if_neg hopt, if_neg hopt, if_neg hopt, propext (or_iff_right hopt)]
      have hall := stage_rounds hsplit.1 hsplit.2 rounds challenge [] card₁ s₁
        hlen
      rw [hwraps₁, ← pcParts] at hall
      rw [pcVerifyFrames, show (pcParts rounds challenge).length = rounds from
        Bytes.length_chunks _ _ _]
      cases hgood : goodReplies card.wraps 32 rounds s₁ with
      | none =>
          rw [hgood, Option.map_none] at hall
          rw [propext (badAmong_stopped hgood), List.append_nil]
          exact hall.bind_none
      | some found =>
          obtain ⟨answers, s₂⟩ := found
          rw [hgood, Option.map_some, List.nil_append] at hall
          dsimp only
          rw [propext (badAmong_after hgood).2]
          refine hall.bind_goes fun card₂ hwraps₂ _ => ?_
          have hfin := stage_finish pcKey.data.bytes
            (prep.take (pcOptionsLen prep) ++
              pcExchanged (pcParts rounds challenge) answers) card₂ s₂
          rw [hwraps₂, hwraps₁] at hfin
          exact hfin

/-- The call with a place for `mac_ok` runs as the one without. -/
theorem proximityCheckInto_run {rng : Rng} {pcKey : Key} {rounds : Nat}
    (hrounds : rounds = 1 ∨ rounds = 2 ∨ rounds = 4 ∨ rounds = 8)
    (hkey : pcKey.type = .aes128) (card : Card) (macOk : Bool)
    (script : List Answer) :
    proximityCheckInto rng pcKey rounds (card, macOk) script =
      (proximityCheck rng pcKey rounds card script).reported := by
  have hdrop : ∀ e, Prog.Reports (dropSession e : Api Unit)
      (dropSession e).beside := by
    intro e
    refine Prog.reports_beside fun s script said a s' rest h => ?_
    rw [dropSession, Prog.modify_bind, Prog.fail_run] at h
    cases h
  have hstore : ∀ xs ys : Bytes, Prog.Reports
      (if xs ≠ ys then Prog.fail .auth else pure () : Api Unit)
      (do
        let ok := decide (xs = ys)
        Prog.store ok
        if ok = false then Prog.fail .auth else pure ()) := by
    intro xs ys s script
    by_cases heq : xs = ys
    · rw [if_neg (not_not.mpr heq), decide_eq_true heq]
      rfl
    · rw [if_pos heq, decide_eq_false heq]
      rfl
  have hadmitted : ¬ (rounds ≠ 1 ∧ rounds ≠ 2 ∧ rounds ≠ 4 ∧ rounds ≠ 8) := by
    omega
  have haes : ¬ pcKey.type ≠ .aes128 := not_not.mpr hkey
  rw [proximityCheckInto, proximityCheck, if_neg hadmitted, if_neg hadmitted,
    if_neg haes, if_neg haes, Prog.store, Prog.modify_bind]
  refine Prog.reports_ofExcept (fun challenge => ?_) card script
  refine Prog.reports_bind fun prep => Prog.reports_ite (hdrop _) ?_
  cases pcOptions prep.2 with
  | none => exact hdrop _
  | some options =>
      exact Prog.reports_bind fun exchanged =>
        Prog.reports_ofExcept fun mac =>
          Prog.reports_bind fun verify => Prog.reports_ite (hdrop _)
            (Prog.reports_ite (Prog.reports_fail _)
              (Prog.reports_ofExcept fun expected => hstore _ _))

/-! ## The session and the verdict -/

/-- What a call that draws no challenge comes to. -/
theorem proximityCheckInto_undrawn {rng : Rng} {pcKey : Key} {rounds : Nat}
    (hrounds : rounds = 1 ∨ rounds = 2 ∨ rounds = 4 ∨ rounds = 8)
    (hno : ¬ ∃ challenge, DrawsChallenge rng pcKey challenge) (card : Card)
    (macOk : Bool) (script : List Answer) :
    ∃ e, proximityCheckInto rng pcKey rounds (card, macOk) script =
      .done [] (.error e) (card, macOk && decide (pcKey.type ≠ .aes128))
        script := by
  have hadmitted : ¬ (rounds ≠ 1 ∧ rounds ≠ 2 ∧ rounds ≠ 4 ∧ rounds ≠ 8) := by
    omega
  rw [proximityCheckInto, if_neg hadmitted]
  by_cases haes : pcKey.type ≠ .aes128
  · rw [if_pos haes, decide_eq_true haes, Bool.and_true]
    exact ⟨_, rfl⟩
  · rw [if_neg haes, decide_eq_false haes, Bool.and_false, Prog.store,
      Prog.modify_bind]
    cases hrng : randomBytes rng pcChallengeLen with
    | ok challenge => exact absurd ⟨challenge, not_not.mp haes, hrng⟩ hno
    | error e =>
        rw [Prog.ofExcept_error_bind]
        exact ⟨e, rfl⟩

/-- Once PreparePC is sent, the handle is left without a session just where it
had none or a reply refused the check. -/
theorem proximity_drops_session_iff {rng : Rng} {pcKey : Key} {rounds : Nat}
    {card card' : Card} {script rest : List Answer} {said : Said}
    {r : Except Err Unit}
    (h : proximityCheck rng pcKey rounds card script = .done said r card' rest)
    (hsent : said ≠ []) :
    card'.authenticated = false ↔
      card.authenticated = false ∨ PcRefused rounds card.wraps script := by
  by_cases hadmitted : rounds ≠ 1 ∧ rounds ≠ 2 ∧ rounds ≠ 4 ∧ rounds ≠ 8
  · rw [proximityCheck, if_pos hadmitted, Prog.fail_run] at h
    cases h
    exact absurd rfl hsent
  by_cases haes : pcKey.type ≠ .aes128
  · rw [proximityCheck, if_neg hadmitted, if_pos haes, Prog.fail_run] at h
    cases h
    exact absurd rfl hsent
  cases hrng : randomBytes rng pcChallengeLen with
  | error e =>
      rw [proximityCheck, if_neg hadmitted, if_neg haes, hrng,
        Prog.ofExcept_error_bind, Prog.fail_run] at h
      cases h
      exact absurd rfl hsent
  | ok challenge =>
      exact (stage_check (by omega) ⟨not_not.mp haes, hrng⟩ card
        script).session_iff h

end

/-- PreparePC refused with 0xAE. -/
theorem proximity_drops_session_refused :
    ∃ said r card' rest, @proximityCheck .identity (.ok (Bytes.zeros 8)) zeroKey
        1 liveEv2 [.ok [0xAE]] = .done said r card' rest ∧
      (card'.authenticated = false ↔
        liveEv2.authenticated = false ∨
          PcRefused 1 liveEv2.wraps [.ok [0xAE]]) :=
  ⟨_, _, _, _, rfl,
    @proximity_drops_session_iff .identity (.ok (Bytes.zeros 8)) zeroKey 1
      liveEv2 _ [.ok [0xAE]] _ _ _ rfl (List.cons_ne_nil _ _)⟩

/-- The check passes, and the handle still believes in the session that
PreparePC has ended. -/
theorem passed_check_keeps_session :
    ∃ said card', @proximityCheck .identity (.ok (Bytes.zeros 8)) zeroKey 1
        liveEv2 [.ok [0x00, 0, 0, 0], .ok (0x00 :: Bytes.zeros 8),
          .ok (0x00 :: Bytes.zeros 8)] = .done said (.ok ()) card' [] ∧
      said ≠ [] ∧ card'.authenticated = true :=
  ⟨_, _, rfl, List.cons_ne_nil _ _, rfl⟩

section

variable [BlockCipher]

/-- The check passes exactly where the card proves its MAC; what is put does
not depend on anything but the challenge, the key and the card's replies; and
`mac_ok` is set exactly where the check passes. -/
theorem proximity_check_passes_iff {rounds : Nat}
    (hrounds : rounds = 1 ∨ rounds = 2 ∨ rounds = 4 ∨ rounds = 8) (rng : Rng)
    (pcKey : Key) (card : Card) (macOk : Bool) (script : List Answer) :
    (∀ challenge, DrawsChallenge rng pcKey challenge →
      ((∃ said st rest,
          proximityCheckInto rng pcKey rounds (card, macOk) script =
            .done said (.ok ()) st rest) ↔
        PcProved pcKey.data.bytes challenge rounds card.wraps script) ∧
      commandFrames card.wraps
          (proximityCheckInto rng pcKey rounds (card, macOk) script).queries =
        pcFrames pcKey.data.bytes challenge rounds card.wraps script ∧
      (pcParts rounds challenge).length = rounds ∧
      (pcParts rounds challenge).flatten = challenge ∧
      ∀ said r st rest,
        proximityCheckInto rng pcKey rounds (card, macOk) script =
            .done said r st rest →
          (st.2 = true ↔ r = .ok ())) ∧
    ((¬ ∃ challenge, DrawsChallenge rng pcKey challenge) →
      ∃ e, proximityCheckInto rng pcKey rounds (card, macOk) script =
        .done [] (.error e) (card, macOk && decide (pcKey.type ≠ .aes128))
          script) := by
  refine ⟨?_, fun hno =>
    proximityCheckInto_undrawn hrounds hno card macOk script⟩
  intro challenge hdrawn
  have hstage := stage_check hrounds hdrawn card script
  rw [proximityCheckInto_run hrounds hdrawn.1]
  refine ⟨?_, ?_, Bytes.length_chunks _ _ _, ?_, ?_⟩
  · rw [← pcResult_iff]
    constructor
    · rintro ⟨said, st, rest, h⟩
      obtain ⟨h, -⟩ := Outcome.reported_eq_done.mp h
      exact ⟨rest, hstage.ok_iff.mp ⟨said, st.1, h⟩⟩
    · rintro ⟨rest, h⟩
      obtain ⟨said, card', h⟩ := hstage.ok_iff.mpr h
      exact ⟨said, (card', true), rest, Outcome.reported_eq_done.mpr ⟨h, rfl⟩⟩
  · rw [Outcome.queries_reported]
    exact hstage.frames_eq
  · rw [pcParts]
    exact Bytes.flatten_chunks (drawn_length hrounds hdrawn)
  · intro said r st rest h
    obtain ⟨-, hflag⟩ := Outcome.reported_eq_done.mp h
    rw [hflag]
    cases r with
    | ok u => exact ⟨fun _ => rfl, fun _ => rfl⟩
    | error e =>
        refine iff_of_false Bool.noConfusion fun h => ?_
        cases h

end

/-- One round, over a cipher that leaves its blocks as they are. -/
theorem proximity_check_passes_once :
    @PcProved .identity zeroKey.data.bytes (Bytes.zeros 8) 1 liveEv2.wraps
      [.ok [0x00, 0, 0, 0], .ok (0x00 :: Bytes.zeros 8),
        .ok (0x00 :: Bytes.zeros 8)] :=
  ((@proximity_check_passes_iff .identity 1 (.inl rfl) (.ok (Bytes.zeros 8))
    zeroKey liveEv2 true _).1 (Bytes.zeros 8) ⟨rfl, rfl⟩).1.mp ⟨_, _, _, rfl⟩

end Nxpsc
