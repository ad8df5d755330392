import Nxpsc.Lib.Trace
import Nxpsc.Proofs.Acceptance
import Nxpsc.Ref.Desfire

/-!
# How many frames a call sends

The outbound loop is bounded by the request. The two inbound loops go on for
as long as the card answers 0xAF: the one of `nxpsc_raw_exchange_ex` stops when
the data no longer fit, which an answer without data never brings about, and
the one of `nxpsc_get_df_names` puts aside what does not fit. So a call sends
one frame for each such answer and a bounded number besides, and a bound on
the frames of every call is a bound on those answers.
-/

namespace Nxpsc

open Dialogue

/-! ## Answers that make no progress -/

theorem stalls_stop {sw : Bool} {a : Answer} {rest : List Answer}
    (h : answerStatus sw a ≠ some dfSAdditionalFrame) (acks room : Nat) :
    stalls sw acks room (a :: rest) = 0 := by
  cases acks with
  | zero => rw [stalls, if_neg h]
  | succ k => rw [stalls, if_neg h]

theorem stalls_ack {sw : Bool} {a : Answer} {rest : List Answer}
    (h : answerStatus sw a = some dfSAdditionalFrame) (acks room : Nat) :
    stalls sw (acks + 1) room (a :: rest) = stalls sw acks room rest := by
  rw [stalls, if_pos h]

theorem stalls_full {sw : Bool} {a : Answer} {rest : List Answer} {room : Nat}
    (h : room < (answerData sw a).length) :
    stalls sw 0 room (a :: rest) = 0 := by
  rw [stalls]
  by_cases hst : answerStatus sw a = some dfSAdditionalFrame
  · rw [if_pos hst, if_pos h]
  · rw [if_neg hst]

theorem stalls_data {sw : Bool} {a : Answer} {rest : List Answer} {room : Nat}
    (h : answerStatus sw a = some dfSAdditionalFrame)
    (hroom : (answerData sw a).length ≤ room) :
    stalls sw 0 room (a :: rest) =
      (if answerData sw a = [] then 1 else 0) +
        stalls sw 0 (room - (answerData sw a).length) rest := by
  rw [stalls, if_pos h, if_neg (Nat.not_lt.mpr hroom)]

/-! ## The inbound loop -/

theorem collect_frames {cap : Nat} (script : List Answer) (resp : Bytes)
    (card : Card) (hresp : resp.length ≤ cap) :
    Between (stalls card.wraps 0 (cap - resp.length) script)
      (cap - resp.length + 1)
      (Prog.converse (fun _ card => frameRequest dfAdditionalFrame [] card)
        (collectReact cap) resp card script).queries.length := by
  have hreq : frameRequest dfAdditionalFrame [] card =
      .ok (oneFrame dfAdditionalFrame [] card) :=
    frameRequest_one (Nat.zero_le _)
  induction script generalizing resp with
  | nil =>
      rw [Prog.converse, Prog.converseOn, hreq]
      exact ⟨Nat.zero_le _, Nat.le_add_left _ _⟩
  | cons a rest ih =>
      rw [Prog.converse, Prog.converseOn, hreq]
      simp only [collectReact]
      rcases frameResponse_cases card a with ⟨e, he, hst⟩ | ⟨status, hs, hst⟩
      · rw [he, stalls_stop (by rw [hst]; simp)]
        exact ⟨Nat.zero_le _, Nat.le_add_left _ _⟩
      rw [hs]
      dsimp only
      by_cases hcap : cap < resp.length + (answerData card.wraps a).length
      · rw [if_pos hcap, stalls_full (by omega)]
        exact ⟨Nat.zero_le _, Nat.le_add_left _ _⟩
      rw [if_neg hcap]
      by_cases haf : status = dfSAdditionalFrame
      swap
      · rw [if_neg haf, stalls_stop (by
          rw [hst]
          exact fun h => haf (Option.some.inj h))]
        exact ⟨Nat.zero_le _, Nat.le_add_left _ _⟩
      subst haf
      rw [if_pos rfl, stalls_data hst (by omega)]
      have hlen : (resp ++ answerData card.wraps a).length =
          resp.length + (answerData card.wraps a).length := List.length_append
      have hnext := ih (resp ++ answerData card.wraps a) (by omega)
      rw [hlen, Nat.sub_add_eq] at hnext
      obtain ⟨hlow, hhigh⟩ := hnext
      dsimp only
      rw [Outcome.queries_prepend, List.map_singleton,
        List.length_append, List.length_singleton]
      rw [Prog.converse] at hlow hhigh
      split
      · next hnil =>
          rw [hnil] at hlow hhigh ⊢
          constructor
          · exact Nat.add_le_add_left hlow 1
          · simp only [List.append_nil, List.length_nil] at hhigh ⊢
            omega
      · next hdata =>
          have hpos := List.length_pos_iff.mpr hdata
          constructor
          · omega
          · omega

/-! ## The outbound loop -/

theorem intermediateFrames_one {n : Nat} (h : ¬ txFrameMax < n) :
    intermediateFrames n = 0 := by
  rw [txFrameMax] at h
  rw [intermediateFrames, txFrameMax]
  omega

theorem intermediateFrames_more {n : Nat} (h : txFrameMax < n) :
    intermediateFrames n = intermediateFrames (n - txFrameMax) + 1 := by
  rw [txFrameMax] at h
  rw [intermediateFrames, intermediateFrames, txFrameMax]
  omega

/-- The last frame of the request, and what the answer to it asks for. -/
theorem last_frames {cap : Nat} {card : Card} {a : Answer} {status : UInt8}
    (rest : List Answer) (hst : answerStatus card.wraps a = some status)
    (hcap : (answerData card.wraps a).length ≤ cap) :
    Between (stalls card.wraps 0 cap (a :: rest)) (cap + 2)
      (1 + (collect cap true status (answerData card.wraps a) card
        rest).queries.length) := by
  by_cases haf : status = dfSAdditionalFrame
  swap
  · have hstop : answerStatus card.wraps a ≠ some dfSAdditionalFrame := by
      rw [hst]
      exact fun h => haf (Option.some.inj h)
    rw [stalls_stop hstop, collect, if_neg fun h => haf h.2]
    exact ⟨Nat.zero_le _, by show 1 ≤ _; omega⟩
  subst haf
  obtain ⟨hlow, hhigh⟩ :=
    collect_frames rest (answerData card.wraps a) card hcap
  have hcollect : collect cap true dfSAdditionalFrame
      (answerData card.wraps a) = Prog.converse
        (fun _ card => frameRequest dfAdditionalFrame [] card)
        (collectReact cap) (answerData card.wraps a) := if_pos ⟨rfl, rfl⟩
  rw [stalls_data hst hcap, hcollect]
  split
  · next hnil =>
      rw [hnil] at hlow hhigh ⊢
      exact ⟨Nat.add_le_add_left hlow 1, by
        rw [List.length_nil] at hhigh ⊢
        omega⟩
  · next hdata =>
      have hpos := List.length_pos_iff.mpr hdata
      exact ⟨by omega, by omega⟩

/-- The request goes out frame by frame, and what the answer to the last one
asks for comes in. -/
theorem send_frames {cap : Nat} (script : List Answer) (p : Pending)
    (card : Card) :
    Between (stalls card.wraps (intermediateFrames p.rest.length) cap script)
      (intermediateFrames p.rest.length + cap + 2)
      ((Prog.converse Pending.request (Pending.react cap) p >>= fun first =>
        collect cap true first.1 first.2) card script).queries.length := by
  induction script generalizing p with
  | nil =>
      obtain ⟨q, hq, -⟩ := pending_request p card
      rw [Prog.converse_bind_nil hq]
      exact ⟨Nat.zero_le _, Nat.le_add_left _ _⟩
  | cons a rest ih =>
      obtain ⟨q, hq, -⟩ := pending_request p card
      -- where the loop is left, nothing more goes out
      have hleft : ∀ {e card'} low, p.react cap a card = (.error e, card') →
          low = 0 → Between low (intermediateFrames p.rest.length + cap + 2)
            ((Prog.converse Pending.request (Pending.react cap) p >>=
              fun first => collect cap true first.1 first.2) card
                (a :: rest)).queries.length := fun low hr h => by
        rw [Prog.converse_bind_error hq hr, h]
        exact ⟨Nat.zero_le _, by show 1 ≤ _; omega⟩
      rcases frameResponse_cases card a with ⟨e, he, hst⟩ | ⟨status, hs, hst⟩
      · exact hleft _ (react_fault he) (stalls_stop (by rw [hst]; simp) _ _)
      by_cases hmore : txFrameMax < p.rest.length
      · by_cases haf : status = dfSAdditionalFrame
        swap
        · exact hleft _ (react_refused hs hmore haf) (stalls_stop (by
            rw [hst]
            exact fun h => haf (Option.some.inj h)) _ _)
        subst haf
        have hnext := ih ⟨dfAdditionalFrame, p.rest.drop txFrameMax⟩
        rw [List.length_drop] at hnext
        obtain ⟨hlow, hhigh⟩ := hnext
        rw [intermediateFrames_more hmore, stalls_ack hst,
          Prog.converse_bind_again hq (react_acked hs hmore),
          Outcome.queries_prepend, List.length_append]
        constructor
        · exact Nat.le_trans hlow (Nat.le_add_left _ _)
        · show 1 + _ ≤ _
          omega
      have hzero := intermediateFrames_one hmore
      by_cases hcap : cap < (answerData card.wraps a).length
      · exact hleft _ (react_full hs hmore hcap)
          (by rw [hzero, stalls_full hcap])
      have hcap' := Nat.not_lt.mp hcap
      rw [Prog.converse_bind_leave hq (react_last hs hmore hcap'), hzero,
        Nat.zero_add, Outcome.queries_prepend, List.length_append,
        List.map_singleton, List.length_singleton]
      exact last_frames rest hst hcap'

/-- `nxpsc_raw_exchange_ex` sends the frames of the request, one for each
stall, and no more of the others than there is room for. -/
theorem rawExchangeEx_frames (cmd : UInt8) (data : Bytes) (cap : Nat)
    (card : Card) (script : List Answer) :
    Between (stalls card.wraps (intermediateFrames data.length) cap script)
      (intermediateFrames data.length + cap + 2)
      (rawExchangeEx cmd data cap true card script).queries.length := by
  have hsame : (rawExchangeEx cmd data cap true card script).queries =
      ((Prog.converse Pending.request (Pending.react cap) ⟨cmd, data⟩ >>=
        fun first => collect cap true first.1 first.2) card script).queries :=
    Prog.queries_bind_congr (fun first =>
      Prog.queries_bind_silent fun _ _ _ => rfl) card script
  rw [hsame]
  exact send_frames script ⟨cmd, data⟩ card

/-! ## The exchange and the list of names -/

theorem intermediateFrames_le (n : Nat) : intermediateFrames n ≤ n :=
  Nat.le_trans (Nat.div_le_self _ _) (Nat.sub_le _ _)

theorem exchange_frames [BlockCipher] (cmd : UInt8) (data : Bytes)
    (txMode rxMode : Mode) (cap : Nat) (card : Card) (script : List Answer) :
    Between (exchangeStalls cmd data txMode rxMode card script)
      (data.length + maxResponse + 27)
      (exchange cmd data txMode rxMode cap card script).queries.length := by
  rw [exchange, Prog.act_bind, exchangeStalls]
  have hnone : Between 0 (data.length + maxResponse + 27) 0 :=
    ⟨Nat.le_refl 0, Nat.zero_le _⟩
  by_cases hlost : card.sessionLost = true ∧
      (txMode ≠ .plain ∨ rxMode ≠ .plain)
  · rw [if_pos (.inl hlost), exchangeRequest, if_pos hlost]
    exact hnone
  have hdelivers := channelEncode_delivers cmd data maxResponse
    { card with mode := txMode, macMismatch := false }
  have hle := wireLength_le { card with mode := txMode, macMismatch := false }
    cmd data.length
  generalize wireLength { card with mode := txMode, macMismatch := false } cmd
    data.length = n at hdelivers hle
  rw [exchangeRequest, if_neg hlost]
  obtain ⟨iv, mode, hcard⟩ := channelEncode_frame cmd data maxResponse
    { card with mode := txMode, macMismatch := false }
  cases henc : channelEncode cmd data maxResponse
    { card with mode := txMode, macMismatch := false } with
  | mk r card₁ =>
  rw [henc] at hdelivers hcard
  rcases hdelivers with ⟨hlong, hr⟩ | ⟨hfits, wrapped, hr, hlen⟩
  · rw [if_pos (.inr hlong)]
    dsimp only at hr
    rw [hr]
    exact hnone
  dsimp only at hr
  subst hr
  subst hlen
  rw [if_neg (not_or.mpr ⟨hlost, Nat.not_lt.mpr hfits⟩)]
  dsimp only
  rw [Prog.queries_bind_silent fun _ _ _ => rfl]
  have hraw := rawExchangeEx_frames cmd wrapped maxResponse card₁ script
  have hwraps := congrArg Card.wraps hcard
  change card₁.wraps = card.wraps at hwraps
  rw [hwraps] at hraw
  have hframes := intermediateFrames_le wrapped.length
  exact ⟨hraw.1, by
    have := hraw.2
    rw [rawExchange]
    omega⟩

/-- Outside a session the names are read as long as the card goes on. -/
theorem getDfNames_frames (cap : Nat) (script : List Answer) (card : Card)
    (hno : card.authenticated = false) :
    Between (dfChain card.wraps script) 1
      (getDfNames cap card script).queries.length := by
  have hrun : getDfNames cap card script =
      Prog.converseOn (fun b card => frameRequest b.1 [] card)
        (dfNamesReact cap) script (dfGetDfNames, []) card := by
    rw [getDfNames, Prog.get_bind, if_neg (by rw [hno]; decide)]
    rfl
  rw [hrun]
  generalize (dfGetDfNames, ([] : List App)) = b
  clear hrun hno
  induction script generalizing b card with
  | nil =>
      rw [Prog.converseOn, frameRequest_one (Nat.zero_le _)]
      exact ⟨Nat.zero_le _, Nat.le_refl 1⟩
  | cons a rest ih =>
      rw [Prog.converseOn, frameRequest_one (Nat.zero_le _), dfChain]
      have hleast : ∀ low, low = 0 → Between low 1 1 := fun low h =>
        ⟨h ▸ Nat.zero_le 1, Nat.le_add_left _ _⟩
      simp only [dfNamesReact, rawFrame]
      rcases frameResponse_cases card a with ⟨e, he, hst⟩ | ⟨status, hs, hst⟩
      · rw [he, hst]
        exact hleast _ (if_neg fun h => by cases h.1)
      rw [hs, hst]
      dsimp only
      by_cases hcap : 64 < (answerData card.wraps a).length
      · rw [if_pos hcap]
        exact hleast _ (if_neg fun h => Nat.not_lt.mpr h.2 hcap)
      rw [if_neg hcap]
      dsimp only
      by_cases haf : status = dfSAdditionalFrame
      swap
      · have hstop : ¬ (some status = some dfSAdditionalFrame ∧
            (answerData card.wraps a).length ≤ 64) := fun h =>
          haf (Option.some.inj h.1)
        rw [if_neg hstop]
        by_cases hok : status = dfSOk
        · rw [if_neg fun h => h.1 hok, if_pos haf]
          exact hleast _ rfl
        · rw [if_pos ⟨hok, haf⟩]
          exact hleast _ rfl
      subst haf
      have hgo : some dfSAdditionalFrame = some dfSAdditionalFrame ∧
          (answerData card.wraps a).length ≤ 64 := ⟨rfl, Nat.not_lt.mp hcap⟩
      have hno : ¬ (dfSAdditionalFrame ≠ dfSOk ∧
          dfSAdditionalFrame ≠ dfSAdditionalFrame) := fun h => h.2 rfl
      rw [if_pos hgo, if_neg hno, if_neg (not_not.mpr rfl)]
      dsimp only
      obtain ⟨hlow, hhigh⟩ := ih { card with lastStatus := dfSAdditionalFrame }
        (dfAdditionalFrame,
          dfNameEntry cap b.2 (answerData card.wraps a))
      rw [Outcome.queries_prepend, List.length_append]
      change dfChain card.wraps rest ≤ _ at hlow
      change _ ≤ dfChain card.wraps rest + 1 at hhigh
      constructor
      · exact Nat.add_le_add_left hlow 1
      · show 1 + _ ≤ _
        omega

/-! ## What bounds them -/

/-- The answers a transport may give bound the frames of each of the three
calls exactly where they bound the answers it is kept going by. -/
theorem frames_bounded_iff [BlockCipher] (T : List Answer → Prop) :
    ((∃ B : Nat → Nat → Nat, ∀ script, T script → ∀ cmd data cap card,
        (rawExchangeEx cmd data cap true card script).queries.length ≤
          B data.length cap) ↔
      ∃ N : Nat → Nat → Nat, ∀ script, T script → ∀ (data : Bytes) cap
        (card : Card),
        stalls card.wraps (intermediateFrames data.length) cap script ≤
          N data.length cap) ∧
    ((∃ B : Nat → Nat → Nat, ∀ script, T script →
        ∀ cmd data txMode rxMode cap card,
        (exchange cmd data txMode rxMode cap card script).queries.length ≤
          B data.length cap) ↔
      ∃ N : Nat → Nat, ∀ script, T script →
        ∀ cmd data txMode rxMode card,
        exchangeStalls cmd data txMode rxMode card script ≤ N data.length) ∧
    ((∃ B : Nat → Nat, ∀ script, T script → ∀ cap card,
        (getDfNames cap card script).queries.length ≤ B cap) ↔
      ∃ N, ∀ script, T script → ∀ card : Card, card.authenticated = false →
        dfChain card.wraps script ≤ N) := by
  refine ⟨⟨?_, ?_⟩, ⟨?_, ?_⟩, ⟨?_, ?_⟩⟩
  · rintro ⟨B, hB⟩
    refine ⟨B, fun script hT data cap card => ?_⟩
    exact Nat.le_trans (rawExchangeEx_frames 0 data cap card script).1
      (hB script hT 0 data cap card)
  · rintro ⟨N, hN⟩
    refine ⟨fun len cap => N len cap + (len + cap + 2),
      fun script hT cmd data cap card => ?_⟩
    have hframes := (rawExchangeEx_frames cmd data cap card script).2
    have hstalls := hN script hT data cap card
    have hle := intermediateFrames_le data.length
    dsimp only
    omega
  · rintro ⟨B, hB⟩
    refine ⟨fun len => B len 0, fun script hT cmd data txMode rxMode card => ?_⟩
    exact Nat.le_trans (exchange_frames cmd data txMode rxMode 0 card script).1
      (hB script hT cmd data txMode rxMode 0 card)
  · rintro ⟨N, hN⟩
    refine ⟨fun len _ => N len + (len + maxResponse + 27),
      fun script hT cmd data txMode rxMode cap card => ?_⟩
    have hframes := (exchange_frames cmd data txMode rxMode cap card script).2
    have hstalls := hN script hT cmd data txMode rxMode card
    dsimp only
    omega
  · rintro ⟨B, hB⟩
    refine ⟨B 0, fun script hT card hno => ?_⟩
    exact Nat.le_trans (getDfNames_frames 0 script card hno).1
      (hB script hT 0 card)
  · rintro ⟨N, hN⟩
    refine ⟨fun _ => N + 1, fun script hT cap card => ?_⟩
    cases hauth : card.authenticated with
    | true =>
        rw [getDfNames, Prog.get_bind, if_pos hauth]
        exact Nat.zero_le _
    | false =>
        have hframes := (getDfNames_frames cap script card hauth).2
        have hchain := hN script hT card hauth
        dsimp only
        omega

/-- A card that asks for another frame and sends nothing in it is followed
without end. -/
theorem frames_may_be_unbounded :
    ¬ ∃ B : Nat → Nat → Nat, ∀ (script : List Answer) (cmd : UInt8)
      (data : Bytes) (cap : Nat) (card : Card),
      (rawExchangeEx cmd data cap true card script).queries.length ≤
        B data.length cap := by
  rintro ⟨B, hB⟩
  have hstalls : ∀ n, stalls false 0 0
      (List.replicate n (.ok [dfSAdditionalFrame])) = n := by
    intro n
    induction n with
    | zero => rfl
    | succ n ih =>
        rw [List.replicate_succ, stalls_data rfl (Nat.le_refl 0)]
        show 1 + stalls false 0 0 _ = n + 1
        rw [ih, Nat.add_comm]
  have hframes := (rawExchangeEx_frames 0 [] 0 (Card.opened none)
    (List.replicate (B 0 0 + 1) (.ok [dfSAdditionalFrame]))).1
  have hbound := hB (List.replicate (B 0 0 + 1) (.ok [dfSAdditionalFrame])) 0
    [] 0 (Card.opened none)
  have heq := hstalls (B 0 0 + 1)
  change stalls false 0 0 _ ≤ _ at hframes
  change _ ≤ B 0 0 at hbound
  omega

end Nxpsc
