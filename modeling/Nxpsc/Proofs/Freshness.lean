import Nxpsc.Proofs.Counter
import Nxpsc.Proofs.Script
import Mathlib.Data.Nat.ModEq

/-!
# How long an EV2 session stays fresh

Every exchange that succeeds advances the counter by one, so the counter of a
command tells its position in the session up to a multiple of 65536. Within
that distance no two commands share an IV input or a MAC input; at that
distance they do, and an answer recorded from the one is accepted for the
other.
-/

namespace Nxpsc

open Dialogue

/-! ## The inputs that carry the counter -/

theorem putU16_inj {a b : UInt16} (h : putU16 a = putU16 b) : a = b := by
  simp only [putU16, List.cons.injEq, and_true] at h
  obtain ⟨hlo, hhi⟩ := h
  have hlo' := congrArg UInt8.toNat hlo
  have hhi' := congrArg UInt8.toNat hhi
  have hshift : UInt16.toNat 8 % 16 = 8 := rfl
  simp only [UInt16.toNat_toUInt8, UInt16.toNat_shiftRight,
    Nat.shiftRight_eq_div_pow, hshift] at hlo' hhi'
  have ha := a.toNat_lt
  have hb := b.toNat_lt
  apply UInt16.toNat_inj.mp
  omega

theorem ev2IvInput_eq (card : Card) (forCommand : Bool) :
    ev2IvInput card forCommand =
      (if forCommand then [0xA5, 0x5A] else [0x5A, 0xA5]) ++
        (card.ti.bytes ++ (putU16 card.cmdCtr ++ Bytes.zeros 8)) := by
  have hlen : ((if forCommand then [0xA5, 0x5A] else [0x5A, 0xA5]) ++
      card.ti.bytes ++ putU16 card.cmdCtr : Bytes).length = 8 := by
    rw [List.length_append, List.length_append, card.ti.bytes_length]
    cases forCommand <;> rfl
  simp only [ev2IvInput]
  rw [Bytes.fit_of_le (by rw [hlen]; decide), hlen, List.append_assoc,
    List.append_assoc]
  rfl

theorem freshInputs {a b : Card} (h : a.cmdCtr ≠ b.cmdCtr) :
    FreshInputs a b := by
  refine ⟨fun forCommand heq => h ?_, fun cmd data cmd' data' heq => h ?_⟩
  · rw [ev2IvInput_eq, ev2IvInput_eq] at heq
    have htail := List.append_cancel_left heq
    have hctr := (List.append_inj htail (by simp)).2
    exact putU16_inj (List.append_cancel_right hctr)
  · simp only [ev2MacInput, List.cons.injEq, List.append_assoc] at heq
    exact putU16_inj (List.append_inj heq.2 rfl).1

/-- The IV of a request and the IV of an answer never share an input. -/
theorem ev2IvInput_label (a b : Card) :
    ev2IvInput a true ≠ ev2IvInput b false := by
  intro h
  rw [ev2IvInput_eq, ev2IvInput_eq] at h
  cases h

/-! ## A session, command after command -/

/-- The handle is in the same EV2 session, `n` commands on. -/
structure SessionAt (card : Card) (n : Nat) (card' : Card) : Prop where
  authenticated : card'.authenticated = true
  channel : card'.channel = .ev2
  cmdset : card'.cmdset = card.cmdset
  lost : card'.sessionLost = card.sessionLost
  sessionEnc : card'.sessionEnc = card.sessionEnc
  sessionMac : card'.sessionMac = card.sessionMac
  ti : card'.ti = card.ti
  cmdCtr : card'.cmdCtr = card.cmdCtr + UInt16.ofNat n

theorem SessionAt.zero {card : Card} (hauth : card.authenticated = true)
    (hchan : card.channel = .ev2) : SessionAt card 0 card :=
  ⟨hauth, hchan, rfl, rfl, rfl, rfl, rfl, (UInt16.add_zero _).symm⟩

theorem SessionAt.trans {a b c : Card} {n m : Nat} (h : SessionAt a n b)
    (h' : SessionAt b m c) : SessionAt a (n + m) c where
  authenticated := h'.authenticated
  channel := h'.channel
  cmdset := h'.cmdset.trans h.cmdset
  lost := h'.lost.trans h.lost
  sessionEnc := h'.sessionEnc.trans h.sessionEnc
  sessionMac := h'.sessionMac.trans h.sessionMac
  ti := h'.ti.trans h.ti
  cmdCtr := by
    rw [h'.cmdCtr, h.cmdCtr, UInt16.ofNat_add, UInt16.add_assoc]

section

variable [BlockCipher]

/-- A successful exchange is one command on. -/
theorem session_step {st : ExchangeStep} (h : st.Of exchangeOf)
    (hauth : st.before.authenticated = true) (hchan : st.before.channel = .ev2)
    (hok : st.result = .ok ()) : SessionAt st.before 1 st.after := by
  obtain ⟨r, hr, hends⟩ := exchangeOf_done h
  rw [hok] at hr
  cases r with
  | error e => cases hr
  | ok out =>
      obtain ⟨wrapped, raw, card₁, card₂, status, hreq, hraw, hst, hans⟩ :=
        hends.succeeds
      obtain ⟨_, _, _, _, hframe⟩ := exchangeRequest_frame hreq
      obtain ⟨status', hraw'⟩ := hraw.frame
      obtain ⟨iv, mismatch, hcard⟩ := exchangeAnswer_success st.call.rxMode
        st.call.cap raw card₂ hst hraw.status_ne
      have hctr : card₂.cmdCtr = st.before.cmdCtr := by rw [hraw', hframe]
      have hlive : card₂.authenticated = true ∧
          (card₂.channel = .ev2 ∨ card₂.channel = .lrp) := by
        rw [hraw', hframe]
        exact ⟨hauth, .inl hchan⟩
      rw [hans, if_pos hlive, hctr, hraw', hframe] at hcard
      change st.after = _ at hcard
      rw [hcard]
      exact ⟨hauth, hchan, rfl, rfl, rfl, rfl, rfl, rfl⟩

/-- Where a command stands in a run of successful ones. -/
theorem session_run {card card' : Card} {steps : List ExchangeStep}
    (hrun : Run exchangeOf card steps card') :
    card.authenticated = true → card.channel = .ev2 →
    (∀ st ∈ steps, st.result = .ok ()) →
    ∀ {i : Nat} {st : ExchangeStep}, steps[i]? = some st →
      SessionAt card i st.before ∧ SessionAt card (i + 1) st.after := by
  induction hrun with
  | nil =>
      intro _ _ _ i st hst
      rw [List.getElem?_nil] at hst
      cases hst
  | cons hof hrest ih =>
      rename_i first rest s
      intro hauth hchan hok i st hst
      have hone := session_step hof hauth hchan (hok first (.head _))
      cases i with
      | zero =>
          rw [List.getElem?_cons_zero] at hst
          cases hst
          exact ⟨.zero hauth hchan, hone⟩
      | succ i =>
          rw [List.getElem?_cons_succ] at hst
          have hih := ih hone.authenticated hone.channel
            (fun st hmem => hok st (.tail _ hmem)) hst
          refine ⟨?_, ?_⟩
          · rw [Nat.add_comm i 1]
            exact hone.trans hih.1
          · rw [Nat.add_comm (i + 1) 1]
            exact hone.trans hih.2

end

/-- Two commands of a session carry the same counter exactly when their
distance is a multiple of 65536. -/
theorem SessionAt.cmdCtr_eq_iff {card a b : Card} {i j : Nat}
    (ha : SessionAt card i a) (hb : SessionAt card j b) :
    a.cmdCtr = b.cmdCtr ↔ i ≡ j [MOD 65536] := by
  rw [ha.cmdCtr, hb.cmdCtr, ← UInt16.toNat_inj]
  simp only [UInt16.toNat_add, UInt16.toNat_ofNat']
  rw [Nat.ModEq]
  omega

/-- In a run of successful commands the inputs of two of them differ, those
of their requests and those of their answers, unless the commands are a
multiple of 65536 apart; then their counters are the same. -/
theorem ev2_fresh_within_65536 [BlockCipher] {card card' : Card}
    {steps : List ExchangeStep} (hauth : card.authenticated = true)
    (hchan : card.channel = .ev2) (hrun : Run exchangeOf card steps card')
    (hok : ∀ st ∈ steps, st.result = .ok ())
    {i j : Nat} {st₁ st₂ : ExchangeStep}
    (hi : steps[i]? = some st₁) (hj : steps[j]? = some st₂) :
    (st₁.before.cmdCtr = st₂.before.cmdCtr ↔ i ≡ j [MOD 65536]) ∧
      (¬ i ≡ j [MOD 65536] → FreshInputs st₁.before st₂.before ∧
        FreshInputs st₁.after st₂.after) ∧
      ev2IvInput st₁.before true ≠ ev2IvInput st₂.after false := by
  obtain ⟨hb₁, ha₁⟩ := session_run hrun hauth hchan hok hi
  obtain ⟨hb₂, ha₂⟩ := session_run hrun hauth hchan hok hj
  refine ⟨hb₁.cmdCtr_eq_iff hb₂, fun hne => ⟨?_, ?_⟩, ev2IvInput_label _ _⟩
  · exact freshInputs fun heq => hne ((hb₁.cmdCtr_eq_iff hb₂).mp heq)
  · exact freshInputs fun heq => hne
      (Nat.ModEq.add_right_cancel' 1 ((ha₁.cmdCtr_eq_iff ha₂).mp heq))

/-! ## At the boundary -/

section

variable [BlockCipher]

/-- A MACed command without data, its answer MACed as well. -/
def macedCommand : Request := ⟨dfGetFileIds, [], .mac, .mac, 64⟩

/-- The MAC of an empty answer to the next command. -/
def nextAnswerMac (card : Card) : Bytes :=
  match ev2Cmac { card with cmdCtr := card.cmdCtr + 1 } 0x00 [] with
  | .error _ => []
  | .ok mac => mac

/-- What the card answers to the next command. -/
def nextAnswer (card : Card) : Answer := .ok (0x00 :: nextAnswerMac card)

theorem ev2Cmac_congr {a b : Card} (hchan : a.channel = b.channel)
    (hkey : a.sessionMac = b.sessionMac) (hti : a.ti = b.ti)
    (hctr : a.cmdCtr = b.cmdCtr) (cmd : UInt8) (data : Bytes) :
    ev2Cmac a cmd data = ev2Cmac b cmd data := by
  simp only [ev2Cmac, ev2MacInput, hchan, hkey, hti, hctr]

theorem nextAnswerMac_spec (card : Card) :
    ev2Cmac { card with cmdCtr := card.cmdCtr + 1 } 0x00 [] =
        .ok (nextAnswerMac card) ∧ (nextAnswerMac card).length = 8 := by
  obtain ⟨mac, hmac, hlen⟩ :=
    ev2Cmac_isOk { card with cmdCtr := card.cmdCtr + 1 } 0x00 []
  simp only [nextAnswerMac, hmac, hlen, and_self]

theorem nextAnswer_congr {a b : Card} (hchan : a.channel = b.channel)
    (hkey : a.sessionMac = b.sessionMac) (hti : a.ti = b.ti)
    (hctr : a.cmdCtr = b.cmdCtr) : nextAnswer a = nextAnswer b := by
  rw [nextAnswer, nextAnswer, nextAnswerMac, nextAnswerMac,
    ev2Cmac_congr (a := { a with cmdCtr := a.cmdCtr + 1 })
      (b := { b with cmdCtr := b.cmdCtr + 1 }) hchan hkey hti
      (congrArg (· + 1) hctr)]

theorem decodeEv2_maced {card : Card} {body mac : Bytes} (cap : Nat)
    (hmode : card.mode = .mac) (hlen : mac.length = macLength card)
    (hmac : ev2Cmac card 0x00 body = .ok mac) :
    decodeEv2 (body ++ mac) cap card = (copyOutput cap body, card) := by
  have hbody : (body ++ mac).length - macLength card = body.length := by
    rw [List.length_append, hlen, Nat.add_sub_cancel]
  have hlong : ¬ (body ++ mac).length < macLength card := by
    rw [List.length_append]
    omega
  simp only [decodeEv2, hmode, ne_eq, not_true_eq_false, false_and, if_false,
    if_neg hlong, hbody, List.take_left, List.drop_left, hmac, true_or,
    if_true]

theorem channelDecode_ev2 {card : Card} (hchan : card.channel = .ev2)
    {src : Bytes} {status : UInt8} {cap : Nat} :
    channelDecode src status cap card = decodeEv2 src cap card := by
  rw [channelDecode, hchan]

/-- The next answer passes, on any handle of the session at that counter. -/
theorem nextAnswer_accepted {card card' : Card}
    (hauth : card'.authenticated = true) (hchan : card.channel = .ev2)
    (hsame : card'.channel = card.channel)
    (hkey : card'.sessionMac = card.sessionMac) (hti : card'.ti = card.ti)
    (hctr : card'.cmdCtr = card.cmdCtr) :
    (exchangeAnswer .mac 64 0x00 (nextAnswerMac card) card').1 = .ok [] := by
  obtain ⟨hmac, hlen⟩ := nextAnswerMac_spec card
  have hchan' : card'.channel = .ev2 := hsame.trans hchan
  rw [exchangeAnswer_counted _ _ _ _ rfl (by decide) hauth (.inl hchan'),
    channelDecode_ev2 (by exact hchan'),
    ← List.nil_append (nextAnswerMac card), decodeEv2_maced 64 rfl ?_ ?_]
  · rfl
  · rw [hlen, macLength]
    simp only [hchan']
  · rw [← hmac]
    exact ev2Cmac_congr
      (a := { card' with cmdCtr := card'.cmdCtr + 1, mode := .mac })
      (b := { card with cmdCtr := card.cmdCtr + 1 })
      hsame hkey hti (congrArg (· + 1) hctr) _ _

theorem macedCommand_accepted {card : Card} (hauth : card.authenticated = true)
    (hchan : card.channel = .ev2) (hset : card.cmdset = .native)
    (hlost : card.sessionLost = false) :
    ∃ said card', exchangeOf macedCommand card [nextAnswer card] =
      .done said (.ok ()) card' [] := by
  obtain ⟨hmac, hlen⟩ := nextAnswerMac_spec card
  have hwire : wireLength { card with mode := .mac } dfGetFileIds
      ([] : Bytes).length = 8 := by
    rw [wireLength, hchan]
    rfl
  have hframes : ([] : List Answer).length =
      requestFrames card dfGetFileIds ([] : Bytes).length .mac := by
    rw [requestFrames, hwire]
    rfl
  obtain ⟨wrapped, card₁, hreq⟩ : ∃ wrapped card₁,
      exchangeRequest dfGetFileIds [] .mac .mac card = (.ok wrapped, card₁) :=
    exchangeRequest_isOk .mac hlost (by rw [hwire]; decide)
  obtain ⟨_, _, _, _, hframe⟩ := exchangeRequest_frame hreq
  have hread : frameResponse card maxApdu (nextAnswer card) =
      .ok (0x00, nextAnswerMac card) :=
    frameResponse_native hset (by rw [hlen]; decide) (by rw [hlen]; decide)
  obtain ⟨said, hex⟩ := exchange_acked 64 [] hreq hframes
    (fun _ hb => absurd hb List.not_mem_nil) hread (by rw [hlen]; decide)
    (by decide)
  have hans : (exchangeAnswer .mac 64 0x00 (nextAnswerMac card)
      { card₁ with lastStatus := 0x00 }).1 = .ok [] := by
    rw [hframe]
    exact nextAnswer_accepted hauth hchan rfl rfl rfl rfl
  refine ⟨said, _, Prog.ignore_eq_done.mpr ⟨_, hex, ?_⟩⟩
  rw [hans]
  rfl

/-- So a session goes on for as many commands as one likes. -/
theorem maced_run (n : Nat) {card : Card} (hauth : card.authenticated = true)
    (hchan : card.channel = .ev2) (hset : card.cmdset = .native)
    (hlost : card.sessionLost = false) :
    ∃ steps card', Run exchangeOf card steps card' ∧ steps.length = n ∧
      (∀ st ∈ steps, st.result = .ok ()) ∧
      ∀ st ∈ steps, answersOf st = [nextAnswer st.before] := by
  induction n generalizing card with
  | zero =>
      exact ⟨[], card, .nil, rfl, fun _ h => (List.not_mem_nil h).elim,
        fun _ h => (List.not_mem_nil h).elim⟩
  | succ n ih =>
      obtain ⟨said, card₁, hfirst⟩ :=
        macedCommand_accepted hauth hchan hset hlost
      have hof : Step.Of exchangeOf
          (⟨macedCommand, card, said, .ok (), card₁⟩ : ExchangeStep) :=
        ⟨_, _, hfirst⟩
      have hone := session_step hof hauth hchan rfl
      obtain ⟨steps, card', hrun, hlen, hok, hans⟩ := ih hone.authenticated
        hone.channel (hone.cmdset.trans hset) (hone.lost.trans hlost)
      have hread := reads_exchangeOf _ _ _ _ _ _ _ hfirst
      rw [List.append_nil] at hread
      refine ⟨_ :: steps, card', .cons hof hrun, ?_, ?_, ?_⟩
      · rw [List.length_cons, hlen]
      · exact List.forall_mem_cons.mpr ⟨rfl, hok⟩
      · exact List.forall_mem_cons.mpr ⟨hread.symm, hans⟩

/-- In such a session the counter of a command comes back after 65536
commands, and the answer that was recorded then is accepted again. -/
theorem answer_replays {card : Card} (hauth : card.authenticated = true)
    (hchan : card.channel = .ev2) (hset : card.cmdset = .native)
    (hlost : card.sessionLost = false) :
    ∃ steps card' st₁ st₂, Run exchangeOf card steps card' ∧
      (∀ st ∈ steps, st.result = .ok ()) ∧
      steps[0]? = some st₁ ∧ steps[65536]? = some st₂ ∧
      st₁.before.cmdCtr = st₂.before.cmdCtr ∧
      answersOf st₁ = answersOf st₂ := by
  obtain ⟨steps, card', hrun, hlen, hok, hans⟩ :=
    maced_run 65537 hauth hchan hset hlost
  have hi : steps[0]? = some steps[0] := List.getElem?_eq_getElem (by omega)
  have hj : steps[65536]? = some steps[65536] :=
    List.getElem?_eq_getElem (by omega)
  obtain ⟨hb₁, -⟩ := session_run hrun hauth hchan hok hi
  obtain ⟨hb₂, -⟩ := session_run hrun hauth hchan hok hj
  have hctr := (hb₁.cmdCtr_eq_iff hb₂).mpr rfl
  refine ⟨steps, card', _, _, hrun, hok, hi, hj, hctr, ?_⟩
  rw [hans _ (List.getElem_mem _), hans _ (List.getElem_mem _)]
  rw [nextAnswer_congr (hb₁.channel.trans hb₂.channel.symm)
    (hb₁.sessionMac.trans hb₂.sessionMac.symm) (hb₁.ti.trans hb₂.ti.symm) hctr]

end

/-! ### A session at the boundary -/

theorem ev2_fresh_within_65536_two :
    ∃ (card card' : Card) (st₁ st₂ : ExchangeStep),
      @Run _ _ _ _ _ (@exchangeOf .identity) card [st₁, st₂] card' ∧
      (st₁.before.cmdCtr = st₂.before.cmdCtr ↔ 0 ≡ 1 [MOD 65536]) ∧
      (¬ 0 ≡ 1 [MOD 65536] → FreshInputs st₁.before st₂.before ∧
        FreshInputs st₁.after st₂.after) ∧
      ev2IvInput st₁.before true ≠ ev2IvInput st₂.after false := by
  obtain ⟨steps, card', hrun, hlen, hok, -⟩ :=
    @maced_run .identity 2 liveEv2 rfl rfl rfl rfl
  obtain ⟨st₁, st₂, rfl⟩ := List.length_eq_two.mp hlen
  exact ⟨liveEv2, card', st₁, st₂, hrun,
    @ev2_fresh_within_65536 .identity _ _ _ rfl rfl hrun hok 0 1 _ _ rfl rfl⟩

/-- The first and the last command of a run of 65537. -/
theorem ev2_counter_repeats :
    ¬ ∀ (_ : BlockCipher) (card card' : Card) (steps : List ExchangeStep),
      card.authenticated = true → card.channel = .ev2 →
      Run exchangeOf card steps card' →
      (∀ st ∈ steps, st.result = .ok ()) →
      ∀ (i j : Nat) (st₁ st₂ : ExchangeStep), i ≠ j →
        steps[i]? = some st₁ → steps[j]? = some st₂ →
        st₁.before.cmdCtr ≠ st₂.before.cmdCtr := by
  intro hall
  obtain ⟨steps, card', st₁, st₂, hrun, hok, hi, hj, hctr, -⟩ :=
    @answer_replays .identity liveEv2 rfl rfl rfl rfl
  exact hall .identity liveEv2 card' steps rfl rfl hrun hok 0 65536 st₁ st₂
    (by decide) hi hj hctr

end Nxpsc
