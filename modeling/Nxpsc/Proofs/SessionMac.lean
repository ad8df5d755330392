import Nxpsc.Proofs.Applet
import Nxpsc.Proofs.Freshness
import Nxpsc.Spec.Intruder

/-!
# The MACs of a session

What a MAC is over has the counter in it, and the opcode, which is zero in an
answer; and it decides the frame. Everything that either side of a session
takes for the other's has such a MAC.
-/

namespace Nxpsc

open Dialogue

/-! ## The counter tells the messages apart -/

theorem macInput_inj {s t : Shared} (hti : s.ti = t.ti) {op op' : UInt8}
    {body body' : Bytes} (h : s.macInput op body = t.macInput op' body') :
    op = op' ∧ s.cmdCtr = t.cmdCtr ∧ body = body' := by
  simp only [Shared.macInput, List.cons.injEq, List.append_assoc, hti] at h
  obtain ⟨hop, htail⟩ := h
  obtain ⟨hctr, hrest⟩ := List.append_inj htail rfl
  exact ⟨hop, putU16_inj hctr, List.append_cancel_left hrest⟩

theorem ofNat_inj {i j : Nat} (hi : i < 65536) (hj : j < 65536)
    (h : UInt16.ofNat i = UInt16.ofNat j) : i = j := by
  have hval := congrArg UInt16.toNat h
  rwa [UInt16.toNat_ofNat_of_lt' hi, UInt16.toNat_ofNat_of_lt' hj] at hval

theorem ahead_inj {s t : Shared} (hctr : s.cmdCtr = t.cmdCtr)
    (hti : s.ti = t.ti) {i j : Nat} (hi : i < 65536) (hj : j < 65536)
    {op op' : UInt8} {body body' : Bytes}
    (h : (s.ahead i).macInput op body = (t.ahead j).macInput op' body') :
    op = op' ∧ i = j ∧ body = body' := by
  obtain ⟨hop, hctr', hbody⟩ := @macInput_inj (s.ahead i) (t.ahead j) hti _ _ _
    _ h
  rw [Shared.ahead, Shared.ahead, hctr] at hctr'
  exact ⟨hop, ofNat_inj hi hj ((UInt16.add_right_inj _).mp hctr'), hbody⟩

theorem ahead_zero (s : Shared) : s.ahead 0 = s := by
  rw [Shared.ahead, show UInt16.ofNat 0 = 0 from rfl, UInt16.add_zero]

theorem counted_ahead (s : Shared) (i : Nat) :
    s.counted.ahead i = s.ahead (i + 1) := by
  rw [Shared.ahead, Shared.ahead, Shared.counted, UInt16.add_assoc,
    UInt16.add_comm 1, UInt16.ofNat_add]
  rfl

theorem sends_ne_plain {mode : Mode} (h : mode ≠ .plain) :
    mode.sends ≠ .plain := by
  cases mode with
  | plain => exact absurd rfl h
  | mac | enc | encPadded | encPlain => exact CommMode.noConfusion

section

variable [c : BlockCipher]

/-- The IV has no part in the MACs. -/
theorem maced_iv (lrp : Bool) (s : Shared) (iv : Bytes) (op : UInt8)
    (frame : Bytes) :
    Shared.Maced lrp { s with iv := iv } op frame ↔ s.Maced lrp op frame :=
  Iff.rfl

/-- What a MAC is over decides the frame. -/
theorem maced_unique {lrp : Bool} {s : Shared} {op : UInt8}
    {frame frame' : Bytes} (h : s.Maced lrp op frame)
    (h' : s.Maced lrp op frame') (hbody : macBody frame = macBody frame') :
    frame = frame' := by
  have hmac := h.2
  rw [hbody, h'.2] at hmac
  rw [← List.take_append_drop (frame.length - 8) frame,
    ← List.take_append_drop (frame'.length - 8) frame',
    ← hmac]
  exact congrArg (· ++ _) hbody

theorem peerReads_maced {lrp : Bool} {s s' : Shared} {enc : Bool}
    {cmd : UInt8} {frame data : Bytes}
    (h : peerReads lrp s enc cmd frame = some (data, s')) :
    s.Maced lrp cmd frame ∧ ∃ iv, s' = { s with iv := iv } := by
  have hdec : ∀ x : Bytes, ∃ iv,
      (peerDeciphers lrp s requestLabel x).2 = { s with iv := iv } := by
    intro x
    rw [peerDeciphers]
    split
    · exact ⟨_, rfl⟩
    · exact ⟨s.iv, rfl⟩
  simp only [peerReads] at h
  split at h
  · cases h
  next hmac =>
  obtain ⟨hlen, hmac⟩ := not_or.mp hmac
  refine ⟨⟨Nat.le_of_not_lt hlen, not_not.mp hmac⟩, ?_⟩
  split at h
  · cases h
    exact ⟨s.iv, rfl⟩
  · obtain ⟨plain, -, heq⟩ := Option.map_eq_some_iff.mp h
    cases heq
    exact hdec _

/-- A request the card takes has its MAC. -/
theorem takes_maced {lrp : Bool} {s s' : Shared} {comm : CommMode}
    {cmd : UInt8} {frame data : Bytes} (hcomm : comm ≠ .plain)
    (h : takes lrp s comm cmd frame = some (data, s')) :
    s.Maced lrp cmd frame ∧ ∃ iv, s' = { s with iv := iv } := by
  cases comm with
  | plain => exact absurd rfl hcomm
  | mac => exact peerReads_maced h
  | full => exact peerReads_maced h

/-- So has an answer it gives. -/
theorem gives_maced {lrp : Bool} {s s' : Shared} {comm : CommMode}
    {data sealed : Bytes} (hcomm : comm ≠ .plain)
    (h : gives lrp s comm data = (sealed, s')) :
    s.Maced lrp 0x00 sealed ∧ ∃ iv, s' = { s with iv := iv } := by
  have hsent : ∀ (enc : Bool) (x : Bytes), ∃ iv,
      (if enc then peerEnciphers lrp s answerLabel (Bytes.pad aesBlock x)
        else (x, s)).2 = { s with iv := iv } := by
    intro enc x
    cases enc with
    | false => exact ⟨s.iv, rfl⟩
    | true =>
        rw [if_pos rfl, peerEnciphers]
        split
        · exact ⟨_, rfl⟩
        · exact ⟨s.iv, rfl⟩
  have hanswers : ∀ enc, peerAnswers lrp s enc data = (sealed, s') →
      s.Maced lrp 0x00 sealed ∧ ∃ iv, s' = { s with iv := iv } := by
    intro enc h
    cases h
    have hlen : ∀ body, (peerMac lrp s 0x00 body).length = 8 :=
      length_peerMac lrp s 0x00
    refine ⟨?_, hsent enc data⟩
    rw [Shared.Maced, macBody, Bytes.take_tail (hlen _),
      Bytes.drop_tail (hlen _)]
    refine ⟨?_, rfl⟩
    rw [List.length_append, hlen]
    omega
  cases comm with
  | plain => exact absurd rfl hcomm
  | mac => exact hanswers _ h
  | full => exact hanswers _ h

/-- And an answer the library accepts. -/
theorem decodeEv2_accepts {src out : Bytes} {cap : Nat} {card card' : Card}
    (hchan : card.channel = .ev2 ∨ card.channel = .lrp)
    (hmode : card.mode = .mac ∨ card.mode = .enc)
    (h : decodeEv2 src cap card = (.ok out, card')) :
    card.peer.Maced card.onLrp 0x00 src := by
  have hmacLen : macLength card = 8 := by
    rcases hchan with hc | hc <;> rw [macLength, hc]
  simp only [decodeEv2, hmacLen] at h
  rw [if_neg fun hn => hmode.elim hn.1 hn.2.1] at h
  split at h
  · cases h
  next hlen =>
  split at h
  · cases h
  next mac hmac =>
  split at h
  · cases h
  next hsame =>
  refine ⟨Nat.le_of_not_lt hlen, ?_⟩
  rw [not_not.mp hsame]
  exact peerMac_eq hmac

/-! ## A frame for the card -/

section

variable {A : Type} {applet : Applet A} {lrp : Bool}

theorem Air.heard {st : Air A} {s : Shared} {op : UInt8} {frame : Bytes}
    (hno : ¬ st.Unheard lrp s op frame) (hmaced : s.Maced lrp op frame) :
    s.macInput op (macBody frame) ∈ st.maced :=
  not_not.mp fun h => hno ⟨hmaced, h⟩

/-- A frame closes the session of the card, or finds it closed, or it is a
command with its MAC. -/
theorem receive_cases (hguard : applet.Guarded) (st : Air A) (cmd : UInt8)
    (frame : Bytes) :
    (∃ a, applet.receive lrp st cmd frame = { st with picc := (none, a) }) ∨
    ∃ s a payload s₁, st.picc = (some s, a) ∧ s.Maced lrp cmd frame ∧
      cmd ≠ 0x00 ∧
      takes lrp s (applet.comm a cmd frame).1 cmd frame =
        some (payload, s₁) ∧
      statusEndsSession (applet.run true a cmd payload).1.status = false ∧
      applet.receive lrp st cmd frame =
        { st with
          picc := (applet.secured lrp st.picc cmd frame).2
          ran := st.ran ++ [(cmd, payload)]
          maced := st.maced ++ answerInputs lrp s₁.counted
            (applet.comm a cmd frame).2
            (applet.run true a cmd payload).1.data } := by
  rcases hpicc : st.picc with ⟨_ | s, a⟩
  · refine .inl ⟨(applet.run false a cmd frame).2, ?_⟩
    simp only [Applet.receive, Applet.secured, hpicc]
  cases htakes : takes lrp s (applet.comm a cmd frame).1 cmd frame with
  | none =>
      refine .inl ⟨a, ?_⟩
      simp only [Applet.receive, Applet.secured, hpicc, htakes]
  | some out =>
  obtain ⟨payload, s₁⟩ := out
  by_cases hend :
      statusEndsSession (applet.run true a cmd payload).1.status = true
  · refine .inl ⟨(applet.run true a cmd payload).2, ?_⟩
    simp only [Applet.receive, Applet.secured, hpicc, htakes, hend, if_true]
  · refine .inr ⟨s, a, payload, s₁, rfl,
      (takes_maced (hguard.maced a cmd frame) htakes).1, ?_, htakes,
      Bool.eq_false_iff.mpr hend, ?_⟩
    · intro hzero
      rw [hzero] at hend
      exact hend (hguard.noCommand a payload)
    · simp only [Applet.receive, hpicc, htakes, hend, if_false,
        Bool.false_eq_true]

/-- The card carries out a command and answers it. -/
theorem receive_taken {st : Air A} {s s₁ s' : Shared} {a a' : A}
    {cmd : UInt8} {frame payload sealed : Bytes} {comm : CommMode × CommMode}
    {answer : AppletAnswer} (hpicc : st.picc = (some s, a))
    (hcomm : applet.comm a cmd frame = comm) (hsealed : comm.2 ≠ .plain)
    (htakes : takes lrp s comm.1 cmd frame = some (payload, s₁))
    (hrun : applet.run true a cmd payload = (answer, a'))
    (hkept : statusEndsSession answer.status = false)
    (hgiven : gives lrp s₁.counted comm.2 answer.data = (sealed, s')) :
    applet.receive lrp st cmd frame =
      { st with
        picc := (some s', a')
        ran := st.ran ++ [(cmd, payload)]
        maced := st.maced ++ [s₁.counted.macInput 0x00 (macBody sealed)] } := by
  simp only [Applet.receive, Applet.secured, hpicc, hcomm, htakes, hrun, hkept,
    hgiven, answerInputs, hsealed, Bool.false_eq_true, if_false]

end

end

/-! ## The library -/

section

variable [c : BlockCipher]

/-- What the library accepts has a MAC with its counter. -/
theorem finish_accepts {lrp : Bool} {card card' : Card} {req : Request}
    {frame out : Bytes} {script rest : List Answer} {said : Said}
    (hin : InSession lrp card) (hrx : req.rxMode = .mac ∨ req.rxMode = .enc)
    (h : req.finish frame card script = .done said (.ok out) card' rest) :
    ∃ said₁ status raw last rest₁,
      rawExchange req.cmd frame maxResponse card script =
        .done said₁ (.ok (status, raw)) { card with lastStatus := last }
          rest₁ ∧
      statusEndsSession status = false ∧ status ≠ dfSAdditionalFrame ∧
      exchangeAnswer req.rxMode req.cap status raw
        { card with lastStatus := last } = (.ok out, card') ∧
      card.peer.counted.Maced lrp 0x00 raw := by
  rcases Prog.bind_eq_done.mp h with ⟨e, -, herr⟩ |
    ⟨said₁, answer, card₂, rest₁, said₂, hraw, hans, -⟩
  · cases herr
  have hends := rawExchangeEx_done hraw
  obtain ⟨last, rfl⟩ := hends.frame
  have hfinal := hends.status_ne
  rw [Prog.act_run] at hans
  cases hact : exchangeAnswer req.rxMode req.cap answer.1 answer.2
    { card with lastStatus := last } with
  | mk r after =>
  rw [hact] at hans
  cases hans
  have hkept : statusEndsSession answer.1 = false := by
    by_contra hend
    rw [exchangeAnswer, if_pos (Bool.eq_true_of_not_eq_false hend)] at hact
    cases hact
  refine ⟨_, _, _, _, _, hraw, hkept, hfinal, hact, ?_⟩
  have hev2 := inSession_channel hin
  have hcount := @answering_inSession lrp { card with lastStatus := last }
    ⟨hin.1, hin.2, hin.3⟩
  rw [exchangeAnswer_decodes hkept hfinal, hcount] at hact
  have hdec : decodeEv2 answer.2 req.cap { card with
      lastStatus := last
      cmdCtr := card.cmdCtr + 1
      mode := req.rxMode } = (.ok out, after) := by
    rw [← hact]
    rcases hev2 with hc | hc <;> simp only [channelDecode, hc]
  have hmaced := @decodeEv2_accepts _ _ _ _ { card with
    lastStatus := last
    cmdCtr := card.cmdCtr + 1
    mode := req.rxMode } _ hev2 hrx hdec
  rw [← inSession_onLrp hin]
  exact hmaced

end

theorem illegalCommand_final : dfSIllegalCommand ≠ dfSAdditionalFrame := by
  decide

theorem ok_final : dfSOk ≠ dfSAdditionalFrame := by decide

theorem byte_fits (b : UInt8) : [b].length ≤ answerMax :=
  Nat.le_of_ble_eq_true rfl

/-- A card that answers with the opcode. -/
def opcodes : Applet Unit where
  comm _ _ _ := (.mac, .mac)
  length _ _ _ := 0
  run _ _ cmd _ :=
    if cmd = 0x00 then
      (⟨dfSIllegalCommand, [], illegalCommand_final, Nat.zero_le _⟩, ())
    else (⟨dfSOk, [cmd], ok_final, byte_fits cmd⟩, ())

theorem opcodes_guarded : opcodes.Guarded where
  maced _ _ _ := CommMode.noConfusion
  noCommand _ _ := rfl

def opcodeRequest (cmd : UInt8) : Request := ⟨cmd, [], .mac, .mac, 8⟩

theorem opcodes_speaks {cmd : UInt8} (hzero : cmd ≠ 0x00)
    (hmore : cmd ≠ dfAdditionalFrame) (t : Bool × Unit) :
    opcodes.SpeaksMaced t (opcodeRequest cmd) where
  opcode := hmore
  room := by
    obtain ⟨live, a⟩ := t
    cases live
    · exact Nat.zero_le _
    · exact Nat.le_of_ble_eq_true rfl
  answer := .inr (.inl rfl)
  comm _ _ := rfl
  length _ := rfl
  command := hzero
  sent := Mode.noConfusion
  received := Mode.noConfusion

/-- Nothing has been said yet. -/
def opcodeStart : Air Unit where
  card := liveEv2
  waits := none
  picc := (some liveEv2.peer, ())
  maced := []
  called := []
  came := []
  ran := []

theorem opcodeStart_begins (n : Nat) : opcodeStart.Begins false n () where
  session := ⟨rfl, rfl, rfl⟩
  picc := rfl
  waits := rfl
  called := rfl
  came := rfl
  ran := rfl
  quiet _ _ _ _ h := (List.not_mem_nil h).elim

end Nxpsc
