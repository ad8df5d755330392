import Nxpsc.Proofs.Carrier
import Nxpsc.Proofs.FileRead
import Nxpsc.Proofs.MutualAuth
import Nxpsc.Proofs.Script
import Nxpsc.Spec.Applet

/-!
# A session is as good as a wire

`nxpsc_exchange` in an EV2 or LRP session against a card that carries an
applet: what the caller gets is what the applet answered, whatever
was chained, MACed and enciphered in between, and the two sides are in step
again afterwards. A card error ends the session on both sides. By
`Refines.run` this holds of every list of exchanges.

Each direction is one lemma: `encode_taken` for the request, with its length
and its first bytes, and `decode_given` for the answer.
-/

namespace Nxpsc

open Dialogue

/-! ## Lengths -/

theorem length_pad_blocks (data : Bytes) :
    (Bytes.pad aesBlock data).length =
      (data.length / aesBlock + 1) * aesBlock := by
  rw [Bytes.length_pad, aesBlock]
  omega

/-- The card expects what the library sends. -/
theorem wireLength_sent {card : Card} {mode : Mode} (cmd : UInt8) (n : Nat)
    (hchan : card.channel = .ev2 ∨ card.channel = .lrp) :
    wireLength { card with mode := mode } cmd n =
      sentLength mode.sends cmd n := by
  have hblocks : ∀ len, paddedLen (len + 1) aesBlock =
      (len / aesBlock + 1) * aesBlock := by
    intro len
    rw [paddedLen_succ (by decide), aesBlock]
    omega
  have hfull : ∀ hdr : Nat, min hdr n +
      (if min hdr n < n then paddedLen (n + 1 - min hdr n) aesBlock else 0) +
        8 = if hdr < n then hdr + ((n - hdr) / aesBlock + 1) * aesBlock + 8
          else n + 8 := by
    intro hdr
    by_cases h : hdr < n
    · rw [if_pos h, Nat.min_eq_left (by omega), if_pos h,
        show n + 1 - hdr = n - hdr + 1 by omega, hblocks]
    · rw [if_neg h, Nat.min_eq_right (by omega), if_neg (Nat.lt_irrefl _),
        Nat.add_zero]
  rcases hchan with hc | hc
  all_goals
    cases mode
    all_goals simp only [wireLength, sentLength, Mode.sends, hc]
    all_goals exact hfull _

/-- What of a payload is in the clear. -/
def clearPart (comm : CommMode) (cmd : UInt8) (src : Bytes) : Bytes :=
  if comm = .full then src.take (cmdHeaderLen cmd src.length) else src

/-- The first bytes of the frame, and of its first piece. -/
theorem clear_prefix {req : Request} {tail frame : Bytes}
    (h : frame = clearPart req.txMode.sends req.cmd req.data ++ tail) :
    (∃ rest, frame = req.clear ++ rest) ∧
      ∃ rest, frame.take txFrameMax = req.clear ++ rest := by
  have hclear : req.clear =
      (clearPart req.txMode.sends req.cmd req.data).take txFrameMax := rfl
  rw [hclear, h]
  generalize clearPart req.txMode.sends req.cmd req.data = clear
  constructor
  · refine ⟨clear.drop txFrameMax ++ tail, ?_⟩
    rw [← List.append_assoc, List.take_append_drop]
  · exact ⟨_, List.take_append⟩

/-- The handle once `nxpsc_exchange` has noted the request. -/
def Card.noting (card : Card) (req : Request) : Card :=
  { card with
    mode := req.txMode
    macMismatch := false
    lastCmd := req.cmd
    lastRequestZeroLen :=
      decide (req.data.length ≤ cmdHeaderLen req.cmd req.data.length) }

theorem inSession_channel {lrp : Bool} {card : Card}
    (hin : InSession lrp card) :
    card.channel = .ev2 ∨ card.channel = .lrp := by
  rw [hin.channel]
  cases lrp
  · exact .inl rfl
  · exact .inr rfl

theorem inSession_onLrp {lrp : Bool} {card : Card}
    (hin : InSession lrp card) : card.onLrp = lrp := by
  rw [Card.onLrp, hin.channel]
  cases lrp <;> rfl

theorem answering_inSession {lrp : Bool} {card : Card}
    (hin : InSession lrp card) :
    card.answering = { card with cmdCtr := card.cmdCtr + 1 } := by
  rw [Card.answering, if_pos ⟨hin.authenticated, inSession_channel hin⟩]

section

variable [c : BlockCipher]

/-! ## The request -/

theorem takes_encoded (hinv : DecryptInverts c) {cmd : UInt8} {src : Bytes}
    {card : Card} (hchan : card.channel = .ev2 ∨ card.channel = .lrp)
    (hroom : sentLength card.mode.sends cmd src.length ≤ maxResponse) :
    ∃ frame card', encodeEv2 cmd src maxResponse card = (.ok frame, card') ∧
      takes card.onLrp card.peer card.mode.sends cmd frame =
        some (src, card'.peer) := by
  have hplain : card.mode = .plain → src.length ≤ maxResponse := by
    intro hm
    rw [hm] at hroom
    exact hroom
  have hmac : card.mode = .mac → securedLen cmd src false ≤ maxResponse := by
    intro hm
    rw [hm] at hroom
    exact hroom
  have hfull : card.mode.sends = .full →
      securedLen cmd src true ≤ maxResponse := by
    intro hm
    rw [hm, sentLength] at hroom
    simp only [securedLen, true_and, length_pad_blocks, List.length_drop]
    exact hroom
  have henc : ∀ h : card.mode = .enc ∨ card.mode = .encPadded ∨
      card.mode = .encPlain, card.mode.sends = .full := by
    rintro (h | h | h) <;> rw [h] <;> rfl
  have hread : ∀ h : card.mode = .enc ∨ card.mode = .encPadded ∨
      card.mode = .encPlain, ∃ frame card',
        encodeEv2 cmd src maxResponse card = (.ok frame, card') ∧
        takes card.onLrp card.peer card.mode.sends cmd frame =
          some (src, card'.peer) := by
    intro h
    rw [henc h]
    exact encodeEv2_read hinv card hchan h (hfull (henc h))
  cases hm : card.mode with
  | plain =>
      refine ⟨src, card, ?_, rfl⟩
      simp only [encodeEv2, hm, reduceCtorEq, or_self, if_false]
      rw [if_neg (Nat.not_lt.mpr (hplain hm))]
  | mac => exact @encodeEv2_read _ hinv _ _ _ card false hchan hm (hmac hm)
  | enc => exact hm ▸ hread (.inl hm)
  | encPadded => exact hm ▸ hread (.inr (.inl hm))
  | encPlain => exact hm ▸ hread (.inr (.inr hm))

theorem encodeEv2_clear {cmd : UInt8} {src frame : Bytes} {cap : Nat}
    {card : Card} (h : (encodeEv2 cmd src cap card).1 = .ok frame) :
    ∃ tail, frame = clearPart card.mode.sends cmd src ++ tail := by
  have htake : src.take (min (cmdHeaderLen cmd src.length) src.length) =
      src.take (cmdHeaderLen cmd src.length) :=
    List.take_eq_take_iff.mpr (by omega)
  have hfull : card.mode = .enc ∨ card.mode = .encPadded ∨
      card.mode = .encPlain → card.mode.sends = .full := by
    rintro (h | h | h) <;> rw [h] <;> rfl
  simp only [encodeEv2] at h
  split at h
  · cases h
  split at h
  · next hm =>
      split at h
      · cases h
      split at h
      · cases h
      · rw [hm]
        exact ⟨_, (Except.ok.inj h).symm⟩
  split at h
  · next henc =>
      rw [hfull henc, clearPart, if_pos rfl]
      split at h
      · cases h
      split at h
      · cases h
      split at h
      · cases h
      split at h
      · cases h
      · rw [htake, List.append_assoc] at h
        exact ⟨_, (Except.ok.inj h).symm⟩
  · next hmac henc =>
      have hm : card.mode = .plain := by
        cases hm : card.mode with
        | plain => rfl
        | mac => exact absurd hm hmac
        | enc => exact absurd (.inl hm) henc
        | encPadded => exact absurd (.inr (.inl hm)) henc
        | encPlain => exact absurd (.inr (.inr hm)) henc
      rw [hm]
      exact ⟨[], by rw [List.append_nil]; exact (Except.ok.inj h).symm⟩

/-- The request of an exchange in a session, at the other end. -/
theorem exchangeRequest_taken (hinv : DecryptInverts c) {lrp : Bool}
    {req : Request} {card : Card} (hin : InSession lrp card)
    (hroom : sentLength req.txMode.sends req.cmd req.data.length ≤
      maxResponse) :
    ∃ frame card₁, exchangeRequest req.cmd req.data req.txMode req.rxMode
        card = (.ok frame, card₁) ∧
      takes lrp card.peer req.txMode.sends req.cmd frame =
        some (req.data, card₁.peer) ∧
      frame.length = sentLength req.txMode.sends req.cmd req.data.length ∧
      (∃ tail, frame = clearPart req.txMode.sends req.cmd req.data ++ tail) ∧
      card₁.cmdset = card.cmdset ∧ InSession lrp card₁ := by
  have hev2 := inSession_channel hin
  have hlrp := inSession_onLrp hin
  obtain ⟨hauth, hchan, hkept⟩ := hin
  have hopen : ¬ (card.sessionLost = true ∧
      (req.txMode ≠ .plain ∨ req.rxMode ≠ .plain)) := by
    rw [hkept]
    exact fun h => Bool.false_ne_true h.1
  have hwire := @wireLength_sent card req.txMode req.cmd req.data.length hev2
  obtain ⟨wrapped, card₁, hreq, hlen⟩ := @exchangeRequest_fits _ req.cmd
    req.data req.txMode req.rxMode card hopen (by rw [hwire]; exact hroom)
  obtain ⟨frame, card', hencode, htakes⟩ := @takes_encoded _ hinv req.cmd
    req.data (card.noting req) hev2 hroom
  have hsent : exchangeRequest req.cmd req.data req.txMode req.rxMode card =
      (.ok frame, card') := by
    rw [exchangeRequest, if_neg hopen, ← hencode]
    rcases hev2 with h | h <;> simp only [channelEncode, h, Card.noting]
  obtain ⟨hframe, hcard⟩ := Prod.mk.inj (hreq.symm.trans hsent)
  obtain rfl := Except.ok.inj hframe
  obtain ⟨iv, m, hrest⟩ := encodeEv2_frame req.cmd req.data maxResponse
    (card.noting req)
  rw [hencode] at hrest
  refine ⟨wrapped, card', hsent, ?_, hlen.trans hwire,
    encodeEv2_clear (congrArg Prod.fst hencode), ?_, ?_⟩
  · rw [← hlrp]
    exact htakes
  · rw [show card' = _ from hrest]
    rfl
  · rw [show card' = _ from hrest]
    exact ⟨hauth, hchan, hkept⟩

/-! ## The answer -/

/-- An answer that is decoded is copied last. -/
theorem decodeEv2_copies {src data : Bytes} {cap₀ : Nat} {card card' : Card}
    (h : decodeEv2 src cap₀ card = (.ok data, card')) (cap : Nat) :
    decodeEv2 src cap card = (copyOutput cap data, card') := by
  have hcopy : ∀ {x : Bytes} {after : Card},
      (copyOutput cap₀ x, after) = (Except.ok data, card') →
      (copyOutput cap x, after) = (copyOutput cap data, card') := by
    intro x after h
    obtain ⟨hok, rfl⟩ := Prod.mk.inj h
    rw [(copyOutput_ok hok).1]
  simp only [decodeEv2] at h ⊢
  split at h
  · next hplain =>
      rw [if_pos hplain]
      exact hcopy h
  next hplain =>
  rw [if_neg hplain]
  split at h
  · cases h
  next hlen =>
  rw [if_neg hlen]
  split at h
  · cases h
  next mac hmac =>
  split at h
  · cases h
  next hsame =>
  rw [if_neg hsame]
  split at h
  · next hclear =>
      rw [if_pos hclear]
      exact hcopy h
  next hclear =>
  rw [if_neg hclear]
  split at h
  · cases h
  next plain after hplain' =>
  split at h
  · cases h
  next hpure =>
  rw [if_neg hpure]
  exact hcopy h

/-- An answer that carries a MAC and nothing enciphered. -/
theorem decodeEv2_clear {card : Card} {data mac : Bytes} (cap : Nat)
    (hchan : card.channel = .ev2 ∨ card.channel = .lrp)
    (hmac : ev2Cmac card 0x00 data = .ok mac)
    (hmode : card.mode = .mac ∨ card.mode = .enc ∧ data = []) :
    decodeEv2 (data ++ mac) cap card = (copyOutput cap data, card) := by
  have hlen := ev2Cmac_length hmac
  have hmacLen : macLength card = 8 := by
    rcases hchan with h | h <;> rw [macLength, h]
  have hclear : card.mode = .mac ∨ (data ++ mac).length - 8 < aesBlock := by
    rcases hmode with hm | ⟨-, rfl⟩
    · exact .inl hm
    · refine .inr ?_
      rw [List.nil_append, hlen]
      decide
  have hread : ¬ (card.mode ≠ .mac ∧ card.mode ≠ .enc ∧
      card.mode ≠ .encPadded) := by
    rcases hmode with hm | ⟨hm, -⟩
    · exact fun h => h.1 hm
    · exact fun h => h.2.1 hm
  have hfits : ¬ (data ++ mac).length < 8 := by
    rw [List.length_append, hlen]
    omega
  simp only [decodeEv2, hmacLen, Bytes.take_tail hlen, Bytes.drop_tail hlen,
    hmac, if_neg hread, if_neg hfits, ne_eq, not_true_eq_false, if_false,
    if_pos hclear]

theorem given_decoded (hinv : DecryptInverts c) {data : Bytes} (cap : Nat)
    {card : Card} (hchan : card.channel = .ev2 ∨ card.channel = .lrp)
    (hmode : card.mode = .plain ∨ card.mode = .mac ∨ card.mode = .enc)
    (hfits : data.length ≤ answerMax) :
    ∃ sealed card', gives card.onLrp card.peer card.mode.sends data =
        (sealed, card'.peer) ∧ sealed.length ≤ maxResponse ∧
      decodeEv2 sealed cap card = (copyOutput cap data, card') := by
  have hmax : data.length + 8 ≤ maxResponse := by
    rw [answerMax] at hfits
    rw [maxResponse]
    omega
  obtain ⟨mac, hmac, hlen⟩ := ev2Cmac_isOk card 0x00 data
  have hgives : ∀ enc, enc = false →
      peerAnswers card.onLrp card.peer enc data =
        (data ++ mac, card.peer) := by
    rintro enc rfl
    simp only [peerAnswers, Bool.false_eq_true, if_false, peerMac_eq hmac]
  have hsize : (data ++ mac).length ≤ maxResponse := by
    rw [List.length_append, hlen]
    exact hmax
  rcases hmode with hm | hm | hm
  · rw [hm]
    refine ⟨data, card, rfl, by omega, ?_⟩
    rw [decodeEv2, if_pos (by rw [hm]; decide)]
  · rw [hm]
    exact ⟨data ++ mac, card, hgives false rfl, hsize,
      decodeEv2_clear cap hchan hmac (.inl hm)⟩
  · by_cases hne : data = []
    · rw [hm]
      exact ⟨data ++ mac, card, hgives _ (by rw [hne]; rfl), hsize,
        decodeEv2_clear cap hchan hmac (.inr ⟨hm, hne⟩)⟩
    · have hpad : (Bytes.pad aesBlock data).length + 8 ≤ maxResponse := by
        rw [length_pad_blocks, aesBlock, maxResponse]
        rw [answerMax] at hfits
        omega
      obtain ⟨frame, card', hframe, hdecode⟩ := @decodeEv2_answered _ hinv
        data data.length card true hchan hm hne (Nat.le_refl _) fun _ => by
          omega
      have hsealed : frame.length = (Bytes.pad aesBlock data).length + 8 := by
        have hlen := length_peerAnswers hinv card true data
        rw [hframe] at hlen
        exact hlen
      refine ⟨frame, card', ?_, by omega, decodeEv2_copies hdecode cap⟩
      have hfull : (!data.isEmpty) = true := by
        cases data with
        | nil => exact absurd rfl hne
        | cons => rfl
      rw [hm, Mode.sends, gives, hfull]
      exact hframe

/-! ## One exchange -/

theorem meets_exchange {P : Type} {party : P → Frame → Answer × P}
    {req : Request} {card card₁ card₂ card' : Card} {p p' : P} {said : Said}
    {frame raw : Bytes} {status : UInt8} {r : Except Err Bytes}
    (hreq : exchangeRequest req.cmd req.data req.txMode req.rxMode card =
      (.ok frame, card₁))
    (hraw : Meets party (rawExchange req.cmd frame maxResponse) card₁ p said
      (.ok (status, raw)) card₂ p')
    (hans : exchangeAnswer req.rxMode req.cap status raw card₂ =
      (r, card')) :
    ∃ said, Meets party req.exchanged card p said r card' p' := by
  have hopen : Meets party (Prog.act
      (exchangeRequest req.cmd req.data req.txMode req.rxMode)) card p []
      (.ok frame) card₁ p := by
    have h : Meets party _ card p _ _ _ _ :=
      meets_act (exchangeRequest req.cmd req.data req.txMode req.rxMode) card p
    rwa [hreq] at h
  have hclose : Meets party (Prog.act
      (exchangeAnswer req.rxMode req.cap status raw)) card₂ p' [] r card'
      p' := by
    have h : Meets party _ card₂ p' _ _ _ _ :=
      meets_act (exchangeAnswer req.rxMode req.cap status raw) card₂ p'
    rwa [hans] at h
  exact ⟨_, meets_bind hopen (meets_bind hraw hclose)⟩

/-- What is left of an exchange the card did not refuse is the decoder. -/
theorem exchangeAnswer_decodes {status : UInt8}
    (hkept : statusEndsSession status = false)
    (hfinal : status ≠ dfSAdditionalFrame) (mode : Mode) (cap : Nat)
    (raw : Bytes) (card : Card) :
    exchangeAnswer mode cap status raw card =
      channelDecode raw status cap { card.answering with mode := mode } := by
  simp only [exchangeAnswer, Card.answering, hkept, Bool.false_eq_true,
    if_false, ne_eq, hfinal, not_false_eq_true, true_and]

/-- The answer the card gives is the one the library takes out of it, and both
go on from one session. -/
theorem exchangeAnswer_given (hinv : DecryptInverts c) {lrp : Bool}
    {card : Card} (hin : InSession lrp card) {rxMode : Mode}
    (hrx : rxMode = .plain ∨ rxMode = .mac ∨ rxMode = .enc) {data : Bytes}
    (hfits : data.length ≤ answerMax) :
    ∃ sealed s, gives lrp card.peer.counted rxMode.sends data =
        (sealed, s) ∧ sealed.length ≤ maxResponse ∧
      ∀ status last cap, statusEndsSession status = false →
        status ≠ dfSAdditionalFrame →
        ∃ card', exchangeAnswer rxMode cap status sealed
            { card with lastStatus := last } =
              (copyOutput cap data, card') ∧
          card'.peer = s ∧ card'.cmdset = card.cmdset ∧
          InSession lrp card' := by
  have hev2 := inSession_channel hin
  have hgiven : ∀ last cap, ∃ sealed card',
      gives lrp card.peer.counted rxMode.sends data =
        (sealed, card'.peer) ∧ sealed.length ≤ maxResponse ∧
      decodeEv2 sealed cap { card with
        lastStatus := last
        cmdCtr := card.cmdCtr + 1
        mode := rxMode } = (copyOutput cap data, card') := by
    intro last cap
    rw [← inSession_onLrp hin]
    exact @given_decoded _ hinv data cap { card with
      lastStatus := last
      cmdCtr := card.cmdCtr + 1
      mode := rxMode } hev2 hrx hfits
  obtain ⟨sealed, card₁, hgives, hsize, -⟩ := hgiven 0 0
  refine ⟨sealed, card₁.peer, hgives, hsize, ?_⟩
  intro status last cap hkept hfinal
  obtain ⟨sealed', card', hgives', -, hdecode⟩ := hgiven last cap
  obtain ⟨rfl, hpeer⟩ := Prod.mk.inj (hgives.symm.trans hgives')
  have hcount := @answering_inSession lrp { card with lastStatus := last }
    ⟨hin.1, hin.2, hin.3⟩
  obtain ⟨iv, mismatch, hrest⟩ := decodeEv2_frame sealed cap
    { card with
      lastStatus := last
      cmdCtr := card.cmdCtr + 1
      mode := rxMode }
  rw [hdecode] at hrest
  refine ⟨card', ?_, hpeer.symm, ?_, ?_⟩
  · rw [exchangeAnswer_decodes hkept hfinal, hcount, ← hdecode]
    rcases hev2 with h | h <;> simp only [channelDecode, h]
  · rw [show card' = _ from hrest]
  · rw [show card' = _ from hrest]
    exact ⟨hin.1, hin.2, hin.3⟩

/-- After a card error an answer is copied as it is. -/
theorem exchangeAnswer_lost {card : Card} (hlost : LostSession card)
    (mode : Mode) (cap : Nat) (status : UInt8) (data : Bytes)
    (hfinal : status ≠ dfSAdditionalFrame) :
    ∃ card', exchangeAnswer mode cap status data card =
        (if statusEndsSession status = true then .error .card
          else copyOutput cap data, card') ∧
      card'.cmdset = card.cmdset ∧ LostSession card' := by
  obtain ⟨hauth, hchan, hlost⟩ := hlost
  by_cases hend : statusEndsSession status = true
  · refine ⟨card, ?_, rfl, hauth, hchan, hlost⟩
    rw [exchangeAnswer, if_pos hend, if_pos hend, hauth,
      if_neg Bool.false_ne_true]
  · refine ⟨{ card with mode := mode }, ?_, rfl, hauth, hchan, hlost⟩
    rw [exchangeAnswer_decodes (Bool.eq_false_iff.mpr hend) hfinal,
      Card.answering, if_neg fun h => Bool.false_ne_true
        (hauth.symm.trans h.1), if_neg hend]
    simp only [channelDecode, hchan]

theorem causal_exchanged (req : Request) : req.exchanged.Causal :=
  Prog.causal_bind (Prog.causal_act _) fun _ =>
    Prog.causal_bind (causal_rawExchangeEx _ _ _ _) fun _ =>
      Prog.causal_act _

section

variable {A : Type} (applet : Applet A)
  (cut : Option Shared × A → Bytes → List Part)
  (joined_cut : ∀ s data, joined (cut s data) = data)

theorem exchange_live (hinv : DecryptInverts c) {lrp : Bool} {card : Card}
    (phase : Transfer) {a : A} {req : Request} (hin : InSession lrp card)
    (hspeaks : applet.Speaks (true, a) req) :
    ∃ said card' p', Meets (applet.onAir cut joined_cut lrp card.cmdset)
        req.exchanged card (phase, some card.peer, a) said
        (applet.service (true, a) req).1 card' p' ∧
      Together lrp card.cmdset card' p' (applet.service (true, a) req).2 := by
  obtain ⟨hcmd, hroom, hrx, hcomm, hlength⟩ := hspeaks
  obtain ⟨frame, card₁, hreq, htakes, hlen, ⟨tail, hframe⟩, hset₁, hin₁⟩ :=
    exchangeRequest_taken hinv hin hroom
  obtain ⟨⟨rest, hhead⟩, rest', hpiece⟩ := clear_prefix hframe
  have hmodes := hcomm rfl
  have hmode : applet.comm a req.cmd frame =
      (req.txMode.sends, req.rxMode.sends) := by rw [hhead]; exact hmodes rest
  have hexpects : (applet.carrier cut joined_cut).expects
      (some card.peer, a) req.cmd (frame.take txFrameMax) = frame.length := by
    have hfirst : applet.comm a req.cmd (req.clear ++ rest') =
        (req.txMode.sends, req.rxMode.sends) := hmodes rest'
    have hsize : applet.length a req.cmd (req.clear ++ rest') =
        req.data.length := hlength rest'
    simp only [Applet.carrier, hpiece, hfirst, hsize, hlen]
  rw [← hset₁]
  rcases hout : applet.run true a req.cmd req.data with
    ⟨⟨status, data, hfinal, hfits⟩, a'⟩
  by_cases hend : statusEndsSession status = true
  · -- the card ends the session with its answer, the handle with reading it
    have hrun : applet.secured lrp (some card.peer, a) req.cmd frame =
        ((status, []), none, a') := by
      simp only [Applet.secured, hmode, htakes, hout, hend, if_true]
    obtain ⟨said, hraw⟩ := @rawExchange_carried _ _ _ card₁ _ _ maxResponse
      phase _ _ _ _ hcmd hexpects hrun hfinal (Nat.zero_le _)
    have hans : exchangeAnswer req.rxMode req.cap status []
        { card₁ with lastStatus := status } = (.error .card,
          { resetChannel { card₁ with lastStatus := status } with
            sessionLost := true }) := by
      rw [exchangeAnswer, if_pos hend, if_pos hin₁.authenticated]
    have hservice : applet.service (true, a) req =
        (.error .card, false, a') := by
      simp only [Applet.service, hout, hend, Bool.true_eq_false, false_and,
        if_false, if_true]
    obtain ⟨said', hmeets⟩ := meets_exchange hreq hraw hans
    rw [hservice]
    exact ⟨said', _, _, hmeets, .lost rfl ⟨rfl, rfl, rfl⟩⟩
  · -- both count the command, and the answer is decoded where it was made
    have hkept : statusEndsSession status = false := Bool.eq_false_iff.mpr hend
    obtain ⟨sealed, s, hgives, hsize, hdecode⟩ :=
      exchangeAnswer_given hinv hin₁ hrx hfits
    obtain ⟨card', hans, hpeer, hset, hin'⟩ :=
      hdecode status status req.cap hkept hfinal
    have hrun : applet.secured lrp (some card.peer, a) req.cmd frame =
        ((status, sealed), some s, a') := by
      simp only [Applet.secured, hmode, htakes, hout, hkept, hgives,
        Bool.false_eq_true, if_false]
    obtain ⟨said, hraw⟩ := @rawExchange_carried _ _ _ card₁ _ _ maxResponse
      phase _ _ _ _ hcmd hexpects hrun hfinal hsize
    have hservice : applet.service (true, a) req =
        (copyOutput req.cap data, true, a') := by
      simp only [Applet.service, hout, hkept, Bool.true_eq_false, false_and,
        if_false, Bool.false_eq_true]
    obtain ⟨said', hmeets⟩ := meets_exchange hreq hraw hans
    rw [hservice]
    refine ⟨said', _, _, hmeets, ?_⟩
    rw [← hpeer]
    exact .live hset hin'

/-- After a card error the library sends nothing but what needs no session,
and the card answers that as it is. -/
theorem exchange_lost {lrp : Bool} {card : Card} (phase : Transfer) {a : A}
    {req : Request} (hlost : LostSession card)
    (hspeaks : applet.Speaks (false, a) req) :
    ∃ said card' p', Meets (applet.onAir cut joined_cut lrp card.cmdset)
        req.exchanged card (phase, none, a) said
        (applet.service (false, a) req).1 card' p' ∧
      Together lrp card.cmdset card' p' (applet.service (false, a) req).2 := by
  obtain ⟨hcmd, hroom, -, -, hlength⟩ := hspeaks
  have hroom' : req.data.length ≤ maxResponse := hroom
  by_cases hsecured : req.txMode ≠ .plain ∨ req.rxMode ≠ .plain
  · have hservice : applet.service (false, a) req =
        (.error .auth, false, a) := by
      simp only [Applet.service, hsecured, and_self, if_true]
    have hreq : exchangeRequest req.cmd req.data req.txMode req.rxMode card =
        (.error .auth, { card with
          mode := req.txMode, macMismatch := false }) := by
      rw [exchangeRequest, if_pos ⟨hlost.lost, hsecured⟩]
    rw [hservice]
    refine ⟨[], { card with mode := req.txMode, macMismatch := false },
      (phase, none, a), ⟨fun rest => ?_, rfl⟩,
      .lost rfl ⟨hlost.1, hlost.2, hlost.3⟩⟩
    rw [Request.exchanged, exchange, Prog.act_bind, hreq]
    rfl
  · have hplain : req.txMode = .plain := not_not.mp fun h => hsecured (.inl h)
    have hreq : exchangeRequest req.cmd req.data req.txMode req.rxMode card =
        (.ok req.data, card.noting req) := by
      rw [exchangeRequest, if_neg fun h => hsecured h.2]
      simp only [channelEncode, hlost.channel, copyOutput_eq hroom',
        Card.noting]
    have hexpects : (applet.carrier cut joined_cut).expects
        ((none : Option Shared), a) req.cmd (req.data.take txFrameMax) =
          req.data.length := by
      have hclear : req.clear = req.data.take txFrameMax := by
        rw [Request.clear, hplain]
        rfl
      have h := hlength []
      rw [List.append_nil, hclear] at h
      exact h
    rcases hout : applet.run false a req.cmd req.data with
      ⟨⟨status, data, hfinal, hfits⟩, a'⟩
    have hrun : applet.secured lrp ((none : Option Shared), a) req.cmd
        req.data = ((status, data), none, a') := by
      simp only [Applet.secured, hout]
    obtain ⟨said, hraw⟩ := @rawExchange_carried _ _ _ (card.noting req) _ _
      maxResponse phase _ _ _ _ hcmd hexpects hrun hfinal
      (Nat.le_trans hfits (by decide))
    obtain ⟨card', hans, hset, hlost'⟩ := @exchangeAnswer_lost _
      { card.noting req with lastStatus := status }
      ⟨hlost.1, hlost.2, hlost.3⟩ req.rxMode req.cap status data hfinal
    obtain ⟨said', hmeets⟩ := meets_exchange hreq hraw hans
    have hservice : applet.service (false, a) req =
        (if statusEndsSession status = true then .error .card
          else copyOutput req.cap data, false, a') := by
      simp only [Applet.service, hsecured, hout, and_false, if_false]
      split <;> rfl
    rw [hservice]
    exact ⟨said', _, _, hmeets, .lost hset hlost'⟩

/-- An exchange is one step of the service, and handle and card go on being
in step. -/
theorem exchange_refines (hinv : DecryptInverts c) (lrp : Bool)
    (cmdset : CmdSet) :
    Refines (applet.onAir cut joined_cut lrp cmdset) Request.exchanged
      applet.service applet.Speaks (Together lrp cmdset) := by
  intro card p t req hrel hspeaks
  cases hrel with
  | live hset hin =>
      rw [← hset]
      exact exchange_live applet cut joined_cut hinv _ hin hspeaks
  | lost hset hlost =>
      rw [← hset]
      exact exchange_lost applet cut joined_cut _ hlost hspeaks

/-- Whatever exchanges a caller makes in an EV2 or LRP session, it sees the
applet: every run has the results of the service, and there is one. -/
theorem session_transparent (hinv : DecryptInverts c) {lrp : Bool}
    {card : Card} (hin : InSession lrp card) (phase : Transfer) {a : A}
    {reqs : List Request}
    (hspeaks : applet.service.Admits applet.Speaks (true, a) reqs) :
    (∃ card' p', Calls (applet.onAir cut joined_cut lrp card.cmdset)
      Request.exchanged card (phase, some card.peer, a) reqs
      (applet.service.answers (true, a) reqs).1 card' p') ∧
    ∀ results card' p', Calls (applet.onAir cut joined_cut lrp card.cmdset)
        Request.exchanged card (phase, some card.peer, a) reqs results card'
        p' →
      results = (applet.service.answers (true, a) reqs).1 ∧
        Together lrp card.cmdset card' p'
          (applet.service.answers (true, a) reqs).2 := by
  have hrefines := exchange_refines applet cut joined_cut hinv lrp card.cmdset
  have hstart : Together lrp card.cmdset card (phase, some card.peer, a)
      (true, a) := .live rfl hin
  constructor
  · obtain ⟨card', p', hrun, -⟩ := hrefines.run hstart hspeaks
    exact ⟨card', p', hrun⟩
  · intro results card' p' hrun
    exact hrefines.every_run causal_exchanged hstart hspeaks hrun

end

end

/-- An applet that counts its commands and gives up after two. -/
def turns : Applet Nat where
  comm _ _ _ := (.full, .full)
  length _ _ _ := 3
  run _ n _ data :=
    if n < 2 then
      (⟨dfSOk, (data.take 3).reverse, by decide, by
        rw [List.length_reverse, List.length_take, answerMax]
        omega⟩, n + 1)
    else (⟨dfSIllegalCommand, [], by decide, Nat.zero_le _⟩, n)

/-- An answer in frames of one byte. -/
def byteParts (data : Bytes) : List Part :=
  data.map fun b => ⟨[b], Nat.le_of_ble_eq_true rfl⟩

theorem joined_byteParts (data : Bytes) : joined (byteParts data) = data := by
  induction data with
  | nil => rfl
  | cons b rest ih => exact congrArg (b :: ·) ih

/-- Three enciphered bytes. -/
def turnsRequest : Request := ⟨0x51, [1, 2, 3], .enc, .enc, 8⟩

theorem turns_speaks (t : Bool × Nat) : turns.Speaks t turnsRequest where
  opcode := by decide
  room := by
    obtain ⟨live, n⟩ := t
    cases live
    · exact Nat.le_of_ble_eq_true rfl
    · exact Nat.le_of_ble_eq_true rfl
  answer := .inr (.inr rfl)
  comm _ _ := rfl
  length _ := rfl

/-- Two answers, a card error, and nothing more is sent. -/
theorem session_transparent_turns :
    ∃ card' p', @Calls _ _ _ _ _ _ _ (@Applet.onAir .identity _ turns
        (fun _ => byteParts) (fun _ => joined_byteParts) false .native)
      (@Request.exchanged .identity) liveEv2 (.idle, some liveEv2.peer, 0)
      (List.replicate 4 turnsRequest)
      [.ok [3, 2, 1], .ok [3, 2, 1], .error .card, .error .auth] card' p' :=
  (@session_transparent .identity _ turns (fun _ => byteParts)
    (fun _ => joined_byteParts) decryptInverts_identity false liveEv2
    ⟨rfl, rfl, rfl⟩ .idle 0 (List.replicate 4 turnsRequest)
    ⟨turns_speaks _, turns_speaks _, turns_speaks _, turns_speaks _,
      trivial⟩).1

end Nxpsc
