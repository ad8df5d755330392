import Nxpsc.Proofs.SessionMac

/-!
# Calling on after an answer was lost

A call that fails on the way leaves the counter of the handle where it was,
so the next request has the counter of the one before it, and an
answer to the one is an answer to the other. This is why `Orderly` asks the
caller to stop.
-/

namespace Nxpsc

open Dialogue

/-- To every request there is a script with any final answer to it. -/
theorem rawExchange_served (card : Card) {cmd : UInt8} (frame : Bytes)
    {status : UInt8} {raw : Bytes} (hcmd : cmd ≠ dfAdditionalFrame)
    (hfinal : status ≠ dfSAdditionalFrame) (hraw : raw.length ≤ maxResponse) :
    ∃ script said, rawExchange cmd frame maxResponse card script =
      .done said (.ok (status, raw)) { card with lastStatus := status } [] := by
  obtain ⟨said, hmeets⟩ := @rawExchange_carried Unit
    ⟨fun _ _ _ => frame.length, fun _ => byteParts, fun _ => joined_byteParts⟩
    (fun _ _ _ => ((status, raw), ())) card cmd frame maxResponse .idle () ()
    status raw hcmd rfl rfl hfinal hraw
  exact ⟨_, said, hmeets.run []⟩

/-- A request that nothing comes back to fails with the transport's error, and
the handle is as it was. -/
theorem rawExchange_unanswered (card : Card) (cmd : UInt8) (frame : Bytes) :
    ∃ said, rawExchange cmd frame maxResponse card [.error .transport] =
      .done said (.error .transport) card [] := by
  obtain ⟨q, hq, -⟩ := pending_request ⟨cmd, frame⟩ card
  have hsend : sendRequest cmd frame maxResponse card [.error .transport] =
      .done [(q, .error .transport)] (.error .transport) card [] :=
    Prog.converse_fail [] hq (react_fault rfl)
  exact ⟨_, Prog.bind_error hsend⟩

section

variable [c : BlockCipher] {A : Type} {applet : Applet A} {lrp : Bool}

/-! ## One answer for two requests -/

/-- An answer in the clear has nothing of its request in it but the counter, so
it serves every handle of the session that has the same one. -/
theorem answer_interchangeable (hinv : DecryptInverts c) {card₁ card₂ : Card}
    (hin₁ : InSession lrp card₁) (hin₂ : InSession lrp card₂) {s : Shared}
    {iv₁ iv₂ : Bytes} (hpeer₁ : card₁.peer = { s with iv := iv₁ })
    (hpeer₂ : card₂.peer = { s with iv := iv₂ }) {data : Bytes}
    (hfits : data.length ≤ answerMax) :
    ∃ sealed s', gives lrp card₁.peer.counted .mac data = (sealed, s') ∧
      sealed.length ≤ maxResponse ∧
      ∀ status last cap, statusEndsSession status = false →
        status ≠ dfSAdditionalFrame →
        ∃ card', exchangeAnswer .mac cap status sealed
          { card₂ with lastStatus := last } = (copyOutput cap data, card') := by
  obtain ⟨sealed, s', hgiven, hsize, -⟩ :=
    exchangeAnswer_given hinv hin₁ (.inr (.inl rfl)) hfits
  obtain ⟨sealed', s'', hgiven', -, hdecode⟩ :=
    exchangeAnswer_given hinv hin₂ (.inr (.inl rfl)) hfits
  have hsame : sealed = sealed' := by
    rw [hpeer₁] at hgiven
    rw [hpeer₂] at hgiven'
    exact (congrArg Prod.fst hgiven).symm.trans (congrArg Prod.fst hgiven')
  refine ⟨sealed, s', hgiven, hsize, ?_⟩
  intro status last cap hkept hfinal
  obtain ⟨card', hanswer, -⟩ := hdecode status last cap hkept hfinal
  rw [hsame]
  exact ⟨card', hanswer⟩

/-! ## The events -/

theorem air_call {st : Air A} {req : Request} {frame : Bytes} {card : Card}
    (hwaits : st.waits = none) (hsent : req.txMode ≠ .plain)
    (hreq : exchangeRequest req.cmd req.data req.txMode req.rxMode st.card =
      (.ok frame, card)) :
    applet.air lrp st (.call req) = some { st with
      card := card
      waits := some (req, frame)
      called := st.called ++ [req]
      maced := st.maced ++ [card.peer.macInput req.cmd (macBody frame)] } := by
  simp only [Applet.air, hwaits, Air.call, hreq, if_neg hsent]

theorem air_complete {st : Air A} {req : Request} {frame : Bytes}
    {card : Card} {script rest : List Answer} {said : Said}
    {r : Except Err Bytes} (hwaits : st.waits = some (req, frame))
    (hdone : req.finish frame st.card script = .done said r card rest) :
    applet.air lrp st (.complete script) = some { st with
      card := card
      waits := none
      came := st.came ++ [r] } := by
  simp only [Applet.air, hwaits, hdone]

/-- The card carries out a request, and its answer does not get through. -/
theorem answer_lost {st : Air A} {req : Request} {frame sealed : Bytes}
    {card : Card} {s s' : Shared} {a a' : A} {answer : AppletAnswer}
    (hwaits : st.waits = none) (hpicc : st.picc = (some s, a))
    (hsent : req.txMode ≠ .plain) (hreceived : req.rxMode ≠ .plain)
    (hreq : exchangeRequest req.cmd req.data req.txMode req.rxMode st.card =
      (.ok frame, card))
    (hcomm : applet.comm a req.cmd frame =
      (req.txMode.sends, req.rxMode.sends))
    (htakes : takes lrp s req.txMode.sends req.cmd frame =
      some (req.data, card.peer))
    (hrun : applet.run true a req.cmd req.data = (answer, a'))
    (hkept : statusEndsSession answer.status = false)
    (hgiven : gives lrp card.peer.counted req.rxMode.sends answer.data =
      (sealed, s')) :
    ∃ events st',
      Machine.Avoids (applet.air lrp) (Air.Forged lrp) st events st' ∧
      st'.card = card ∧ st'.waits = none ∧
      card.peer.counted.macInput 0x00 (macBody sealed) ∈ st'.maced ∧
      st'.called = st.called ++ [req] ∧ st'.ran = st.ran ++ [req.command] ∧
      st'.came = st.came ++ [.error .transport] := by
  obtain ⟨said, hlost⟩ := rawExchange_unanswered card req.cmd frame
  obtain ⟨-, iv, hpeer⟩ := takes_maced (sends_ne_plain hsent) htakes
  have hfinish : req.finish frame card [.error .transport] =
      .done said (.error .transport) card [] := Prog.bind_error hlost
  refine ⟨[.call req, .deliver req.cmd frame, .complete [.error .transport]],
    { st with
      card := card
      waits := none
      picc := (some s', a')
      called := st.called ++ [req]
      ran := st.ran ++ [req.command]
      came := st.came ++ [.error .transport]
      maced := st.maced ++ [card.peer.macInput req.cmd (macBody frame)] ++
        [card.peer.counted.macInput 0x00 (macBody sealed)] },
    ?_, rfl, rfl, List.mem_append_right _ (List.mem_singleton.mpr rfl), rfl,
    rfl, rfl⟩
  refine Machine.Avoids.cons ?_ (air_call hwaits hsent hreq) id
  refine Machine.Avoids.cons ?_ (congrArg some (receive_taken hpicc hcomm
    (sends_ne_plain hreceived) htakes hrun hkept hgiven)) ?_
  · refine Machine.Avoids.cons Machine.avoids_nil (air_complete rfl hfinish) ?_
    rintro ⟨req', frame', said', status, raw, card', rest, hw, hraw, -⟩
    cases hw
    cases hlost.symm.trans hraw
  · -- the frame that is delivered is the one that was MACed
    rintro ⟨t, ht, -, hun⟩
    obtain rfl : s = t :=
      Option.some.inj ((congrArg Prod.fst hpicc).symm.trans ht)
    refine hun (List.mem_append_right _ (List.mem_singleton.mpr ?_))
    rw [hpeer]
    rfl

/-- An answer that is there already is given to the library. -/
theorem answer_replayed {st : Air A} {req : Request} {frame sealed out : Bytes}
    {card card₁ card' : Card} {status : UInt8} {script : List Answer}
    {said : Said} (hwaits : st.waits = none) (hsent : req.txMode ≠ .plain)
    (hreq : exchangeRequest req.cmd req.data req.txMode req.rxMode st.card =
      (.ok frame, card))
    (hserved : rawExchange req.cmd frame maxResponse card script =
      .done said (.ok (status, sealed)) card₁ [])
    (hanswer : exchangeAnswer req.rxMode req.cap status sealed card₁ =
      (.ok out, card'))
    (hheard : card.peer.counted.macInput 0x00 (macBody sealed) ∈ st.maced) :
    ∃ events st',
      Machine.Avoids (applet.air lrp) (Air.Forged lrp) st events st' ∧
      st'.called = st.called ++ [req] ∧ st'.ran = st.ran ∧
      st'.came = st.came ++ [.ok out] := by
  have hfinish : req.finish frame card script =
      .done (said ++ []) (.ok out) card' [] := by
    rw [Request.finish, Prog.bind_ok hserved, Prog.act_run, hanswer]
    rfl
  refine ⟨[.call req, .complete script],
    { st with
      card := card'
      waits := none
      called := st.called ++ [req]
      came := st.came ++ [.ok out]
      maced := st.maced ++ [card.peer.macInput req.cmd (macBody frame)] },
    ?_, rfl, rfl, rfl⟩
  refine Machine.Avoids.cons ?_ (air_call hwaits hsent hreq) id
  refine Machine.Avoids.cons Machine.avoids_nil (air_complete rfl hfinish) ?_
  rintro ⟨req', frame', said', status, raw, card₂, rest, hw, hraw, -, hun⟩
  cases hw
  cases hserved.symm.trans hraw
  exact hun (List.mem_append_left _ hheard)

/-- The answer to a request that was lost is taken for the answer to the next
one, with no MAC forged. The card never sees that one. -/
theorem lost_answer_taken (hinv : DecryptInverts c) {a₀ : A} {n : Nat}
    {st₀ : Air A} (hbegins : st₀.Begins lrp n a₀) {first next : Request}
    (hspeaks : applet.service.Admits applet.SpeaksMaced (true, a₀)
      [first, next])
    (hmac₁ : first.rxMode = .mac) (hmac₂ : next.rxMode = .mac)
    (hkept : statusEndsSession
      (applet.run true a₀ first.cmd first.data).1.status = false)
    (hcap : (applet.run true a₀ first.cmd first.data).1.data.length ≤
      next.cap) :
    ∃ events st, Machine.run (applet.air lrp) st₀ events = some st ∧
      ¬ Machine.Occurs (applet.air lrp) (Air.Forged lrp) st₀ events ∧
      st.called = [first, next] ∧ st.ran = [first.command] ∧
      st.came = [.error .transport,
        .ok (applet.run true a₀ first.cmd first.data).1.data] := by
  have hin := hbegins.session
  rcases hout : applet.run true a₀ first.cmd first.data with
    ⟨⟨status, data, hfinal, hfits⟩, a₁⟩
  rw [hout] at hkept hcap
  obtain ⟨hfirst, hnext, -⟩ := hspeaks
  have hservice : (applet.service (true, a₀) first).2 = (true, a₁) := by
    have hkept' : statusEndsSession status = false := hkept
    simp only [Applet.service, hout, hkept', Bool.true_eq_false, false_and,
      if_false, Bool.false_eq_true]
  rw [hservice] at hnext
  -- the two requests, with one counter
  obtain ⟨frame₁, card₁, hreq₁, htakes₁, -, ⟨tail, hframe₁⟩, -, hin₁⟩ :=
    exchangeRequest_taken hinv hin hfirst.room
  obtain ⟨frame₂, card₂, hreq₂, htakes₂, -, -, -, hin₂⟩ :=
    exchangeRequest_taken hinv hin₁ hnext.room
  obtain ⟨-, iv₁, hpeer₁⟩ := takes_maced (sends_ne_plain hfirst.sent) htakes₁
  obtain ⟨-, iv₂, hpeer₂⟩ := takes_maced (sends_ne_plain hnext.sent) htakes₂
  rw [hpeer₁] at hpeer₂
  obtain ⟨⟨rest, hhead⟩, -⟩ := clear_prefix hframe₁
  have hcomm : applet.comm a₀ first.cmd frame₁ =
      (first.txMode.sends, first.rxMode.sends) := by
    rw [hhead]
    exact hfirst.comm rfl rest
  -- the answer to the first is one to the second
  obtain ⟨sealed, s, hgiven, hsize, hdecode⟩ :=
    answer_interchangeable hinv hin₁ hin₂ hpeer₁ hpeer₂ hfits
  obtain ⟨script, said, hserved⟩ :=
    rawExchange_served card₂ frame₂ hnext.opcode hfinal hsize
  obtain ⟨card₃, hanswer⟩ := hdecode status status next.cap hkept hfinal
  rw [copyOutput_eq hcap, ← hmac₂] at hanswer
  have hgiven' : gives lrp card₁.peer.counted first.rxMode.sends data =
      (sealed, s) := by
    rw [hmac₁]
    exact hgiven
  obtain ⟨before, st₁, hlost, rfl, hwaits, hheard, hcalled, hran, hcame⟩ :=
    answer_lost hbegins.waits hbegins.picc hfirst.sent hfirst.received hreq₁
      hcomm htakes₁ hout hkept hgiven'
  have hnextHeard : card₂.peer.counted.macInput 0x00 (macBody sealed) ∈
      st₁.maced := by
    rw [hpeer₁] at hheard
    rw [hpeer₂]
    exact hheard
  obtain ⟨after, st₂, hreplayed, hcalled', hran', hcame'⟩ :=
    answer_replayed hwaits hnext.sent hreq₂ hserved hanswer hnextHeard
  obtain ⟨hrun, hhonest⟩ := hlost.append hreplayed
  refine ⟨before ++ after, st₂, hrun, hhonest, ?_, ?_, ?_⟩
  · rw [hcalled', hcalled, hbegins.called]
    rfl
  · rw [hran', hran, hbegins.ran]
    rfl
  · rw [hcame', hcame, hbegins.came]
    rfl

end

/-- The second call is told the opcode of the first. -/
theorem lost_answer_taken_opcode :
    ∃ events st,
      Machine.run (@Applet.air .identity _ opcodes false) opcodeStart events =
        some st ∧
      ¬ Machine.Occurs (@Applet.air .identity _ opcodes false)
        (@Air.Forged .identity _ false) opcodeStart events ∧
      st.called = [opcodeRequest 0x51, opcodeRequest 0x52] ∧
      st.ran = [(0x51, [])] ∧ st.came = [.error .transport, .ok [0x51]] :=
  @lost_answer_taken .identity _ opcodes false decryptInverts_identity () 2
    opcodeStart (opcodeStart_begins 2) (opcodeRequest 0x51)
    (opcodeRequest 0x52)
    ⟨opcodes_speaks (by decide) (by decide) _,
      opcodes_speaks (by decide) (by decide) _, trivial⟩
    rfl rfl rfl (Nat.le_of_ble_eq_true rfl)

end Nxpsc
