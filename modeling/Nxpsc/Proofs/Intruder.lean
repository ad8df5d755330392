import Nxpsc.Proofs.SessionMac

/-!
# Nothing gets past the MACs

An EV2 or LRP session with an intruder on the air. As long as it forges no
MAC, a caller that stops at the first call that fails is never deceived: the
card carries out the commands that were called, in this order and each
once, and what the caller accepts is what the card answered to that command.

`Follows` says where the two can be at all: between two calls, with a request
that the card has not carried out, or with one that it has. In each
of the three the MACs around can be listed, and their counters leave only one
that does anything.
-/

namespace Nxpsc

open Dialogue

section

variable [c : BlockCipher] {A : Type} {applet : Applet A} {lrp : Bool}

/-! ## Where library and card can be -/

/-- A request that is out: the handle that waits for its answer, and what was
done before it. -/
structure Outgoing (A : Type) where
  handle : Card
  req : Request
  frame : Bytes
  before : List Request
  came : List (Except Err Bytes)
  state : A

section

variable (applet) (lrp) (a₀ : A) (n : Nat)

/-- Between two calls. The card may have closed its session. -/
structure Idle (st : Air A) (a : A) : Prop where
  answers : applet.service.answers (true, a₀) st.called = (st.came, true, a)
  ran : st.ran = st.called.map Request.command
  waits : st.waits = none
  session : InSession lrp st.card
  picc : st.picc.1 = none ∨ st.picc = (some st.card.peer, a)
  quiet : Unspoken (n + 1 - st.called.length) st.card.peer st.maced

/-- The library has made a request, and waits or has given up. -/
structure Out (st : Air A) (o : Outgoing A) : Prop where
  called : st.called = o.before ++ [o.req]
  short : o.before.length + 1 ≤ n
  answers : applet.service.answers (true, a₀) o.before = (o.came, true, o.state)
  speaks : applet.SpeaksMaced (true, o.state) o.req
  session : InSession lrp o.handle
  comm : applet.comm o.state o.req.cmd o.frame =
    (o.req.txMode.sends, o.req.rxMode.sends)
  maced : o.handle.peer.Maced lrp o.req.cmd o.frame
  waits : st.waits = some (o.req, o.frame) ∧ st.card = o.handle ∧
      st.came = o.came ∨
    st.waits = none ∧ ∃ e, st.came = o.came ++ [.error e]

/-- A MAC with a counter still to come is that of the request. -/
def Outgoing.Heard (o : Outgoing A) (i : Nat) (op : UInt8) (body : Bytes) : Prop :=
  i = 0 ∧ (op = 0x00 ∨ op = o.req.cmd ∧ body = macBody o.frame)

/-- The card has not carried it out. -/
structure Asked (st : Air A) (o : Outgoing A) : Prop extends
    Out applet lrp a₀ n st o where
  ran : st.ran = o.before.map Request.command
  picc : st.picc.1 = none ∨ ∃ iv,
    st.picc = (some { o.handle.peer with iv := iv }, o.state) ∧
    takes lrp { o.handle.peer with iv := iv } o.req.txMode.sends o.req.cmd
      o.frame = some (o.req.data, o.handle.peer)
  quiet : ∀ i op body, i ≤ n + 1 - o.before.length →
    (o.handle.peer.ahead i).macInput op body ∈ st.maced → o.Heard i op body

/-- The card has carried it out, and answered. -/
structure Answered (st : Air A) (o : Outgoing A) (a : A) (data sealed : Bytes)
    (s : Shared) : Prop extends Out applet lrp a₀ n st o where
  ran : st.ran = (o.before ++ [o.req]).map Request.command
  service : applet.service (true, o.state) o.req =
    (copyOutput o.req.cap data, true, a)
  fits : data.length ≤ answerMax
  given : gives lrp o.handle.peer.counted o.req.rxMode.sends data =
    (sealed, s)
  picc : st.picc.1 = none ∨ st.picc = (some s, a)
  quiet : ∀ i op body, i ≤ n + 1 - o.before.length →
    (o.handle.peer.ahead i).macInput op body ∈ st.maced →
    o.Heard i op body ∨ i = 1 ∧ op = 0x00 ∧ body = macBody sealed

/-- In one of the three places. -/
inductive Follows (st : Air A) : Prop where
  | idle {a : A} (h : Idle applet lrp a₀ n st a)
  | asked {o : Outgoing A} (h : Asked applet lrp a₀ n st o)
  | answered {o : Outgoing A} {a : A} {data sealed : Bytes} {s : Shared}
      (h : Answered applet lrp a₀ n st o a data sealed s)

end

variable {a₀ : A} {n : Nat}

/-! ## A frame for the card -/

theorem idle_receive (hguard : applet.Guarded) {st : Air A} {a : A}
    (h : Idle applet lrp a₀ n st a) (cmd : UInt8) (frame : Bytes)
    (hno : ¬ st.Forged lrp (.deliver cmd frame)) :
    Idle applet lrp a₀ n (applet.receive lrp st cmd frame) a := by
  rcases receive_cases hguard st cmd frame with ⟨a', heq⟩ |
    ⟨s, a', payload, s₁, hpicc, hmaced, hcmd, -⟩
  · rw [heq]
    exact { h with picc := .inl rfl }
  · rcases h.picc with hnone | hsome
    · rw [hpicc] at hnone
      cases hnone
    · rw [hpicc] at hsome
      cases hsome
      have hheard := Air.heard
        (fun hun => hno ⟨_, congrArg Prod.fst hpicc, hun⟩) hmaced
      rw [← ahead_zero st.card.peer] at hheard
      exact absurd (h.quiet 0 _ _ (Nat.zero_le _) hheard).1 hcmd

theorem answered_receive (hguard : applet.Guarded) {st : Air A}
    {o : Outgoing A} {a : A} {data sealed : Bytes} {s : Shared}
    (h : Answered applet lrp a₀ n st o a data sealed s) (cmd : UInt8)
    (frame : Bytes) (hno : ¬ st.Forged lrp (.deliver cmd frame)) :
    Answered applet lrp a₀ n (applet.receive lrp st cmd frame) o a data sealed
      s := by
  rcases receive_cases hguard st cmd frame with ⟨a', heq⟩ |
    ⟨t, a', payload, s₁, hpicc, hmaced, hcmd, -⟩
  · rw [heq]
    exact { h with picc := .inl rfl }
  · rcases h.picc with hnone | hsome
    · rw [hpicc] at hnone
      cases hnone
    · rw [hpicc] at hsome
      cases hsome
      have hheard := Air.heard
        (fun hun => hno ⟨_, congrArg Prod.fst hpicc, hun⟩) hmaced
      obtain ⟨-, iv, rfl⟩ :=
        gives_maced (sends_ne_plain h.speaks.received) h.given
      have hahead : Shared.macInput { o.handle.peer.counted with iv := iv } =
          (o.handle.peer.ahead 1).macInput := rfl
      rw [hahead] at hheard
      have hshort := h.short
      rcases h.quiet 1 _ _ (by omega) hheard with hearlier | hanswer
      · exact absurd hearlier.1 (by decide)
      · exact absurd hanswer.2.1 hcmd

/-- The one frame that does anything is the request. -/
theorem asked_receive (hinv : DecryptInverts c) (hguard : applet.Guarded)
    (hn : n < 65535) {st : Air A} {o : Outgoing A} (h : Asked applet lrp a₀ n st o)
    (cmd : UInt8) (frame : Bytes)
    (hno : ¬ st.Forged lrp (.deliver cmd frame)) :
    Follows applet lrp a₀ n (applet.receive lrp st cmd frame) := by
  rcases receive_cases hguard st cmd frame with ⟨a', heq⟩ |
    ⟨t, a', payload, s₁, hpicc, hmaced, hcmd, htakes, hkept, heq⟩
  · rw [heq]
    exact .asked { h with picc := .inl rfl }
  rcases h.picc with hnone | ⟨iv, hsome, htaken⟩
  · rw [hpicc] at hnone
    cases hnone
  rw [hpicc] at hsome
  cases hsome
  have hheard := Air.heard
    (fun hun => hno ⟨_, congrArg Prod.fst hpicc, hun⟩) hmaced
  have hahead : Shared.macInput { o.handle.peer with iv := iv } =
      (o.handle.peer.ahead 0).macInput := by
    rw [ahead_zero]
    rfl
  rw [hahead] at hheard
  -- it has the MAC of the request, so it is the request
  obtain ⟨-, hzero | ⟨rfl, hbody⟩⟩ := h.quiet 0 _ _ (Nat.zero_le _) hheard
  · exact absurd hzero hcmd
  obtain rfl := maced_unique hmaced ((maced_iv lrp _ iv _ _).mpr h.maced) hbody
  rw [h.comm] at htakes
  obtain ⟨rfl, rfl⟩ := Prod.mk.inj (Option.some.inj (htaken.symm.trans htakes))
  rcases hout : applet.run true o.state o.req.cmd o.req.data with
    ⟨⟨status, data, hfinal, hfits⟩, a'⟩
  rw [hout] at hkept
  have hkept' : statusEndsSession status = false := hkept
  obtain ⟨sealed, s, hgiven, -⟩ := exchangeAnswer_given hinv h.session
    h.speaks.answer hfits
  have hdone := receive_taken hpicc h.comm
    (sends_ne_plain h.speaks.received) htaken hout hkept' hgiven
  rw [hdone]
  refine @Follows.answered _ _ _ _ _ _ _ o a' data sealed s { h.toOut with
    ran := ?_
    service := ?_
    fits := hfits
    given := hgiven
    picc := .inr rfl
    quiet := ?_ }
  · rw [h.ran, List.map_append]
    rfl
  · simp only [Applet.service, hout, hkept', Bool.true_eq_false, false_and,
      if_false, Bool.false_eq_true]
  · intro i op body hi hmem
    rcases List.mem_append.mp hmem with hold | hnew
    · exact .inl (h.quiet i op body hi hold)
    · rw [List.mem_singleton, ← ahead_zero o.handle.peer.counted,
        counted_ahead] at hnew
      have hshort := h.short
      obtain ⟨hop, hi, hbody⟩ := ahead_inj rfl rfl (by omega) (by omega) hnew
      exact .inr ⟨hi, hop, hbody⟩

/-! ## A call -/

/-- Calls that come back are as many as were made, but for the one that is
out. -/
def Air.Counted (st : Air A) : Prop :=
  st.called.length = st.came.length + if st.waits = none then 0 else 1

theorem idle_call (hinv : DecryptInverts c) {st : Air A} {a : A}
    (h : Idle applet lrp a₀ n st a) {req : Request}
    (hspeaks : applet.SpeaksMaced (true, a) req)
    (hshort : st.called.length + 1 ≤ n) (hn : n < 65535) :
    ∃ o, Asked applet lrp a₀ n (st.call req) o := by
  obtain ⟨frame, card, hreq, htakes, -, ⟨tail, hframe⟩, -, hin⟩ :=
    exchangeRequest_taken hinv h.session hspeaks.room
  obtain ⟨⟨rest, hhead⟩, -⟩ := clear_prefix hframe
  obtain ⟨hmaced, iv, hpeer⟩ :=
    takes_maced (sends_ne_plain hspeaks.sent) htakes
  have hback : st.card.peer = { card.peer with iv := st.card.peer.iv } := by
    rw [hpeer]
  have hcall : st.call req = { st with
      card := card
      waits := some (req, frame)
      called := st.called ++ [req]
      maced := st.maced ++ [card.peer.macInput req.cmd (macBody frame)] } := by
    simp only [Air.call, hreq, if_neg hspeaks.sent]
  rw [hcall]
  refine ⟨⟨card, req, frame, st.called, st.came, a⟩, {
    called := rfl
    short := hshort
    answers := h.answers
    speaks := hspeaks
    session := hin
    comm := ?_
    maced := ?_
    waits := .inl ⟨rfl, rfl, rfl⟩
    ran := h.ran
    picc := ?_
    quiet := ?_ }⟩
  · rw [hhead]
    exact hspeaks.comm rfl rest
  · rw [hback] at hmaced
    exact hmaced
  · rw [hback] at htakes
    refine h.picc.imp_right fun hpicc => ⟨st.card.peer.iv, ?_, htakes⟩
    rw [hpicc, hback]
  · intro i op body hi hmem
    have hi' : i ≤ n + 1 - st.called.length := hi
    rcases List.mem_append.mp hmem with hold | hnew
    · rw [hpeer] at hold
      obtain ⟨hop, hzero⟩ := h.quiet i op body hi' hold
      exact ⟨hzero, .inl hop⟩
    · have hsame : (card.peer.ahead i).macInput op body =
          (card.peer.ahead 0).macInput req.cmd (macBody frame) := by
        rw [ahead_zero]
        exact List.mem_singleton.mp hnew
      obtain ⟨hop, hzero, hbody⟩ :=
        ahead_inj rfl rfl (by omega) (by decide) hsame
      exact ⟨hzero, .inr ⟨hop, hbody⟩⟩

/-! ## The answer -/

theorem Out.rx {st : Air A} {o : Outgoing A}
    (h : Out applet lrp a₀ n st o) :
    o.req.rxMode = .mac ∨ o.req.rxMode = .enc :=
  h.speaks.answer.resolve_left h.speaks.received

theorem Out.gaveUp {st : Air A} {o : Outgoing A}
    (h : Out applet lrp a₀ n st o) (card : Card) (e : Err)
    (hcame : st.came = o.came) :
    Out applet lrp a₀ n
      { st with
        card := card
        waits := none
        came := st.came ++ [.error e] } o :=
  { h with waits := .inr ⟨rfl, e, by rw [hcame]⟩ }

/-- As long as the card has not answered nothing can be accepted. -/
theorem asked_complete {st : Air A} {o : Outgoing A}
    (h : Asked applet lrp a₀ n st o) {req : Request}
    {frame : Bytes} (hwaits : st.waits = some (req, frame))
    {script rest : List Answer} {said : Said} {r : Except Err Bytes}
    {card : Card}
    (hdone : req.finish frame st.card script = .done said r card rest)
    (hno : ¬ st.Forged lrp (.complete script)) :
    Asked applet lrp a₀ n
      { st with card := card, waits := none, came := st.came ++ [r] } o := by
  rcases h.waits with ⟨hsome, hcard, hcame⟩ | ⟨hnone, -⟩
  · cases hwaits.symm.trans hsome
    cases r with
    | error e => exact { h with toOut := h.toOut.gaveUp card e hcame }
    | ok out =>
        rw [hcard] at hdone
        obtain ⟨said₁, status, raw, last, rest₁, hraw, -, -, -, hmaced⟩ :=
          finish_accepts h.session h.rx hdone
        have hheard : o.handle.peer.counted.macInput 0x00 (macBody raw) ∈
            st.maced := by
          refine Air.heard (fun hun => hno ?_) hmaced
          refine ⟨_, _, _, _, _, _, _, hsome, hcard ▸ hraw, ?_⟩
          rw [hcard]
          exact hun
        have hshort := h.short
        rw [← ahead_zero o.handle.peer.counted, counted_ahead] at hheard
        have := (h.quiet 1 _ _ (by omega) hheard).1
        exact absurd this (by decide)
  · rw [hnone] at hwaits
    cases hwaits

/-- When it has, that answer is what is accepted. -/
theorem answered_complete (hinv : DecryptInverts c) {st : Air A}
    {o : Outgoing A} {a : A} {data sealed : Bytes} {s : Shared}
    (h : Answered applet lrp a₀ n st o a data sealed s) {req : Request}
    {frame : Bytes} (hwaits : st.waits = some (req, frame))
    {script rest : List Answer} {said : Said} {r : Except Err Bytes}
    {card : Card}
    (hdone : req.finish frame st.card script = .done said r card rest)
    (hno : ¬ st.Forged lrp (.complete script)) :
    Follows applet lrp a₀ n
      { st with card := card, waits := none, came := st.came ++ [r] } := by
  rcases h.waits with ⟨hsome, hcard, hcame⟩ | ⟨hnone, -⟩
  · cases hwaits.symm.trans hsome
    cases r with
    | error e =>
        exact .answered { h with toOut := h.toOut.gaveUp card e hcame }
    | ok out =>
        rw [hcard] at hdone
        obtain ⟨said₁, status, raw, last, rest₁, hraw, hkept, hfinal, hans,
          hmaced⟩ := finish_accepts h.session h.rx hdone
        have hheard : o.handle.peer.counted.macInput 0x00 (macBody raw) ∈
            st.maced := by
          refine Air.heard (fun hun => hno ?_) hmaced
          refine ⟨_, _, _, _, _, _, _, hsome, hcard ▸ hraw, ?_⟩
          rw [hcard]
          exact hun
        have hshort := h.short
        rw [← ahead_zero o.handle.peer.counted, counted_ahead] at hheard
        have hsealed := (gives_maced (sends_ne_plain h.speaks.received)
          h.given).1
        obtain rfl : raw = sealed := by
          rcases h.quiet 1 _ _ (by omega) hheard with hearlier | hanswer
          · exact absurd hearlier.1 (by decide)
          · exact maced_unique hmaced hsealed hanswer.2.2
        obtain ⟨sealed', s', hgiven', -, hdecode⟩ :=
          exchangeAnswer_given hinv h.session h.speaks.answer h.fits
        cases h.given.symm.trans hgiven'
        obtain ⟨card', hans', hpeer, -, hin⟩ :=
          hdecode status last o.req.cap hkept hfinal
        obtain ⟨hout, rfl⟩ := Prod.mk.inj (hans.symm.trans hans')
        obtain ⟨-, iv, hs⟩ := gives_maced
          (sends_ne_plain h.speaks.received) h.given
        refine .idle (a := a) {
          answers := ?_
          ran := ?_
          waits := rfl
          session := hin
          picc := ?_
          quiet := ?_ }
        · rw [show st.called = _ from h.called, Service.answers_concat,
            h.answers, h.service, hcame, hout]
        · rw [show st.ran = _ from h.ran, ← h.called]
        · rw [hpeer]
          exact h.picc
        · intro i op body hi hmem
          rw [hpeer, hs] at hmem
          have hmem' : (o.handle.peer.ahead (i + 1)).macInput op body ∈
              st.maced := by
            rw [← counted_ahead]
            exact hmem
          have hlen : st.called.length = o.before.length + 1 := by
            rw [h.called, List.length_append]
            rfl
          have hi' : i ≤ n + 1 - st.called.length := hi
          rcases h.quiet (i + 1) op body (by omega) hmem' with hearlier |
            hanswer
          · exact absurd hearlier.1 (by omega)
          · exact ⟨hanswer.2.1, by omega⟩
  · rw [hnone] at hwaits
    cases hwaits

/-! ## Runs -/

theorem receive_frame (st : Air A) (cmd : UInt8) (frame : Bytes) :
    ∃ picc ran maced, applet.receive lrp st cmd frame =
      { st with picc := picc, ran := ran, maced := maced } := by
  rcases hpicc : st.picc with ⟨_ | s, a⟩
  · simp only [Applet.receive, hpicc]
    exact ⟨_, _, _, rfl⟩
  · cases htakes : takes lrp s (applet.comm a cmd frame).1 cmd frame with
    | none =>
        simp only [Applet.receive, hpicc, htakes]
        exact ⟨_, _, _, rfl⟩
    | some out =>
        simp only [Applet.receive, hpicc, htakes]
        split
        · exact ⟨_, _, _, rfl⟩
        · exact ⟨_, _, _, rfl⟩

theorem Air.counted_call {st : Air A} (h : st.Counted)
    (hwaits : st.waits = none) (req : Request) : (st.call req).Counted := by
  rw [Counted, hwaits, if_pos rfl] at h
  rw [Counted, Air.call]
  split
  · simp only [hwaits, List.length_append, List.length_singleton, if_true]
    omega
  · simp only [reduceCtorEq, List.length_append, List.length_singleton,
      if_false]
    omega

theorem Air.call_grows (st : Air A) (req : Request) :
    (st.call req).called = st.called ++ [req] ∧
      ∃ more, (st.call req).came = st.came ++ more := by
  rw [Air.call]
  split
  · exact ⟨rfl, _, rfl⟩
  · exact ⟨rfl, [], (List.append_nil _).symm⟩

omit c in
/-- What is asked of the caller was asked of it before. -/
theorem Applet.Orderly.back {st st' : Air A} (h : applet.Orderly a₀ n st')
    (hcount : st.Counted) {calls : List Request}
    {results : List (Except Err Bytes)}
    (hcalled : st'.called = st.called ++ calls)
    (hcame : st'.came = st.came ++ results) : applet.Orderly a₀ n st := by
  obtain ⟨hshort, hspeaks, hstops⟩ := h
  rw [hcalled] at hshort hspeaks hstops
  rw [List.length_append] at hshort hstops
  refine ⟨by omega, (Service.admits_append.mp hspeaks).1, ?_⟩
  intro i hi
  obtain ⟨d, hd⟩ := hstops i (by omega)
  rw [Air.Counted] at hcount
  have hin : i < st.came.length := by
    split at hcount
    · omega
    · omega
  rw [hcame, List.getElem?_append_left hin] at hd
  exact ⟨d, hd⟩

theorem Out.length_came {st : Air A} {o : Outgoing A}
    (h : Out applet lrp a₀ n st o) : o.came.length = o.before.length := by
  have hlen := applet.service.length_answers (true, a₀) o.before
  rwa [h.answers] at hlen

/-- A caller that has given up makes no call. -/
theorem Out.no_call {st : Air A} {o : Outgoing A}
    (h : Out applet lrp a₀ n st o) (hwaits : st.waits = none)
    {st' : Air A} {req : Request} {results : List (Except Err Bytes)}
    (hcalled : st'.called = st.called ++ [req])
    (hcame : st'.came = st.came ++ results) :
    ¬ applet.Orderly a₀ n st' := by
  intro horder
  rcases h.waits with ⟨hsome, -⟩ | ⟨-, e, hfailed⟩
  · rw [hsome] at hwaits
    cases hwaits
  · obtain ⟨d, hd⟩ := horder.stops o.before.length (by
      rw [hcalled, h.called]
      simp)
    rw [hcame, hfailed, ← h.length_came, List.append_assoc,
      List.getElem?_append_right (Nat.le_refl _), Nat.sub_self] at hd
    cases hd

/-- An event that forges no MAC keeps a run in one of the three places, as long
as its caller is orderly. -/
theorem air_step (hinv : DecryptInverts c) (hguard : applet.Guarded)
    (hn : n < 65535) {st st' : Air A} {e : AirEvent}
    (hcount : st.Counted)
    (hfollows : applet.Orderly a₀ n st → Follows applet lrp a₀ n st)
    (hstep : applet.air lrp st e = some st') (hno : ¬ st.Forged lrp e) :
    st'.Counted ∧ (applet.Orderly a₀ n st' → Follows applet lrp a₀ n st') := by
  cases e with
  | call req =>
      cases hwaits : st.waits with
      | some _ =>
          simp only [Applet.air, hwaits, reduceCtorEq] at hstep
      | none =>
          simp only [Applet.air, hwaits, Option.some.injEq] at hstep
          obtain ⟨hcalled, more, hcame⟩ := st.call_grows req
          rw [← hstep]
          refine ⟨Air.counted_call hcount hwaits req, fun horder => ?_⟩
          cases hfollows (horder.back hcount hcalled hcame) with
          | idle h =>
              have hspeaks := horder.speaks
              rw [hcalled, Service.admits_append, h.answers] at hspeaks
              have hshort := horder.short
              rw [hcalled, List.length_append, List.length_singleton] at hshort
              obtain ⟨o, hasked⟩ := idle_call hinv h hspeaks.2.1 hshort hn
              exact .asked hasked
          | asked h => exact absurd horder (h.no_call hwaits hcalled hcame)
          | answered h => exact absurd horder (h.no_call hwaits hcalled hcame)
  | deliver cmd frame =>
      have hst : applet.receive lrp st cmd frame = st' := Option.some.inj hstep
      obtain ⟨picc, ran, maced, hframe⟩ :=
        @receive_frame _ _ applet lrp st cmd frame
      rw [← hst]
      constructor
      · rw [hframe]
        exact hcount
      intro horder
      have hback : applet.Orderly a₀ n st := by
        rw [hframe] at horder
        exact ⟨horder.short, horder.speaks, horder.stops⟩
      cases hfollows hback with
      | idle h => exact .idle (idle_receive hguard h cmd frame hno)
      | asked h => exact asked_receive hinv hguard hn h cmd frame hno
      | answered h => exact .answered (answered_receive hguard h cmd frame hno)
  | complete script =>
      cases hwaits : st.waits with
      | none => simp only [Applet.air, hwaits, reduceCtorEq] at hstep
      | some out =>
      obtain ⟨req, frame⟩ := out
      cases hdone : req.finish frame st.card script with
      | waiting said q card =>
          simp only [Applet.air, hwaits, hdone, reduceCtorEq] at hstep
      | done said r card rest =>
      simp only [Applet.air, hwaits, hdone, Option.some.injEq] at hstep
      rw [← hstep]
      constructor
      · rw [Air.Counted, hwaits, if_neg (Option.some_ne_none _)] at hcount
        rw [Air.Counted, if_pos rfl, List.length_append]
        exact hcount
      intro horder
      cases hfollows (horder.back hcount (List.append_nil _).symm rfl) with
      | idle h =>
          rw [h.waits] at hwaits
          cases hwaits
      | asked h => exact .asked (asked_complete h hwaits hdone hno)
      | answered h => exact answered_complete hinv h hwaits hdone hno

/-! ## What the two hold -/

theorem Out.came_ok {st : Air A} {o : Outgoing A}
    (h : Out applet lrp a₀ n st o) {i : Nat} {d : Bytes}
    (hok : st.came[i]? = some (.ok d)) :
    i < o.before.length ∧
      (applet.service.answers (true, a₀) st.called).1[i]? = some (.ok d) := by
  have hlen := h.length_came
  have hbefore : o.came[i]? = some (.ok d) := by
    rcases h.waits with ⟨-, -, hcame⟩ | ⟨-, e, hcame⟩
    · rwa [hcame] at hok
    · rw [hcame] at hok
      by_cases hi : i < o.came.length
      · rwa [List.getElem?_append_left hi] at hok
      · rw [List.getElem?_append_right (Nat.le_of_not_lt hi)] at hok
        cases hk : i - o.came.length with
        | zero =>
            rw [hk] at hok
            cases hok
        | succ k =>
            rw [hk] at hok
            cases hok
  obtain ⟨hi, -⟩ := List.getElem?_eq_some_iff.mp hbefore
  refine ⟨by omega, ?_⟩
  rw [h.called, Service.answers_concat, h.answers]
  rwa [List.getElem?_append_left hi]

theorem Follows.agree {st : Air A} (h : Follows applet lrp a₀ n st) :
    st.ran <+: st.called.map Request.command ∧
      st.called.length ≤ st.ran.length + 1 ∧
      ∀ i d, st.came[i]? = some (.ok d) → i < st.ran.length ∧
        (applet.service.answers (true, a₀) st.called).1[i]? =
          some (.ok d) := by
  cases h with
  | @idle a h =>
      have hlen := applet.service.length_answers (true, a₀) st.called
      rw [h.answers] at hlen
      rw [h.ran, h.answers, List.length_map]
      refine ⟨List.prefix_refl _, Nat.le_succ _, ?_⟩
      intro i d hok
      obtain ⟨hi, -⟩ := List.getElem?_eq_some_iff.mp hok
      exact ⟨hlen ▸ hi, hok⟩
  | @asked o h =>
      rw [h.ran, List.length_map]
      refine ⟨?_, ?_, fun i d hok => h.came_ok hok⟩
      · rw [h.called, List.map_append]
        exact List.prefix_append _ _
      · rw [h.called, List.length_append]
        exact Nat.le_refl _
  | @answered o a data sealed s h =>
      rw [h.ran, ← h.called, List.length_map]
      refine ⟨List.prefix_refl _, Nat.le_succ _, ?_⟩
      intro i d hok
      obtain ⟨hi, hans⟩ := h.came_ok hok
      have hlen : st.called.length = o.before.length + 1 := by
        rw [h.called, List.length_append]
        rfl
      exact ⟨by omega, hans⟩

/-- Unless a MAC is forged: the card has carried out the calls from the first
one on, in their order and unchanged, all but perhaps the last; and a call
that succeeded has the answer of the card to it. -/
theorem intruder_deceives_nobody (hinv : DecryptInverts c)
    (hguard : applet.Guarded) (hn : n < 65535) {st₀ st : Air A}
    (hbegins : st₀.Begins lrp n a₀) {events : List AirEvent}
    (hrun : Machine.run (applet.air lrp) st₀ events = some st)
    (horder : applet.Orderly a₀ n st) :
    Machine.Occurs (applet.air lrp) (Air.Forged lrp) st₀ events ∨
      st.ran <+: st.called.map Request.command ∧
      st.called.length ≤ st.ran.length + 1 ∧
      ∀ i d, st.came[i]? = some (.ok d) → i < st.ran.length ∧
        (applet.service.answers (true, a₀) st.called).1[i]? =
          some (.ok d) := by
  have hcount : st₀.Counted := by
    rw [Air.Counted, hbegins.called, hbegins.came, hbegins.waits]
    rfl
  have hidle : Idle applet lrp a₀ n st₀ a₀ := {
    answers := by rw [hbegins.called, hbegins.came]; rfl
    ran := by rw [hbegins.called, hbegins.ran]; rfl
    waits := hbegins.waits
    session := hbegins.session
    picc := .inr hbegins.picc
    quiet := by rw [hbegins.called]; exact hbegins.quiet }
  have hend := Machine.run_keeps
    (I := fun st => st.Counted ∧
      (applet.Orderly a₀ n st → Follows applet lrp a₀ n st))
    (fun st e st' h hstep hno => air_step hinv hguard hn h.1 h.2 hstep hno)
    ⟨hcount, fun _ => .idle hidle⟩ hrun
  exact hend.imp_right fun h => (h.2 horder).agree

end

deriving instance DecidableEq for Request

/-- The request is given to the card twice. -/
def replayed : List AirEvent :=
  [.call (opcodeRequest 0x51),
    .deliver 0x51 [0x00, 0x00, 0x00, 0x80, 0x00, 0x00, 0x00, 0x00],
    .deliver 0x51 [0x00, 0x00, 0x00, 0x80, 0x00, 0x00, 0x00, 0x00],
    .complete
      [.ok [0x00, 0x51, 0x01, 0x00, 0x00, 0x51, 0x00, 0x00, 0x00, 0x00]]]

theorem replayed_run : ∃ st,
    Machine.run (@Applet.air .identity _ opcodes false) opcodeStart replayed =
      some st ∧
    st.called = [opcodeRequest 0x51] ∧
    st.came.map Except.toOption = [some [0x51]] ∧ st.ran = [(0x51, [])] := by
  have h : (Machine.run (@Applet.air .identity _ opcodes false) opcodeStart
      replayed).map
        (fun st => (st.called, st.came.map Except.toOption, st.ran)) =
      some ([opcodeRequest 0x51], [some [0x51]], [(0x51, [])]) := by
    decide +kernel
  obtain ⟨st, hst, heq⟩ := Option.map_eq_some_iff.mp h
  simp only [Prod.mk.injEq] at heq
  exact ⟨st, hst, heq⟩

theorem intruder_deceives_nobody_replay : ∃ st,
    Machine.run (@Applet.air .identity _ opcodes false) opcodeStart replayed =
      some st ∧
    (Machine.Occurs (@Applet.air .identity _ opcodes false)
        (@Air.Forged .identity _ false) opcodeStart replayed ∨
      st.ran <+: st.called.map Request.command ∧
      st.called.length ≤ st.ran.length + 1 ∧
      ∀ i d, st.came[i]? = some (.ok d) → i < st.ran.length ∧
        (opcodes.service.answers (true, ()) st.called).1[i]? =
          some (.ok d)) := by
  obtain ⟨st, hrun, hcalled, -⟩ := replayed_run
  refine ⟨st, hrun, @intruder_deceives_nobody .identity _ opcodes false () 1
    decryptInverts_identity opcodes_guarded (by decide) _ _
    (opcodeStart_begins 1) _ hrun ⟨?_, ?_, ?_⟩⟩
  · rw [hcalled]
    exact Nat.le_refl _
  · rw [hcalled]
    exact ⟨opcodes_speaks (by decide) (by decide) _, trivial⟩
  · intro i hi
    rw [hcalled] at hi
    exact absurd hi (by simp)

end Nxpsc
