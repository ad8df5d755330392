import Nxpsc.Proofs.PlusVerdict

/-!
# How far the IVs of a MIFARE Plus session reach

The IV of enciphered data is made of the TI and of the low byte of a counter
of sixteen bits. Within a session it tells two commands apart unless a
multiple of 256 commands have advanced the counter between them; the MACs,
which take both bytes, go on to differ.
-/

namespace Nxpsc

open Dialogue

/-! ## The counters, command after command -/

/-- The handle is in the same session, so many commands of each direction
on. -/
structure PlusAt (card : Card) (n : Bool → Nat) (card' : Card) : Prop where
  authenticated : card'.authenticated = true
  ti : card'.ti = card.ti
  ctr : ∀ read, card'.plusCtr read = card.plusCtr read + UInt16.ofNat (n read)

theorem PlusAt.zero {card : Card} (hauth : card.authenticated = true) :
    PlusAt card (fun _ => 0) card :=
  ⟨hauth, rfl, fun _ => (UInt16.add_zero _).symm⟩

theorem PlusAt.trans {a b c : Card} {n m : Bool → Nat} (h : PlusAt a n b)
    (h' : PlusAt b m c) : PlusAt a (fun read => n read + m read) c where
  authenticated := h'.authenticated
  ti := h'.ti.trans h.ti
  ctr read := by
    rw [h'.ctr, h.ctr, UInt16.ofNat_add, UInt16.add_assoc]

/-- What one command adds to a counter. -/
def advance (st : ApiStep) (read : Bool) : Nat :=
  if advances read st then 1 else 0

/-- A write counts in its own direction, when it succeeds. -/
theorem advances_write {st : ApiStep} (h : st.call.plusWrites = true)
    (read : Bool) : advances read st = (!read && st.result.isOk) := by
  obtain ⟨call, card, said, r, card'⟩ := st
  cases read with
  | false =>
      simp only [advances, Bool.false_eq_true, if_false, Bool.not_false,
        Bool.true_and] at h ⊢
      rw [h, Bool.true_and]
  | true => cases call <;> first | rfl | cases h

/-- A command that adds nothing to the counters. -/
theorem plusAt_still (status : UInt8) {st : ApiStep}
    (hauth : st.before.authenticated = true)
    (hnone : ∀ read, advances read st = false)
    (hafter : st.after = { st.before with lastStatus := status }) :
    PlusAt st.before (advance st) st.after := by
  rw [hafter]
  refine ⟨hauth, rfl, fun read => ?_⟩
  rw [advance, hnone]
  exact (UInt16.add_zero _).symm

theorem plusAnswer_cases (a : Answer) (card : Card) :
    (∃ rx, (plusAnswer maxResponse a card).1 = .ok rx ∧
      rx.headD 0 = 0x90) ∨
    ∃ e, e ≠ .crypto ∧ (plusAnswer maxResponse a card).1 = .error e := by
  cases a with
  | error e => exact .inr ⟨.transport, by decide, rfl⟩
  | ok rx =>
      simp only [plusAnswer]
      split
      · exact .inr ⟨.length, by decide, rfl⟩
      split
      · exact .inr ⟨.card, by decide, rfl⟩
      · next hst => exact .inl ⟨_, rfl, not_not.mp hst⟩

section

variable [BlockCipher]

theorem plusAt_write {st : ApiStep} (hof : st.Of Call.run)
    (hauth : st.before.authenticated = true)
    (hcall : st.call.plusWrites = true) :
    PlusAt st.before (advance st) st.after := by
  have hadv := advances_write hcall
  obtain ⟨call, card, said, r, card'⟩ := st
  obtain ⟨script, rest, hrun⟩ := hof
  dsimp only at hrun hauth hcall hadv
  rcases plusWrites_run hauth hcall with ⟨_, _, _, -, -, hrefused⟩ |
    ⟨frame, hsend⟩
  · rw [hrefused] at hrun
    cases hrun
    exact plusAt_still card.lastStatus hauth
      (fun read => (hadv read).trans (Bool.and_false _)) rfl
  rw [hsend] at hrun
  obtain ⟨a, -, -, rfl, rfl⟩ := (plusSend_once frame).done_iff.mp hrun
  rcases plusSent_cases a card with ⟨rx, status, -, -, hsent⟩ |
    ⟨e, status, -, hsent⟩
  · rw [hsent] at hadv ⊢
    refine ⟨hauth, rfl, fun read => ?_⟩
    rw [advance, hadv]
    cases read with
    | true => exact (UInt16.add_zero _).symm
    | false => rfl
  · rw [hsent] at hadv ⊢
    exact plusAt_still _ hauth
      (fun read => (hadv read).trans (Bool.and_false _)) rfl

/-- A read adds one to its counter or nothing, and its error tells which. -/
theorem plusRead_counts {card card' : Card} (hauth : card.authenticated = true)
    {block : UInt16} {count : UInt8} {encrypted maced : Bool} {cap : Nat}
    {script rest : List Answer} {said : Said} {r : Except Err Bytes}
    (h : plusRead block count encrypted maced cap card script =
      .done said r card' rest) :
    (∃ e status, e ≠ .crypto ∧ r = .error e ∧
      card' = { card with lastStatus := status }) ∨
    ∃ status mismatch, (r = .error .crypto ∨ ∃ out, r = .ok out) ∧
      card' = { card with
        lastStatus := status
        macMismatch := mismatch
        plusRCtr := card.plusRCtr + 1 } := by
  by_cases hcount : count = 0
  · rw [plusRead, if_pos hcount] at h
    cases h
    exact .inl ⟨.param, card.lastStatus, by decide, rfl, rfl⟩
  by_cases hcap : cap < 16 * count.toNat
  · rw [plusRead_refused hauth block encrypted maced hcount hcap] at h
    cases h
    exact .inl ⟨.length, card.lastStatus, by decide, rfl, rfl⟩
  obtain ⟨tx, hread⟩ := plusRead_run hauth block encrypted maced hcount
    (Nat.le_of_not_lt hcap)
  rw [hread] at h
  obtain ⟨a, -, -, rfl, rfl⟩ := ((plusTransceive_once tx maxResponse).bind_act
    (plusReadAnswer block count encrypted maced)).done_iff.mp h
  obtain ⟨status, hcard⟩ := plusAnswer_card maxResponse a card
  rcases plusAnswer_cases a card with ⟨rx, hans, hst⟩ | ⟨e, he, hans⟩
  · simp only [Prog.andThen, hans, hcard]
    by_cases hlen : 1 + 16 * count.toNat + (if maced then 8 else 0) ≤
        rx.length
    · rw [@plusReadAnswer_long _ { card with lastStatus := status }
        hauth block _ encrypted _ _ hcount hst hlen]
      refine .inr ⟨status, _, ?_, rfl⟩
      split
      · exact .inl rfl
      · exact .inr ⟨_, rfl⟩
    · rw [plusReadAnswer_short block encrypted hcount (Nat.lt_of_not_le hlen)]
      exact .inl ⟨.length, status, by decide, rfl, rfl⟩
  · simp only [Prog.andThen, hans, hcard]
    exact .inl ⟨e, status, he, rfl, rfl⟩

theorem plusAt_read {st : ApiStep} (hof : st.Of Call.run)
    (hauth : st.before.authenticated = true) {block : UInt16} {count : UInt8}
    {encrypted maced : Bool} {cap : Nat}
    (hcall : st.call = .plusRead block count encrypted maced cap) :
    PlusAt st.before (advance st) st.after := by
  obtain ⟨call, card, said, r, card'⟩ := st
  obtain ⟨script, rest, hrun⟩ := hof
  dsimp only at hrun hauth hcall
  subst hcall
  obtain ⟨r, hread, rfl⟩ := Prog.ignore_eq_done.mp hrun
  rcases plusRead_counts hauth hread with ⟨e, status, he, rfl, hcard⟩ |
    ⟨status, mismatch, hr, rfl⟩
  · refine plusAt_still _ hauth (fun read => ?_) hcard
    cases read with
    | false => rfl
    | true => cases e <;> first | rfl | exact absurd rfl he
  · refine ⟨hauth, rfl, fun read => ?_⟩
    cases read with
    | false => exact (UInt16.add_zero _).symm
    | true =>
        rcases hr with rfl | ⟨out, rfl⟩
        · rfl
        · rfl

theorem plusAt_step {st : ApiStep} (hof : st.Of Call.run)
    (hauth : st.before.authenticated = true)
    (hcall : st.call.inPlusSession = true) :
    PlusAt st.before (advance st) st.after := by
  cases hkind : st.call with
  | plusRead block count encrypted maced cap =>
      exact plusAt_read hof hauth hkind
  | _ =>
      rw [hkind] at hcall
      exact plusAt_write hof hauth (by rw [hkind]; exact hcall)

/-- Where a command stands in a run of the session. -/
theorem plusAt_run {card card' : Card} {steps : List ApiStep}
    (hrun : ApiRun card steps card') :
    card.authenticated = true →
    (∀ st ∈ steps, st.call.inPlusSession = true) →
    ∀ {i : Nat} {st : ApiStep}, steps[i]? = some st →
      PlusAt card (fun read => (steps.take i).countP (advances read))
        st.before := by
  induction hrun with
  | nil =>
      intro _ _ i st hst
      rw [List.getElem?_nil] at hst
      cases hst
  | cons hof hrest ih =>
      rename_i first rest s
      intro hauth hin i st hst
      have hone := plusAt_step hof hauth (hin first (.head _))
      cases i with
      | zero =>
          rw [List.getElem?_cons_zero] at hst
          cases hst
          exact .zero hauth
      | succ i =>
          rw [List.getElem?_cons_succ] at hst
          have hih := ih hone.authenticated
            (fun st hmem => hin st (.tail _ hmem)) hst
          have hsum := hone.trans hih
          refine ⟨hsum.authenticated, hsum.ti, fun read => ?_⟩
          rw [hsum.ctr, List.take_succ_cons, List.countP_cons, advance,
            Nat.add_comm]

end

/-! ## The IVs -/

/-- With one TI the IVs of a direction differ where the low bytes of its
counter do. -/
theorem plusDataIv_eq_iff {a b : Card} (hti : a.ti = b.ti) (read : Bool) :
    plusDataIv a read = plusDataIv b read ↔
      (a.plusCtr read).toUInt8 = (b.plusCtr read).toUInt8 := by
  cases read with
  | true =>
      simp only [plusDataIv, Card.plusCtr, hti, if_true, List.cons_append,
        List.nil_append, List.cons.injEq, and_true, true_and, and_self]
  | false =>
      simp only [plusDataIv, Card.plusCtr, hti, Bool.false_eq_true, if_false,
        List.append_cancel_left_eq, List.cons.injEq, and_true, true_and,
        and_self]

theorem low_add_eq_iff (ctr : UInt16) (m n : Nat) :
    (ctr + UInt16.ofNat m).toUInt8 = (ctr + UInt16.ofNat n).toUInt8 ↔
      m % 256 = n % 256 := by
  rw [← UInt8.toNat_inj]
  simp only [UInt16.toNat_toUInt8, UInt16.toNat_add, UInt16.toNat_ofNat']
  omega

theorem countP_take {read : Bool} {steps : List ApiStep} {i j : Nat}
    (hij : i ≤ j) : (steps.take j).countP (advances read) =
      (steps.take i).countP (advances read) +
        advancesBetween read steps i j := by
  have hsplit := List.take_append_drop i (steps.take j)
  rw [List.take_take, Nat.min_eq_left hij] at hsplit
  rw [advancesBetween, ← List.countP_append, hsplit]

/-- The IVs of a direction tell its commands apart unless a multiple of 256
of them lies between two. -/
theorem plus_ivs_differ [BlockCipher] {card card' : Card}
    {steps : List ApiStep} (hauth : card.authenticated = true)
    (hrun : ApiRun card steps card')
    (hin : ∀ st ∈ steps, st.call.inPlusSession = true) (read : Bool) :
    IvsDiffer read steps ↔ ∀ i j st₁ st₂,
      EncipheredPair read steps i j st₁ st₂ →
      advancesBetween read steps i j % 256 ≠ 0 := by
  have hpair : ∀ {i j : Nat} {st₁ st₂ : ApiStep},
      EncipheredPair read steps i j st₁ st₂ →
      (plusDataIv st₁.before read = plusDataIv st₂.before read ↔
        advancesBetween read steps i j % 256 = 0) := by
    intro i j st₁ st₂ h
    have h₁ := plusAt_run hrun hauth hin h.first
    have h₂ := plusAt_run hrun hauth hin h.second
    rw [plusDataIv_eq_iff (h₁.ti.trans h₂.ti.symm), h₁.ctr, h₂.ctr,
      low_add_eq_iff, countP_take (Nat.le_of_lt h.order)]
    omega
  exact forall₄_congr fun i j st₁ st₂ => forall_congr' fun h =>
    not_congr (hpair h)

/-! ### A long session -/

/-- As many enciphered writes as one likes. -/
theorem plusWrite_runs [BlockCipher] (n : Nat) {card : Card}
    (hauth : card.authenticated = true) :
    ∃ steps card', ApiRun card steps card' ∧ steps.length = n ∧
      ∀ st ∈ steps, st.call = .plusWrite 4 (Bytes.zeros 16) true ∧
        st.result = .ok () := by
  induction n generalizing card with
  | zero => exact ⟨[], card, .nil, rfl, fun _ h => (List.not_mem_nil h).elim⟩
  | succ n ih =>
      have hrun : Call.run (.plusWrite 4 (Bytes.zeros 16) true) card
          [.ok [0x90]] = _ :=
        (plusWriteBlock_run hauth mfpWriteEnc 4 true (Bytes.length_zeros 16)
          _).trans ((plusSend_once _).reads card (.ok [0x90]) [])
      obtain ⟨steps, card', hrest, hlen, hall⟩ :=
        @ih (plusSent (.ok [0x90]) card).2 hauth
      refine ⟨_ :: steps, card', Run.cons_done hrun hrest, ?_, ?_⟩
      · rw [List.length_cons, hlen]
      · exact List.forall_mem_cons.mpr ⟨⟨rfl, rfl⟩, hall⟩

theorem plus_ivs_differ_two :
    ∃ (st₁ st₂ : ApiStep) (card' : Card),
      @ApiRun .identity liveEv2 [st₁, st₂] card' ∧
      (IvsDiffer false [st₁, st₂] ↔ ∀ i j st st',
        EncipheredPair false [st₁, st₂] i j st st' →
        advancesBetween false [st₁, st₂] i j % 256 ≠ 0) := by
  obtain ⟨steps, card', hrun, hlen, hall⟩ :=
    @plusWrite_runs .identity 2 liveEv2 rfl
  obtain ⟨st₁, st₂, rfl⟩ := List.length_eq_two.mp hlen
  refine ⟨st₁, st₂, card', hrun,
    @plus_ivs_differ .identity _ _ _ rfl hrun (fun st hst => ?_) false⟩
  rw [(hall st hst).1]
  rfl

/-- The first and the last of 257 writes. -/
theorem plus_iv_repeats :
    ¬ ∀ (_ : BlockCipher) (card card' : Card) (steps : List ApiStep)
      (read : Bool), card.authenticated = true → ApiRun card steps card' →
      (∀ st ∈ steps, st.call.inPlusSession = true ∧ st.result = .ok ()) →
      steps.countP (advances read) < 65536 → IvsDiffer read steps := by
  intro hall
  obtain ⟨steps, card', hrun, hlen, hwrite⟩ :=
    @plusWrite_runs .identity 257 liveEv2 rfl
  have hadv : ∀ st ∈ steps, advances false st = true := by
    intro st hst
    obtain ⟨hcall, hok⟩ := hwrite st hst
    rw [advances_write (by rw [hcall]; rfl), hok]
    rfl
  have hin : ∀ st ∈ steps, st.call.inPlusSession = true := fun st hst => by
    rw [(hwrite st hst).1]
    rfl
  have hi : steps[0]? = some steps[0] := List.getElem?_eq_getElem (by omega)
  have hj : steps[256]? = some steps[256] :=
    List.getElem?_eq_getElem (by omega)
  have hfirst := hwrite steps[0] (List.getElem_mem _)
  have hlast := hwrite steps[256] (List.getElem_mem _)
  refine hall .identity liveEv2 card' steps false rfl hrun
    (fun st hst => ⟨hin st hst, (hwrite st hst).2⟩)
    (Nat.lt_of_le_of_lt List.countP_le_length (by rw [hlen]; decide)) 0 256 _ _
    ⟨by decide, hi, hj, by rw [hfirst.1]; rfl, by rw [hlast.1]; rfl, hfirst.2,
      hlast.2⟩ ?_
  have h₁ := @plusAt_run .identity _ _ _ hrun rfl hin _ _ hi
  have h₂ := @plusAt_run .identity _ _ _ hrun rfl hin _ _ hj
  have hcount : (steps.take 256).countP (advances false) = 256 := by
    rw [List.countP_eq_length.mpr fun st hst =>
      hadv st (List.mem_of_mem_take hst), List.length_take, hlen]
    rfl
  rw [plusDataIv_eq_iff (h₁.ti.trans h₂.ti.symm), h₁.ctr, h₂.ctr,
    low_add_eq_iff, hcount, List.take_zero, List.countP_nil]

end Nxpsc
