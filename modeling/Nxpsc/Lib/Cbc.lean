import Mathlib.Data.List.Basic

/-!
# Cipher block chaining

Chaining turns a function on blocks into one on strings of blocks. A sender
mixes each block with the previous output and applies its primitive; a
receiver applies its own primitive and mixes with the previous input. Both
hand on the last transmitted block, which is what a later message continues
from when a protocol carries one chain across several messages.

Blocks are of any type `B`. The primitives are only ever used on the blocks
`Ok` holds of, so a carrier that also has values of the wrong size needs no
subtype.
-/

namespace Cbc

variable {B : Type}

/-- The sending direction: the transmitted blocks and the last of them, the
initial value when there are none. -/
def send (f : B → B) (mix : B → B → B) (iv : B) : List B → List B × B
  | [] => ([], iv)
  | p :: rest =>
      let c := f (mix p iv)
      (c :: (send f mix c rest).1, (send f mix c rest).2)

/-- The receiving direction: the recovered blocks and the last one received. -/
def receive (g : B → B) (mix : B → B → B) (iv : B) : List B → List B × B
  | [] => ([], iv)
  | c :: rest =>
      (mix (g c) iv :: (receive g mix c rest).1, (receive g mix c rest).2)

variable {f g : B → B} {mix : B → B → B}

@[simp] theorem length_send (iv : B) (ps : List B) :
    (send f mix iv ps).1.length = ps.length := by
  induction ps generalizing iv with
  | nil => rfl
  | cons p rest ih => simp [send, ih]

@[simp] theorem length_receive (iv : B) (cs : List B) :
    (receive g mix iv cs).1.length = cs.length := by
  induction cs generalizing iv with
  | nil => rfl
  | cons c rest ih => simp [receive, ih]

theorem send_last (iv : B) (ps : List B) :
    (send f mix iv ps).2 = (send f mix iv ps).1.getLastD iv := by
  induction ps generalizing iv with
  | nil => rfl
  | cons p rest ih => simp only [send, List.getLastD_cons, ih]

/-- Every transmitted block is one the primitive's blocks allow. -/
theorem send_ok {Ok : B → Prop} (hf : ∀ b, Ok b → Ok (f b))
    (hmix : ∀ a b, Ok a → Ok b → Ok (mix a b)) :
    ∀ {iv : B} {ps : List B}, Ok iv → (∀ p ∈ ps, Ok p) →
      (∀ c ∈ (send f mix iv ps).1, Ok c) ∧ Ok (send f mix iv ps).2 := by
  intro iv ps
  induction ps generalizing iv with
  | nil => exact fun hiv _ => ⟨fun c hc => (List.not_mem_nil hc).elim, hiv⟩
  | cons p rest ih =>
      intro hiv hps
      have hc : Ok (f (mix p iv)) := hf _ (hmix _ _ (hps p (by simp)) hiv)
      obtain ⟨hrest, hlast⟩ := ih hc fun x hx => hps x (by simp [hx])
      refine ⟨fun c hmem => ?_, hlast⟩
      rcases List.mem_cons.mp hmem with rfl | hmem
      · exact hc
      · exact hrest c hmem

theorem receive_ok {Ok : B → Prop} (hg : ∀ b, Ok b → Ok (g b))
    (hmix : ∀ a b, Ok a → Ok b → Ok (mix a b)) :
    ∀ {iv : B} {cs : List B}, Ok iv → (∀ c ∈ cs, Ok c) →
      (∀ p ∈ (receive g mix iv cs).1, Ok p) ∧ Ok (receive g mix iv cs).2 := by
  intro iv cs
  induction cs generalizing iv with
  | nil => exact fun hiv _ => ⟨fun p hp => (List.not_mem_nil hp).elim, hiv⟩
  | cons c rest ih =>
      intro hiv hcs
      have hc : Ok c := hcs c (by simp)
      obtain ⟨hrest, hlast⟩ := ih hc fun x hx => hcs x (by simp [hx])
      refine ⟨fun p hmem => ?_, hlast⟩
      rcases List.mem_cons.mp hmem with rfl | hmem
      · exact hmix _ _ (hg _ hc) hiv
      · exact hrest p hmem

/-- A receiver whose primitive undoes the sender's recovers the message, from
the same initial value, and both end on the same block. -/
theorem receive_send {Ok : B → Prop} (hf : ∀ b, Ok b → Ok (f b))
    (hmix : ∀ a b, Ok a → Ok b → Ok (mix a b))
    (hundo : ∀ b, Ok b → g (f b) = b)
    (hcancel : ∀ a b, Ok a → Ok b → mix (mix a b) b = a) :
    ∀ {iv : B} {ps : List B}, Ok iv → (∀ p ∈ ps, Ok p) →
      receive g mix iv (send f mix iv ps).1 = (ps, (send f mix iv ps).2) := by
  intro iv ps
  induction ps generalizing iv with
  | nil => intro _ _; rfl
  | cons p rest ih =>
      intro hiv hps
      have hp : Ok p := hps p (by simp)
      have hx : Ok (mix p iv) := hmix _ _ hp hiv
      have hrest := ih (hf _ hx) fun x hx => hps x (by simp [hx])
      simp only [send, receive, hrest, hundo _ hx, hcancel _ _ hp hiv]

/-! ## A chain in pieces -/

/-- What comes later continues from the last block. -/
theorem send_append (iv : B) (ps qs : List B) :
    send f mix iv (ps ++ qs) =
      ((send f mix iv ps).1 ++ (send f mix (send f mix iv ps).2 qs).1,
        (send f mix (send f mix iv ps).2 qs).2) := by
  induction ps generalizing iv with
  | nil => rfl
  | cons p rest ih => simp only [List.cons_append, send, ih]

theorem receive_append (iv : B) (cs ds : List B) :
    receive g mix iv (cs ++ ds) =
      ((receive g mix iv cs).1 ++ (receive g mix (receive g mix iv cs).2 ds).1,
        (receive g mix (receive g mix iv cs).2 ds).2) := by
  induction cs generalizing iv with
  | nil => rfl
  | cons c rest ih => simp only [List.cons_append, receive, ih]

end Cbc
