import Nxpsc.Ref.Api

/-!
# Keys on the wire

A key is in the clear on the wire when what goes out depends on it. Two calls
that differ in the bytes of a key, run against the same answers, tell whether
it does.
-/

namespace Nxpsc

open Dialogue

/-- The octets a run puts on the wire, frame by frame. -/
def wire {α : Type} (o : Outcome Card Frame Answer Err α) : List Bytes :=
  o.queries.map Frame.bytes

/-- Two keys that may differ in their bytes. -/
def SameForm : Option Key → Option Key → Prop
  | some key, some other =>
      key.type = other.type ∧ key.version = other.version
  | none, none => True
  | _, _ => False

/-- Two calls with a key in the payload that may differ in its bytes, and in
nothing else. -/
inductive SameButKey : Call → Call → Prop where
  | changeKey {keyNo : UInt8} {old old' new new' : Option Key}
      (hold : SameForm old old') (hnew : SameForm new new') :
      SameButKey (.changeKey keyNo old new) (.changeKey keyNo old' new')
  | changeKeyEv2 {keySet keyNo : UInt8} {old old' new new' : Option Key}
      (hold : SameForm old old') (hnew : SameForm new new') :
      SameButKey (.changeKeyEv2 keySet keyNo old new)
        (.changeKeyEv2 keySet keyNo old' new')
  | setDefaultKey {key key' : Key} (hkey : SameForm (some key) (some key')) :
      SameButKey (.data (.setDefaultKey key)) (.data (.setDefaultKey key'))
  | createTransactionMacFile {fileNo : UInt8} {comm : CommMode}
      {access : Access} {key key' : Key} {version : UInt8}
      (hkey : SameForm (some key) (some key')) :
      SameButKey
        (.data (.createTransactionMacFile fileNo comm access key version))
        (.data (.createTransactionMacFile fileNo comm access key' version))
  | createMfcMapping {data data' : Bytes} (hlen : data.length = data'.length) :
      SameButKey (.data (.createMfcMapping data))
        (.data (.createMfcMapping data'))

/-- A call that asks for enciphering where there is no session to do it, and
is neither refused for its arguments nor for the session that was lost. -/
def SendsKeyPlain (call : Call) (card : Card) : Prop :=
  card.sessionLost = false ∧
    match call with
    | .data (.createTransactionMacFile _ _ _ tmKey _) => tmKey.type = .aes128
    | .data (.createMfcMapping data) => 0 < data.length ∧ data.length ≤ 64
    | _ => False

end Nxpsc
