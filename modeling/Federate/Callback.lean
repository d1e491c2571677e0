/-
Callbacks with the values of their fields, and their envelopes. A callback is
decoded only from the number of its kind and exactly the payload that its
fields make up.
-/
import Federate.Callback.Kind
import Federate.Packet.Message
namespace Federate

/-- A callback. -/
structure Callback where
  kind : Callback.Kind
  fields : kind.layout.Record

namespace Callback

instance : DecidableEq Callback := fun a b =>
  match a, b with
  | ⟨k, r⟩, ⟨k', r'⟩ =>
    if h : k = k' then by
      subst h
      exact decidable_of_iff (r = r') (by simp)
    else isFalse fun he => h (congrArg kind he)

/-- The callback on the wire. -/
def encode (c : Callback) : Envelope := ⟨c.kind.code, c.kind.layout.write c.fields⟩

/-- The callback of an envelope, its times in the settled family. -/
def decode (e : Envelope) (settled : Option TimeFamily) : Except Fault Callback :=
  match Kind.ofCode? e.tag with
  | none => .error (.couldNotDecode s!"unknown callback tag {e.tag}")
  | some kind =>
    match (kind.read settled).run e.payload with
    | (.error fault, _) => .error fault
    | (.ok fields, rest) =>
      if rest.isEmpty then .ok { kind, fields }
      else .error (.couldNotDecode (s!"{rest.length} trailing bytes after " ++ kind.name))

/-- The notice that the connection is lost. -/
def connectionLost (reason : String) : Callback := ⟨.connectionLost, (reason, ())⟩

end Callback

end Federate
