/-
Recorders: federates that write down the callbacks they get, each with the
details that matter, and the thread that delivered it. Some callbacks leave
them cold.
-/
import Federate.Client.Delivery
namespace Federate.Rehearsal

/-- What a recorder does besides writing down. -/
structure Recorder where
  /-- The callback that it refuses. -/
  failing : Option String
  /-- The callback at which it breaks off. -/
  panicking : Option String

/-- A line in a record. -/
structure Recorder.Note where
  session : Nat
  callback : String
  details : String
  thread : Thread

namespace Recorder

/-- The states of federates, such as `1=saving,2=waiting`. -/
def statuses (l : List (Handle .federate × String)) : String :=
  String.intercalate "," (l.map fun s => s.1.text ++ "=" ++ s.2)

/-- How many there are. -/
def number (n : Nat) : String := s!" n={n}"

/-- The details of a callback that is written down. -/
def details? : Callback → Option String
  | ⟨.connectionLost, reason, _⟩ => some reason
  | ⟨.synchronizationPointRegistrationSucceeded, label, _⟩ => some label
  | ⟨.announceSynchronizationPoint, label, _⟩ => some label
  | ⟨.federationSynchronized, label, failed, _⟩ => some (label ++ s!" failed={failed.size}")
  | ⟨.initiateFederateSave, label, time, _⟩ =>
    some (label ++ (time.map fun t => "@" ++ t.text).getD "")
  | ⟨.federationSaved, _⟩ => some ""
  | ⟨.federationNotSaved, reason, _⟩ => some reason
  | ⟨.federationSaveStatusResponse, l, _⟩ => some (statuses l)
  | ⟨.requestFederationRestoreSucceeded, label, _⟩ => some label
  | ⟨.requestFederationRestoreFailed, label, _⟩ => some label
  | ⟨.federationRestoreBegun, _⟩ => some ""
  | ⟨.initiateFederateRestore, label, name, _⟩ => some (label ++ " as " ++ name)
  | ⟨.federationRestored, _⟩ => some ""
  | ⟨.federationNotRestored, reason, _⟩ => some reason
  | ⟨.federationRestoreStatusResponse, l, _⟩ => some (statuses l)
  | ⟨.startRegistrationForObjectClass, h, _⟩ => some h.text
  | ⟨.turnInteractionsOn, h, _⟩ => some h.text
  | ⟨.discoverObjectInstance, object, objectClass, name, _⟩ =>
    some (object.text ++ " " ++ objectClass.text ++ " " ++ name)
  | ⟨.reflectAttributeValues, object, values, tag, info, _⟩ =>
    some (object.text ++ number values.size ++ " tag=" ++ Text.quoted tag ++
      (info.time.map fun t => " @" ++ t.text).getD "")
  | ⟨.receiveInteraction, h, parameters, tag, _⟩ =>
    some (h.text ++ number parameters.size ++ " tag=" ++ Text.quoted tag)
  | ⟨.removeObjectInstance, object, _⟩ => some object.text
  | ⟨.provideAttributeValueUpdate, object, attributes, _⟩ =>
    some (object.text ++ number attributes.size)
  | ⟨.timeRegulationEnabled, time, _⟩ => some time.text
  | ⟨.timeConstrainedEnabled, time, _⟩ => some time.text
  | ⟨.timeAdvanceGrant, time, _⟩ => some time.text
  | ⟨.flushQueueGrant, time, optimistic, _⟩ => some (time.text ++ " " ++ optimistic.text)
  | ⟨.federateResigned, reason, _⟩ => some reason
  | _ => none

/-- How a recorder ends with a callback that it has written down. -/
def handling (r : Recorder) (name : String) : Handling :=
  if r.panicking = some name then .panicked (some "handler blew up")
  else if r.failing = some name then
    .failed (.known .federateInternalError (name ++ " refused"))
  else .returned

end Recorder

end Federate.Rehearsal
