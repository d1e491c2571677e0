/-
The callbacks that a coordinator makes on a federate: the number, the name on
the wire, the handler and the fields of each kind, and how the fields are read.
No two kinds share a number (`ofCode?_code`).
-/
import Federate.Payload.Shape
namespace Federate

/-- The kinds of callback. -/
inductive Callback.Kind where
  | connectionLost
  | synchronizationPointRegistrationSucceeded
  | synchronizationPointRegistrationFailed
  | announceSynchronizationPoint
  | federationSynchronized
  | initiateFederateSave
  | federationSaved
  | federationNotSaved
  | federationSaveStatusResponse
  | requestFederationRestoreSucceeded
  | requestFederationRestoreFailed
  | federationRestoreBegun
  | initiateFederateRestore
  | federationRestored
  | federationNotRestored
  | federationRestoreStatusResponse
  | startRegistrationForObjectClass
  | stopRegistrationForObjectClass
  | turnInteractionsOn
  | turnInteractionsOff
  | objectInstanceNameReservationSucceeded
  | objectInstanceNameReservationFailed
  | discoverObjectInstance
  | reflectAttributeValues
  | receiveInteraction
  | removeObjectInstance
  | attributesInScope
  | attributesOutOfScope
  | provideAttributeValueUpdate
  | turnUpdatesOnForObjectInstance
  | turnUpdatesOffForObjectInstance
  | requestAttributeOwnershipAssumption
  | attributeOwnershipAcquisitionNotification
  | attributeOwnershipUnavailable
  | requestAttributeOwnershipRelease
  | informAttributeOwnership
  | attributeIsNotOwned
  | attributeIsOwnedByRti
  | timeRegulationEnabled
  | timeConstrainedEnabled
  | timeAdvanceGrant
  | flushQueueGrant
  | requestRetraction
  | federateResigned
  deriving DecidableEq, Repr

namespace Callback.Kind

/-- The number that stands for a kind. -/
def code : Kind → UInt16
  | .connectionLost => 1
  | .synchronizationPointRegistrationSucceeded => 10
  | .synchronizationPointRegistrationFailed => 11
  | .announceSynchronizationPoint => 12
  | .federationSynchronized => 13
  | .initiateFederateSave => 20
  | .federationSaved => 21
  | .federationNotSaved => 22
  | .federationSaveStatusResponse => 23
  | .requestFederationRestoreSucceeded => 24
  | .requestFederationRestoreFailed => 25
  | .federationRestoreBegun => 26
  | .initiateFederateRestore => 27
  | .federationRestored => 28
  | .federationNotRestored => 29
  | .federationRestoreStatusResponse => 30
  | .startRegistrationForObjectClass => 40
  | .stopRegistrationForObjectClass => 41
  | .turnInteractionsOn => 42
  | .turnInteractionsOff => 43
  | .objectInstanceNameReservationSucceeded => 44
  | .objectInstanceNameReservationFailed => 45
  | .discoverObjectInstance => 50
  | .reflectAttributeValues => 51
  | .receiveInteraction => 52
  | .removeObjectInstance => 53
  | .attributesInScope => 54
  | .attributesOutOfScope => 55
  | .provideAttributeValueUpdate => 56
  | .turnUpdatesOnForObjectInstance => 57
  | .turnUpdatesOffForObjectInstance => 58
  | .requestAttributeOwnershipAssumption => 70
  | .attributeOwnershipAcquisitionNotification => 71
  | .attributeOwnershipUnavailable => 72
  | .requestAttributeOwnershipRelease => 73
  | .informAttributeOwnership => 74
  | .attributeIsNotOwned => 75
  | .attributeIsOwnedByRti => 76
  | .timeRegulationEnabled => 80
  | .timeConstrainedEnabled => 81
  | .timeAdvanceGrant => 82
  | .flushQueueGrant => 83
  | .requestRetraction => 84
  | .federateResigned => 90

/-- The name of a kind on the wire. -/
def name : Kind → String
  | .connectionLost => "connectionLost"
  | .synchronizationPointRegistrationSucceeded => "synchronizationPointRegistrationSucceeded"
  | .synchronizationPointRegistrationFailed => "synchronizationPointRegistrationFailed"
  | .announceSynchronizationPoint => "announceSynchronizationPoint"
  | .federationSynchronized => "federationSynchronized"
  | .initiateFederateSave => "initiateFederateSave"
  | .federationSaved => "federationSaved"
  | .federationNotSaved => "federationNotSaved"
  | .federationSaveStatusResponse => "federationSaveStatusResponse"
  | .requestFederationRestoreSucceeded => "requestFederationRestoreSucceeded"
  | .requestFederationRestoreFailed => "requestFederationRestoreFailed"
  | .federationRestoreBegun => "federationRestoreBegun"
  | .initiateFederateRestore => "initiateFederateRestore"
  | .federationRestored => "federationRestored"
  | .federationNotRestored => "federationNotRestored"
  | .federationRestoreStatusResponse => "federationRestoreStatusResponse"
  | .startRegistrationForObjectClass => "startRegistrationForObjectClass"
  | .stopRegistrationForObjectClass => "stopRegistrationForObjectClass"
  | .turnInteractionsOn => "turnInteractionsOn"
  | .turnInteractionsOff => "turnInteractionsOff"
  | .objectInstanceNameReservationSucceeded => "objectInstanceNameReservationSucceeded"
  | .objectInstanceNameReservationFailed => "objectInstanceNameReservationFailed"
  | .discoverObjectInstance => "discoverObjectInstance"
  | .reflectAttributeValues => "reflectAttributeValues"
  | .receiveInteraction => "receiveInteraction"
  | .removeObjectInstance => "removeObjectInstance"
  | .attributesInScope => "attributesInScope"
  | .attributesOutOfScope => "attributesOutOfScope"
  | .provideAttributeValueUpdate => "provideAttributeValueUpdate"
  | .turnUpdatesOnForObjectInstance => "turnUpdatesOnForObjectInstance"
  | .turnUpdatesOffForObjectInstance => "turnUpdatesOffForObjectInstance"
  | .requestAttributeOwnershipAssumption => "requestAttributeOwnershipAssumption"
  | .attributeOwnershipAcquisitionNotification => "attributeOwnershipAcquisitionNotification"
  | .attributeOwnershipUnavailable => "attributeOwnershipUnavailable"
  | .requestAttributeOwnershipRelease => "requestAttributeOwnershipRelease"
  | .informAttributeOwnership => "informAttributeOwnership"
  | .attributeIsNotOwned => "attributeIsNotOwned"
  | .attributeIsOwnedByRti => "attributeIsOwnedByRTI"
  | .timeRegulationEnabled => "timeRegulationEnabled"
  | .timeConstrainedEnabled => "timeConstrainedEnabled"
  | .timeAdvanceGrant => "timeAdvanceGrant"
  | .flushQueueGrant => "flushQueueGrant"
  | .requestRetraction => "requestRetraction"
  | .federateResigned => "federateResigned"

/-- The federate's handler for a kind. -/
def handler : Kind → String
  | .connectionLost => "connection_lost"
  | .synchronizationPointRegistrationSucceeded => "synchronization_point_registration_succeeded"
  | .synchronizationPointRegistrationFailed => "synchronization_point_registration_failed"
  | .announceSynchronizationPoint => "announce_synchronization_point"
  | .federationSynchronized => "federation_synchronized"
  | .initiateFederateSave => "initiate_federate_save"
  | .federationSaved => "federation_saved"
  | .federationNotSaved => "federation_not_saved"
  | .federationSaveStatusResponse => "federation_save_status_response"
  | .requestFederationRestoreSucceeded => "request_federation_restore_succeeded"
  | .requestFederationRestoreFailed => "request_federation_restore_failed"
  | .federationRestoreBegun => "federation_restore_begun"
  | .initiateFederateRestore => "initiate_federate_restore"
  | .federationRestored => "federation_restored"
  | .federationNotRestored => "federation_not_restored"
  | .federationRestoreStatusResponse => "federation_restore_status_response"
  | .startRegistrationForObjectClass => "start_registration_for_object_class"
  | .stopRegistrationForObjectClass => "stop_registration_for_object_class"
  | .turnInteractionsOn => "turn_interactions_on"
  | .turnInteractionsOff => "turn_interactions_off"
  | .objectInstanceNameReservationSucceeded => "object_instance_name_reservation_succeeded"
  | .objectInstanceNameReservationFailed => "object_instance_name_reservation_failed"
  | .discoverObjectInstance => "discover_object_instance"
  | .reflectAttributeValues => "reflect_attribute_values"
  | .receiveInteraction => "receive_interaction"
  | .removeObjectInstance => "remove_object_instance"
  | .attributesInScope => "attributes_in_scope"
  | .attributesOutOfScope => "attributes_out_of_scope"
  | .provideAttributeValueUpdate => "provide_attribute_value_update"
  | .turnUpdatesOnForObjectInstance => "turn_updates_on_for_object_instance"
  | .turnUpdatesOffForObjectInstance => "turn_updates_off_for_object_instance"
  | .requestAttributeOwnershipAssumption => "request_attribute_ownership_assumption"
  | .attributeOwnershipAcquisitionNotification => "attribute_ownership_acquisition_notification"
  | .attributeOwnershipUnavailable => "attribute_ownership_unavailable"
  | .requestAttributeOwnershipRelease => "request_attribute_ownership_release"
  | .informAttributeOwnership => "inform_attribute_ownership"
  | .attributeIsNotOwned => "attribute_is_not_owned"
  | .attributeIsOwnedByRti => "attribute_is_owned_by_rti"
  | .timeRegulationEnabled => "time_regulation_enabled"
  | .timeConstrainedEnabled => "time_constrained_enabled"
  | .timeAdvanceGrant => "time_advance_grant"
  | .flushQueueGrant => "flush_queue_grant"
  | .requestRetraction => "request_retraction"
  | .federateResigned => "federate_resigned"

/-- Every kind, in the order of their numbers. -/
def all : List Kind :=
  [.connectionLost, .synchronizationPointRegistrationSucceeded,
   .synchronizationPointRegistrationFailed, .announceSynchronizationPoint,
   .federationSynchronized, .initiateFederateSave, .federationSaved, .federationNotSaved,
   .federationSaveStatusResponse, .requestFederationRestoreSucceeded,
   .requestFederationRestoreFailed, .federationRestoreBegun, .initiateFederateRestore,
   .federationRestored, .federationNotRestored, .federationRestoreStatusResponse,
   .startRegistrationForObjectClass, .stopRegistrationForObjectClass, .turnInteractionsOn,
   .turnInteractionsOff, .objectInstanceNameReservationSucceeded,
   .objectInstanceNameReservationFailed, .discoverObjectInstance, .reflectAttributeValues,
   .receiveInteraction, .removeObjectInstance, .attributesInScope, .attributesOutOfScope,
   .provideAttributeValueUpdate, .turnUpdatesOnForObjectInstance,
   .turnUpdatesOffForObjectInstance, .requestAttributeOwnershipAssumption,
   .attributeOwnershipAcquisitionNotification, .attributeOwnershipUnavailable,
   .requestAttributeOwnershipRelease, .informAttributeOwnership, .attributeIsNotOwned,
   .attributeIsOwnedByRti, .timeRegulationEnabled, .timeConstrainedEnabled, .timeAdvanceGrant,
   .flushQueueGrant, .requestRetraction, .federateResigned]

/-- The fields of a kind, in the order in which they are written. -/
@[reducible] def layout : Kind → Layout
  | .connectionLost | .federationNotSaved | .federationNotRestored | .federateResigned =>
    [("reason", .text)]
  | .synchronizationPointRegistrationSucceeded | .requestFederationRestoreSucceeded
  | .requestFederationRestoreFailed => [("label", .text)]
  | .synchronizationPointRegistrationFailed => [("label", .text), ("reason", .text)]
  | .announceSynchronizationPoint => [("label", .text), ("tag", .blob)]
  | .federationSynchronized => [("label", .text), ("failed", .handles .federate)]
  | .initiateFederateSave => [("label", .text), ("time", .maybe .time)]
  | .federationSaved | .federationRestoreBegun | .federationRestored => []
  | .federationSaveStatusResponse | .federationRestoreStatusResponse =>
    [("statuses", .list (.pair (.handle .federate) .text))]
  | .initiateFederateRestore =>
    [("label", .text), ("federate_name", .text), ("federate", .handle .federate)]
  | .startRegistrationForObjectClass | .stopRegistrationForObjectClass =>
    [("class", .handle .objectClass)]
  | .turnInteractionsOn | .turnInteractionsOff => [("class", .handle .interactionClass)]
  | .objectInstanceNameReservationSucceeded | .objectInstanceNameReservationFailed =>
    [("name", .text)]
  | .discoverObjectInstance =>
    [("object", .handle .objectInstance), ("class", .handle .objectClass), ("name", .text),
     ("producer", .handle .federate)]
  | .reflectAttributeValues =>
    [("object", .handle .objectInstance), ("values", .values .attribute), ("tag", .blob),
     ("info", .info)]
  | .receiveInteraction =>
    [("class", .handle .interactionClass), ("parameters", .values .parameter), ("tag", .blob),
     ("info", .info)]
  | .removeObjectInstance =>
    [("object", .handle .objectInstance), ("tag", .blob), ("info", .info)]
  | .attributesInScope | .attributesOutOfScope | .turnUpdatesOnForObjectInstance
  | .turnUpdatesOffForObjectInstance | .attributeOwnershipUnavailable =>
    [("object", .handle .objectInstance), ("attributes", .handles .attribute)]
  | .provideAttributeValueUpdate | .requestAttributeOwnershipAssumption
  | .attributeOwnershipAcquisitionNotification | .requestAttributeOwnershipRelease =>
    [("object", .handle .objectInstance), ("attributes", .handles .attribute), ("tag", .blob)]
  | .informAttributeOwnership =>
    [("object", .handle .objectInstance), ("attribute", .handle .attribute),
     ("owner", .handle .federate)]
  | .attributeIsNotOwned | .attributeIsOwnedByRti =>
    [("object", .handle .objectInstance), ("attribute", .handle .attribute)]
  | .timeRegulationEnabled | .timeConstrainedEnabled | .timeAdvanceGrant => [("time", .time)]
  | .flushQueueGrant => [("time", .time), ("optimistic", .time)]
  | .requestRetraction => [("retraction", .handle .messageRetraction)]

/-- Reads the fields of a kind, one after another; times are of the settled family. -/
def read (settled : Option TimeFamily) : (k : Kind) → Reader k.layout.Record
  | .connectionLost | .federationNotSaved | .federationNotRestored | .federateResigned => do
    let reason ← Reader.text
    return (reason, ())
  | .synchronizationPointRegistrationSucceeded | .requestFederationRestoreSucceeded
  | .requestFederationRestoreFailed => do
    let label ← Reader.text
    return (label, ())
  | .synchronizationPointRegistrationFailed => do
    let label ← Reader.text
    let reason ← Reader.text
    return (label, reason, ())
  | .announceSynchronizationPoint => do
    let label ← Reader.text
    let tag ← Reader.blob
    return (label, tag, ())
  | .federationSynchronized => do
    let label ← Reader.text
    let failed ← Handle.Set.read .federate
    return (label, failed, ())
  | .initiateFederateSave => do
    let label ← Reader.text
    let time ← Shape.readMaybe (Shape.readTime settled)
    return (label, time, ())
  | .federationSaved | .federationRestoreBegun | .federationRestored => pure ()
  | .federationSaveStatusResponse | .federationRestoreStatusResponse => do
    let statuses ← Reader.counted do return (← Handle.read .federate, ← Reader.text)
    return (statuses, ())
  | .initiateFederateRestore => do
    let label ← Reader.text
    let name ← Reader.text
    let federate ← Handle.read .federate
    return (label, name, federate, ())
  | .startRegistrationForObjectClass | .stopRegistrationForObjectClass => do
    let objectClass ← Handle.read .objectClass
    return (objectClass, ())
  | .turnInteractionsOn | .turnInteractionsOff => do
    let interactionClass ← Handle.read .interactionClass
    return (interactionClass, ())
  | .objectInstanceNameReservationSucceeded | .objectInstanceNameReservationFailed => do
    let name ← Reader.text
    return (name, ())
  | .discoverObjectInstance => do
    let object ← Handle.read .objectInstance
    let objectClass ← Handle.read .objectClass
    let name ← Reader.text
    let producer ← Handle.read .federate
    return (object, objectClass, name, producer, ())
  | .reflectAttributeValues => do
    let object ← Handle.read .objectInstance
    let values ← Handle.Map.read .attribute
    let tag ← Reader.blob
    let info ← Shape.readInfo settled
    return (object, values, tag, info, ())
  | .receiveInteraction => do
    let interactionClass ← Handle.read .interactionClass
    let parameters ← Handle.Map.read .parameter
    let tag ← Reader.blob
    let info ← Shape.readInfo settled
    return (interactionClass, parameters, tag, info, ())
  | .removeObjectInstance => do
    let object ← Handle.read .objectInstance
    let tag ← Reader.blob
    let info ← Shape.readInfo settled
    return (object, tag, info, ())
  | .attributesInScope | .attributesOutOfScope | .turnUpdatesOnForObjectInstance
  | .turnUpdatesOffForObjectInstance | .attributeOwnershipUnavailable => do
    let object ← Handle.read .objectInstance
    let attributes ← Handle.Set.read .attribute
    return (object, attributes, ())
  | .provideAttributeValueUpdate | .requestAttributeOwnershipAssumption
  | .attributeOwnershipAcquisitionNotification | .requestAttributeOwnershipRelease => do
    let object ← Handle.read .objectInstance
    let attributes ← Handle.Set.read .attribute
    let tag ← Reader.blob
    return (object, attributes, tag, ())
  | .informAttributeOwnership => do
    let object ← Handle.read .objectInstance
    let attr ← Handle.read .attribute
    let owner ← Handle.read .federate
    return (object, attr, owner, ())
  | .attributeIsNotOwned | .attributeIsOwnedByRti => do
    let object ← Handle.read .objectInstance
    let attr ← Handle.read .attribute
    return (object, attr, ())
  | .timeRegulationEnabled | .timeConstrainedEnabled | .timeAdvanceGrant => do
    let time ← Shape.readTime settled
    return (time, ())
  | .flushQueueGrant => do
    let time ← Shape.readTime settled
    let optimistic ← Shape.readTime settled
    return (time, optimistic, ())
  | .requestRetraction => do
    let retraction ← Handle.read .messageRetraction
    return (retraction, ())

/-- The kind that a number stands for. -/
def ofCode? (n : UInt16) : Option Kind := all.find? (·.code == n)

theorem ofCode?_code (k : Kind) : ofCode? k.code = some k := by cases k <;> rfl

theorem code_of_ofCode? {n : UInt16} {k : Kind} (h : ofCode? n = some k) : k.code = n := by
  have := List.find?_some h
  simpa using this

end Callback.Kind

end Federate
