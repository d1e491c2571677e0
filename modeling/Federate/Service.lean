/-
The operations that a federate asks of a coordinator, each with its number and
its name on the wire. No two share a number (`ofCode?_code`).
-/
namespace Federate

/-- An operation of the interface. -/
inductive Service where
  | connect
  | disconnect
  | joinFederationExecution
  | resignFederationExecution
  | registerFederationSynchronizationPoint
  | synchronizationPointAchieved
  | requestFederationSave
  | federateSaveBegun
  | federateSaveComplete
  | federateSaveNotComplete
  | abortFederationSave
  | queryFederationSaveStatus
  | requestFederationRestore
  | federateRestoreComplete
  | federateRestoreNotComplete
  | abortFederationRestore
  | queryFederationRestoreStatus
  | publishObjectClassAttributes
  | unpublishObjectClass
  | subscribeObjectClassAttributes
  | unsubscribeObjectClass
  | publishInteractionClass
  | unpublishInteractionClass
  | subscribeInteractionClass
  | unsubscribeInteractionClass
  | registerObjectInstance
  | updateAttributeValues
  | sendInteraction
  | deleteObjectInstance
  | reserveObjectInstanceName
  | requestAttributeValueUpdate
  | getObjectClassHandle
  | getAttributeHandle
  | getInteractionClassHandle
  | getParameterHandle
  | enableTimeRegulation
  | disableTimeRegulation
  | enableTimeConstrained
  | disableTimeConstrained
  | timeAdvanceRequest
  | timeAdvanceRequestAvailable
  | nextMessageRequest
  | nextMessageRequestAvailable
  | flushQueueRequest
  | queryLogicalTime
  | queryGalt
  | queryLookahead
  | unconditionalAttributeOwnershipDivestiture
  | attributeOwnershipAcquisition
  | queryAttributeOwnership
  deriving DecidableEq, Repr

namespace Service

/-- The number that stands for an operation. -/
def code : Service → UInt16
  | .connect => 1
  | .disconnect => 2
  | .joinFederationExecution => 10
  | .resignFederationExecution => 11
  | .registerFederationSynchronizationPoint => 12
  | .synchronizationPointAchieved => 13
  | .requestFederationSave => 20
  | .federateSaveBegun => 21
  | .federateSaveComplete => 22
  | .federateSaveNotComplete => 23
  | .abortFederationSave => 24
  | .queryFederationSaveStatus => 25
  | .requestFederationRestore => 26
  | .federateRestoreComplete => 27
  | .federateRestoreNotComplete => 28
  | .abortFederationRestore => 29
  | .queryFederationRestoreStatus => 30
  | .publishObjectClassAttributes => 40
  | .unpublishObjectClass => 41
  | .subscribeObjectClassAttributes => 42
  | .unsubscribeObjectClass => 43
  | .publishInteractionClass => 44
  | .unpublishInteractionClass => 45
  | .subscribeInteractionClass => 46
  | .unsubscribeInteractionClass => 47
  | .registerObjectInstance => 50
  | .updateAttributeValues => 51
  | .sendInteraction => 52
  | .deleteObjectInstance => 53
  | .reserveObjectInstanceName => 54
  | .requestAttributeValueUpdate => 55
  | .getObjectClassHandle => 60
  | .getAttributeHandle => 61
  | .getInteractionClassHandle => 62
  | .getParameterHandle => 63
  | .enableTimeRegulation => 70
  | .disableTimeRegulation => 71
  | .enableTimeConstrained => 72
  | .disableTimeConstrained => 73
  | .timeAdvanceRequest => 74
  | .timeAdvanceRequestAvailable => 75
  | .nextMessageRequest => 76
  | .nextMessageRequestAvailable => 77
  | .flushQueueRequest => 78
  | .queryLogicalTime => 79
  | .queryGalt => 80
  | .queryLookahead => 81
  | .unconditionalAttributeOwnershipDivestiture => 90
  | .attributeOwnershipAcquisition => 91
  | .queryAttributeOwnership => 92

/-- The name of an operation on the wire. -/
def name : Service → String
  | .connect => "connect"
  | .disconnect => "disconnect"
  | .joinFederationExecution => "joinFederationExecution"
  | .resignFederationExecution => "resignFederationExecution"
  | .registerFederationSynchronizationPoint => "registerFederationSynchronizationPoint"
  | .synchronizationPointAchieved => "synchronizationPointAchieved"
  | .requestFederationSave => "requestFederationSave"
  | .federateSaveBegun => "federateSaveBegun"
  | .federateSaveComplete => "federateSaveComplete"
  | .federateSaveNotComplete => "federateSaveNotComplete"
  | .abortFederationSave => "abortFederationSave"
  | .queryFederationSaveStatus => "queryFederationSaveStatus"
  | .requestFederationRestore => "requestFederationRestore"
  | .federateRestoreComplete => "federateRestoreComplete"
  | .federateRestoreNotComplete => "federateRestoreNotComplete"
  | .abortFederationRestore => "abortFederationRestore"
  | .queryFederationRestoreStatus => "queryFederationRestoreStatus"
  | .publishObjectClassAttributes => "publishObjectClassAttributes"
  | .unpublishObjectClass => "unpublishObjectClass"
  | .subscribeObjectClassAttributes => "subscribeObjectClassAttributes"
  | .unsubscribeObjectClass => "unsubscribeObjectClass"
  | .publishInteractionClass => "publishInteractionClass"
  | .unpublishInteractionClass => "unpublishInteractionClass"
  | .subscribeInteractionClass => "subscribeInteractionClass"
  | .unsubscribeInteractionClass => "unsubscribeInteractionClass"
  | .registerObjectInstance => "registerObjectInstance"
  | .updateAttributeValues => "updateAttributeValues"
  | .sendInteraction => "sendInteraction"
  | .deleteObjectInstance => "deleteObjectInstance"
  | .reserveObjectInstanceName => "reserveObjectInstanceName"
  | .requestAttributeValueUpdate => "requestAttributeValueUpdate"
  | .getObjectClassHandle => "getObjectClassHandle"
  | .getAttributeHandle => "getAttributeHandle"
  | .getInteractionClassHandle => "getInteractionClassHandle"
  | .getParameterHandle => "getParameterHandle"
  | .enableTimeRegulation => "enableTimeRegulation"
  | .disableTimeRegulation => "disableTimeRegulation"
  | .enableTimeConstrained => "enableTimeConstrained"
  | .disableTimeConstrained => "disableTimeConstrained"
  | .timeAdvanceRequest => "timeAdvanceRequest"
  | .timeAdvanceRequestAvailable => "timeAdvanceRequestAvailable"
  | .nextMessageRequest => "nextMessageRequest"
  | .nextMessageRequestAvailable => "nextMessageRequestAvailable"
  | .flushQueueRequest => "flushQueueRequest"
  | .queryLogicalTime => "queryLogicalTime"
  | .queryGalt => "queryGALT"
  | .queryLookahead => "queryLookahead"
  | .unconditionalAttributeOwnershipDivestiture => "unconditionalAttributeOwnershipDivestiture"
  | .attributeOwnershipAcquisition => "attributeOwnershipAcquisition"
  | .queryAttributeOwnership => "queryAttributeOwnership"

/-- Every operation, in the order of their numbers. -/
def all : List Service :=
  [.connect, .disconnect, .joinFederationExecution, .resignFederationExecution,
   .registerFederationSynchronizationPoint, .synchronizationPointAchieved, .requestFederationSave,
   .federateSaveBegun, .federateSaveComplete, .federateSaveNotComplete, .abortFederationSave,
   .queryFederationSaveStatus, .requestFederationRestore, .federateRestoreComplete,
   .federateRestoreNotComplete, .abortFederationRestore, .queryFederationRestoreStatus,
   .publishObjectClassAttributes, .unpublishObjectClass, .subscribeObjectClassAttributes,
   .unsubscribeObjectClass, .publishInteractionClass, .unpublishInteractionClass,
   .subscribeInteractionClass, .unsubscribeInteractionClass, .registerObjectInstance,
   .updateAttributeValues, .sendInteraction, .deleteObjectInstance, .reserveObjectInstanceName,
   .requestAttributeValueUpdate, .getObjectClassHandle, .getAttributeHandle,
   .getInteractionClassHandle, .getParameterHandle, .enableTimeRegulation, .disableTimeRegulation,
   .enableTimeConstrained, .disableTimeConstrained, .timeAdvanceRequest,
   .timeAdvanceRequestAvailable, .nextMessageRequest, .nextMessageRequestAvailable,
   .flushQueueRequest, .queryLogicalTime, .queryGalt, .queryLookahead,
   .unconditionalAttributeOwnershipDivestiture, .attributeOwnershipAcquisition,
   .queryAttributeOwnership]

/-- The operation that a number stands for. -/
def ofCode? (n : UInt16) : Option Service := all.find? (·.code == n)

theorem ofCode?_code (s : Service) : ofCode? s.code = some s := by cases s <;> rfl

theorem code_of_ofCode? {n : UInt16} {s : Service} (h : ofCode? n = some s) : s.code = n := by
  have := List.find?_some h
  simpa using this

end Service

end Federate
