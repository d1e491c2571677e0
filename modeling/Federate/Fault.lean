/-
Faults: what a coordinator, a link or the client itself can report. Most are of
a registered kind, known by a name on the wire and carrying details in words; a
name that no kind has is kept beside its details. A fault is rebuilt from the
name and the details that travelled (`ofName`).
-/
namespace Federate

/-- The registered kinds of fault. -/
inductive Fault.Kind where
  | alreadyConnected
  | asynchronousDeliveryAlreadyDisabled
  | asynchronousDeliveryAlreadyEnabled
  | attributeAcquisitionWasNotRequested
  | attributeAlreadyBeingAcquired
  | attributeAlreadyBeingChanged
  | attributeAlreadyBeingDivested
  | attributeAlreadyOwned
  | attributeDivestitureWasNotRequested
  | attributeNotDefined
  | attributeNotOwned
  | attributeNotPublished
  | attributeNotRecognized
  | attributeNotSubscribed
  | attributeRelevanceAdvisorySwitchIsOff
  | attributeRelevanceAdvisorySwitchIsOn
  | attributeScopeAdvisorySwitchIsOff
  | attributeScopeAdvisorySwitchIsOn
  | callNotAllowedFromWithinCallback
  | connectionFailed
  | couldNotCreateLogicalTimeFactory
  | couldNotDecode
  | couldNotEncode
  | couldNotOpenFdd
  | couldNotOpenMim
  | deletePrivilegeNotHeld
  | designatorIsHlaStandardMim
  | errorReadingFdd
  | errorReadingMim
  | federateAlreadyExecutionMember
  | federateHandleNotKnown
  | federateHasNotBegunSave
  | federateInternalError
  | federateIsExecutionMember
  | federateNameAlreadyInUse
  | federateNotExecutionMember
  | federateOwnsAttributes
  | federateServiceInvocationsAreBeingReportedViaMom
  | federateUnableToUseTime
  | federatesCurrentlyJoined
  | federationExecutionAlreadyExists
  | federationExecutionDoesNotExist
  | illegalName
  | illegalTimeArithmetic
  | inTimeAdvancingState
  | inconsistentFdd
  | interactionClassAlreadyBeingChanged
  | interactionClassNotDefined
  | interactionClassNotPublished
  | interactionParameterNotDefined
  | interactionRelevanceAdvisorySwitchIsOff
  | interactionRelevanceAdvisorySwitchIsOn
  | invalidAttributeHandle
  | invalidDimensionHandle
  | invalidFederateHandle
  | invalidInteractionClassHandle
  | invalidLocalSettingsDesignator
  | invalidLogicalTime
  | invalidLogicalTimeInterval
  | invalidLookahead
  | invalidMessageRetractionHandle
  | invalidObjectClassHandle
  | invalidOrderName
  | invalidOrderType
  | invalidParameterHandle
  | invalidRangeBound
  | invalidRegion
  | invalidRegionContext
  | invalidResignAction
  | invalidServiceGroup
  | invalidTransportationName
  | invalidTransportationType
  | invalidUpdateRateDesignator
  | logicalTimeAlreadyPassed
  | messageCanNoLongerBeRetracted
  | nameNotFound
  | nameSetWasEmpty
  | noAcquisitionPending
  | noRequestToEnableTimeConstrainedWasPending
  | noRequestToEnableTimeRegulationWasPending
  | notConnected
  | objectClassNotDefined
  | objectClassNotPublished
  | objectClassRelevanceAdvisorySwitchIsOff
  | objectClassRelevanceAdvisorySwitchIsOn
  | objectInstanceNameInUse
  | objectInstanceNameNotReserved
  | objectInstanceNotKnown
  | ownershipAcquisitionPending
  | rtiException
  | rtiInternalError
  | regionDoesNotContainSpecifiedDimension
  | regionInUseForUpdateOrSubscription
  | regionNotCreatedByThisFederate
  | requestForTimeConstrainedPending
  | requestForTimeRegulationPending
  | restoreInProgress
  | restoreNotInProgress
  | restoreNotRequested
  | saveInProgress
  | saveNotInProgress
  | saveNotInitiated
  | synchronizationPointLabelNotAnnounced
  | timeConstrainedAlreadyEnabled
  | timeConstrainedIsNotEnabled
  | timeRegulationAlreadyEnabled
  | timeRegulationIsNotEnabled
  | unableToPerformSave
  | unknownName
  | unsupportedCallbackModel
  deriving DecidableEq, Repr

namespace Fault.Kind

/-- The name of a kind on the wire. -/
def name : Kind → String
  | .alreadyConnected => "AlreadyConnected"
  | .asynchronousDeliveryAlreadyDisabled => "AsynchronousDeliveryAlreadyDisabled"
  | .asynchronousDeliveryAlreadyEnabled => "AsynchronousDeliveryAlreadyEnabled"
  | .attributeAcquisitionWasNotRequested => "AttributeAcquisitionWasNotRequested"
  | .attributeAlreadyBeingAcquired => "AttributeAlreadyBeingAcquired"
  | .attributeAlreadyBeingChanged => "AttributeAlreadyBeingChanged"
  | .attributeAlreadyBeingDivested => "AttributeAlreadyBeingDivested"
  | .attributeAlreadyOwned => "AttributeAlreadyOwned"
  | .attributeDivestitureWasNotRequested => "AttributeDivestitureWasNotRequested"
  | .attributeNotDefined => "AttributeNotDefined"
  | .attributeNotOwned => "AttributeNotOwned"
  | .attributeNotPublished => "AttributeNotPublished"
  | .attributeNotRecognized => "AttributeNotRecognized"
  | .attributeNotSubscribed => "AttributeNotSubscribed"
  | .attributeRelevanceAdvisorySwitchIsOff => "AttributeRelevanceAdvisorySwitchIsOff"
  | .attributeRelevanceAdvisorySwitchIsOn => "AttributeRelevanceAdvisorySwitchIsOn"
  | .attributeScopeAdvisorySwitchIsOff => "AttributeScopeAdvisorySwitchIsOff"
  | .attributeScopeAdvisorySwitchIsOn => "AttributeScopeAdvisorySwitchIsOn"
  | .callNotAllowedFromWithinCallback => "CallNotAllowedFromWithinCallback"
  | .connectionFailed => "ConnectionFailed"
  | .couldNotCreateLogicalTimeFactory => "CouldNotCreateLogicalTimeFactory"
  | .couldNotDecode => "CouldNotDecode"
  | .couldNotEncode => "CouldNotEncode"
  | .couldNotOpenFdd => "CouldNotOpenFDD"
  | .couldNotOpenMim => "CouldNotOpenMIM"
  | .deletePrivilegeNotHeld => "DeletePrivilegeNotHeld"
  | .designatorIsHlaStandardMim => "DesignatorIsHLAstandardMIM"
  | .errorReadingFdd => "ErrorReadingFDD"
  | .errorReadingMim => "ErrorReadingMIM"
  | .federateAlreadyExecutionMember => "FederateAlreadyExecutionMember"
  | .federateHandleNotKnown => "FederateHandleNotKnown"
  | .federateHasNotBegunSave => "FederateHasNotBegunSave"
  | .federateInternalError => "FederateInternalError"
  | .federateIsExecutionMember => "FederateIsExecutionMember"
  | .federateNameAlreadyInUse => "FederateNameAlreadyInUse"
  | .federateNotExecutionMember => "FederateNotExecutionMember"
  | .federateOwnsAttributes => "FederateOwnsAttributes"
  | .federateServiceInvocationsAreBeingReportedViaMom =>
    "FederateServiceInvocationsAreBeingReportedViaMOM"
  | .federateUnableToUseTime => "FederateUnableToUseTime"
  | .federatesCurrentlyJoined => "FederatesCurrentlyJoined"
  | .federationExecutionAlreadyExists => "FederationExecutionAlreadyExists"
  | .federationExecutionDoesNotExist => "FederationExecutionDoesNotExist"
  | .illegalName => "IllegalName"
  | .illegalTimeArithmetic => "IllegalTimeArithmetic"
  | .inTimeAdvancingState => "InTimeAdvancingState"
  | .inconsistentFdd => "InconsistentFDD"
  | .interactionClassAlreadyBeingChanged => "InteractionClassAlreadyBeingChanged"
  | .interactionClassNotDefined => "InteractionClassNotDefined"
  | .interactionClassNotPublished => "InteractionClassNotPublished"
  | .interactionParameterNotDefined => "InteractionParameterNotDefined"
  | .interactionRelevanceAdvisorySwitchIsOff => "InteractionRelevanceAdvisorySwitchIsOff"
  | .interactionRelevanceAdvisorySwitchIsOn => "InteractionRelevanceAdvisorySwitchIsOn"
  | .invalidAttributeHandle => "InvalidAttributeHandle"
  | .invalidDimensionHandle => "InvalidDimensionHandle"
  | .invalidFederateHandle => "InvalidFederateHandle"
  | .invalidInteractionClassHandle => "InvalidInteractionClassHandle"
  | .invalidLocalSettingsDesignator => "InvalidLocalSettingsDesignator"
  | .invalidLogicalTime => "InvalidLogicalTime"
  | .invalidLogicalTimeInterval => "InvalidLogicalTimeInterval"
  | .invalidLookahead => "InvalidLookahead"
  | .invalidMessageRetractionHandle => "InvalidMessageRetractionHandle"
  | .invalidObjectClassHandle => "InvalidObjectClassHandle"
  | .invalidOrderName => "InvalidOrderName"
  | .invalidOrderType => "InvalidOrderType"
  | .invalidParameterHandle => "InvalidParameterHandle"
  | .invalidRangeBound => "InvalidRangeBound"
  | .invalidRegion => "InvalidRegion"
  | .invalidRegionContext => "InvalidRegionContext"
  | .invalidResignAction => "InvalidResignAction"
  | .invalidServiceGroup => "InvalidServiceGroup"
  | .invalidTransportationName => "InvalidTransportationName"
  | .invalidTransportationType => "InvalidTransportationType"
  | .invalidUpdateRateDesignator => "InvalidUpdateRateDesignator"
  | .logicalTimeAlreadyPassed => "LogicalTimeAlreadyPassed"
  | .messageCanNoLongerBeRetracted => "MessageCanNoLongerBeRetracted"
  | .nameNotFound => "NameNotFound"
  | .nameSetWasEmpty => "NameSetWasEmpty"
  | .noAcquisitionPending => "NoAcquisitionPending"
  | .noRequestToEnableTimeConstrainedWasPending => "NoRequestToEnableTimeConstrainedWasPending"
  | .noRequestToEnableTimeRegulationWasPending => "NoRequestToEnableTimeRegulationWasPending"
  | .notConnected => "NotConnected"
  | .objectClassNotDefined => "ObjectClassNotDefined"
  | .objectClassNotPublished => "ObjectClassNotPublished"
  | .objectClassRelevanceAdvisorySwitchIsOff => "ObjectClassRelevanceAdvisorySwitchIsOff"
  | .objectClassRelevanceAdvisorySwitchIsOn => "ObjectClassRelevanceAdvisorySwitchIsOn"
  | .objectInstanceNameInUse => "ObjectInstanceNameInUse"
  | .objectInstanceNameNotReserved => "ObjectInstanceNameNotReserved"
  | .objectInstanceNotKnown => "ObjectInstanceNotKnown"
  | .ownershipAcquisitionPending => "OwnershipAcquisitionPending"
  | .rtiException => "RTIexception"
  | .rtiInternalError => "RTIinternalError"
  | .regionDoesNotContainSpecifiedDimension => "RegionDoesNotContainSpecifiedDimension"
  | .regionInUseForUpdateOrSubscription => "RegionInUseForUpdateOrSubscription"
  | .regionNotCreatedByThisFederate => "RegionNotCreatedByThisFederate"
  | .requestForTimeConstrainedPending => "RequestForTimeConstrainedPending"
  | .requestForTimeRegulationPending => "RequestForTimeRegulationPending"
  | .restoreInProgress => "RestoreInProgress"
  | .restoreNotInProgress => "RestoreNotInProgress"
  | .restoreNotRequested => "RestoreNotRequested"
  | .saveInProgress => "SaveInProgress"
  | .saveNotInProgress => "SaveNotInProgress"
  | .saveNotInitiated => "SaveNotInitiated"
  | .synchronizationPointLabelNotAnnounced => "SynchronizationPointLabelNotAnnounced"
  | .timeConstrainedAlreadyEnabled => "TimeConstrainedAlreadyEnabled"
  | .timeConstrainedIsNotEnabled => "TimeConstrainedIsNotEnabled"
  | .timeRegulationAlreadyEnabled => "TimeRegulationAlreadyEnabled"
  | .timeRegulationIsNotEnabled => "TimeRegulationIsNotEnabled"
  | .unableToPerformSave => "UnableToPerformSave"
  | .unknownName => "UnknownName"
  | .unsupportedCallbackModel => "UnsupportedCallbackModel"

/-- Every kind, in the order of the interface definition. -/
def all : List Kind :=
  [.alreadyConnected, .asynchronousDeliveryAlreadyDisabled,
   .asynchronousDeliveryAlreadyEnabled, .attributeAcquisitionWasNotRequested,
   .attributeAlreadyBeingAcquired, .attributeAlreadyBeingChanged,
   .attributeAlreadyBeingDivested, .attributeAlreadyOwned,
   .attributeDivestitureWasNotRequested, .attributeNotDefined, .attributeNotOwned,
   .attributeNotPublished, .attributeNotRecognized, .attributeNotSubscribed,
   .attributeRelevanceAdvisorySwitchIsOff, .attributeRelevanceAdvisorySwitchIsOn,
   .attributeScopeAdvisorySwitchIsOff, .attributeScopeAdvisorySwitchIsOn,
   .callNotAllowedFromWithinCallback, .connectionFailed, .couldNotCreateLogicalTimeFactory,
   .couldNotDecode, .couldNotEncode, .couldNotOpenFdd, .couldNotOpenMim,
   .deletePrivilegeNotHeld, .designatorIsHlaStandardMim, .errorReadingFdd, .errorReadingMim,
   .federateAlreadyExecutionMember, .federateHandleNotKnown, .federateHasNotBegunSave,
   .federateInternalError, .federateIsExecutionMember, .federateNameAlreadyInUse,
   .federateNotExecutionMember, .federateOwnsAttributes,
   .federateServiceInvocationsAreBeingReportedViaMom, .federateUnableToUseTime,
   .federatesCurrentlyJoined, .federationExecutionAlreadyExists,
   .federationExecutionDoesNotExist, .illegalName, .illegalTimeArithmetic,
   .inTimeAdvancingState, .inconsistentFdd, .interactionClassAlreadyBeingChanged,
   .interactionClassNotDefined, .interactionClassNotPublished,
   .interactionParameterNotDefined, .interactionRelevanceAdvisorySwitchIsOff,
   .interactionRelevanceAdvisorySwitchIsOn, .invalidAttributeHandle, .invalidDimensionHandle,
   .invalidFederateHandle, .invalidInteractionClassHandle, .invalidLocalSettingsDesignator,
   .invalidLogicalTime, .invalidLogicalTimeInterval, .invalidLookahead,
   .invalidMessageRetractionHandle, .invalidObjectClassHandle, .invalidOrderName,
   .invalidOrderType, .invalidParameterHandle, .invalidRangeBound, .invalidRegion,
   .invalidRegionContext, .invalidResignAction, .invalidServiceGroup,
   .invalidTransportationName, .invalidTransportationType, .invalidUpdateRateDesignator,
   .logicalTimeAlreadyPassed, .messageCanNoLongerBeRetracted, .nameNotFound, .nameSetWasEmpty,
   .noAcquisitionPending, .noRequestToEnableTimeConstrainedWasPending,
   .noRequestToEnableTimeRegulationWasPending, .notConnected, .objectClassNotDefined,
   .objectClassNotPublished, .objectClassRelevanceAdvisorySwitchIsOff,
   .objectClassRelevanceAdvisorySwitchIsOn, .objectInstanceNameInUse,
   .objectInstanceNameNotReserved, .objectInstanceNotKnown, .ownershipAcquisitionPending,
   .rtiException, .rtiInternalError, .regionDoesNotContainSpecifiedDimension,
   .regionInUseForUpdateOrSubscription, .regionNotCreatedByThisFederate,
   .requestForTimeConstrainedPending, .requestForTimeRegulationPending, .restoreInProgress,
   .restoreNotInProgress, .restoreNotRequested, .saveInProgress, .saveNotInProgress,
   .saveNotInitiated, .synchronizationPointLabelNotAnnounced, .timeConstrainedAlreadyEnabled,
   .timeConstrainedIsNotEnabled, .timeRegulationAlreadyEnabled, .timeRegulationIsNotEnabled,
   .unableToPerformSave, .unknownName, .unsupportedCallbackModel]

/-- Names of the newer vocabulary, with the kind that has the same meaning here. -/
def aliases : List (String × Kind) :=
  [("CouldNotOpenFOM", .couldNotOpenFdd), ("ErrorReadingFOM", .errorReadingFdd),
   ("Unauthorized", .connectionFailed)]

/-- The kind that a name stands for, as its own or as an alias. -/
def ofName? (n : String) : Option Kind :=
  (all.find? fun k => k.name == n).orElse fun _ => (aliases.find? fun a => a.1 == n).map Prod.snd

end Fault.Kind

/-- A fault with its details. -/
inductive Fault where
  | known (kind : Fault.Kind) (details : String)
  /-- A fault whose name no registered kind has. -/
  | unexpected (name details : String)
  /-- An operation that the value at hand cannot perform. -/
  | unsupported (details : String)
  deriving DecidableEq, Repr

namespace Fault

/-- The fault as a federate sees it; an unexpected one counts as internal. -/
def name : Fault → String
  | .known k _ => k.name
  | .unexpected _ _ => Kind.rtiInternalError.name
  | .unsupported _ => "UnsupportedOperation"

/-- The details that came with the fault. -/
def details : Fault → String
  | .known _ d => d
  | .unexpected _ d => d
  | .unsupported d => d

/-- The name under which the fault travelled. -/
def originalName : Fault → String
  | .unexpected n _ => n
  | f => f.name

/-- The wording of a fault. -/
def message : Fault → String
  | .known _ d => d
  | .unexpected n d => "Unexpected exception '" ++ n ++ "': " ++ d
  | .unsupported d => "Unsupported operation: " ++ d

/-- The fault that a name and details from the wire stand for. -/
def ofName (n d : String) : Fault :=
  match Kind.ofName? n with
  | some k => .known k d
  | none => .unexpected n d

/-- The same fault, raised. -/
def raise {α : Type} (n d : String) : Except Fault α := .error (ofName n d)

/-- Does a registered kind answer to the name? -/
def isRegistered (n : String) : Bool := (Kind.ofName? n).isSome

/-- A fault in decoding. -/
def couldNotDecode (d : String) : Fault := .known .couldNotDecode d

/-- A fault in encoding. -/
def couldNotEncode (d : String) : Fault := .known .couldNotEncode d

theorem Kind.mem_all (k : Kind) : k ∈ Kind.all := by cases k <;> decide

@[simp] theorem details_ofName (n d : String) : (ofName n d).details = d := by
  unfold ofName
  split <;> rfl

end Fault

end Federate
