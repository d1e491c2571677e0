/-
Choices that a federate or a coordinator makes from a short list: how callbacks
reach the federate, what becomes of owned attributes on resigning, and in which
order a message is delivered. On the wire a choice is one byte, and a byte that
stands for none is refused.
-/
import Federate.Reader
namespace Federate

/-- How pushed callbacks reach the federate: as they arrive, or when it asks for them. -/
inductive CallbackModel where
  | immediate
  | evoked
  deriving DecidableEq, Repr

def CallbackModel.name : CallbackModel → String
  | .immediate => "HLA_IMMEDIATE"
  | .evoked => "HLA_EVOKED"

/-- What becomes of owned attributes when a federate resigns. -/
inductive ResignAction where
  | unconditionallyDivestAttributes
  | deleteObjects
  | cancelPendingOwnershipAcquisitions
  | deleteObjectsThenDivest
  | cancelThenDeleteThenDivest
  | noAction
  deriving DecidableEq, Repr

namespace ResignAction

/-- The byte that stands for an action. -/
def code : ResignAction → UInt8
  | .unconditionallyDivestAttributes => 0
  | .deleteObjects => 1
  | .cancelPendingOwnershipAcquisitions => 2
  | .deleteObjectsThenDivest => 3
  | .cancelThenDeleteThenDivest => 4
  | .noAction => 5

def name : ResignAction → String
  | .unconditionallyDivestAttributes => "UnconditionallyDivestAttributes"
  | .deleteObjects => "DeleteObjects"
  | .cancelPendingOwnershipAcquisitions => "CancelPendingOwnershipAcquisitions"
  | .deleteObjectsThenDivest => "DeleteObjectsThenDivest"
  | .cancelThenDeleteThenDivest => "CancelThenDeleteThenDivest"
  | .noAction => "NoAction"

def all : List ResignAction :=
  [.unconditionallyDivestAttributes, .deleteObjects, .cancelPendingOwnershipAcquisitions,
   .deleteObjectsThenDivest, .cancelThenDeleteThenDivest, .noAction]

/-- The action that a byte stands for. -/
def ofCode (b : UInt8) : Except Fault ResignAction :=
  match all.find? (·.code == b) with
  | some a => .ok a
  | none => .error (.known .invalidResignAction s!"resign action {b}")

def read : Reader ResignAction := do
  match ofCode (← Reader.byte) with
  | .ok a => pure a
  | .error e => Reader.fail (.couldNotDecode e.message)

theorem ofCode_code (a : ResignAction) : ofCode a.code = .ok a := by cases a <;> rfl

theorem code_of_ofCode {b : UInt8} {a : ResignAction} (h : ofCode b = .ok a) : a.code = b := by
  unfold ofCode at h
  split at h
  · rename_i a' ha
    have := List.find?_some ha
    simp_all
  · cases h

end ResignAction

/-- Whether a message is delivered as it comes or in the order of its time stamp. -/
inductive MessageOrder where
  | receive
  | timestamp
  deriving DecidableEq, Repr

namespace MessageOrder

/-- The byte that stands for an order. -/
def code : MessageOrder → UInt8
  | .receive => 0
  | .timestamp => 1

def name : MessageOrder → String
  | .receive => "Receive"
  | .timestamp => "Timestamp"

def read : Reader MessageOrder := do
  let b ← Reader.byte
  if b = 0 then pure .receive
  else if b = 1 then pure .timestamp
  else Reader.fail (.couldNotDecode s!"order type {b}")

end MessageOrder

end Federate
