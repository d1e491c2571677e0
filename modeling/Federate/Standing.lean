/-
A federate's standing: whether it is connected and joined, its time switches,
an advance it waits for, and how far a save or a restore has come. The standing
decides which operations may go out. Accepting an operation checks every gate
and marks what the operation leaves pending, in one step; its outcome then
confirms or retracts, and callbacks move the standing on before the federate
sees them. A refusal leaves the standing as it was.
-/
import Federate.Callback
import Federate.Service.Operation
namespace Federate

/-- Time regulation or time constraint: off, asked for, or on. -/
inductive Switch where
  | disabled
  | pending
  | enabled
  deriving DecidableEq, Repr

/-- The kind of time advance that waits for its grant. -/
inductive Advance where
  | requested
  | requestedAvailable
  | nextMessage
  | nextMessageAvailable
  | flush
  deriving DecidableEq, Repr

/-- How far a save or a restore has come. -/
inductive Phase where
  | idle
  | requested
  | inProgress
  | awaitingAcknowledgement
  deriving DecidableEq, Repr

/-- The standing of a federate. -/
structure Standing where
  connected : Bool
  joined : Bool
  regulation : Switch
  constrained : Switch
  advance : Option Advance
  save : Phase
  restore : Phase
  /-- The time family settled on joining. -/
  family : Option TimeFamily
  deriving DecidableEq, Repr

def Switch.name : Switch → String
  | .disabled => "Disabled"
  | .pending => "Pending"
  | .enabled => "Enabled"

namespace Advance

def name : Advance → String
  | .requested => "Requested"
  | .requestedAvailable => "RequestedAvailable"
  | .nextMessage => "NextMessage"
  | .nextMessageAvailable => "NextMessageAvailable"
  | .flush => "Flush"

/-- The advance that an operation asks for. -/
def ofService? : Service → Option Advance
  | .timeAdvanceRequest => some .requested
  | .timeAdvanceRequestAvailable => some .requestedAvailable
  | .nextMessageRequest => some .nextMessage
  | .nextMessageRequestAvailable => some .nextMessageAvailable
  | .flushQueueRequest => some .flush
  | _ => none

end Advance

namespace Phase

def name : Phase → String
  | .idle => "None"
  | .requested => "Requested"
  | .inProgress => "InProgress"
  | .awaitingAcknowledgement => "AwaitingFederationAck"

/-- Is ordinary work refused in this phase? -/
def blocks : Phase → Bool
  | .inProgress | .awaitingAcknowledgement => true
  | .idle | .requested => false

end Phase

namespace Standing

/-- The standing of a federate that has no connection. -/
def idle : Standing where
  connected := false
  joined := false
  regulation := .disabled
  constrained := .disabled
  advance := none
  save := .idle
  restore := .idle
  family := none

/-- The standing right after connecting. -/
def fresh : Standing := { idle with connected := true }

/-- The standing outside any federation, connected as before. -/
def leave (s : Standing) : Standing := { idle with connected := s.connected }

/-- The standing once a federation with a time family has been joined. -/
def join (s : Standing) (f : TimeFamily) : Standing := { s with joined := true, family := some f }

private def fault {α : Type} (k : Fault.Kind) (details : String) : Except Fault α :=
  .error (.known k details)

/-- No advance may be waiting for its grant. -/
def advanceIdle (s : Standing) : Except Fault Unit :=
  match s.advance with
  | none => .ok ()
  | some a => fault .inTimeAdvancingState (a.name ++ " still awaiting its grant")

private def fromCallback {α : Type} (op : Operation) : Except Fault α :=
  fault .callNotAllowedFromWithinCallback (op.text ++ " called from a callback handler")

/-- The conditions of a single operation, and what it leaves pending. -/
def begin (s : Standing) (service : Service) : Except Fault Standing :=
  match service with
  | .joinFederationExecution =>
    if s.joined then fault .federateAlreadyExecutionMember "already joined" else .ok s
  | .enableTimeRegulation =>
    match s.regulation with
    | .enabled => fault .timeRegulationAlreadyEnabled ""
    | .pending => fault .requestForTimeRegulationPending ""
    | .disabled => do
      s.advanceIdle
      return { s with regulation := .pending }
  | .enableTimeConstrained =>
    match s.constrained with
    | .enabled => fault .timeConstrainedAlreadyEnabled ""
    | .pending => fault .requestForTimeConstrainedPending ""
    | .disabled => do
      s.advanceIdle
      return { s with constrained := .pending }
  | .disableTimeRegulation =>
    if s.regulation = .enabled then .ok s else fault .timeRegulationIsNotEnabled ""
  | .disableTimeConstrained =>
    if s.constrained = .enabled then .ok s else fault .timeConstrainedIsNotEnabled ""
  | .timeAdvanceRequest | .timeAdvanceRequestAvailable | .nextMessageRequest
  | .nextMessageRequestAvailable | .flushQueueRequest => do
    s.advanceIdle
    if s.regulation = .pending then fault .requestForTimeRegulationPending ""
    else if s.constrained = .pending then fault .requestForTimeConstrainedPending ""
    else return { s with advance := Advance.ofService? service }
  | .federateSaveBegun =>
    if s.save = .inProgress then .ok s
    else fault .saveNotInitiated "no initiateFederateSave received"
  | .federateSaveComplete | .federateSaveNotComplete =>
    if s.save = .inProgress then .ok s else fault .saveNotInProgress ""
  | .abortFederationSave =>
    if s.save = .idle then fault .saveNotInProgress "" else .ok s
  | .federateRestoreComplete | .federateRestoreNotComplete =>
    match s.restore with
    | .inProgress => .ok s
    | .idle => fault .restoreNotRequested ""
    | _ => fault .restoreNotInProgress ""
  | .abortFederationRestore =>
    if s.restore = .idle then fault .restoreNotInProgress "" else .ok s
  | _ => .ok s

/-- The gates in their order: connection, callback, membership, save, restore. -/
def passGates (s : Standing) (op : Operation) (inCallback : Bool) : Except Fault Unit :=
  let rules := op.rules
  if !s.connected then fault .notConnected (op.text ++ " needs a connection")
  else if rules.forbiddenInCallback && inCallback then fromCallback op
  else if rules.needsJoin && !s.joined then
    fault .federateNotExecutionMember (op.text ++ " needs a joined federate")
  else if rules.blockedBySave && s.save.blocks then
    fault .saveInProgress (op.text ++ " refused during save")
  else if rules.blockedByRestore && s.restore.blocks then
    fault .restoreInProgress (op.text ++ " refused during restore")
  else .ok ()

/-- The standing after accepting an operation, or why it is refused. -/
def accept (s : Standing) (op : Operation) (inCallback : Bool) : Except Fault Standing :=
  match op with
  | .known .connect =>
    if inCallback then fromCallback op
    else if s.connected then fault .alreadyConnected "connect called on a connected session"
    else .ok s
  | .known .disconnect =>
    if inCallback then fromCallback op
    else if s.joined then fault .federateIsExecutionMember "resign before disconnecting"
    else .ok s
  | .known service => do
    s.passGates op inCallback
    s.begin service
  | .other _ _ => do
    s.passGates op inCallback
    return s

/-- The standing once an operation has succeeded. -/
def confirm (s : Standing) (op : Operation) : Standing :=
  match op with
  | .other _ _ => s
  | .known service =>
    match service with
    | .resignFederationExecution => s.leave
    | .disableTimeRegulation => { s with regulation := .disabled }
    | .disableTimeConstrained => { s with constrained := .disabled }
    | .requestFederationSave => if s.save = .idle then { s with save := .requested } else s
    | .federateSaveComplete | .federateSaveNotComplete =>
      if s.save = .inProgress then { s with save := .awaitingAcknowledgement } else s
    | .abortFederationSave => { s with save := .idle }
    | .federateRestoreComplete | .federateRestoreNotComplete =>
      if s.restore = .inProgress then { s with restore := .awaitingAcknowledgement } else s
    | .abortFederationRestore => { s with restore := .idle }
    | _ => s

/-- The standing once an operation has failed: what it left pending is taken back. -/
def retract (s : Standing) (op : Operation) : Standing :=
  match op with
  | .other _ _ => s
  | .known service =>
    match service with
    | .enableTimeRegulation =>
      if s.regulation = .pending then { s with regulation := .disabled } else s
    | .enableTimeConstrained =>
      if s.constrained = .pending then { s with constrained := .disabled } else s
    | _ =>
      match Advance.ofService? service with
      | some a => if s.advance = some a then { s with advance := none } else s
      | none => s

/-- The standing after a callback of a kind has come. -/
def observe (s : Standing) (k : Callback.Kind) : Standing :=
  match k with
  | .timeRegulationEnabled => { s with regulation := .enabled }
  | .timeConstrainedEnabled => { s with constrained := .enabled }
  | .timeAdvanceGrant | .flushQueueGrant => { s with advance := none }
  | .initiateFederateSave => { s with save := .inProgress }
  | .federationSaved | .federationNotSaved => { s with save := .idle }
  | .requestFederationRestoreSucceeded => { s with restore := .requested }
  | .requestFederationRestoreFailed => { s with restore := .idle }
  | .federationRestoreBegun | .initiateFederateRestore => { s with restore := .inProgress }
  | .federationRestored | .federationNotRestored => { s with restore := .idle }
  | .federateResigned => s.leave
  | .connectionLost => idle
  | _ => s

/-! ## What passing the gates means -/

theorem advanceIdle_eq_ok_iff {s : Standing} : s.advanceIdle = .ok () ↔ s.advance = none := by
  unfold advanceIdle
  split
  · next h => simp [h]
  · next h => simp [h, fault]

theorem advanceIdle_bind {α : Type} {s : Standing} {f : Unit → Except Fault α} {r : α} :
    (s.advanceIdle >>= f) = .ok r ↔ s.advance = none ∧ f () = .ok r := by
  unfold advanceIdle
  split
  · next h => simp [h, bind, Except.bind]
  · next h => simp [h, fault, bind, Except.bind]

/-- What the gates let through. -/
theorem passGates_eq_ok_iff {s : Standing} {op : Operation} {inCallback : Bool} :
    s.passGates op inCallback = .ok () ↔
      s.connected = true ∧ (op.rules.forbiddenInCallback && inCallback) = false ∧
        (op.rules.needsJoin = true → s.joined = true) ∧
        (op.rules.blockedBySave && s.save.blocks) = false ∧
        (op.rules.blockedByRestore && s.restore.blocks) = false := by
  unfold passGates
  simp only [fault, fromCallback]
  split
  · simp_all
  split
  · simp_all
  split
  · simp_all
  split
  · simp_all
  split
  · simp_all
  · simp_all

private theorem eq_of_unless_fault {s s' : Standing} {p : Prop} [Decidable p] {k : Fault.Kind}
    {d : String} (h : (if p then fault k d else .ok s) = Except.ok s') : s' = s := by
  split at h
  · cases h
  · cases h; rfl

private theorem eq_of_if_or_fault {s s' : Standing} {p : Prop} [Decidable p] {k : Fault.Kind}
    {d : String} (h : (if p then .ok s else fault k d) = Except.ok s') : s' = s := by
  split at h
  · cases h; rfl
  · cases h

/-- The standing after an operation has begun: as before, or with a switch or an advance pending
where none was. -/
inductive Begun (s : Standing) : Service → Standing → Prop where
  | unchanged {service : Service} : Begun s service s
  | regulation (off : s.regulation = .disabled) (still : s.advance = none) :
    Begun s .enableTimeRegulation { s with regulation := .pending }
  | constrained (off : s.constrained = .disabled) (still : s.advance = none) :
    Begun s .enableTimeConstrained { s with constrained := .pending }
  | advance {service : Service} {a : Advance} (asked : Advance.ofService? service = some a)
    (still : s.advance = none) (regulation : s.regulation ≠ .pending)
    (constrained : s.constrained ≠ .pending) : Begun s service { s with advance := some a }

/-- What an operation leaves pending once its own conditions are met. -/
theorem begin_cases {s s' : Standing} {service : Service} (h : s.begin service = .ok s') :
    Begun s service s' := by
  have advances {service : Service} {a : Advance} (ha : Advance.ofService? service = some a)
      (hs : (do
        s.advanceIdle
        if s.regulation = .pending then fault .requestForTimeRegulationPending ""
        else if s.constrained = .pending then fault .requestForTimeConstrainedPending ""
        else return { s with advance := Advance.ofService? service }) = Except.ok s') :
      Begun s service s' := by
    obtain ⟨still, hs⟩ := advanceIdle_bind.mp hs
    split at hs
    · cases hs
    split at hs
    · cases hs
    · next hr hc =>
      cases hs
      rw [ha]
      exact .advance ha still hr hc
  unfold begin at h
  split at h
  case h_1 => exact eq_of_unless_fault h ▸ .unchanged
  case h_2 =>
    split at h
    · cases h
    · cases h
    · next off =>
      obtain ⟨still, h⟩ := advanceIdle_bind.mp h
      cases h
      exact .regulation off still
  case h_3 =>
    split at h
    · cases h
    · cases h
    · next off =>
      obtain ⟨still, h⟩ := advanceIdle_bind.mp h
      cases h
      exact .constrained off still
  case h_6 | h_7 | h_8 | h_9 | h_10 => exact advances rfl h
  case h_14 | h_17 => exact eq_of_unless_fault h ▸ .unchanged
  case h_4 | h_5 | h_11 | h_12 | h_13 => exact eq_of_if_or_fault h ▸ .unchanged
  case h_15 | h_16 =>
    split at h
    · cases h; exact .unchanged
    · cases h
    · cases h
  case h_18 => cases h; exact .unchanged

/-- An accepted operation has passed the gates and met its own conditions, unless it connects or
disconnects; then the standing stays. -/
theorem accept_cases {s s' : Standing} {op : Operation} {inCallback : Bool}
    (h : s.accept op inCallback = .ok s') :
    (s' = s ∧ inCallback = false ∧
      (op = .known .connect ∧ s.connected = false ∨
        op = .known .disconnect ∧ s.joined = false)) ∨
    s.passGates op inCallback = .ok () ∧
      ((∃ service, op = .known service ∧ s.begin service = .ok s') ∨
        ∃ tag scope, op = .other tag scope ∧ s' = s) := by
  have gates {α : Type} {f : Unit → Except Fault α} {r : α}
      (hb : (s.passGates op inCallback >>= f) = .ok r) :
      s.passGates op inCallback = .ok () ∧ f () = .ok r := by
    cases hg : s.passGates op inCallback with
    | error e => rw [hg] at hb; cases hb
    | ok u => rw [hg] at hb; exact ⟨rfl, hb⟩
  unfold accept at h
  split at h
  · split at h
    · cases h
    split at h
    · cases h
    · next hb hc =>
      cases h
      exact .inl ⟨rfl, by simpa using hb, .inl ⟨rfl, by simpa using hc⟩⟩
  · split at h
    · cases h
    split at h
    · cases h
    · next hb hj =>
      cases h
      exact .inl ⟨rfl, by simpa using hb, .inr ⟨rfl, by simpa using hj⟩⟩
  · obtain ⟨hg, hs⟩ := gates h
    exact .inr ⟨hg, .inl ⟨_, rfl, hs⟩⟩
  · obtain ⟨hg, hs⟩ := gates h
    cases hs
    exact .inr ⟨hg, .inr ⟨_, _, rfl, rfl⟩⟩

end Standing

end Federate
