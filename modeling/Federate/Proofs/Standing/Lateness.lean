/-
Late confirmations. An operation of a save or a restore is confirmed by the
thread that asked for it, and callbacks that the coordinator sends after its
answer may be delivered before the thread gets to it. Confirming looks at the
phase as it is then, so it is as good as in time where the last of these
callbacks has left a phase that confirming keeps. That is exactly when it makes
no difference how late a confirmation comes (`confirm_late_iff`).

Where the end of one save and the beginning of the next have come in between,
the confirmation of the first moves the second (`confirm_amid_next_save`).
-/
import Federate.Proofs.Standing.Run
namespace Federate

/-- What goes through phases. -/
inductive Undertaking where
  | save
  | restore
  deriving DecidableEq, Repr

/-- The phase in which a callback leaves an undertaking, if it moves it. -/
def Callback.Kind.phase? : Callback.Kind → Undertaking → Option Phase
  | .initiateFederateSave, .save => some .inProgress
  | .federationSaved, .save | .federationNotSaved, .save => some .idle
  | .requestFederationRestoreSucceeded, .restore => some .requested
  | .requestFederationRestoreFailed, .restore => some .idle
  | .federationRestoreBegun, .restore | .initiateFederateRestore, .restore => some .inProgress
  | .federationRestored, .restore | .federationNotRestored, .restore => some .idle
  | .federateResigned, _ | .connectionLost, _ => some .idle
  | _, _ => none

namespace Phase

/-- The federate has asked for it. -/
def request (p : Phase) : Phase := if p = .idle then .requested else p

/-- The federate has done its part. -/
def complete (p : Phase) : Phase := if p = .inProgress then .awaitingAcknowledgement else p

/-- The federate has called it off. -/
def abort (_ : Phase) : Phase := .idle

end Phase

/-- What confirming an operation does to the phase of an undertaking. -/
def Service.progress? : Service → Option (Undertaking × (Phase → Phase))
  | .requestFederationSave => some (.save, Phase.request)
  | .federateSaveComplete | .federateSaveNotComplete => some (.save, Phase.complete)
  | .abortFederationSave => some (.save, Phase.abort)
  | .federateRestoreComplete | .federateRestoreNotComplete => some (.restore, Phase.complete)
  | .abortFederationRestore => some (.restore, Phase.abort)
  | _ => none

namespace Standing

variable {s : Standing} {u : Undertaking} {p : Phase} {k : Callback.Kind}
  {cs : List Callback.Kind}

/-- How far an undertaking has come. -/
def phase (s : Standing) : Undertaking → Phase
  | .save => s.save
  | .restore => s.restore

/-- The standing with an undertaking in a phase. -/
def setPhase (s : Standing) (p : Phase) : Undertaking → Standing
  | .save => { s with save := p }
  | .restore => { s with restore := p }

@[simp] theorem phase_setPhase (s : Standing) (p : Phase) (u : Undertaking) :
    (s.setPhase p u).phase u = p := by
  cases u <;> rfl

@[simp] theorem setPhase_phase (s : Standing) (u : Undertaking) :
    s.setPhase (s.phase u) u = s := by
  cases u <;> rfl

/-- Confirming moves the phase on from where it is. -/
theorem confirm_of_progress {service : Service} {f : Phase → Phase}
    (h : service.progress? = some (u, f)) (s : Standing) :
    s.confirm (.known service) = s.setPhase (f (s.phase u)) u := by
  obtain ⟨connected, joined, regulation, constrained, advance, save, restore, family⟩ := s
  cases service with
  | requestFederationSave =>
    cases h
    by_cases hs : save = .idle <;> simp [confirm, setPhase, phase, Phase.request, hs]
  | federateSaveComplete | federateSaveNotComplete =>
    cases h
    by_cases hs : save = .inProgress <;> simp [confirm, setPhase, phase, Phase.complete, hs]
  | federateRestoreComplete | federateRestoreNotComplete =>
    cases h
    by_cases hs : restore = .inProgress <;> simp [confirm, setPhase, phase, Phase.complete, hs]
  | abortFederationSave | abortFederationRestore => cases h; rfl
  | _ => cases h

/-! ## Callbacks one after another -/

/-- The phase that a callback sets does not depend on the phase before. -/
theorem observe_setPhase_of_some {q : Phase} (h : k.phase? u = some q) :
    (s.setPhase p u).observe k = s.observe k := by
  cases u <;> cases k <;> first | rfl | cases h

/-- Another callback leaves the phase as it is. -/
theorem observe_setPhase_of_none (h : k.phase? u = none) :
    (s.setPhase p u).observe k = (s.observe k).setPhase p u := by
  cases u <;> cases k <;> first | rfl | cases h

theorem phase_observe (s : Standing) (k : Callback.Kind) (u : Undertaking) :
    (s.observe k).phase u = (k.phase? u).getD (s.phase u) := by
  cases u <;> cases k <;> rfl

/-- Some callbacks, as they are delivered. -/
def deliveries (cs : List Callback.Kind) : List Move := cs.map .observe

/-- The phase in which callbacks leave an undertaking, if any of them moves it. -/
def lastPhase? (u : Undertaking) (cs : List Callback.Kind) : Option Phase :=
  (cs.filterMap (·.phase? u)).getLast?

@[simp] theorem run_deliveries_cons (s : Standing) (k : Callback.Kind) (cs : List Callback.Kind) :
    s.run (deliveries (k :: cs)) = (s.observe k).run (deliveries cs) := rfl

theorem lastPhase?_append (u : Undertaking) (before later : List Callback.Kind) :
    lastPhase? u (before ++ later) = (lastPhase? u later).or (lastPhase? u before) := by
  rw [lastPhase?, List.filterMap_append, List.getLast?_append]
  rfl

theorem lastPhase?_cons (u : Undertaking) (k : Callback.Kind) (cs : List Callback.Kind) :
    lastPhase? u (k :: cs) = (lastPhase? u cs).or (k.phase? u) := by
  rw [← List.singleton_append, lastPhase?_append]
  cases h : k.phase? u <;> simp [lastPhase?, h]

theorem phase_run_deliveries (s : Standing) (cs : List Callback.Kind) (u : Undertaking) :
    (s.run (deliveries cs)).phase u = (lastPhase? u cs).getD (s.phase u) := by
  induction cs generalizing s with
  | nil => rfl
  | cons k cs ih =>
    rw [run_deliveries_cons, ih, lastPhase?_cons, phase_observe]
    cases lastPhase? u cs <;> rfl

/-- Once a callback has set the phase, it does not matter what it was. -/
theorem run_setPhase_of_some (s : Standing) (h : lastPhase? u cs ≠ none) :
    (s.setPhase p u).run (deliveries cs) = s.run (deliveries cs) := by
  induction cs generalizing s with
  | nil => exact absurd rfl h
  | cons k cs ih =>
    rw [run_deliveries_cons, run_deliveries_cons]
    cases hk : k.phase? u with
    | some q => rw [observe_setPhase_of_some hk]
    | none =>
      rw [observe_setPhase_of_none hk]
      refine ih _ ?_
      rwa [lastPhase?_cons, hk, Option.or_none] at h

/-- A phase that no callback sets stays through them. -/
theorem run_setPhase_of_none (s : Standing) (h : lastPhase? u cs = none) :
    (s.setPhase p u).run (deliveries cs) = (s.run (deliveries cs)).setPhase p u := by
  induction cs generalizing s with
  | nil => rfl
  | cons k cs ih =>
    rw [lastPhase?_cons, Option.or_eq_none_iff] at h
    rw [run_deliveries_cons, run_deliveries_cons, observe_setPhase_of_none h.2, ih _ h.1]

/-! ## Confirming among callbacks -/

/-- A confirmation that comes in time, before all callbacks. -/
theorem run_confirm_first {service : Service} {f : Phase → Phase}
    (h : service.progress? = some (u, f)) (s : Standing) (cs : List Callback.Kind) :
    s.run (.confirm (.known service) :: deliveries cs) =
      (s.setPhase (f (s.phase u)) u).run (deliveries cs) := by
  rw [run_cons, after, confirm_of_progress h]

/-- A confirmation that comes after some callbacks, and before others. -/
theorem run_confirm_amid {service : Service} {f : Phase → Phase}
    (h : service.progress? = some (u, f)) (s : Standing) (before later : List Callback.Kind) :
    s.run (deliveries before ++ .confirm (.known service) :: deliveries later) =
      ((s.run (deliveries before)).setPhase
        (f ((lastPhase? u before).getD (s.phase u))) u).run (deliveries later) := by
  rw [run_append, run_confirm_first h, phase_run_deliveries]

/-- **When a late confirmation disturbs nothing.** Of an operation of a save or a restore, and any
callbacks that come after its answer: it makes no difference when the operation is confirmed among
them, just when confirming it would keep the phase in which the last of them that moves the
undertaking leaves it. -/
theorem confirm_late_iff {service : Service} {f : Phase → Phase}
    (operation : service.progress? = some (u, f)) (s : Standing) (cs : List Callback.Kind) :
    (∀ before later, cs = before ++ later →
      s.run (deliveries before ++ .confirm (.known service) :: deliveries later) =
        s.run (.confirm (.known service) :: deliveries cs)) ↔
      ∀ p, lastPhase? u cs = some p → f p = p := by
  constructor
  · intro h p hp
    -- The last place for the confirmation is after all callbacks.
    have hlast := h cs [] (List.append_nil cs).symm
    rw [run_confirm_amid operation, run_confirm_first operation,
      run_setPhase_of_some s (by simp [hp]), hp] at hlast
    calc f p = ((s.run (deliveries cs)).setPhase (f p) u).phase u := (phase_setPhase ..).symm
      _ = (s.run (deliveries cs)).phase u := congrArg (phase · u) hlast
      _ = p := by rw [phase_run_deliveries, hp, Option.getD_some]
  · rintro hkeep before later rfl
    have hall : (s.run (deliveries before)).run (deliveries later) =
        s.run (deliveries (before ++ later)) := by
      simp [deliveries, run_append]
    rw [run_confirm_amid operation, run_confirm_first operation]
    cases hl : lastPhase? u later with
    | some p =>
      -- A later callback sets the phase, wherever it was.
      have hset : lastPhase? u (before ++ later) ≠ none := by simp [lastPhase?_append, hl]
      rw [run_setPhase_of_some _ (by simp [hl]), run_setPhase_of_some _ hset, hall]
    | none =>
      rw [run_setPhase_of_none _ hl, hall]
      cases hb : lastPhase? u before with
      | none =>
        have hset : lastPhase? u (before ++ later) = none := by simp [lastPhase?_append, hl, hb]
        rw [run_setPhase_of_none _ hset, Option.getD_none]
      | some p =>
        -- The phase is where the last callback has left it, and confirming keeps it there.
        have hset : lastPhase? u (before ++ later) = some p := by simp [lastPhase?_append, hl, hb]
        have hphase : (s.run (deliveries (before ++ later))).phase u = p := by
          rw [phase_run_deliveries, hset, Option.getD_some]
        rw [run_setPhase_of_some _ (by simp [hset]), Option.getD_some, hkeep p hset, ← hphase,
          setPhase_phase]

/-- The save is over before its last part is confirmed, and the confirmation comes to nothing, in
time or late. -/
theorem confirm_late_of_saved :
    Service.federateSaveComplete.progress? = some (.save, Phase.complete) ∧
    ∀ before later, [Callback.Kind.federationSaved] = before ++ later →
      let s := idle.run [.connect, .join .discrete, .observe .initiateFederateSave,
        .accept (.known .federateSaveComplete) false]
      s.run (deliveries before ++ .confirm (.known .federateSaveComplete) :: deliveries later) =
        s.run [.confirm (.known .federateSaveComplete), .observe .federationSaved] :=
  ⟨rfl, (confirm_late_iff rfl _ _).mpr (by rintro p ⟨⟩; rfl)⟩

/-- A member does its part of a save, and the next save has begun before that is confirmed. In time,
the confirmation leaves the next save where it is; late, it moves it, and the member's part of the
next save is then refused. -/
theorem confirm_amid_next_save :
    let s := idle.run [.connect, .join .discrete, .observe .initiateFederateSave]
    let complete : Operation := .known .federateSaveComplete
    let next : List Callback.Kind := [.federationSaved, .initiateFederateSave]
    s.accept complete false = .ok s ∧
    (s.run (.confirm complete :: deliveries next)).save = .inProgress ∧
    (s.run (deliveries next ++ [.confirm complete])).save = .awaitingAcknowledgement ∧
    (s.run (.confirm complete :: deliveries next)).accept complete false =
      .ok (s.run (.confirm complete :: deliveries next)) ∧
    ∃ e, (s.run (deliveries next ++ [.confirm complete])).accept complete false = .error e :=
  ⟨rfl, rfl, rfl, rfl, _, rfl⟩

end Standing

end Federate
