/-
Saves and restores shut out ordinary work. A save does so from the moment the
coordinator initiates it until it is over, whatever else happens in between
(`save_refuses`). A restore is open to one accident: the coordinator's answer
to a request for a restore also sets how far the restore has come, so an answer
that is late, or belongs to another request, opens the gates in the middle of a
restore, until the coordinator says again that it has begun. That is the only
way (`restore_refuses_iff`), and it does happen (`update_amid_restore`).
-/
import Mathlib.Data.List.Basic
import Mathlib.Data.List.Induction
import Mathlib.Tactic.ByContra
import Federate.Proofs.Standing.Run
namespace Federate.Standing

/-- An operation that is refused on every thread. -/
def Refuses (s : Standing) (op : Operation) : Prop :=
  ∀ inCallback, ∃ e, s.accept op inCallback = .error e

namespace Move

/-- The federate is in no federation afterwards, or its standing is that of a new client. -/
def leaves : Move → Bool
  | .confirm (.known .resignFederationExecution) | .observe .federateResigned
  | .observe .connectionLost | .connect | .reset => true
  | _ => false

/-- A save is over. -/
def endsSave : Move → Bool
  | .observe .federationSaved | .observe .federationNotSaved
  | .confirm (.known .abortFederationSave) => true
  | m => m.leaves

/-- A restore is over. -/
def endsRestore : Move → Bool
  | .observe .federationRestored | .observe .federationNotRestored
  | .confirm (.known .abortFederationRestore) => true
  | m => m.leaves

/-- The coordinator says that a restore has begun, or calls on the federate to restore. -/
def opensRestore : Move → Bool
  | .observe .federationRestoreBegun | .observe .initiateFederateRestore => true
  | _ => false

/-- The coordinator answers a request for a restore. -/
def answersRequest : Move → Bool
  | .observe .requestFederationRestoreSucceeded | .observe .requestFederationRestoreFailed => true
  | _ => false

end Move

/-! ## What accepting leaves alone -/

theorem Begun.phases {s s' : Standing} {service : Service} (h : Begun s service s') :
    s'.save = s.save ∧ s'.restore = s.restore := by
  cases h <;> exact ⟨rfl, rfl⟩

theorem phases_of_accept {s s' : Standing} {op : Operation} {inCallback : Bool}
    (h : s.accept op inCallback = .ok s') : s'.save = s.save ∧ s'.restore = s.restore := by
  rcases accept_cases h with ⟨rfl, _⟩ | ⟨_, ⟨_, _, hb⟩ | ⟨_, _, _, rfl⟩⟩
  · exact ⟨rfl, rfl⟩
  · exact (begin_cases hb).phases
  · exact ⟨rfl, rfl⟩

theorem phases_after_accept (s : Standing) (op : Operation) (inCallback : Bool) :
    (s.after (.accept op inCallback)).save = s.save ∧
      (s.after (.accept op inCallback)).restore = s.restore := by
  simp only [after]
  split
  · next h => exact phases_of_accept h
  · exact ⟨rfl, rfl⟩

theorem phases_retract (s : Standing) (op : Operation) :
    (s.retract op).save = s.save ∧ (s.retract op).restore = s.restore := by
  unfold retract
  repeat' split
  all_goals exact ⟨rfl, rfl⟩

/-- What is shut out by a save or a restore is for members alone. -/
theorem needsJoin_of_blocked {op : Operation}
    (h : op.rules.blockedBySave = true ∨ op.rules.blockedByRestore = true) :
    op.rules.needsJoin = true := by
  cases op with
  | other tag scope =>
    cases scope with
    | connection => rcases h with h | h <;> cases h
    | federation => rfl
  | known service =>
    cases service <;> first | rfl | (rcases h with h | h <;> cases h)

/-- A member's operation is refused unless the gates let it through. -/
theorem refuses_of_gates {s : Standing} {op : Operation} (hj : op.rules.needsJoin = true)
    (hg : ∀ inCallback, s.passGates op inCallback ≠ .ok ()) : Refuses s op := by
  intro inCallback
  cases ha : s.accept op inCallback with
  | error e => exact ⟨e, rfl⟩
  | ok s' =>
    rcases accept_cases ha with ⟨-, -, ⟨rfl, -⟩ | ⟨rfl, -⟩⟩ | ⟨h, -⟩
    · cases hj
    · cases hj
    · exact absurd h (hg inCallback)

theorem refuses_of_save {s : Standing} {op : Operation} (hop : op.rules.blockedBySave = true)
    (hs : s.save.blocks = true) : Refuses s op := by
  refine refuses_of_gates (needsJoin_of_blocked (.inl hop)) fun inCallback h => ?_
  obtain ⟨-, -, -, hsave, -⟩ := passGates_eq_ok_iff.mp h
  simp [hop, hs] at hsave

/-- When an operation that a restore shuts out is refused, without regard to saves. -/
theorem refuses_of_restore {s : Standing} {op : Operation} (hop : op.rules.blockedByRestore = true)
    (hs : s.restore.blocks = true ∨ s.connected = false ∨ s.joined = false) : Refuses s op := by
  have hneeds := needsJoin_of_blocked (.inr hop)
  refine refuses_of_gates hneeds fun inCallback h => ?_
  obtain ⟨hconnected, -, hjoined, -, hrestore⟩ := passGates_eq_ok_iff.mp h
  rcases hs with hs | hs | hs
  · simp [hop, hs] at hrestore
  · simp [hs] at hconnected
  · simp [hs, hneeds] at hjoined

/-! ## Saves -/

/-- Nothing but the end of a save takes a standing out of its closed phases. -/
theorem save_blocks_after {s : Standing} {m : Move} (hm : m.endsSave = false)
    (hs : s.save.blocks = true) : (s.after m).save.blocks = true := by
  cases m with
  | accept op inCallback => rw [(phases_after_accept s op inCallback).1, hs]
  | retract op => rw [after, (phases_retract s op).1, hs]
  | join family => exact hs
  | connect => cases hm
  | reset => cases hm
  | observe kind => cases kind <;> first | exact hs | rfl | cases hm
  | confirm op =>
    cases op with
    | other => exact hs
    | known service =>
      cases service <;> first | exact hs | (cases hm; done) | skip
      -- A request for a save changes nothing now, and a part that is complete waits for the rest.
      all_goals
        simp only [after, confirm]
        split
        · next h => first | exact hs | rfl | simp [Phase.blocks, h] at hs
        · exact hs

/-- A save shuts out ordinary work until it is over. -/
theorem save_refuses {s : Standing} {during : List Move} (hd : ∀ m ∈ during, m.endsSave = false)
    {op : Operation} (hop : op.rules.blockedBySave = true) :
    Refuses ((s.after (.observe .initiateFederateSave)).run during) op := by
  refine refuses_of_save hop ?_
  exact run_induction (P := fun t => t.save.blocks = true)
    (fun _ _ hm ht => save_blocks_after hm ht) hd rfl

/-! ## Restores -/

/-- An answer to a request for a restore has come, and nothing has opened the restore again. -/
def Overtaken (during : List Move) : Prop :=
  ∃ before answer later, during = before ++ answer :: later ∧ answer.answersRequest = true ∧
    ∀ m ∈ later, m.opensRestore = false

theorem not_overtaken_nil : ¬ Overtaken [] := by
  intro hx
  obtain ⟨before, answer, later, h, -⟩ := hx
  simp at h

theorem overtaken_append_singleton {ms : List Move} {m : Move} :
    Overtaken (ms ++ [m]) ↔
      m.answersRequest = true ∨ Overtaken ms ∧ m.opensRestore = false := by
  constructor
  · intro hx
    obtain ⟨before, answer, later, h, ha, hl⟩ := hx
    rcases List.eq_nil_or_concat' later with rfl | ⟨later, last, rfl⟩
    · obtain ⟨-, h⟩ := List.append_inj' h rfl
      cases h
      exact .inl ha
    · rw [← List.cons_append, ← List.append_assoc] at h
      obtain ⟨hms, h⟩ := List.append_inj' h rfl
      cases h
      refine .inr ⟨⟨before, answer, later, hms, ha, fun n hn => hl n ?_⟩, hl m ?_⟩
      · exact List.mem_append_left _ hn
      · simp
  · rintro (ha | ⟨⟨before, answer, later, rfl, ha, hl⟩, hm⟩)
    · exact ⟨ms, m, [], rfl, ha, by simp⟩
    · refine ⟨before, answer, later ++ [m], by simp, ha, fun n hn => ?_⟩
      rcases List.mem_append.mp hn with hn | hn
      · exact hl n hn
      · rw [List.mem_singleton.mp hn, hm]

/-- How a step moves the gates of a restore that it does not end. -/
theorem restore_blocks_after {s : Standing} {m : Move} (hm : m.endsRestore = false) :
    (s.after m).restore.blocks =
      (!m.answersRequest && (m.opensRestore || s.restore.blocks)) := by
  cases m with
  | accept op inCallback => rw [(phases_after_accept s op inCallback).2]; rfl
  | retract op => rw [after, (phases_retract s op).2]; rfl
  | join family => rfl
  | connect => cases hm
  | reset => cases hm
  | observe kind => cases kind <;> first | rfl | cases hm
  | confirm op =>
    cases op with
    | other => rfl
    | known service =>
      cases service <;> first | rfl | (cases hm; done) | skip
      all_goals
        simp only [after, confirm]
        split
        · next h => first | rfl | (rw [h]; rfl)
        · rfl

/-- The gates of a restore stay closed unless an answer to a request has opened them. -/
theorem restore_blocks_run {s : Standing} {during : List Move}
    (hd : ∀ m ∈ during, m.endsRestore = false) (hs : s.restore.blocks = true) :
    (s.run during).restore.blocks = true ↔ ¬ Overtaken during := by
  induction during using List.reverseRecOn with
  | nil => simp [hs, not_overtaken_nil]
  | append_singleton ms m ih =>
    specialize ih fun n hn => hd n (List.mem_append_left _ hn)
    rw [run_append, run_cons, run_nil, restore_blocks_after (hd m (by simp)),
      overtaken_append_singleton]
    cases ha : m.answersRequest <;> cases ho : m.opensRestore <;> simp [ih]

/-- The question that goes out as soon as nothing but a save or membership is in its way. -/
theorem accept_queryFederationSaveStatus {s : Standing} (hc : s.connected = true)
    (hj : s.joined = true) (hr : s.restore.blocks = false) :
    s.accept (.known .queryFederationSaveStatus) false = .ok s := by
  have hg : s.passGates (.known .queryFederationSaveStatus) false = .ok () := by
    rw [passGates_eq_ok_iff]
    simp [hc, hj, hr, Operation.rules, Operation.Rules.ofFederation]
  simp only [accept, hg]
  rfl

/-- A restore shuts out ordinary work until it is over, unless it has been overtaken. -/
theorem restore_refuses_iff {s : Standing} {opening : Move} {during : List Move}
    (ho : opening.opensRestore = true) (hd : ∀ m ∈ during, m.endsRestore = false) :
    (∀ op : Operation, op.rules.blockedByRestore = true →
      Refuses ((s.after opening).run during) op) ↔
      ¬ Overtaken during ∨ ((s.after opening).run during).connected = false ∨
        ((s.after opening).run during).joined = false := by
  have hopen : (s.after opening).restore.blocks = true := by
    have hb := restore_blocks_after (s := s) (m := opening) ?_
    · rw [hb, ho]
      cases opening with
      | observe kind => cases kind <;> first | rfl | cases ho
      | _ => cases ho
    · cases opening with
      | observe kind => cases kind <;> first | rfl | cases ho
      | _ => cases ho
  rw [← restore_blocks_run hd hopen]
  generalize (s.after opening).run during = t
  constructor
  · intro h
    by_contra hn
    simp only [not_or, Bool.not_eq_false] at hn
    obtain ⟨hr, hc, hj⟩ := hn
    obtain ⟨e, he⟩ := h (.known .queryFederationSaveStatus) rfl false
    rw [accept_queryFederationSaveStatus hc hj (by simpa using hr)] at he
    cases he
  · intro h op hop
    exact refuses_of_restore hop h

/-- **Saves and restores shut out ordinary work.** A save does so until it is over, and a restore
until it is over or overtaken: then a federate that is a member gets past its gates. -/
theorem closed_times (s : Standing) (during : List Move) :
    ((∀ m ∈ during, m.endsSave = false) → ∀ op : Operation, op.rules.blockedBySave = true →
      Refuses ((s.after (.observe .initiateFederateSave)).run during) op) ∧
    ∀ opening : Move, opening.opensRestore = true → (∀ m ∈ during, m.endsRestore = false) →
      ((∀ op : Operation, op.rules.blockedByRestore = true →
        Refuses ((s.after opening).run during) op) ↔
        ¬ Overtaken during ∨ ((s.after opening).run during).connected = false ∨
          ((s.after opening).run during).joined = false) :=
  ⟨fun hd _ hop => save_refuses hd hop, fun _ ho hd => restore_refuses_iff ho hd⟩

theorem not_overtaken_of_none {during : List Move}
    (h : ∀ m ∈ during, m.answersRequest = false) : ¬ Overtaken during := by
  intro hx
  obtain ⟨before, answer, later, rfl, ha, -⟩ := hx
  simp [h answer (by simp)] at ha

/-- A member that has done its part of a save, and one that restores, update no attributes. -/
theorem closed_times_of_member :
    Refuses (((fresh.join .discrete).after (.observe .initiateFederateSave)).run
      [.accept (.known .federateSaveComplete) true, .confirm (.known .federateSaveComplete)])
      (.known .updateAttributeValues) ∧
    Refuses (((fresh.join .discrete).after (.observe .federationRestoreBegun)).run
      [.observe .initiateFederateRestore, .confirm (.known .federateRestoreComplete)])
      (.known .updateAttributeValues) := by
  constructor
  · exact (closed_times _ _).1 (by decide) _ rfl
  · exact ((closed_times _ _).2 _ rfl (by decide)).mpr
      (.inl (not_overtaken_of_none (by decide))) _ rfl

/-- A member that has asked for a restore twice. -/
def askingTwice : List Move :=
  [.connect, .join .discrete, .accept (.known .requestFederationRestore) false,
   .confirm (.known .requestFederationRestore), .accept (.known .requestFederationRestore) false,
   .confirm (.known .requestFederationRestore)]

/-- One of the two restores has begun, and the other request fails: nothing has ended the restore,
and an update that restores shut out is accepted. -/
theorem update_amid_restore :
    (Move.observe .federationRestoreBegun).opensRestore = true ∧
    (∀ m ∈ [Move.observe .requestFederationRestoreFailed], m.endsRestore = false) ∧
    (Operation.known .updateAttributeValues).rules.blockedByRestore = true ∧
    ¬ Refuses (((idle.run askingTwice).after (.observe .federationRestoreBegun)).run
      [.observe .requestFederationRestoreFailed]) (.known .updateAttributeValues) := by
  refine ⟨rfl, by decide, rfl, fun h => ?_⟩
  obtain ⟨e, he⟩ := h false
  cases he

end Federate.Standing
