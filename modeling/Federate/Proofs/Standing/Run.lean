/-
Runs of a standing: every order in which a client's threads may pass the
gates, confirm or retract what they asked for, note a join, deliver callbacks,
connect and fall back to nothing. A refusal is a step that changes nothing.
-/
import Federate.Standing
namespace Federate.Standing

/-- A step on a standing. -/
inductive Move where
  | accept (op : Operation) (inCallback : Bool)
  | confirm (op : Operation)
  | retract (op : Operation)
  | join (family : TimeFamily)
  | observe (kind : Callback.Kind)
  /-- The connection is made. -/
  | connect
  /-- Everything is forgotten: the client has disconnected, or the connection is lost. -/
  | reset
  deriving DecidableEq, Repr

/-- The standing after a step. -/
def after (s : Standing) : Move → Standing
  | .accept op inCallback =>
    match s.accept op inCallback with
    | .ok s' => s'
    | .error _ => s
  | .confirm op => s.confirm op
  | .retract op => s.retract op
  | .join family => s.join family
  | .observe kind => s.observe kind
  | .connect => fresh
  | .reset => idle

/-- The standing after some steps. -/
def run (s : Standing) (moves : List Move) : Standing := moves.foldl after s

@[simp] theorem run_nil (s : Standing) : s.run [] = s := rfl

@[simp] theorem run_cons (s : Standing) (m : Move) (ms : List Move) :
    s.run (m :: ms) = (s.after m).run ms := rfl

theorem run_append (s : Standing) (ms ns : List Move) : s.run (ms ++ ns) = (s.run ms).run ns :=
  List.foldl_append

/-- A property that every step of a run keeps holds after the run. -/
theorem run_induction {P : Standing → Prop} {Q : Move → Prop}
    (step : ∀ s m, Q m → P s → P (s.after m)) {s : Standing} {ms : List Move}
    (hQ : ∀ m ∈ ms, Q m) (hs : P s) : P (s.run ms) := by
  induction ms generalizing s with
  | nil => exact hs
  | cons m ms ih =>
    rw [run_cons]
    exact ih (fun n hn => hQ n (List.mem_cons_of_mem m hn)) (step s m (hQ m List.mem_cons_self) hs)

/-! ## Without a connection -/

/-- Does the move make something of the standing of a federate without a connection? -/
def Move.stirs : Move → Bool
  | .accept _ _ | .retract _ | .reset => false
  | .join _ | .connect => true
  | .confirm op => op == .known .requestFederationSave
  | .observe kind =>
    match kind with
    | .timeRegulationEnabled | .timeConstrainedEnabled | .initiateFederateSave
    | .requestFederationRestoreSucceeded | .federationRestoreBegun | .initiateFederateRestore =>
      true
    | _ => false

/-- The gates let nothing through that would change the standing. -/
theorem accept_idle {op : Operation} {inCallback : Bool} {s : Standing}
    (h : idle.accept op inCallback = .ok s) : s = idle := by
  rcases accept_cases h with ⟨rfl, -⟩ | ⟨hg, -⟩
  · rfl
  · have := (passGates_eq_ok_iff.mp hg).1
    cases this

/-- What leaves a federate without a connection as it is. -/
theorem after_idle_iff (m : Move) : idle.after m = idle ↔ m.stirs = false := by
  cases m with
  | accept op inCallback =>
    refine iff_of_true ?_ rfl
    rw [after]
    split
    · next h => exact accept_idle h
    · rfl
  | confirm op =>
    cases op with
    | other tag scope => exact iff_of_true rfl rfl
    | known service => cases service <;> decide
  | retract op =>
    refine iff_of_true ?_ rfl
    cases op with
    | other tag scope => rfl
    | known service => cases service <;> rfl
  | join family => exact iff_of_false nofun nofun
  | observe kind => cases kind <;> decide
  | connect => decide
  | reset => exact iff_of_true rfl rfl

/-- A federate without a connection stays so through some moves just if none makes anything of
it. -/
theorem run_idle_iff (ms : List Move) :
    (∀ ns, ns <+: ms → idle.run ns = idle) ↔ ∀ m ∈ ms, m.stirs = false := by
  induction ms with
  | nil =>
    refine iff_of_true (fun ns hns => ?_) nofun
    rw [List.prefix_nil.mp hns]
    rfl
  | cons m ms ih =>
    rw [List.forall_mem_cons, ← ih, ← after_idle_iff]
    constructor
    · intro all
      have first : idle.after m = idle := all [m] ⟨ms, rfl⟩
      refine ⟨first, fun ns hns => ?_⟩
      have := all (m :: ns) (List.cons_prefix_cons.mpr ⟨rfl, hns⟩)
      rwa [run_cons, first] at this
    · rintro ⟨first, all⟩ ns hns
      rcases List.prefix_cons_iff.mp hns with rfl | ⟨rest, rfl, hrest⟩
      · rfl
      · rw [run_cons, first]
        exact all rest hrest

end Federate.Standing
