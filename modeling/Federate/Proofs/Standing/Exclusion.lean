/-
Requests about time exclude each other. While a switch is not off, or an
advance has not been granted, no other request of that sort is accepted, and
only certain steps take it away (`held_after`). So between two requests of one
sort that are accepted there is such a step (`freed_between`). An advance and a
switch that is asked for are never pending together (`apart_run`). What a step
can do to the switches and to the advance is said once, in `change`.
-/
import Federate.Proofs.Standing.Mark
import Federate.Proofs.Standing.Window
namespace Federate

namespace Standing.Move

/-- The step makes room for another request like the one of the mark: the mark is taken back, the
switch is turned off, the advance is granted, or the federate is in no federation afterwards. -/
def frees (x : Mark) : Move → Bool
  | .retract op => Mark.of? op == some x
  | .confirm (.known .disableTimeRegulation) => x == .regulation
  | .confirm (.known .disableTimeConstrained) => x == .constrained
  | .observe .timeAdvanceGrant | .observe .flushQueueGrant =>
    match x with
    | .advance _ => true
    | .regulation | .constrained => false
  | m => m.leaves

end Standing.Move

namespace Mark

open Standing

/-- The marks are of one sort: all advances are. -/
def Rivals : Mark → Mark → Prop
  | .regulation, .regulation | .constrained, .constrained | .advance _, .advance _ => True
  | _, _ => False

/-- Something has come of the mark, and has not been taken away: the switch is on or will be, or
the advance waits for its grant. -/
def Held : Mark → Standing → Prop
  | .regulation, s => s.regulation ≠ .disabled
  | .constrained, s => s.constrained ≠ .disabled
  | .advance a, s => s.advance = some a

variable {x y : Mark} {s : Standing}

theorem held_place (x : Mark) (s : Standing) : x.Held (x.place s) := by
  cases x <;> simp [Held, place]

/-- What is held leaves no room for its like. -/
theorem Held.no_room (held : x.Held s) (rivals : x.Rivals y) : ¬ y.Room s := by
  intro room
  cases x <;> cases y <;> first | exact rivals | skip
  · exact held room.1
  · exact held room.1
  · have hnone : s.advance = none := room.1
    rw [Held, hnone] at held
    cases held

/-- Placing a mark for which there is room lets go of nothing that is held. -/
theorem Held.place (held : x.Held s) (room : y.Room s) : x.Held (y.place s) := by
  cases y with
  | regulation =>
    cases x with
    | regulation => exact absurd room (held.no_room trivial)
    | constrained | advance a => exact held
  | constrained =>
    cases x with
    | constrained => exact absurd room (held.no_room trivial)
    | regulation | advance a => exact held
  | advance b =>
    cases x with
    | advance a => exact absurd room (held.no_room trivial)
    | regulation | constrained => exact held

/-- Clearing a mark of another sort lets go of nothing that is held. -/
theorem Held.clear (held : x.Held s) (apart : ¬ x.Rivals y) : x.Held (y.clear s) := by
  cases x <;> cases y <;> first | exact held | exact absurd trivial apart

/-- A mark that stands is all that is held of its sort. -/
theorem Held.eq_of_stands (held : x.Held s) (rivals : x.Rivals y) (stands : y.Stands s) :
    x = y := by
  cases x <;> cases y <;> first | rfl | exact rivals.elim | skip
  have ha : s.advance = some _ := held
  have hb : s.advance = some _ := stands
  rw [ha] at hb
  cases hb
  rfl

end Mark

namespace Standing

variable {s : Standing} {x y : Mark}

/-- The gates let the operation through. -/
def Accepts (s : Standing) (op : Operation) (inCallback : Bool) : Prop :=
  ∃ s', s.accept op inCallback = .ok s'

/-- Accepting or not, a standing has at most one more mark, for which there was room. -/
theorem after_accept (s : Standing) (op : Operation) (inCallback : Bool) :
    s.after (.accept op inCallback) = s ∨
      ∃ x : Mark, x.Room s ∧ s.after (.accept op inCallback) = x.place s := by
  simp only [after]
  split
  · next s' h =>
    cases hx : Mark.of? op with
    | none => exact .inl (eq_of_accept hx h)
    | some x => exact .inr ⟨x, place_of_accept hx h⟩
  · exact .inl rfl

theorem after_of_accepts {op : Operation} {inCallback : Bool} (mark : Mark.of? op = some x)
    (h : s.Accepts op inCallback) :
    x.Room s ∧ s.after (.accept op inCallback) = x.place s := by
  obtain ⟨s', h⟩ := h
  obtain ⟨room, rfl⟩ := place_of_accept mark h
  refine ⟨room, ?_⟩
  simp only [after, h]

/-- All that a step can do to the switches and to the advance. -/
inductive Change (s : Standing) (m : Move) : Standing → Prop where
  | same {s' : Standing} (regulation : s'.regulation = s.regulation)
    (constrained : s'.constrained = s.constrained) (advance : s'.advance = s.advance) :
    Change s m s'
  /-- An operation is let through, and finds room for its mark. -/
  | placed {x : Mark} (accepts : ∃ op c, m = .accept op c) (room : x.Room s) :
    Change s m (x.place s)
  /-- The step makes room for all that is held of one sort. -/
  | cleared {x : Mark} (frees : ∀ y, y.Rivals x → y.Held s → m.frees y = true) :
    Change s m (x.clear s)
  | out {s' : Standing} (frees : ∀ y, m.frees y = true) (regulation : s'.regulation = .disabled)
    (constrained : s'.constrained = .disabled) (advance : s'.advance = none) : Change s m s'
  | regulates : Change s m { s with regulation := .enabled }
  | constrains : Change s m { s with constrained := .enabled }

theorem change (s : Standing) (m : Move) : Change s m (s.after m) := by
  cases m with
  | accept op c =>
    rcases s.after_accept op c with h | ⟨x, room, h⟩
    · rw [h]
      exact .same rfl rfl rfl
    · rw [h]
      exact .placed ⟨op, c, rfl⟩ room
  | retract op =>
    show Change s _ (s.retract op)
    cases hy : Mark.of? op with
    | none =>
      rw [retract_of_no_mark hy]
      exact .same rfl rfl rfl
    | some y =>
      rw [retract_of_mark hy]
      split
      · next there =>
        refine .cleared fun z rivals held => ?_
        rw [held.eq_of_stands rivals there]
        simp [Move.frees, hy]
      · exact .same rfl rfl rfl
  | join family => exact .same rfl rfl rfl
  | connect | reset => exact .out (fun _ => rfl) rfl rfl rfl
  | observe kind =>
    cases kind with
    | connectionLost | federateResigned => exact .out (fun _ => rfl) rfl rfl rfl
    | timeRegulationEnabled => exact .regulates
    | timeConstrainedEnabled => exact .constrains
    | timeAdvanceGrant | flushQueueGrant =>
      refine .cleared (x := .advance .requested) fun y rivals _ => ?_
      cases y <;> first | rfl | cases rivals
    | _ => exact .same rfl rfl rfl
  | confirm op =>
    cases op with
    | other => exact .same rfl rfl rfl
    | known service =>
      cases service with
      | resignFederationExecution => exact .out (fun _ => rfl) rfl rfl rfl
      | disableTimeRegulation =>
        refine .cleared (x := .regulation) fun y rivals _ => ?_
        cases y <;> first | rfl | cases rivals
      | disableTimeConstrained =>
        refine .cleared (x := .constrained) fun y rivals _ => ?_
        cases y <;> first | rfl | cases rivals
      | requestFederationSave | federateSaveComplete | federateSaveNotComplete
      | federateRestoreComplete | federateRestoreNotComplete =>
        simp only [after, confirm]
        split <;> exact .same rfl rfl rfl
      | _ => exact .same rfl rfl rfl

/-- What is held stays held until a step makes room. -/
theorem held_after {m : Move} (hm : m.frees x = false) (held : x.Held s) :
    x.Held (s.after m) := by
  have h := s.change m
  generalize s.after m = s' at h ⊢
  cases h with
  | same regulation constrained advance =>
    cases x <;> simpa [Mark.Held, regulation, constrained, advance] using held
  | placed _ room => exact held.place room
  | cleared frees =>
    refine held.clear fun rivals => ?_
    rw [frees x rivals held] at hm
    cases hm
  | out frees =>
    rw [frees x] at hm
    cases hm
  | regulates => cases x <;> first | exact held | exact (nomatch ·)
  | constrains => cases x <;> first | exact held | exact (nomatch ·)

/-- Between two accepted requests of one sort there is a step that makes room. -/
theorem freed_between {first second : Operation} {c d : Bool} {between : List Move}
    (hx : Mark.of? first = some x) (hy : Mark.of? second = some y) (rivals : x.Rivals y)
    (h₁ : s.Accepts first c) (h₂ : ((s.after (.accept first c)).run between).Accepts second d) :
    ∃ m ∈ between, m.frees x = true := by
  by_contra hn
  have kept : ∀ m ∈ between, m.frees x = false := fun m hm => by
    rw [← Bool.not_eq_true]
    exact fun h => hn ⟨m, hm, h⟩
  have held : x.Held (s.after (.accept first c)) := by
    rw [(after_of_accepts hx h₁).2]
    exact x.held_place s
  have still : x.Held ((s.after (.accept first c)).run between) :=
    run_induction (P := x.Held) (fun _ _ hm => held_after hm) kept held
  exact still.no_room rivals (after_of_accepts hy h₂).1

/-! ## Advances and switches -/

/-- An advance and a switch that is asked for do not pend together. -/
def Apart (s : Standing) : Prop :=
  s.advance = none ∨ s.regulation ≠ .pending ∧ s.constrained ≠ .pending

theorem Apart.place (room : x.Room s) : (x.place s).Apart := by
  cases x with
  | regulation | constrained => exact .inl room.2
  | advance a => exact .inr room.2

theorem Apart.clear (h : s.Apart) (x : Mark) : (x.clear s).Apart := by
  cases x with
  | regulation => exact h.imp_right fun h => ⟨(nomatch ·), h.2⟩
  | constrained => exact h.imp_right fun h => ⟨h.1, (nomatch ·)⟩
  | advance a => exact .inl rfl

theorem Apart.after (h : s.Apart) (m : Move) : (s.after m).Apart := by
  have hc := s.change m
  generalize s.after m = s' at hc ⊢
  cases hc with
  | same regulation constrained advance =>
    unfold Apart
    rwa [regulation, constrained, advance]
  | placed _ room => exact .place room
  | cleared _ => exact h.clear _
  | out _ _ _ advance => exact .inl advance
  | regulates => exact h.imp_right fun h => ⟨(nomatch ·), h.2⟩
  | constrains => exact h.imp_right fun h => ⟨h.1, (nomatch ·)⟩

theorem apart_run (past : List Move) : (idle.run past).Apart :=
  run_induction (P := Apart) (Q := fun _ => True) (fun _ m _ h => h.after m) (by simp) (.inl rfl)

/-! ## Whole runs -/

/-- What holds of requests about time in every run. -/
structure TimeGates : Prop where
  /-- Between two accepted requests for an advance, of whatever kinds, the first is granted or
  taken back, or the federate leaves the federation. -/
  advances : ∀ (past between : List Move) (first second : Operation) (a b : Advance) (c d : Bool),
    Mark.of? first = some (.advance a) → Mark.of? second = some (.advance b) →
    (idle.run past).Accepts first c →
    (idle.run (past ++ .accept first c :: between)).Accepts second d →
    ∃ m ∈ between, m.frees (.advance a) = true
  /-- Between two accepted requests to turn the same switch on, the first is taken back, the switch
  is turned off, or the federate leaves the federation. -/
  switches : ∀ (past between : List Move) (op : Operation) (x : Mark) (c d : Bool),
    Mark.of? op = some x → (idle.run past).Accepts op c →
    (idle.run (past ++ .accept op c :: between)).Accepts op d →
    ∃ m ∈ between, m.frees x = true
  /-- An advance never pends together with a switch that is asked for. -/
  apart : ∀ past, (idle.run past).Apart
  /-- A refusal changes nothing. -/
  refusals : ∀ (past : List Move) (op : Operation) (c : Bool) (e : Fault),
    (idle.run past).accept op c = .error e → idle.run (past ++ [.accept op c]) = idle.run past

/-- **Requests about time exclude each other, in every run.** -/
theorem time_gates : TimeGates where
  advances past between first second a b c d hx hy h₁ h₂ := by
    rw [run_append, run_cons] at h₂
    exact freed_between hx hy trivial h₁ h₂
  switches past between op x c d hx h₁ h₂ := by
    rw [run_append, run_cons] at h₂
    refine freed_between hx hx ?_ h₁ h₂
    cases x <;> trivial
  apart := apart_run
  refusals past op c e h := by
    rw [run_append, run_cons, run_nil]
    simp only [after, h]

/-- A member asks for an advance, gets its grant, and asks again. -/
theorem time_gates_of_granted :
    let past : List Move := [.connect, .join .discrete]
    let first : Operation := .known .timeAdvanceRequest
    let between : List Move := [.confirm first, .observe .timeAdvanceGrant]
    (idle.run past).Accepts first false ∧
    (idle.run (past ++ .accept first false :: between)).Accepts (.known .flushQueueRequest) true ∧
    ∃ m ∈ between, m.frees (.advance .requested) = true := by
  refine ⟨⟨_, rfl⟩, ⟨_, rfl⟩, ?_⟩
  exact time_gates.advances [.connect, .join .discrete] _ (.known .timeAdvanceRequest)
    (.known .flushQueueRequest) .requested .flush false true rfl rfl ⟨_, rfl⟩ ⟨_, rfl⟩

end Standing

end Federate
