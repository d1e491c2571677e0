/-
Retraction. An errand that is let through leaves a mark, and when its call fails
it takes back a mark of that kind. A mark has no name on it. Here the history of
events says whose it is (`Mark.IsOf`): it is there since that errand was let
through. So an errand takes back its own mark, and nothing if there is none, and
it does more than that just if the mark is another errand's
(`Reachable.retraction`). That can be: leaving a federation clears the marks of
those who are still out, and whoever asks next leaves one like theirs
(`mark_of_another_retracted`).
-/
import Federate.Proofs.Ambassador.Affairs
namespace Federate

/-- The mark is there, and it is an errand's. -/
inductive Mark.IsOf (x : Mark) (i : Nat) : List Event → Prop where
  /-- The errand is let through, and that brings the mark about. -/
  | placed {past : List Event} {op : Operation} {inCallback : Bool}
    (free : ¬ x.Stands (Event.stand past))
    (stands : x.Stands (Event.stand (past ++ [.accepts i op inCallback]))) :
    IsOf x i (past ++ [.accepts i op inCallback])
  /-- Whatever is done, the mark is still there. -/
  | stays {past : List Event} {event : Event} (own : IsOf x i past)
    (stands : x.Stands (Event.stand (past ++ [event]))) : IsOf x i (past ++ [event])

namespace Mark

variable {x y : Mark} {i j : Nat} {history past : List Event} {event : Event}

theorem IsOf.stands (h : x.IsOf i history) : x.Stands (Event.stand history) := by
  cases h with
  | placed _ stands => exact stands
  | stays _ stands => exact stands

/-- Whose a mark is after one more event. -/
theorem isOf_append_singleton : x.IsOf i (past ++ [event]) ↔
    x.Stands (Event.stand (past ++ [event])) ∧
      (x.IsOf i past ∨ ¬ x.Stands (Event.stand past) ∧ ∃ op c, event = .accepts i op c) := by
  constructor
  · intro h
    refine ⟨h.stands, ?_⟩
    generalize hall : past ++ [event] = history at h
    cases h with
    | placed free =>
      obtain ⟨rfl, hevent⟩ := List.append_inj' hall rfl
      cases hevent
      exact .inr ⟨free, _, _, rfl⟩
    | stays own =>
      obtain ⟨rfl, -⟩ := List.append_inj' hall rfl
      exact .inl own
  · rintro ⟨stands, own | ⟨free, op, c, rfl⟩⟩
    · exact .stays own stands
    · exact .placed free stands

/-- Only an operation that is let through brings a mark about. -/
theorem stands_of_stands_after {s : Standing} {m : Standing.Move}
    (hm : ∀ op c, m ≠ .accept op c) (stands : x.Stands (s.after m)) : x.Stands s := by
  have h := s.change m
  generalize s.after m = s' at h stands
  cases h with
  | same regulation constrained advance =>
    cases x <;> simpa [Stands, regulation, constrained, advance] using stands
  | placed accepts =>
    obtain ⟨op, c, hop⟩ := accepts
    exact absurd hop (hm op c)
  | cleared _ => exact stands_of_stands_clear stands
  | out _ regulation constrained advance =>
    cases x <;> simp [Stands, regulation, constrained, advance] at stands
  | regulates | constrains => cases x <;> first | exact stands | cases stands

/-- A mark that is there is somebody's. -/
theorem exists_isOf (history : List Event) (h : x.Stands (Event.stand history)) :
    ∃ i, x.IsOf i history := by
  induction history using List.reverseRecOn with
  | nil => cases x <;> cases h
  | append_singleton past event ih =>
    by_cases before : x.Stands (Event.stand past)
    · obtain ⟨i, own⟩ := ih before
      exact ⟨i, own.stays h⟩
    -- The mark has come about with this event.
    cases event with
    | accepts i op c => exact ⟨i, .placed before h⟩
    | _ =>
      rw [Event.stand_append_singleton] at h
      exact absurd (stands_of_stands_after (by nofun) h) before

/-- A mark has no two owners. -/
theorem IsOf.unique (hi : x.IsOf i history) (hj : x.IsOf j history) : i = j := by
  induction hi with
  | placed free =>
    rcases (isOf_append_singleton.mp hj).2 with own | ⟨-, _, _, hevent⟩
    · exact absurd own.stands free
    · cases hevent
      rfl
  | stays own _ ih =>
    rcases (isOf_append_singleton.mp hj).2 with own' | ⟨free, -⟩
    · exact ih own'
    · exact absurd own.stands free

end Mark

/-! ## Errands that were let through -/

namespace Errand

/-- The errand has been let through, and has not ended. -/
def LetThrough (e : Errand) : Prop :=
  match e.stage with
  | .seeking _ | .calling _ _ _ | .settling _ | .reading _ | .joining _ _ => True
  | .checking | .accepting _ | .ended _ => False

variable {e : Errand} {a : Ambassador}

theorem operation_afterCall (e : Errand) (awaited : Bool) (result : Except Fault Bytes) :
    (e.afterCall awaited result).operation = e.operation := by
  unfold afterCall
  split
  · rfl
  · cases result <;> rfl

theorem operation_readAnswer (e : Errand) (settled : Option TimeFamily) (payload : Bytes) :
    (e.readAnswer settled payload).operation = e.operation := by
  unfold readAnswer
  split
  · rfl
  · split
    · split <;> rfl
    · rfl

/-- An errand is about one operation from its beginning to its end. -/
theorem operation_step (e : Errand) (a : Ambassador) : (e.step a).1.operation = e.operation := by
  unfold step
  split
  · split
    · split <;> rfl
    · rfl
  · split <;> rfl
  · split
    · rfl
    · exact operation_afterCall ..
    · split <;> rfl
  · split
    · exact operation_afterCall ..
    · rfl
  · split <;> rfl
  · exact operation_readAnswer ..
  · rfl
  · rfl

theorem operation_onCall (e : Errand) (f : Call → Session → Call × Session) (a : Ambassador) :
    (e.onCall f a).1.operation = e.operation := by
  unfold onCall
  split <;> rfl

/-- Only the gates let an errand through. -/
theorem letThrough_of_step (i : Nat) (h : (e.step a).1.LetThrough) :
    e.LetThrough ∨ ∃ c, e.event? i a = some (.accepts i e.operation c) := by
  cases hs : e.stage with
  | checking =>
    simp only [step, hs] at h
    split at h
    · split at h
      · exact h.elim
      · simp only [LetThrough, hs] at h
    · exact h.elim
  | accepting awaited =>
    simp only [step, hs] at h
    split at h
    · next ha =>
      refine .inr ⟨a.inCallback e.thread, ?_⟩
      simp only [event?, hs, ha]
    · exact h.elim
  | ended result =>
    simp only [step, hs, LetThrough] at h
  | _ =>
    left
    simp only [LetThrough, hs]

theorem letThrough_of_onCall {f : Call → Session → Call × Session}
    (h : (e.onCall f a).1.LetThrough) : e.LetThrough := by
  unfold onCall at h
  split at h
  · next hs => simp only [LetThrough, hs]
  · exact h

end Errand

namespace Affairs

variable {t t' : Affairs} {i : Nat} {e : Errand}

/-- Whoever has been let through after a step was so before it, or is let through in it. -/
theorem Step.letThrough (h : Step t t') (known : t'.errands i = some e) (through : e.LetThrough) :
    (∃ e₀, t.errands i = some e₀ ∧ e₀.operation = e.operation ∧ e₀.LetThrough) ∨
      ∃ c, .accepts i e.operation c ∈ t'.history := by
  cases h with
  | begin thread request new =>
    rcases of_update known with ⟨rfl, rfl⟩ | ⟨-, before⟩
    · exact through.elim
    · exact .inl ⟨e, before, rfl, through⟩
  | errand known' =>
    rcases of_update known with ⟨rfl, rfl⟩ | ⟨-, before⟩
    · rcases Errand.letThrough_of_step i through with earlier | ⟨c, hevent⟩
      · exact .inl ⟨_, known', (Errand.operation_step ..).symm, earlier⟩
      · refine .inr ⟨c, List.mem_append_right _ ?_⟩
        rw [hevent, Errand.operation_step]
        exact List.mem_singleton_self _
    · exact .inl ⟨e, before, rfl, through⟩
  | call known' f =>
    rcases of_update known with ⟨rfl, rfl⟩ | ⟨-, before⟩
    · exact .inl ⟨_, known', (Errand.operation_onCall ..).symm,
        Errand.letThrough_of_onCall through⟩
    · exact .inl ⟨e, before, rfl, through⟩
  | _ => exact .inl ⟨e, known, rfl, through⟩

/-- Errands that have been let through are in the notes. -/
def Entered (t : Affairs) : Prop :=
  ∀ i e, t.errands i = some e → e.LetThrough → ∃ c, .accepts i e.operation c ∈ t.history

theorem Entered.step (h : Entered t) (hs : Step t t') : Entered t' := by
  intro i e known through
  rcases hs.letThrough known through with ⟨e₀, before, op, earlier⟩ | now
  · obtain ⟨c, hc⟩ := h i e₀ before earlier
    obtain ⟨x, hhistory, -⟩ := hs.event
    rw [hhistory, ← op]
    exact ⟨c, List.mem_append_left _ hc⟩
  · exact now

theorem Reachable.entered (h : Reachable t) : Entered t := by
  obtain ⟨settings, hs⟩ := h
  induction hs with
  | refl => intro i e known; cases known
  | tail _ hs ih => exact ih.step hs

/-! ## What a failed errand does -/

/-- What becomes of the standing when an errand fails and takes back the mark of its operation. -/
structure Retraction (t : Affairs) (i : Nat) (e : Errand) (x : Mark) (s : Standing) : Prop where
  /-- The errand was let through, and there was room for its mark. -/
  asked : ∃ past c later, t.history = past ++ .accepts i e.operation c :: later ∧
    x.Room (Event.stand past)
  /-- Its own mark is taken away. -/
  own : x.IsOf i t.history → s = x.clear t.standing
  /-- Otherwise nothing changes, just if the mark is not another errand's. -/
  foreign : (¬ x.IsOf i t.history → s = t.standing) ↔ ∀ j, x.IsOf j t.history → j = i
  /-- Marks of other kinds stay. -/
  others : ∀ y, y ≠ x → (y.Stands s ↔ y.Stands t.standing)
  /-- If nothing has been done since the errand was let through, all is as it was before that. -/
  undisturbed : ∀ past c, t.history = past ++ [.accepts i e.operation c] → s = Event.stand past

/-- **What a failed errand takes back.** In every order of steps, an errand whose call has failed
takes back its own mark, and no other just if nobody else's mark is there. -/
theorem Reachable.retraction {x : Mark} {f : Fault} (h : Reachable t)
    (known : t.errands i = some e) (stage : e.stage = .settling (.error f))
    (mark : Mark.of? e.operation = some x) :
    Retraction t i e x (e.step t.ambassador).2.standing := by
  have standing := h.noted.standing
  have after : (e.step t.ambassador).2.standing =
      if x.Stands t.standing then x.clear t.standing else t.standing := by
    simp only [Errand.step, stage]
    exact Standing.retract_of_mark mark t.standing
  rw [after]
  constructor
  · obtain ⟨c, hc⟩ := h.entered i e known (by simp only [Errand.LetThrough, stage])
    obtain ⟨past, later, hist⟩ := List.append_of_mem hc
    have accepts := h.noted.fits past _ later hist
    exact ⟨past, c, later, hist, (Standing.after_of_accepts mark accepts).1⟩
  · intro own
    have there := own.stands
    rw [← standing] at there
    exact if_pos there
  · constructor
    · -- A mark that is there is cleared, whosever it is.
      intro kept j own
      by_contra hj
      have there := own.stands
      rw [← standing] at there
      have same := kept fun own' => hj (own.unique own')
      rw [if_pos there] at same
      have gone := x.not_stands_clear t.standing
      rw [same] at gone
      exact gone there
    · intro alone notOwn
      by_cases there : x.Stands t.standing
      · rw [standing] at there
        obtain ⟨j, own⟩ := Mark.exists_isOf t.history there
        exact absurd (alone j own ▸ own) notOwn
      · exact if_neg there
  · intro y hne
    split
    · next there => exact Mark.stands_clear_other there hne
    · rfl
  · intro past c hist
    have accepts := h.noted.fits past _ [] hist
    obtain ⟨s', hs'⟩ := accepts
    have undone := Standing.retract_of_accept hs'
    rw [Standing.retract_of_mark mark] at undone
    have now : t.standing = s' := by
      rw [standing, hist, Event.stand_append_singleton, Event.move, Standing.after, hs']
    rwa [now]

/-- A member asks for an advance, and its call fails. It is resigned, joins again, and asks for an
advance again before the failed errand goes on. -/
theorem steps_two_advances : ∃ t t' e e' f,
    Relation.ReflTransGen Step (fresh .standard) t ∧ t.errands 0 = some e ∧
    e.stage = .settling (.error f) ∧ e.operation = .known .timeAdvanceRequest ∧
    t.history = [.connects 0, .notes 0 .discrete,
      .accepts 0 (.known .timeAdvanceRequest) false] ∧
    Relation.ReflTransGen Step (fresh .standard) t' ∧ t'.errands 0 = some e ∧
    t'.errands 1 = some e' ∧ e'.LetThrough ∧
    t'.history = t.history ++ [.observes 0 .federateResigned, .notes 0 .discrete,
      .accepts 1 (.known .timeAdvanceRequest) false] := by
  have joined := steps_opened.tail (.answer 0 ⟨3, .result welcome, .noting 0 10⟩)
  have begun := joined.tail (.begin (i := 0) .application
    (.service .timeAdvanceRequest (.discrete ⟨5, by decide⟩, ())) rfl)
  have checked := begun.tail (.errand (i := 0) rfl)
  have accepted := checked.tail (.errand (i := 0) rfl)
  have called := accepted.tail (.errand (i := 0) rfl)
  have failed := called.tail (.call (i := 0) rfl fun c s =>
    (c.goTo (.ended (.error Errand.unconnected)), s))
  have ended := failed.tail (.errand (i := 0) rfl)
  have resigned := ended.tail
    (.deliver ⟨0, .application, .observing none ⟨.federateResigned, ("resigned", ())⟩⟩)
  have joinedAgain := resigned.tail (.answer 0 ⟨5, .result welcome, .noting 2 10⟩)
  have begunAgain := joinedAgain.tail (.begin (i := 1) .application
    (.service .timeAdvanceRequest (.discrete ⟨7, by decide⟩, ())) rfl)
  have checkedAgain := begunAgain.tail (.errand (i := 1) rfl)
  have acceptedAgain := checkedAgain.tail (.errand (i := 1) rfl)
  exact ⟨_, _, _, _, _, ended, rfl, rfl, rfl, rfl, acceptedAgain, rfl, rfl, trivial, rfl⟩

/-- Nothing has been done since the errand was let through: all is as it was before. -/
theorem retraction_of_alone : ∃ t e, Reachable t ∧ t.errands 0 = some e ∧
    (e.step t.ambassador).2.standing = Standing.fresh.join .discrete := by
  obtain ⟨t, _, e, _, f, steps, known, stage, op, history, -⟩ := steps_two_advances
  have h : Reachable t := ⟨_, steps⟩
  have mark : Mark.of? e.operation = some (.advance .requested) := by rw [op]; rfl
  have retraction := Reachable.retraction h known stage mark
  refine ⟨t, e, h, known, ?_⟩
  exact retraction.undisturbed [.connects 0, .notes 0 .discrete] false (by rw [history, op]; rfl)

/-- The mark that a failed errand takes back is that of another, which still waits for its
advance. -/
theorem mark_of_another_retracted : ∃ t e e' f x, Reachable t ∧ t.errands 0 = some e ∧
    e.stage = .settling (.error f) ∧ Mark.of? e.operation = some x ∧
    t.errands 1 = some e' ∧ e'.LetThrough ∧ x.IsOf 1 t.history ∧
    ¬ x.Stands (e.step t.ambassador).2.standing := by
  obtain ⟨_, t, e, e', f, -, -, stage, op, before, steps, known, known', through, history⟩ :=
    steps_two_advances
  rw [before] at history
  have h : Reachable t := ⟨_, steps⟩
  have mark : Mark.of? e.operation = some (.advance .requested) := by rw [op]; rfl
  refine ⟨t, e, e', f, .advance .requested, h, known, stage, mark, known', through, ?_, ?_⟩
  · rw [history]
    have free : ¬ (Mark.advance .requested).Stands (Event.stand [.connects 0, .notes 0 .discrete,
      .accepts 0 (.known .timeAdvanceRequest) false, .observes 0 .federateResigned,
      .notes 0 .discrete]) := by decide
    exact .placed free rfl
  · simp only [Errand.step, stage]
    rw [Standing.retract_of_mark mark]
    split
    · exact Mark.not_stands_clear _ _
    · assumption

end Affairs

end Federate
