/-
Times on their way out. An errand checks the times of its request against the
settled family and then passes the gates, in two steps. The check says nothing
before a family is settled; the gates ask for a member, and members have one,
but they do not look at the times. So a request goes out with times of another
family just if what is done between its check and its gates settles another
family (`Reachable.admission`), and that can be: a join is noted in between
(`admitted_of_other_family`).
-/
import Federate.Proofs.Ambassador.Membership
import Federate.Proofs.Codec.Callbacks
import Federate.Proofs.Standing.Family
namespace Federate

/-! ## What the check passes -/

theorem Time.expect_eq_ok_iff {f : TimeFamily} {t : Time} : t.expect f = .ok () ↔ t.family = f := by
  unfold expect
  split
  · next h => exact iff_of_true rfl h
  · next h => exact iff_of_false nofun h

theorem Interval.expect_eq_ok_iff {f : TimeFamily} {i : Interval} :
    i.expect f = .ok () ↔ i.family = f := by
  unfold expect
  split
  · next h => exact iff_of_true rfl h
  · next h => exact iff_of_false nofun h

private theorem then_eq_ok_iff {x y : Except Fault Unit} :
    (x >>= fun _ => y) = .ok () ↔ x = .ok () ∧ y = .ok () := by
  cases x with
  | error e => exact iff_of_false nofun nofun
  | ok u => exact (and_iff_right rfl).symm

private theorem forM_eq_ok_iff {α : Type} {check : α → Except Fault Unit} {vs : List α} :
    vs.forM check = .ok () ↔ ∀ v ∈ vs, check v = .ok () := by
  induction vs with
  | nil => exact iff_of_true rfl nofun
  | cons v vs ih =>
    show (check v >>= fun _ => vs.forM check) = .ok () ↔ _
    rw [then_eq_ok_iff, ih, List.forall_mem_cons]

private theorem forM_toList {α : Type} (check : α → Except Fault Unit) (v : Option α) :
    v.forM check = v.toList.forM check := by
  cases v with
  | none => rfl
  | some a => exact (bind_pure (check a)).symm

private theorem forall_mem_append_iff {xs ys : List TimeFamily} {f : TimeFamily} :
    (∀ g ∈ xs ++ ys, g = f) ↔ (∀ g ∈ xs, g = f) ∧ ∀ g ∈ ys, g = f := by
  simp only [List.mem_append, or_imp, forall_and]

private theorem forall_mem_flatMap_iff {α : Type} {families : α → List TimeFamily} {vs : List α}
    {f : TimeFamily} :
    (∀ g ∈ vs.flatMap families, g = f) ↔ ∀ v ∈ vs, ∀ g ∈ families v, g = f := by
  simp only [List.mem_flatMap, forall_exists_index, and_imp]
  exact ⟨fun h v hv g hg => h g v hv hg, fun h g v hv hg => h v hv g hg⟩

/-- A value is passed just if every time and interval in it is of the family. -/
theorem Shape.expect_eq_ok_iff {f : TimeFamily} {s : Shape} {v : s.Value} :
    s.expect f v = .ok () ↔ ∀ g ∈ s.families v, g = f := by
  induction s with
  | time =>
    rw [families, List.forall_mem_singleton]
    exact Time.expect_eq_ok_iff
  | interval =>
    rw [families, List.forall_mem_singleton]
    exact Interval.expect_eq_ok_iff
  | info =>
    show v.time.forM (·.expect f) = .ok () ↔ _
    rw [forM_toList, forM_eq_ok_iff]
    simp [families, Time.expect_eq_ok_iff]
  | maybe s ih =>
    show v.forM (s.expect f) = .ok () ↔ _
    rw [forM_toList, forM_eq_ok_iff, families, forall_mem_flatMap_iff]
    simp only [ih]
  | list s ih =>
    show v.forM (s.expect f) = .ok () ↔ _
    rw [forM_eq_ok_iff, families, forall_mem_flatMap_iff]
    simp only [ih]
  | pair s t ihs iht =>
    show (s.expect f v.1 >>= fun _ => t.expect f v.2) = .ok () ↔ _
    rw [then_eq_ok_iff, ihs, iht, families, forall_mem_append_iff]
  | _ => exact iff_of_true rfl fun _ hg => absurd hg List.not_mem_nil

theorem Layout.expect_eq_ok_iff {f : TimeFamily} {l : Layout} {r : l.Record} :
    l.expect f r = .ok () ↔ ∀ g ∈ l.families r, g = f := by
  induction l with
  | nil => exact iff_of_true rfl fun _ hg => absurd hg List.not_mem_nil
  | cons field rest ih =>
    show (field.2.expect f r.1 >>= fun _ => Layout.expect f rest r.2) = .ok () ↔ _
    rw [then_eq_ok_iff, Shape.expect_eq_ok_iff, ih, families, forall_mem_append_iff]

namespace Request

/-- The families of the times and intervals in the request, first to last. -/
def families : Request → List TimeFamily
  | .service s r => s.arguments.families r
  | .other _ _ _ => []

/-- Against a settled family, a request is passed only if all of its times are of it. -/
theorem family_of_check {r : Request} {f : TimeFamily} (h : r.check (some f) = .ok ()) :
    ∀ g ∈ r.families, g = f := by
  cases r with
  | service s r => exact Layout.expect_eq_ok_iff.mp h
  | other tag payload scope => nofun

/-- Only members may ask for anything with a time in it. -/
theorem needsJoin_of_families {r : Request} {g : TimeFamily} (h : g ∈ r.families) :
    r.operation.rules.needsJoin = true := by
  cases r with
  | other tag payload scope => cases h
  | service s r =>
    cases s with
    | connect | disconnect => cases h
    | joinFederationExecution => simp [families, Layout.families, Shape.families] at h
    | _ => rfl

end Request

/-! ## From the check to the gates -/

theorem Standing.Accepts.joined {s : Standing} {op : Operation} {inCallback : Bool}
    (h : s.Accepts op inCallback) (needs : op.rules.needsJoin = true) : s.joined = true := by
  obtain ⟨s', h⟩ := h
  rcases accept_cases h with ⟨-, -, ⟨rfl, -⟩ | ⟨rfl, -⟩⟩ | ⟨passes, -⟩
  · cases needs
  · cases needs
  · exact (passGates_eq_ok_iff.mp passes).2.2.1 needs

namespace Errand

variable {e : Errand} {a : Ambassador} {awaited : Bool}

theorem not_accepting_afterCall (awaited' : Bool) (result : Except Fault Bytes) :
    (e.afterCall awaited' result).stage ≠ .accepting awaited := by
  unfold afterCall
  split
  · nofun
  · cases result <;> nofun

theorem not_accepting_readAnswer (settled : Option TimeFamily) (payload : Bytes) :
    (e.readAnswer settled payload).stage ≠ .accepting awaited := by
  unfold readAnswer
  split
  · nofun
  · split
    · split <;> nofun
    · nofun

/-- An errand that comes to the gates in a step has set out and passed its check in it. -/
theorem check_of_step (h : (e.step a).1.stage = .accepting awaited) :
    e = .fresh e.thread e.request ∧ e.request.check a.standing.family = .ok () ∧
      e.step a = (e.goTo (.accepting awaited), a) := by
  cases hs : e.stage with
  | checking =>
    simp only [step, hs] at h ⊢
    split at h
    · next passed =>
      split at h
      · cases h
        exact ⟨by rw [fresh, ← hs], passed, rfl⟩
      · rw [hs] at h
        cases h
    · cases h
  | accepting | settling =>
    simp only [step, hs] at h
    split at h <;> cases h
  | seeking =>
    simp only [step, hs] at h
    split at h
    · rw [hs] at h
      cases h
    · exact (not_accepting_afterCall _ _ h).elim
    · split at h <;> cases h
  | calling =>
    simp only [step, hs] at h
    split at h
    · exact (not_accepting_afterCall _ _ h).elim
    · cases h
  | reading =>
    simp only [step, hs] at h
    exact (not_accepting_readAnswer _ _ h).elim
  | joining | ended =>
    simp only [step, hs] at h
    cases h

/-- Nothing that befalls a call brings an errand to the gates. -/
theorem onCall_of_accepting {f : Call → Session → Call × Session}
    (h : (e.onCall f a).1.stage = .accepting awaited) : (e.onCall f a).1 = e := by
  unfold onCall at h ⊢
  split
  · next hs => simp only [hs] at h; cases h
  · rfl

end Errand

namespace Affairs

variable {t₀ t t' : Affairs} {i : Nat} {e : Errand} {awaited : Bool}

/-- What has been noted is not taken back. -/
theorem history_of_steps (h : Relation.ReflTransGen Step t t') :
    ∃ later, t'.history = t.history ++ later := by
  induction h with
  | refl => exact ⟨[], (List.append_nil _).symm⟩
  | tail _ hs ih =>
    obtain ⟨later, ih⟩ := ih
    obtain ⟨x, hx, -⟩ := hs.event
    exact ⟨later ++ x.toList, by rw [hx, ih, List.append_assoc]⟩

/-- At `t₀` the errand takes the step in which it passes its check, and at `t` it is still before
the gates. -/
structure Checked (t₀ t : Affairs) (i : Nat) (e : Errand) : Prop where
  reachable : Reachable t₀
  known : t₀.errands i = some (.fresh e.thread e.request)
  check : ((Errand.fresh e.thread e.request).step t₀.ambassador).1 = e
  since : Relation.ReflTransGen Step (t₀.setErrand i e) t

theorem Checked.tail (h : Checked t₀ t i e) (hs : Step t t') : Checked t₀ t' i e :=
  ⟨h.reachable, h.known, h.check, h.since.tail hs⟩

/-- An errand before the gates was there before the step, or comes from its check. -/
theorem Step.accepting (h : Step t t') (known : t'.errands i = some e)
    (stage : e.stage = .accepting awaited) :
    t.errands i = some e ∨ t.errands i = some (.fresh e.thread e.request) ∧
      ((Errand.fresh e.thread e.request).step t.ambassador).1 = e ∧ t' = t.setErrand i e := by
  cases h with
  | begin thread request new =>
    rcases of_update known with ⟨-, rfl⟩ | ⟨-, before⟩
    · cases stage
    · exact .inl before
  | @errand j e₀ known' =>
    rcases of_update known with ⟨rfl, rfl⟩ | ⟨-, before⟩
    · obtain ⟨fresh, passed, hstep⟩ := Errand.check_of_step stage
      have still : e₀.event? i t.ambassador = none := by rw [fresh]; rfl
      rw [hstep, still, does, Option.toList_none, List.append_nil]
      refine .inr ⟨known'.trans (congrArg some fresh), ?_, rfl⟩
      show ((Errand.fresh e₀.thread e₀.request).step t.ambassador).1 = _
      rw [← fresh, hstep]
    · exact .inl before
  | call known' f =>
    rcases of_update known with ⟨rfl, rfl⟩ | ⟨-, before⟩
    · exact .inl (known'.trans (congrArg some (Errand.onCall_of_accepting stage).symm))
    · exact .inl before
  | _ => exact .inl known

theorem Reachable.checked (h : Reachable t) (known : t.errands i = some e)
    (stage : e.stage = .accepting awaited) : ∃ t₀, Checked t₀ t i e := by
  obtain ⟨settings, hs⟩ := h
  induction hs with
  | refl => cases known
  | @tail t t' hs last ih =>
    rcases last.accepting known stage with before | ⟨fresh, check, rfl⟩
    · obtain ⟨t₀, checked⟩ := ih before
      exact ⟨t₀, checked.tail last⟩
    · exact ⟨t, ⟨settings, hs⟩, fresh, check, .refl⟩

/-- **When times go out in the family of the federation.** In every order of steps, a request that
the gates let through has passed its check before; and a time or an interval in it is of the family
that is settled now just if what has been done since its check would have left that family
settled. -/
theorem Reachable.admission (h : Reachable t) (known : t.errands i = some e)
    (stage : e.stage = .accepting awaited)
    (accepts : t.standing.Accepts e.operation (t.ambassador.inCallback e.thread)) :
    (∃ t₀ later, Checked t₀ t i e ∧ t.history = t₀.history ++ later) ∧
      ∀ t₀ later, Checked t₀ t i e → t.history = t₀.history ++ later →
        ∀ g ∈ e.request.families, t.standing.family.isSome = true ∧
          (t.standing.family = some g ↔
            Standing.settled (some g) (later.map Event.move) = some g) := by
  constructor
  · obtain ⟨t₀, checked⟩ := h.checked known stage
    obtain ⟨later, hlater⟩ := history_of_steps checked.since
    exact ⟨t₀, later, checked, hlater⟩
  · intro t₀ later checked hlater g hg
    have member : t.standing.family.isSome = true := by
      rw [h.membership.2.1]
      exact accepts.joined (Request.needsJoin_of_families hg)
    have now : t.standing.family = Standing.settled t₀.standing.family (later.map Event.move) := by
      rw [h.noted.standing, hlater, Event.stand_append, Standing.family_run,
        checked.reachable.noted.standing]
    refine ⟨member, ?_⟩
    rw [now] at member ⊢
    unfold Standing.settled at member ⊢
    cases hlast : ((later.map Event.move).filterMap Standing.Move.family?).getLast? with
    | some f => exact Iff.rfl
    | none =>
      -- Nothing has touched the family, so that it was settled when the times were checked.
      rw [hlast] at member
      obtain ⟨f, hf⟩ := Option.isSome_iff_exists.mp member
      have passed : e.request.check t₀.standing.family = .ok () := by
        have hstage : ((Errand.fresh e.thread e.request).step t₀.ambassador).1.stage =
            .accepting awaited := (congrArg Errand.stage checked.check).trans stage
        exact (Errand.check_of_step hstage).2.1
      change t₀.standing.family = some f at hf
      rw [hf] at passed
      have : g = f := Request.family_of_check passed g hg
      exact iff_of_true (by rw [this]; exact hf) rfl

/-- A member asks for an advance; its times are checked in time. -/
theorem admission_of_member : ∃ t, Reachable t ∧
    ∃ e, t.errands 0 = some e ∧ e.request.families = [.discrete] ∧
      t.standing.Accepts e.operation (t.ambassador.inCallback e.thread) ∧
      t.standing.family = some .discrete := by
  have joined := steps_opened.tail (.answer 0 ⟨3, .result welcome, .noting 0 10⟩)
  have begun := joined.tail (.begin (i := 0) .application
    (.service .timeAdvanceRequest (.discrete ⟨5, by decide⟩, ())) rfl)
  have checked := begun.tail (.errand (i := 0) rfl)
  refine ⟨_, ⟨_, checked⟩, _, rfl, rfl, ⟨_, rfl⟩, ?_⟩
  have admission := Reachable.admission (i := 0) ⟨_, checked⟩ rfl rfl ⟨_, rfl⟩
  exact ((admission.2 _ [] ⟨⟨_, begun⟩, rfl, rfl, .refl⟩ rfl) .discrete (by decide)).2.mpr rfl

/-- One thread joins a federation with discrete times while another asks for an advance to a
continuous time: the answer comes in between the check and the gates. -/
theorem admitted_of_other_family : ∃ t, Reachable t ∧
    ∃ e, t.errands 1 = some e ∧ (∃ awaited, e.stage = .accepting awaited) ∧
      e.request.families = [.continuous] ∧
      t.standing.Accepts e.operation (t.ambassador.inCallback e.thread) ∧
      t.standing.family = some .discrete := by
  have begun := steps_opened.tail (.begin (i := 0) .application
    (.service .joinFederationExecution (some "alpha", "test", "Scenario", ["core.xml"], ())) rfl)
  have checked := begun.tail (.errand (i := 0) rfl)
  have accepted := checked.tail (.errand (i := 0) rfl)
  have called := accepted.tail (.errand (i := 0) rfl)
  have asked := called.tail (.begin (i := 1) (.background 0)
    (.service .timeAdvanceRequest (.continuous .initial, ())) rfl)
  have passed := asked.tail (.errand (i := 1) rfl)
  have noted := passed.tail (.answer 0 ⟨3, .result welcome, .noting 0 10⟩)
  exact ⟨_, ⟨_, noted⟩, _, rfl, ⟨_, rfl⟩, rfl, ⟨_, rfl⟩, rfl⟩

end Affairs

end Federate
