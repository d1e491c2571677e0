/-
Membership. A federate is a member of a federation from the answer to its join
until it has resigned, was resigned, or has lost its session. Its standing says
so in every run in which nobody enters a join that is out of date
(`Reachable.membership`). That is not so by itself. A join is entered twice,
when its answer comes in and again by the errand that asked for it, and nobody
looks the second time whether the federate has left meanwhile: one that loses
its session in between stays a member without a connection
(`member_without_connection`).
-/
import Federate.Proofs.Ambassador.Affairs
namespace Federate

/-- What the events of a membership come to: the session in use, and the family of the federation,
if the latest event in that session was the answer to a join. -/
structure Membership where
  session : Option Nat
  family : Option TimeFamily

namespace Membership

/-- Without a session. -/
def outside : Membership := ⟨none, none⟩

/-- What becomes of a membership at an event. What an errand enters of its own join counts for
nothing: the answer has come in before. -/
def after (m : Membership) : Event → Membership
  | .notes i family => if m.session = some i then { m with family := some family } else m
  | .confirms _ (.known .resignFederationExecution) => { m with family := none }
  | .observes _ .federateResigned => { m with family := none }
  | .observes _ .connectionLost => outside
  | .connects i => ⟨some i, none⟩
  | .resets => outside
  | _ => m

/-- What a history comes to. -/
def of (history : List Event) : Membership := history.foldl after outside

/-- What an event does to a standing, as far as membership goes, and to the membership. -/
inductive Turn (s : Standing) (m : Membership) (x : Event) : Standing → Membership → Prop where
  | other {s' : Standing} (connected : s'.connected = s.connected) (joined : s'.joined = s.joined)
    (family : s'.family = s.family) : Turn s m x s' m
  | leaves : Turn s m x s.leave { m with family := none }
  | ends : Turn s m x .idle outside
  | connects (i : Nat) : Turn s m x .fresh ⟨some i, none⟩
  /-- An errand enters its join. -/
  | joins {i : Nat} {family : TimeFamily} (event : x = .joins i family) :
    Turn s m x (s.join family) m
  /-- The answer to a join comes in. -/
  | notes {i : Nat} {family : TimeFamily} (event : x = .notes i family) :
    Turn s m x (s.join family) (if m.session = some i then { m with family := some family } else m)

theorem turn (s : Standing) (m : Membership) (x : Event) :
    Turn s m x (s.after x.move) (m.after x) := by
  cases x with
  | accepts i op inCallback =>
    rcases s.after_accept op inCallback with h | ⟨y, -, h⟩
    · rw [Event.move, h]
      exact .other rfl rfl rfl
    · rw [Event.move, h]
      cases y <;> exact .other rfl rfl rfl
  | retracts i op =>
    show Turn s m (.retracts i op) (s.retract op) m
    cases hy : Mark.of? op with
    | none =>
      rw [Standing.retract_of_no_mark hy]
      exact .other rfl rfl rfl
    | some y =>
      rw [Standing.retract_of_mark hy]
      split
      · cases y <;> exact .other rfl rfl rfl
      · exact .other rfl rfl rfl
  | joins i family => exact .joins rfl
  | notes i family => exact .notes rfl
  | connects i => exact .connects i
  | resets => exact .ends
  | observes i kind =>
    cases kind with
    | federateResigned => exact .leaves
    | connectionLost => exact .ends
    | _ => exact .other rfl rfl rfl
  | confirms i op =>
    cases op with
    | other => exact .other rfl rfl rfl
    | known service =>
      cases service with
      | resignFederationExecution => exact .leaves
      | requestFederationSave | federateSaveComplete | federateSaveNotComplete
      | federateRestoreComplete | federateRestoreNotComplete =>
        simp only [Event.move, Standing.after, Standing.confirm]
        split <;> exact .other rfl rfl rfl
      | _ => exact .other rfl rfl rfl

/-! ## What always holds -/

/-- What holds of a standing and of what the events come to, out of date or not. -/
structure Grounded (s : Standing) (m : Membership) : Prop where
  connected : s.connected = m.session.isSome
  /-- A time family is settled for members and for nobody else. -/
  family : s.family.isSome = s.joined
  within : m.family.isSome = true → m.session.isSome = true

theorem Grounded.turn {s s' : Standing} {m m' : Membership} {x : Event} (h : Grounded s m)
    (ht : Turn s m x s' m') : Grounded s' m' := by
  cases ht with
  | other connected joined family =>
    exact ⟨connected.trans h.connected, by rw [family, joined, h.family], h.within⟩
  | leaves => exact ⟨h.connected, rfl, nofun⟩
  | ends => exact ⟨rfl, rfl, nofun⟩
  | connects i => exact ⟨rfl, rfl, nofun⟩
  | joins event => exact ⟨h.connected, rfl, h.within⟩
  | notes event =>
    split
    · next hi => exact ⟨h.connected, rfl, fun _ => by simp [hi]⟩
    · exact ⟨h.connected, rfl, h.within⟩

theorem Grounded.after {s : Standing} {m : Membership} (h : Grounded s m) (x : Event) :
    Grounded (s.after x.move) (m.after x) :=
  h.turn (Membership.turn s m x)

theorem grounded_outside : Grounded .idle outside := ⟨rfl, rfl, nofun⟩

theorem grounded_of (history : List Event) : Grounded (Event.stand history) (of history) := by
  have hrun : ∀ (history : List Event) (s : Standing) (m : Membership), Grounded s m →
      Grounded (s.run (history.map Event.move)) (history.foldl Membership.after m) := by
    intro history
    induction history with
    | nil => exact fun _ _ h => h
    | cons x later ih => exact fun s m h => ih _ _ (h.after x)
  exact hrun history _ _ grounded_outside

/-! ## What holds as long as nothing is entered out of date -/

/-- The standing says that the federate is a member only if it is one. -/
structure Sound (s : Standing) (m : Membership) : Prop where
  connected : s.joined = true → s.connected = true
  member : s.joined = true → ∃ family, m.family = some family ∧ s.family = some family

/-- A join is entered that is not the latest event of the session in use: the federate has left
meanwhile, or the answer has come over another session. -/
def Stale (m : Membership) : Event → Prop
  | .joins i family => (m.after (.joins i family)).family ≠ some family
  | .notes i family => (m.after (.notes i family)).family ≠ some family
  | _ => False

/-- No join is entered out of date. -/
def Timely (m : Membership) : List Event → Prop
  | [] => True
  | x :: later => ¬ m.Stale x ∧ (m.after x).Timely later

variable {s : Standing} {m : Membership}

theorem sound_of_not_joined (h : s.joined = false) : Sound s m :=
  ⟨fun hj => (by rw [h] at hj; cases hj), fun hj => (by rw [h] at hj; cases hj)⟩

/-- A join that is entered is sound just if it is not out of date. -/
theorem sound_join_iff {family : TimeFamily} (h : Grounded (s.join family) m) :
    Sound (s.join family) m ↔ m.family = some family := by
  constructor
  · intro hs
    obtain ⟨f, hm, hf⟩ := hs.member rfl
    cases hf
    exact hm
  · intro hm
    refine ⟨fun _ => ?_, fun _ => ⟨family, hm, rfl⟩⟩
    rw [h.connected]
    exact h.within (by rw [hm]; rfl)

/-- An event keeps a standing sound just if it enters nothing out of date. -/
theorem Sound.after_iff (h : Sound s m) (hg : Grounded s m) (x : Event) :
    Sound (s.after x.move) (m.after x) ↔ ¬ m.Stale x := by
  have hg' := hg.after x
  have ht := Membership.turn s m x
  cases x with
  | joins i family | notes i family => exact (sound_join_iff hg').trans Decidable.not_not.symm
  | _ =>
    refine iff_of_true ?_ id
    generalize s.after _ = s' at ht ⊢
    generalize m.after _ = m' at ht ⊢
    cases ht with
    | other connected joined family =>
      exact ⟨fun hj => by rw [connected]; exact h.connected (joined ▸ hj),
        fun hj => by rw [family]; exact h.member (joined ▸ hj)⟩
    | leaves | ends | connects => exact sound_of_not_joined rfl
    | joins event | notes event => cases event

/-- A sound standing stays so through some events just if none enters anything out of date. -/
theorem Sound.run_iff (history : List Event) (h : Sound s m) (hg : Grounded s m) :
    (∀ past, past <+: history →
      Sound (s.run (past.map Event.move)) (past.foldl Membership.after m)) ↔
        m.Timely history := by
  induction history generalizing s m with
  | nil =>
    refine iff_of_true (fun past hp => ?_) trivial
    rw [List.prefix_nil.mp hp]
    exact h
  | cons x later ih =>
    constructor
    · intro hall
      have hx := hall [x] ⟨later, rfl⟩
      refine ⟨(h.after_iff hg x).mp hx, (ih hx (hg.after x)).mp fun past hp => ?_⟩
      exact hall (x :: past) (List.cons_prefix_cons.mpr ⟨rfl, hp⟩)
    · rintro ⟨hx, hlater⟩ past hp
      rcases List.prefix_cons_iff.mp hp with rfl | ⟨rest, rfl, hrest⟩
      · exact h
      · exact (ih ((h.after_iff hg x).mpr hx) (hg.after x)).mpr hlater rest hrest

end Membership

namespace Affairs

variable {t : Affairs}

/-- **When the standing is right about membership.** In every order of steps, a time family is
settled just for members; and the standing has been right at all times that a member is connected,
and that the latest event of its membership was the answer to a join of that family, just if no
join was ever entered out of date. -/
theorem Reachable.membership (h : Reachable t) :
    t.standing = Event.stand t.history ∧ t.standing.family.isSome = t.standing.joined ∧
      ((∀ past, past <+: t.history → (Membership.of past).Sound (Event.stand past)) ↔
        Membership.outside.Timely t.history) := by
  refine ⟨h.noted.standing, ?_, ?_⟩
  · rw [h.noted.standing]
    exact (Membership.grounded_of t.history).family
  · exact (Membership.sound_of_not_joined rfl).run_iff t.history Membership.grounded_outside

/-- A federate's join has been answered and confirmed, and the errand is about to enter it. -/
theorem reachable_answered_join : ∃ t e reply, Reachable t ∧ t.errands 0 = some e ∧
    e.stage = .joining .discrete reply ∧ t.history =
      [.connects 0, .accepts 0 (.known .joinFederationExecution) false, .notes 0 .discrete,
        .confirms 0 (.known .joinFederationExecution)] := by
  have begun := steps_opened.tail (.begin (i := 0) .application
    (.service .joinFederationExecution (some "alpha", "test", "Scenario", ["core.xml"], ())) rfl)
  have checked := begun.tail (.errand (i := 0) rfl)
  have accepted := checked.tail (.errand (i := 0) rfl)
  have called := accepted.tail (.errand (i := 0) rfl)
  have noted := called.tail (.answer 0 ⟨3, .result welcome, .noting 0 10⟩)
  have answered := noted.tail (.call (i := 0) rfl fun c s => (c.goTo (.ended (.ok welcome)), s))
  have ended := answered.tail (.errand (i := 0) rfl)
  have confirmed := ended.tail (.errand (i := 0) rfl)
  have read := confirmed.tail (.errand (i := 0) rfl)
  exact ⟨_, _, _, ⟨_, read⟩, rfl, rfl, rfl⟩

/-- An errand enters its join in time, and the standing has always been right. -/
theorem membership_of_timely : ∃ t, Reachable t ∧ t.standing = Standing.fresh.join .discrete ∧
    ∀ past, past <+: t.history → (Membership.of past).Sound (Event.stand past) := by
  obtain ⟨t, e, reply, ⟨settings, ht⟩, known, stage, history⟩ := reachable_answered_join
  have entered := ht.tail (.errand known)
  refine ⟨_, ⟨settings, entered⟩, ?_, ?_⟩
  · rw [Reachable.membership ⟨settings, entered⟩ |>.1]
    simp only [setErrand, does, Errand.event?, stage, history]
    rfl
  · rw [(Reachable.membership ⟨settings, entered⟩).2.2]
    simp only [setErrand, does, Errand.event?, stage, history]
    exact ⟨id, id, fun h => h rfl, id, fun h => h rfl, trivial⟩

/-- The session is lost after the answer to a join has come in, and the errand enters its join
then: the federate is a member without a connection. -/
theorem member_without_connection : ∃ t, Reachable t ∧ t.standing.joined = true ∧
    t.standing.connected = false := by
  obtain ⟨t, e, reply, ⟨settings, ht⟩, known, stage, history⟩ := reachable_answered_join
  have lost := ht.tail (.loss 0 ⟨"cut", false, .falling⟩)
  have entered := lost.tail (.errand (i := 0) known)
  refine ⟨_, ⟨settings, entered⟩, ?_⟩
  rw [Reachable.noted ⟨settings, entered⟩ |>.standing]
  simp only [setErrand, does, Errand.event?, stage, history]
  exact ⟨rfl, rfl⟩

end Affairs

end Federate
