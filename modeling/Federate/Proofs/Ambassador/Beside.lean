/-
The threads beside the one that changes the connection. They take packets in,
deliver callbacks, and carry out losses, each loss in steps of its own: it may
strike a session and come to its end much later, when another session is in use.
What makes a federate count as connected no more is the loss of its session, a
callback of the coordinator that says so, which is believed without a look at
the session, and the end of a loss of an earlier session, since the standing is
one for all of them. Once no loss of an earlier session can do that, the
federate stays connected but for the first two (`Held.steps`).
-/
import Mathlib.Logic.Relation
import Mathlib.Data.Set.Insert
import Federate.Proofs.Ambassador.Waning
namespace Federate

/-- What other threads of a client have in hand. -/
structure Aside where
  /-- The losses that have begun, each with its session. -/
  losses : List (Nat × Loss)
  /-- How often a callback has told the federate that its connection is lost while it was not. -/
  told : Nat

namespace Aside

/-- Nothing has begun. -/
def idle : Aside := ⟨[], 0⟩

/-- Notes what the next step of a delivery tells the federate. -/
def note (x : Aside) (d : Delivery) (a : Ambassador) : Aside :=
  match d.stage with
  | .observing _ c =>
    if c.kind = .connectionLost ∧ (a.session d.session).lost = false then
      { x with told := x.told + 1 }
    else x
  | _ => x

/-- A step of another thread. Callbacks are delivered for certain sessions only. -/
inductive Step (mine : Set Nat) : Ambassador × Aside → Ambassador × Aside → Prop where
  /-- A packet comes or goes, a call goes on, a queue is held back: whatever neither loses a session
  nor has to do with the connection. -/
  | alters {a a' : Ambassador} {x : Aside} (ebbed : a.Ebbs a') : Step mine (a, x) (a', x)
  | delivers {a : Ambassador} {x : Aside} (d : Delivery) (own : d.session ∈ mine) :
    Step mine (a, x) ((d.step a).2, x.note d a)
  | begins {a : Ambassador} {x : Aside} {i : Nat} (reason : String)
    (known : i < a.sessions.length) :
    Step mine (a, x) (a, { x with losses := x.losses ++ [(i, .fresh reason)] })
  /-- A loss that has begun goes on. -/
  | goesOn {a : Ambassador} {x : Aside} {k i : Nat} {l : Loss}
    (known : x.losses[k]? = some (i, l)) :
    Step mine (a, x) ((a.onPresence i l.step).2,
      { x with losses := x.losses.set k (i, (a.onPresence i l.step).1) })
  /-- A loss that nobody comes in between of. -/
  | loses {a : Ambassador} {x : Aside} (i : Nat) (reason : String) :
    Step mine (a, x) ((a.onPresence i fun p => ((), p.lose reason)).2, x)

/-- Some steps of other threads. -/
abbrev Steps (mine : Set Nat) := Relation.ReflTransGen (Step mine)

variable {mine : Set Nat} {s t : Ambassador × Aside} {n told : Nat}

theorem losses_note (x : Aside) (d : Delivery) (a : Ambassador) :
    (x.note d a).losses = x.losses := by
  unfold note
  split
  · split <;> rfl
  · rfl

theorem told_note (x : Aside) (d : Delivery) (a : Ambassador) : x.told ≤ (x.note d a).told := by
  unfold note
  split
  · split
    · exact Nat.le_succ _
    · exact Nat.le_refl _
  · exact Nat.le_refl _

theorem Step.mono {more : Set Nat} (h : Step mine s t) (sub : mine ⊆ more) : Step more s t := by
  cases h with
  | alters ebbed => exact .alters ebbed
  | delivers d own => exact .delivers d (sub own)
  | begins reason known => exact .begins reason known
  | goesOn known => exact .goesOn known
  | loses i reason => exact .loses i reason

theorem Step.wanes (h : Step mine s t) : s.1.Wanes t.1 := by
  cases h with
  | alters ebbed => exact ebbed.wanes
  | @delivers a x d own =>
    rcases d.ebbs_step a with ebbed | ⟨n, c, -, observed⟩
    · exact ebbed.wanes
    · show a.Wanes (d.step a).2
      rw [observed]
      exact ⟨rfl, rfl, fun _ => .refl _, Standing.connected_of_observe⟩
  | begins reason known => exact .refl _
  | @goesOn a x k i l known =>
    exact a.wanes_onPresence i fun p =>
      ⟨(l.wanes_step p).session, (l.wanes_step p).standing.imp_right And.left⟩
  | @loses a x i reason =>
    exact a.wanes_onPresence i (f := fun p => ((), p.lose reason)) fun p =>
      ⟨(p.ebbs_lose reason).1.toWanes, (p.ebbs_lose reason).2.imp_right And.left⟩

theorem Step.told_le (h : Step mine s t) : s.2.told ≤ t.2.told := by
  cases h with
  | @delivers a x d own => exact x.told_note d a
  | _ => exact Nat.le_refl _

/-! ## Losses that have begun -/

/-- The link of a session is closed, or a loss that has struck it is about to close it. -/
def Sealed (s : Ambassador × Aside) (i : Nat) : Prop :=
  (s.1.session i).linkClosed = true ∨
    (s.1.session i).lost = true ∧ ∃ l, (i, l) ∈ s.2.losses ∧ l.stage.shuts = true

/-- What always holds of the losses that have begun. -/
structure Kept (s : Ambassador × Aside) : Prop where
  known : ∀ i l, (i, l) ∈ s.2.losses → i < s.1.sessions.length
  won : ∀ i l, (i, l) ∈ s.2.losses → l.stage.won = true → (s.1.session i).lost = true
  shut : ∀ i, (s.1.session i).lost = true → Sealed s i

theorem Kept.fresh (settings : Settings) : Kept (.fresh settings, idle) where
  known _ _ h := by cases h
  won _ _ h := by cases h
  shut _ _ := .inl rfl

theorem mem_set_of_ne {α : Type} {xs : List α} {k : Nat} {x y : α} (z : α) (hx : x ∈ xs)
    (hk : xs[k]? = some y) (other : x ≠ y) : x ∈ xs.set k z := by
  obtain ⟨j, hj⟩ := List.mem_iff_getElem?.mp hx
  refine List.mem_iff_getElem?.mpr ⟨j, ?_⟩
  rw [List.getElem?_set_ne, hj]
  rintro rfl
  exact other (Option.some.inj (hj.symm.trans hk))

/-- The losses stay as they are, while sessions ebb. -/
theorem Sealed.ebbs {i : Nat} (h : Sealed s i) (ebbed : (s.1.session i).Ebbs (t.1.session i))
    (same : t.2.losses = s.2.losses) : Sealed t i :=
  h.imp ebbed.closed fun ⟨lost, l, known, shuts⟩ => ⟨ebbed.lost lost, l, same ▸ known, shuts⟩

theorem Kept.ebbs (h : Kept s) (ebbed : ∀ i, (s.1.session i).Ebbs (t.1.session i))
    (length : t.1.sessions.length = s.1.sessions.length) (same : t.2.losses = s.2.losses) :
    Kept t where
  known i l hl := length ▸ h.known i l (same ▸ hl)
  won i l hl won := (ebbed i).lost (h.won i l (same ▸ hl) won)
  shut i lost := ((ebbed i).shut lost).elim (fun lost => (h.shut i lost).ebbs (ebbed i) same) .inl

/-- The session of a loss that goes on, and every other one. -/
theorem session_goesOn {a : Ambassador} {i : Nat} {l : Loss} (h : i < a.sessions.length) (j : Nat) :
    (a.onPresence i l.step).2.session j =
      if j = i then (l.step (a.presence i)).2.session else a.session j := by
  split
  · next same => rw [same, Ambassador.session_onPresence _ h]
  · next other =>
    simp only [Ambassador.session, Ambassador.onPresence, List.getElem?_set]
    rw [if_neg (Ne.symm other)]

/-- A step of a loss keeps a session sealed, and seals one that it strikes. -/
theorem sealed_goesOn {a : Ambassador} {x : Aside} {k i : Nat} {l : Loss} (kept : Kept (a, x))
    (known : x.losses[k]? = some (i, l)) (j : Nat)
    (h : Sealed (a, x) j ∨ ((a.onPresence i l.step).2.session j).lost = true) :
    Sealed ((a.onPresence i l.step).2,
      { x with losses := x.losses.set k (i, (a.onPresence i l.step).1) }) j := by
  have hi : i < a.sessions.length := kept.known i l (List.mem_of_getElem? known)
  have goes := l.wanes_step (a.presence i)
  have placed : (i, (l.step (a.presence i)).1) ∈
      x.losses.set k (i, (l.step (a.presence i)).1) :=
    List.mem_set (List.getElem?_eq_some_iff.mp known).1 _
  have waned := (Step.goesOn known : Step Set.univ (a, x) _).wanes.session j
  have stays (sealed : Sealed (a, x) j) : Sealed ((a.onPresence i l.step).2,
      { x with losses := x.losses.set k (i, (a.onPresence i l.step).1) }) j := by
    rcases sealed with closed | ⟨lost, m, begun, shuts⟩
    · exact .inl (waned.closed closed)
    · by_cases same : (j, m) = (i, l)
      · cases same
        rcases goes.shutting shuts with shuts | closed
        · exact .inr ⟨waned.lost lost, _, placed, shuts⟩
        · refine .inl ?_
          show ((a.onPresence i l.step).2.session i).linkClosed = true
          rw [session_goesOn hi, if_pos rfl]
          exact closed
      · exact .inr ⟨waned.lost lost, m, mem_set_of_ne _ begun known same, shuts⟩
  rcases h with sealed | lost
  · exact stays sealed
  · have lost' := lost
    rw [session_goesOn hi] at lost'
    split at lost'
    · next same =>
      rcases goes.shuts lost' with lost | shuts
      · exact stays (kept.shut j (same ▸ lost))
      · exact .inr ⟨lost, _, same ▸ placed, shuts⟩
    · exact stays (kept.shut j lost')

section

variable {a : Ambassador} {x : Aside} {i : Nat}

theorem sealed_begins {l : Loss} {j : Nat} (sealed : Sealed (a, x) j) :
    Sealed (a, { x with losses := x.losses ++ [(i, l)] }) j :=
  sealed.imp_right fun ⟨lost, m, begun, shuts⟩ => ⟨lost, m, List.mem_append_left _ begun, shuts⟩

theorem Kept.begins (h : Kept (a, x)) (known : i < a.sessions.length) (reason : String) :
    Kept (a, { x with losses := x.losses ++ [(i, .fresh reason)] }) where
  known j l hl := by
    rcases List.mem_append.mp hl with hl | hl
    · exact h.known j l hl
    · cases List.mem_singleton.mp hl
      exact known
  won j l hl won := by
    rcases List.mem_append.mp hl with hl | hl
    · exact h.won j l hl won
    · cases List.mem_singleton.mp hl
      cases won
  shut j lost := sealed_begins (h.shut j lost)

theorem Kept.goesOn {k : Nat} {l : Loss} (h : Kept (a, x)) (known : x.losses[k]? = some (i, l)) :
    Kept ((a.onPresence i l.step).2,
      { x with losses := x.losses.set k (i, (a.onPresence i l.step).1) }) := by
  have begun := List.mem_of_getElem? known
  have hi : i < a.sessions.length := h.known i l begun
  have waned := (Step.goesOn known : Step Set.univ (a, x) _).wanes
  refine ⟨fun j m hm => ?_, fun j m hm won => ?_, fun j lost => sealed_goesOn h known j (.inr lost)⟩
  · refine waned.length ▸ ?_
    rcases List.mem_or_eq_of_mem_set hm with hm | hm
    · exact h.known j m hm
    · cases hm
      exact hi
  · rcases List.mem_or_eq_of_mem_set hm with hm | hm
    · exact (waned.session j).lost (h.won j m hm won)
    · cases hm
      rcases (l.wanes_step (a.presence i)).won won with won | lost
      · exact (waned.session i).lost (h.won i l begun won)
      · show ((a.onPresence i l.step).2.session i).lost = true
        rw [session_goesOn hi, if_pos rfl]
        exact lost

end

/-- A step keeps what always holds, and a session that was sealed. -/
theorem Kept.step (h : Kept s) (step : Step mine s t) :
    Kept t ∧ ∀ i, Sealed s i → Sealed t i := by
  cases step with
  | alters ebbed =>
    exact ⟨h.ebbs ebbed.session ebbed.length rfl, fun i sealed => sealed.ebbs (ebbed.session i) rfl⟩
  | @delivers a x d own =>
    have ebbed : (∀ i, (a.session i).Ebbs ((d.step a).2.session i)) ∧
        (d.step a).2.sessions.length = a.sessions.length := by
      rcases d.ebbs_step a with ebbed | ⟨n, c, -, observed⟩
      · exact ⟨ebbed.session, ebbed.length⟩
      · rw [observed]
        exact ⟨fun _ => .refl _, rfl⟩
    exact ⟨h.ebbs ebbed.1 ebbed.2 (x.losses_note d a), fun i sealed =>
      sealed.ebbs (ebbed.1 i) (x.losses_note d a)⟩
  | begins reason known => exact ⟨h.begins known reason, fun _ => sealed_begins⟩
  | goesOn known => exact ⟨h.goesOn known, fun j sealed => sealed_goesOn h known j (.inl sealed)⟩
  | @loses a x i reason =>
    have ebbed (j : Nat) : (a.session j).Ebbs
        ((a.onPresence i fun p => ((), p.lose reason)).2.session j) :=
      Ambassador.session_onPresence_of .refl a i ((a.presence i).ebbs_lose reason).1 j
    exact ⟨h.ebbs ebbed List.length_set rfl, fun j sealed => sealed.ebbs (ebbed j) rfl⟩

/-- The ambassador wanes, what always holds of the losses still does, and what is sealed stays
so. -/
structure Wanes (s t : Ambassador × Aside) : Prop where
  ambassador : s.1.Wanes t.1
  kept : Kept s → Kept t
  sealed : Kept s → ∀ i, Sealed s i → Sealed t i

theorem Wanes.refl (s : Ambassador × Aside) : Wanes s s := ⟨.refl _, id, fun _ _ => id⟩

theorem Wanes.trans {u : Ambassador × Aside} (h : Wanes s t) (h' : Wanes t u) : Wanes s u :=
  ⟨h.ambassador.trans h'.ambassador, h'.kept ∘ h.kept, fun kept i sealed =>
    h'.sealed (h.kept kept) i (h.sealed kept i sealed)⟩

theorem Wanes.of_steps (steps : Steps mine s t) : Wanes s t := by
  induction steps with
  | refl => exact .refl s
  | tail _ step ih =>
    exact ih.trans ⟨step.wanes, fun kept => (kept.step step).1, fun kept => (kept.step step).2⟩

/-- The standing follows a callback. -/
theorem Wanes.observe (a : Ambassador) (x : Aside) (k : Callback.Kind) :
    Wanes (a, x) ({ a with standing := a.standing.observe k }, x) :=
  ⟨⟨rfl, rfl, fun _ => .refl _, Standing.connected_of_observe⟩,
    fun kept => kept.ebbs (fun _ => .refl _) rfl rfl, fun _ _ => id⟩

/-! ## Counting as connected -/

/-- The first `n` sessions are lost or being ended by the federate, and no loss of them that has
begun makes the standing fall back any more. -/
def Settled (n : Nat) (s : Ambassador × Aside) : Prop :=
  ∀ i < n, ((s.1.session i).lost = true ∨ (s.1.session i).closing = true) ∧
    ∀ l, (i, l) ∈ s.2.losses → l.Spares (s.1.session i)

theorem Settled.wanes (h : Settled n s) (waned : s.1.Wanes t.1)
    (same : t.2.losses = s.2.losses) : Settled n t := fun i hi =>
  ⟨(h i hi).1.imp (waned.session i).lost (waned.session i).closing, fun l hl =>
    ((h i hi).2 l (same ▸ hl)).wanes (waned.session i)⟩

theorem Settled.step (h : Settled n s) (kept : Kept s) (step : Step mine s t) : Settled n t := by
  have waned := step.wanes
  cases step with
  | alters ebbed => exact h.wanes waned rfl
  | loses j reason => exact h.wanes waned rfl
  | @delivers a x d own => exact h.wanes waned (x.losses_note d a)
  | @begins a x j reason known =>
    refine fun i hi => ⟨(h i hi).1, fun l hl => ?_⟩
    rcases List.mem_append.mp hl with hl | hl
    · exact (h i hi).2 l hl
    · cases List.mem_singleton.mp hl
      exact (h j hi).1
  | @goesOn a x k j l known =>
    refine fun i hi => ⟨(h i hi).1.imp (waned.session i).lost (waned.session i).closing,
      fun m hm => ?_⟩
    rcases List.mem_or_eq_of_mem_set hm with hm | hm
    · exact ((h i hi).2 m hm).wanes (waned.session i)
    · cases hm
      have begun := List.mem_of_getElem? known
      show (l.step (a.presence j)).1.Spares ((a.onPresence j l.step).2.session j)
      rw [session_goesOn (kept.known j l begun), if_pos rfl]
      exact (l.wanes_step (a.presence j)).spares ((h j hi).2 l begun)

/-- The federate counts as connected, unless session `n`, which is the last, is lost or the federate
has been told more often than `told` times that its connection is. -/
structure Held (n told : Nat) (s : Ambassador × Aside) : Prop where
  kept : Kept s
  length : s.1.sessions.length = n + 1
  settled : Settled n s
  noted : told ≤ s.2.told
  connected : s.1.standing.connected = true ∨ (s.1.session n).lost = true ∨ told < s.2.told

section

variable {a : Ambassador} {x : Aside}

/-- The next step of a delivery of the session ends it only by telling of a loss. -/
theorem Held.delivers {d : Delivery} (h : Held d.session told (a, x))
    (connected : a.standing.connected = true) : (d.step a).2.standing.connected = true ∨
      ((d.step a).2.session d.session).lost = true ∨ told < (x.note d a).told := by
  rcases d.ebbs_step a with ebbed | ⟨m, c, stage, observed⟩
  · exact .inl (ebbed.connected.trans connected)
  · rw [observed]
    by_cases kind : c.kind = .connectionLost
    · cases lost : (a.session d.session).lost with
      | true => exact .inr (.inl lost)
      | false =>
        have noted : (x.note d a).told = x.told + 1 := by simp [note, stage, kind, lost]
        exact .inr (.inr (Nat.lt_of_le_of_lt h.noted (noted ▸ Nat.lt_succ_self _)))
    · exact .inl ((a.standing.connected_observe kind).trans connected)

/-- A loss of an earlier session does not end it, and one of the session has struck it. -/
theorem Held.goesOn {k i : Nat} {l : Loss} (h : Held n told (a, x))
    (connected : a.standing.connected = true) (known : x.losses[k]? = some (i, l)) :
    (a.onPresence i l.step).2.standing.connected = true ∨ (a.session n).lost = true := by
  rcases (l.wanes_step (a.presence i)).standing with same | ⟨-, falling⟩
  · exact .inl ((congrArg (·.connected) same).trans connected)
  · have begun := List.mem_of_getElem? known
    have hi : i < n + 1 := h.length ▸ h.kept.known i l begun
    rcases Nat.lt_succ_iff_lt_or_eq.mp hi with earlier | rfl
    · have spares := (h.settled i earlier).2 l begun
      simp only [Loss.Spares, falling] at spares
    · exact .inr (h.kept.won i l begun (by rw [falling]; rfl))

theorem Held.loses (h : Held n told (a, x)) (connected : a.standing.connected = true) (i : Nat)
    (reason : String) :
    (a.onPresence i fun p => ((), p.lose reason)).2.standing.connected = true ∨
      ((a.onPresence i fun p => ((), p.lose reason)).2.session n).lost = true := by
  rcases ((a.presence i).ebbs_lose reason).2 with same | ⟨-, unlost, unclosed⟩
  · exact .inl ((congrArg (·.connected) same).trans connected)
  · have unlost : (a.session i).lost = false := unlost
    have unclosed : (a.session i).closing = false := unclosed
    rcases Nat.lt_trichotomy i n with earlier | rfl | later
    · rcases (h.settled i earlier).1 with lost | closing
      · cases unlost.symm.trans lost
      · cases unclosed.symm.trans closing
    · exact .inr (a.lost_lose i reason)
    · have gone : a.session i = .gone := Ambassador.session_of_length_le (h.length ▸ later)
      rw [gone] at unlost
      cases unlost

end

theorem Held.step (h : Held n told s) (step : Step {n} s t) : Held n told t where
  kept := (h.kept.step step).1
  length := step.wanes.length.trans h.length
  settled := h.settled.step h.kept step
  noted := h.noted.trans step.told_le
  connected := by
    have waned := step.wanes
    rcases h.connected with connected | lost | told'
    · cases step with
      | alters ebbed => exact .inl (ebbed.connected.trans connected)
      | delivers d own =>
        cases own
        exact h.delivers connected
      | begins reason known => exact .inl connected
      | goesOn known =>
        exact (h.goesOn connected known).imp_right fun lost => .inl ((waned.session n).lost lost)
      | loses i reason => exact (h.loses connected i reason).imp_right .inl
    · exact .inr (.inl ((waned.session n).lost lost))
    · exact .inr (.inr (Nat.lt_of_lt_of_le told' step.told_le))

/-- **What ends a federate's being connected** is the loss of its session or a callback that tells
of it, however long other threads go on, once no loss of an earlier session makes the standing fall
back any more. -/
theorem Held.steps (h : Held n told s) (steps : Steps {n} s t) : Held n told t := by
  induction steps with
  | refl => exact h
  | tail _ step ih => exact ih.step step

/-! ## Changes of the connection -/

section

variable {a a' : Ambassador} {x : Aside}

theorem session_of_sessions (same : a'.sessions = a.sessions) (i : Nat) :
    a'.session i = a.session i := by
  rw [Ambassador.session, same]
  rfl

/-- What holds of the losses has nothing to do with the standing and the connection. -/
theorem Kept.same (h : Kept (a, x)) (same : a'.sessions = a.sessions) : Kept (a', x) :=
  h.ebbs (fun i => by rw [session_of_sessions same]; exact .refl _) (congrArg List.length same) rfl

theorem Settled.same (h : Settled n (a, x)) (same : a'.sessions = a.sessions) :
    Settled n (a', x) := fun i hi => by
  show ((a'.session i).lost = true ∨ (a'.session i).closing = true) ∧
    ∀ l, (i, l) ∈ x.losses → l.Spares (a'.session i)
  rw [session_of_sessions same]
  exact h i hi

/-- Nobody has begun to lose a session that is opened only now. -/
theorem Kept.openSession (h : Kept (a, x)) (limits : Session.Limits) :
    Kept ((a.openSession limits).2, x) := by
  have earlier {i : Nat} (hi : i < a.sessions.length) :
      (a.openSession limits).2.session i = a.session i := by
    simp only [Ambassador.session, Ambassador.openSession, List.getElem?_append_left hi]
  refine ⟨fun i l hl => ?_, fun i l hl won => ?_, fun i lost => ?_⟩
  · have hi := h.known i l hl
    simp only [Ambassador.openSession, List.length_append, List.length_singleton]
    exact Nat.lt_succ_of_lt hi
  · show ((a.openSession limits).2.session i).lost = true
    rw [earlier (h.known i l hl)]
    exact h.won i l hl won
  · rcases Nat.lt_trichotomy i a.sessions.length with hi | rfl | hi
    · have same := earlier hi
      have lost : (a.session i).lost = true := same ▸ lost
      exact (h.shut i lost).ebbs (t := ((a.openSession limits).2, x))
        (by rw [show ((a.openSession limits).2, x).1.session i = _ from same]; exact .refl _) rfl
    · simp [Ambassador.session, Ambassador.openSession, Session.fresh] at lost
    · refine .inl ?_
      show ((a.openSession limits).2.session i).linkClosed = true
      rw [Ambassador.session_of_length_le]
      · rfl
      · simpa [Ambassador.openSession] using Nat.succ_le_of_lt hi

/-- There is no session behind the last. -/
theorem sealed_of_length_le {i : Nat} (h : s.1.sessions.length ≤ i) :
    Sealed s i := .inl (by rw [Ambassador.session_of_length_le h]; rfl)

/-- The standing and the connection change, and the federate counts as connected as the second
says. -/
theorem Held.alter (h : Held n told (a, x))
    (same : a'.sessions = a.sessions)
    (connected : a'.standing.connected = a.standing.connected ∨ (a.session n).lost = true) :
    Held n told (a', x) where
  kept := h.kept.same same
  length := (congrArg List.length same).trans h.length
  settled := h.settled.same same
  noted := h.noted
  connected := by
    show _ ∨ (a'.session n).lost = true ∨ _
    rw [session_of_sessions same]
    rcases connected with connected | lost
    · exact h.connected.imp_left connected.trans
    · exact .inr (.inl lost)

end

end Aside

end Federate
