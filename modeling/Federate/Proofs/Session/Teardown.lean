/-
Who tears a session down. The first loss that strikes wins, and it alone does
to the session what a loss does, each thing once. Once it has emptied the
table, a call is in there only until it looks again.
-/
import Federate.Proofs.Session.Hands
namespace Federate

open Function (update)

/-- The loss struck first. -/
def Loss.Stage.won : Loss.Stage → Bool
  | .striking | .late => false
  | _ => true

/-- What a loss has done to the session as a whole. -/
def Loss.performed (l : Loss) : List Effect :=
  match l.stage with
  | .striking | .late | .looking | .draining => []
  | .waking _ | .shaking => [.drain]
  | .noting => [.drain, .handshake]
  | .shutting => [.drain, .handshake, .terminated]
  | .falling => [.drain, .handshake, .terminated, .link]
  | .telling => [.drain, .handshake, .terminated, .link, .standing]
  | .ended =>
    if l.closing then [.drain, .handshake, .terminated, .link]
    else [.drain, .handshake, .terminated, .link, .standing, .notice]

/-- What a loss does, it does once. -/
theorem Loss.nodup_performed (l : Loss) : l.performed.Nodup := by
  unfold performed
  split <;> try split
  all_goals simp

theorem Loss.Stage.won_of_emptied {s : Loss.Stage} (h : s.emptied = true) : s.won = true := by
  cases s <;> first | rfl | cases h

namespace Traffic

variable {t t' : Traffic} {calls : Nat → Option Call} {place : Nat → Place}
  {losses : Nat → Option Loss} {lost : Bool} {effects : List (Nat × Effect)}

/-- The loss that tears the session down, if one does. -/
structure Losing (lost : Bool) (losses : Nat → Option Loss) (effects : List (Nat × Effect)) :
    Prop where
  struck : lost = true ↔ ∃ j l, losses j = some l ∧ l.stage.won = true
  one : ∀ i j l m, losses i = some l → losses j = some m → l.stage.won = true →
    m.stage.won = true → i = j
  did : ∀ j l, losses j = some l → l.stage.won = true → effects = l.performed.map (Prod.mk j)
  untouched : lost = false → effects = []
  unclosed : ∀ j l, losses j = some l → l.stage = .falling ∨ l.stage = .telling → l.closing = false

namespace Losing

/-- A loss begins, or comes too late. -/
theorem idle {j : Nat} {l : Loss} (h : Losing lost losses effects)
    (unwon : ∀ m, losses j = some m → m.stage.won = false) (idle : l.stage.won = false) :
    Losing lost (update losses j (some l)) effects where
  struck := by
    rw [h.struck]
    constructor
    · intro hx
      obtain ⟨k, m, hm, hw⟩ := hx
      have hk : k ≠ j := by
        intro heq
        subst heq
        rw [unwon m hm] at hw
        cases hw
      exact ⟨k, m, by rw [Function.update_of_ne hk, hm], hw⟩
    · intro hx
      obtain ⟨k, m, hm, hw⟩ := hx
      rcases of_update hm with ⟨rfl, rfl⟩ | ⟨-, hm⟩
      · rw [idle] at hw; cases hw
      · exact ⟨k, m, hm, hw⟩
  one i k m m' hm hm' hw hw' := by
    rcases of_update hm with ⟨rfl, rfl⟩ | ⟨-, hm⟩
    · rw [idle] at hw; cases hw
    rcases of_update hm' with ⟨rfl, rfl⟩ | ⟨-, hm'⟩
    · rw [idle] at hw'; cases hw'
    · exact h.one _ _ _ _ hm hm' hw hw'
  did k m hm hw := by
    rcases of_update hm with ⟨rfl, rfl⟩ | ⟨-, hm⟩
    · rw [idle] at hw; cases hw
    · exact h.did k m hm hw
  untouched := h.untouched
  unclosed k m hm hs := by
    rcases of_update hm with ⟨rfl, rfl⟩ | ⟨-, hm⟩
    · rcases hs with hs | hs <;> rw [hs] at idle <;> cases idle
    · exact h.unclosed k m hm hs

/-- A step of the loss that has won, with what it does. -/
theorem goes {j : Nat} {l l' : Loss} {m : List Effect} (h : Losing lost losses effects)
    (known : losses j = some l) (won : l.stage.won = true) (won' : l'.stage.won = true)
    (performed : l'.performed = l.performed ++ m)
    (unclosed : l'.stage = .falling ∨ l'.stage = .telling → l'.closing = false) :
    Losing lost (update losses j (some l')) (effects ++ m.map (Prod.mk j)) := by
  have winner : ∀ {k m}, update losses j (some l') k = some m → m.stage.won = true → k = j := by
    intro k m hm hw
    rcases of_update hm with ⟨rfl, -⟩ | ⟨-, hm⟩
    · rfl
    · exact h.one _ _ _ _ hm known hw won
  have hlost : lost = true := h.struck.mpr ⟨j, l, known, won⟩
  exact {
    struck := by
      rw [hlost]
      exact iff_of_true rfl ⟨j, l', Function.update_self .., won'⟩
    one := fun i k m m' hm hm' hw hw' => by rw [winner hm hw, winner hm' hw']
    did := fun k m hm hw => by
      obtain rfl := winner hm hw
      rw [Function.update_self] at hm
      cases hm
      rw [performed, List.map_append, h.did k l known won]
    untouched := fun hl => by rw [hlost] at hl; cases hl
    unclosed := fun k m hm hs => by
      rcases of_update hm with ⟨rfl, rfl⟩ | ⟨-, hm⟩
      · exact unclosed hs
      · exact h.unclosed k m hm hs }

/-- A step of the loss that has won, without an effect on the session as a whole. -/
theorem goesOn {j : Nat} {l l' : Loss} (h : Losing lost losses effects)
    (known : losses j = some l) (won : l.stage.won = true) (won' : l'.stage.won = true)
    (performed : l'.performed = l.performed)
    (unclosed : l'.stage = .falling ∨ l'.stage = .telling → l'.closing = false) :
    Losing lost (update losses j (some l')) effects := by
  have := h.goes (m := []) known won won' (by rw [performed, List.append_nil]) unclosed
  rwa [List.map_nil, List.append_nil] at this

/-- The first loss strikes. -/
theorem strikes {j : Nat} {l : Loss} (h : Losing false losses effects) :
    Losing true (update losses j (some (l.goTo .looking))) effects := by
  have nobody : ∀ k m, losses k = some m → m.stage.won = false := by
    intro k m hm
    cases hw : m.stage.won with
    | false => rfl
    | true => exact absurd (h.struck.mpr ⟨k, m, hm, hw⟩) (by simp)
  exact {
    struck := iff_of_true rfl ⟨j, _, Function.update_self .., rfl⟩
    one := fun i k m m' hm hm' hw hw' => by
      rcases of_update hm with ⟨hi, -⟩ | ⟨-, hm⟩
      · rcases of_update hm' with ⟨hk, -⟩ | ⟨-, hm'⟩
        · rw [hi, hk]
        · rw [nobody k m' hm'] at hw'; cases hw'
      · rw [nobody i m hm] at hw; cases hw
    did := fun k m hm hw => by
      rcases of_update hm with ⟨rfl, rfl⟩ | ⟨-, hm⟩
      · exact h.untouched rfl
      · rw [nobody k m hm] at hw; cases hw
    untouched := fun hl => by cases hl
    unclosed := fun k m hm hs => by
      rcases of_update hm with ⟨rfl, rfl⟩ | ⟨-, hm⟩
      · rcases hs with hs | hs <;> cases hs
      · exact h.unclosed k m hm hs }

theorem change (h : Losing t.session.lost t.losses t.effects) (hc : Change t t') :
    Losing t'.session.lost t'.losses t'.effects := by
  cases hc with
  | lossBegins reason new => exact h.idle (by simp [new]) rfl
  | strikes known stage unlost =>
    have h' : Losing false t.losses t.effects := unlost ▸ h
    exact h'.strikes
  | comesLate known stage lost =>
    refine h.idle (fun m hm => ?_) rfl
    rw [known] at hm
    cases hm
    rw [stage]
    rfl
  | sees known stage closing | wakesCaller known stage | passesCast known stage
  | wakesNobody known stage =>
    exact h.goesOn known (by rw [stage]; rfl) rfl (by simp [Loss.performed, Loss.goTo, stage])
      (by simp [Loss.goTo])
  | drains known stage =>
    exact h.goes (m := [.drain]) known (by rw [stage]; rfl) rfl
      (by simp [Loss.performed, Loss.goTo, stage]) (by simp [Loss.goTo])
  | @tears j l e stage p agrees known tears =>
    show Losing p.session.lost _ (t.effects ++ [e].map (Prod.mk j))
    rw [agrees.lost]
    cases tears with
    | linkClosing stage closing =>
      exact h.goes known (by rw [stage]; rfl) rfl
        (by simp [Loss.performed, Loss.goTo, stage, closing]) (by simp [Loss.goTo])
    | link stage closing =>
      exact h.goes known (by rw [stage]; rfl) rfl (by simp [Loss.performed, Loss.goTo, stage])
        (fun _ => closing)
    | standing stage =>
      have closing := h.unclosed j l known (.inl stage)
      exact h.goes known (by rw [stage]; rfl) rfl (by simp [Loss.performed, Loss.goTo, stage])
        (fun _ => closing)
    | notice stage =>
      have closing := h.unclosed j l known (.inr stage)
      exact h.goes known (by rw [stage]; rfl) rfl
        (by simp [Loss.performed, Loss.goTo, stage, closing]) (by simp [Loss.goTo])
    | _ stage =>
      exact h.goes known (by rw [stage]; rfl) rfl (by simp [Loss.performed, Loss.goTo, stage])
        (by simp [Loss.goTo])
  | aside p agrees | received p agrees | answered p agrees | counts p agrees | notes p agrees =>
    show Losing p.session.lost _ _
    rw [agrees.lost]
    exact h
  | _ => exact h

end Losing

/-! ## After the table has been emptied -/

/-- Once a loss has emptied the table, a call is in there only until it looks again. -/
def Swept (calls : Nat → Option Call) (place : Nat → Place) (losses : Nat → Option Loss) : Prop :=
  ∀ j l i c, losses j = some l → l.stage.emptied = true → calls i = some c → place i = .table →
    ∃ n, c.stage = .entered n

namespace Swept

/-- A step of a call that was not in the table, or is not any more. -/
theorem goes {i : Nat} {c : Call} {place' : Nat → Place} (h : Swept calls place losses)
    (mine : place' i = .table → ∀ j l, losses j = some l → l.stage.emptied = true →
      ∃ n, c.stage = .entered n)
    (others : ∀ j, j ≠ i → place' j = .table → place j = .table) :
    Swept (update calls i (some c)) place' losses := by
  intro j l k d hl he hd hp
  rcases of_update hd with ⟨rfl, rfl⟩ | ⟨hk, hd⟩
  · exact mine hp j l hl he
  · exact h j l k d hl he hd (others k hk hp)

/-- A step of a loss that does not empty the table. -/
theorem lossGoes {j : Nat} {l : Loss} (h : Swept calls place losses)
    (emptied : l.stage.emptied = true → ∃ m, losses j = some m ∧ m.stage.emptied = true) :
    Swept calls place (update losses j (some l)) := by
  intro k m i c hm he hc hp
  rcases of_update hm with ⟨rfl, rfl⟩ | ⟨-, hm⟩
  · obtain ⟨m, hm, hme⟩ := emptied he
    exact h _ m i c hm hme hc hp
  · exact h k m i c hm he hc hp

theorem change (h : Swept t.calls t.place t.losses)
    (hl : Losing t.session.lost t.losses t.effects)
    (ht : Table t.calls t.number t.place t.session.pending)
    (hb : Bearing t.calls t.number t.handed) (hc : Change t t') :
    Swept t'.calls t'.place t'.losses := by
  cases hc with
  | @callBegins i envelope new | @castBegins i envelope new =>
    have hp : t.place i = .nowhere := (ht.nowhere _).mpr (hb.unnumbered (by simp [new]))
    exact h.goes (fun hp' => absurd (hp.symm.trans hp') (by simp)) (fun _ _ => id)
  | turnedAway known stage | looks known stage | hands known stage | goesOut known stage
  | waits known stage | leaves known stage | collects known stage | lapses known stage
  | expires known stage =>
    refine h.goes (fun hp j l hj he => ?_) (fun _ _ => id)
    obtain ⟨n, hn⟩ := h j l _ _ hj he known hp
    rw [stage] at hn
    cases hn
  | looksAgain known stage unlost =>
    refine h.goes (fun hp j l hj he => ?_) (fun _ _ => id)
    have := hl.struck.mpr ⟨j, l, hj, Loss.Stage.won_of_emptied he⟩
    rw [unlost] at this
    cases this
  | enters known stage free =>
    refine h.goes (fun _ _ _ _ _ => ⟨_, rfl⟩) fun j hj hp => ?_
    exact eq_of_moved ((Function.update_of_ne hj ..).symm.trans hp) (by simp)
  | givesUp known stage | withdraws known stage =>
    have hi := hb.known _ _ _ known (by rw [stage]; rfl)
    exact h.goes (fun hp => absurd hp (moved_ne_table (by simp) hi))
      fun j _ hp => eq_of_moved hp (by simp)
  | refused known stage =>
    obtain ⟨rfl, -⟩ := hb.offered _ _ _ _ _ known stage
    have hi := hb.known _ _ _ known (by rw [stage]; rfl)
    exact h.goes (fun hp => absurd hp (moved_ne_table (by simp) hi))
      fun j _ hp => eq_of_moved hp (by simp)
  | claims known stage =>
    exact fun j l i c hj he hc hp => h j l i c hj he hc (eq_of_moved hp (by simp))
  | lossBegins reason new => exact h.lossGoes fun he => by cases he
  | strikes known stage | comesLate known stage | sees known stage =>
    exact h.lossGoes fun he => by cases he
  | drains known stage =>
    exact fun k m i c _ _ _ hp => absurd hp (emptied_ne_table (by simp))
  | wakesCaller known stage | passesCast known stage | wakesNobody known stage =>
    exact h.lossGoes fun _ => ⟨_, known, by rw [stage]; rfl⟩
  | tears p agrees known tears =>
    exact h.lossGoes fun _ => ⟨_, known, by cases tears <;> simp_all [Loss.Stage.emptied]⟩
  | _ => exact h

end Swept

end Traffic

end Federate
