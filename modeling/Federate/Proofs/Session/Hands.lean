/-
What becomes of an entry that has left the table. An answer that has taken it
will wake the caller, or has done so; the same goes for a loss that has drained
it; and the call itself takes it back only when it has ended or its wait is
over. Another call can take it from there only by having the same number.
Whatever has reached a slot came from where the entry of its caller went.
-/
import Federate.Proofs.Session.Table
namespace Federate

open Function (update)

/-- The wait is over, or the call has ended. -/
def Call.Stage.over : Call.Stage → Bool
  | .lapsed _ | .expired _ | .ended _ => true
  | _ => false

/-- The call has left the table of its own accord, or has ended. -/
def Call.Stage.done : Call.Stage → Bool
  | .expired _ | .ended _ => true
  | _ => false

theorem Call.Stage.over_of_done {s : Call.Stage} (h : s.done = true) : s.over = true := by
  cases s <;> first | rfl | cases h

/-- The answer has the entry of a caller in its hands. -/
def Receipt.Holds (a : Receipt) (k : Nat) : Prop :=
  (∃ tag, a.stage = .noting k tag) ∨ a.stage = .waking k

/-- Before the answer has looked into the table. -/
def Receipt.Stage.early : Receipt.Stage → Bool
  | .counting | .claiming => true
  | _ => false

/-- The loss has emptied the table. -/
def Loss.Stage.emptied : Loss.Stage → Bool
  | .striking | .late | .looking | .draining => false
  | _ => true

/-- The loss has the entry of a caller in its hands. -/
def Loss.Holds (l : Loss) (k : Nat) : Prop :=
  ∃ rest tag, l.stage = .waking rest ∧ .blocking k tag ∈ rest

theorem Call.pending_eq_blocking {c : Call} {k : Nat} {tag : UInt16} :
    c.pending = .blocking k tag ↔ c.ticket = some k ∧ c.envelope.tag = tag := by
  unfold Call.pending
  cases c.ticket with
  | some m => simp
  | none => simp

namespace Traffic

variable {t t' : Traffic} {calls : Nat → Option Call} {handed : List Handing}
  {number : Nat → Option UInt32} {place : Nat → Place}
  {pending : List (UInt32 × Session.Pending)} {answers : Nat → Option Receipt}
  {losses : Nat → Option Loss} {tidings : Nat → List Tiding}

/-- Another call has the number of the call as well. -/
def Shared (number : Nat → Option UInt32) (i : Nat) : Prop :=
  ∃ j n, j ≠ i ∧ number i = some n ∧ number j = some n

/-- Where a tiding came from. -/
def Source (number : Nat → Option UInt32) (place : Nat → Place) (answers : Nat → Option Receipt)
    (losses : Nat → Option Loss) (i : Nat) (c : Call) : Tiding → Prop
  | .response n outcome =>
    number i = some n ∧
      ∃ j a, place i = .answer j ∧ answers j = some a ∧ a.number = n ∧ a.outcome = outcome
  | .loss reason => ∃ j l, place i = .loss j ∧ losses j = some l ∧ l.reason = reason
  | .expiry n => number i = some n ∧ c.stage.over = true

/-- Whose hands an entry is in. -/
structure Hands (calls : Nat → Option Call) (number : Nat → Option UInt32) (place : Nat → Place)
    (answers : Nat → Option Receipt) (losses : Nat → Option Loss) (tidings : Nat → List Tiding) :
    Prop where
  gone : ∀ i c, calls i = some c → place i = .withdrawn → c.stage.done = true ∨ Shared number i
  answer : ∀ i c j, calls i = some c → place i = .answer j → ∃ a, answers j = some a ∧
    a.stage.early = false ∧ number i = some a.number ∧
    ∀ k, c.ticket = some k → a.Holds k ∨ .response a.number a.outcome ∈ tidings k
  holder : ∀ j a k, answers j = some a → a.Holds k →
    ∃ i c, calls i = some c ∧ c.ticket = some k ∧ place i = .answer j
  /-- An answer takes one entry at most. -/
  one : ∀ i i' j, place i = .answer j → place i' = .answer j → i = i'
  loss : ∀ i c j, calls i = some c → place i = .loss j → ∃ l, losses j = some l ∧
    l.stage.emptied = true ∧ ∀ k, c.ticket = some k → l.Holds k ∨ .loss l.reason ∈ tidings k
  drainer : ∀ j l k, losses j = some l → l.Holds k →
    ∃ i c, calls i = some c ∧ c.ticket = some k ∧ place i = .loss j
  told : ∀ k τ, τ ∈ tidings k → ∃ i c, calls i = some c ∧ c.ticket = some k ∧
    Source number place answers losses i c τ

/-- A call is still there after a step of one of them. -/
theorem exists_goes {i : Nat} {c : Call} {s : Call.Stage} {P : Nat → Call → Prop}
    (known : calls i = some c) (keep : P i c → P i (c.goTo s))
    (h : ∃ j d, calls j = some d ∧ P j d) :
    ∃ j d, update calls i (some (c.goTo s)) j = some d ∧ P j d := by
  obtain ⟨j, hj⟩ := h
  exact ⟨j, row_of_update known keep hj⟩

namespace Source

variable {i : Nat} {c : Call} {τ : Tiding}

/-- Nothing comes of a call that has no number yet, and no entry. -/
theorem absurd_of_new (h : Source number place answers losses i c τ) (unnumbered : number i = none)
    (nowhere : place i = .nowhere) : False := by
  cases τ with
  | response n outcome => simp [Source, unnumbered] at h
  | loss reason => simp [Source, nowhere] at h
  | expiry n => simp [Source, unnumbered] at h

/-- The entry stays where it is, though others may move. -/
theorem moves {number' : Nat → Option UInt32} {place' : Nat → Place}
    (h : Source number place answers losses i c τ)
    (numbered : ∀ n, number i = some n → number' i = some n)
    (stays : ∀ p, place i = p → p ≠ .nowhere → p ≠ .table → place' i = p) :
    Source number' place' answers losses i c τ := by
  cases τ with
  | response n outcome =>
    obtain ⟨hn, j, a, hp, hrest⟩ := h
    exact ⟨numbered n hn, j, a, stays _ hp (by simp) (by simp), hrest⟩
  | loss reason =>
    obtain ⟨j, l, hp, hrest⟩ := h
    exact ⟨j, l, stays _ hp (by simp) (by simp), hrest⟩
  | expiry n => exact ⟨numbered n h.1, h.2⟩

/-- Answers move on. -/
theorem answers_go {answers' : Nat → Option Receipt}
    (h : Source number place answers losses i c τ)
    (same : ∀ j a, place i = .answer j → answers j = some a →
      ∃ b, answers' j = some b ∧ b.number = a.number ∧ b.outcome = a.outcome) :
    Source number place answers' losses i c τ := by
  cases τ with
  | response n outcome =>
    obtain ⟨hn, j, a, hp, ha, rfl, rfl⟩ := h
    obtain ⟨b, hb, hrest⟩ := same j a hp ha
    exact ⟨hn, j, b, hp, hb, hrest⟩
  | loss reason => exact h
  | expiry n => exact h

/-- Losses move on. -/
theorem losses_go {losses' : Nat → Option Loss} (h : Source number place answers losses i c τ)
    (same : ∀ j l, place i = .loss j → losses j = some l →
      ∃ m, losses' j = some m ∧ m.reason = l.reason) :
    Source number place answers losses' i c τ := by
  cases τ with
  | response n outcome => exact h
  | loss reason =>
    obtain ⟨j, l, hp, hl, rfl⟩ := h
    obtain ⟨m, hm, hreason⟩ := same j l hp hl
    exact ⟨j, m, hp, hm, hreason⟩
  | expiry n => exact h

end Source

namespace Hands

/-- An answer that has not looked into the table has taken nothing. -/
theorem not_taken (h : Hands calls number place answers losses tidings)
    (caller : ∀ i, place i ≠ .nowhere → ∃ c, calls i = some c) {j : Nat}
    (early : ∀ a, answers j = some a → a.stage.early = true) (i : Nat) : place i ≠ .answer j := by
  intro hp
  obtain ⟨c, hc⟩ := caller i (by simp [hp])
  obtain ⟨a, ha, he, -⟩ := h.answer i c j hc hp
  rw [early a ha] at he
  cases he

/-- A loss that has not emptied the table has drained nothing. -/
theorem not_drained (h : Hands calls number place answers losses tidings)
    (caller : ∀ i, place i ≠ .nowhere → ∃ c, calls i = some c) {j : Nat}
    (early : ∀ l, losses j = some l → l.stage.emptied = false) (i : Nat) : place i ≠ .loss j := by
  intro hp
  obtain ⟨c, hc⟩ := caller i (by simp [hp])
  obtain ⟨l, hl, he, -⟩ := h.loss i c j hc hp
  rw [early l hl] at he
  cases he

/-- A call that begins. -/
theorem begins {i : Nat} {c : Call} (h : Hands calls number place answers losses tidings)
    (new : calls i = none) (nowhere : place i = .nowhere) :
    Hands (update calls i (some c)) number place answers losses tidings := by
  have old : ∀ {P : Nat → Call → Prop}, (∃ j d, calls j = some d ∧ P j d) →
      ∃ j d, update calls i (some c) j = some d ∧ P j d := by
    intro P hx
    obtain ⟨j, d, hd, hp⟩ := hx
    exact ⟨j, d, update_of_new new hd, hp⟩
  exact {
    gone := fun j d hd hp => by
      rcases of_update hd with ⟨rfl, -⟩ | ⟨-, hd⟩
      · rw [nowhere] at hp; cases hp
      · exact h.gone j d hd hp
    answer := fun j d k hd hp => by
      rcases of_update hd with ⟨rfl, -⟩ | ⟨-, hd⟩
      · rw [nowhere] at hp; cases hp
      · exact h.answer j d k hd hp
    holder := fun j a k ha hk => old (h.holder j a k ha hk)
    one := h.one
    loss := fun j d k hd hp => by
      rcases of_update hd with ⟨rfl, -⟩ | ⟨-, hd⟩
      · rw [nowhere] at hp; cases hp
      · exact h.loss j d k hd hp
    drainer := fun j l k hl hk => old (h.drainer j l k hl hk)
    told := fun k τ hτ => old (h.told k τ hτ) }

/-- A step of a call that stays where it is. -/
theorem goes {i : Nat} {c : Call} {s : Call.Stage}
    (h : Hands calls number place answers losses tidings) (known : calls i = some c)
    (done : c.stage.done = true → s.done = true) (past : c.stage.over = true → s.over = true) :
    Hands (update calls i (some (c.goTo s))) number place answers losses tidings where
  gone j d hd hp := by
    rcases of_update hd with ⟨rfl, rfl⟩ | ⟨-, hd⟩
    · exact (h.gone _ _ known hp).imp_left done
    · exact h.gone j d hd hp
  answer j d k hd hp := by
    rcases of_update hd with ⟨rfl, rfl⟩ | ⟨-, hd⟩
    · exact h.answer _ c k known hp
    · exact h.answer j d k hd hp
  holder j a k ha hk :=
    exists_goes (P := fun i c => c.ticket = some k ∧ place i = .answer j) known id
      (h.holder j a k ha hk)
  one := h.one
  loss j d k hd hp := by
    rcases of_update hd with ⟨rfl, rfl⟩ | ⟨-, hd⟩
    · exact h.loss _ c k known hp
    · exact h.loss j d k hd hp
  drainer j l k hl hk :=
    exists_goes (P := fun i c => c.ticket = some k ∧ place i = .loss j) known id
      (h.drainer j l k hl hk)
  told k τ hτ := by
    refine exists_goes (P := fun i c => c.ticket = some k ∧
      Source number place answers losses i c τ) known (And.imp_right fun hs => ?_) (h.told k τ hτ)
    cases τ with
    | response => exact hs
    | loss => exact hs
    | expiry => exact ⟨hs.1, past hs.2⟩

/-- A call enters the table. -/
theorem enters {i : Nat} {c : Call} {n : UInt32}
    (h : Hands calls number place answers losses tidings) (known : calls i = some c)
    (nowhere : place i = .nowhere) (hi : number i = none) :
    Hands (update calls i (some (c.goTo (.entered n)))) (update number i (some n))
      (update (moved place number n .withdrawn) i .table) answers losses tidings := by
  have other : ∀ {j p}, place j = p → p ≠ .nowhere → j ≠ i := by
    intro j p hp hne heq
    subst heq
    rw [nowhere] at hp
    exact hne hp.symm
  have moves : ∀ {j p}, update (moved place number n .withdrawn) i .table j = p → p ≠ .table →
      j ≠ i ∧ moved place number n .withdrawn j = p := by
    intro j p hp hne
    by_cases hj : j = i
    · subst hj
      rw [Function.update_self] at hp
      exact absurd hp.symm hne
    · rw [Function.update_of_ne hj] at hp
      exact ⟨hj, hp⟩
  have stays : ∀ {j p}, place j = p → p ≠ .nowhere → p ≠ .table →
      update (moved place number n .withdrawn) i .table j = p := by
    intro j p hp hne hnt
    rw [Function.update_of_ne (other hp hne), moved_eq hp hnt]
  exact {
    gone := fun j d hd hp => by
      obtain ⟨hj, hp⟩ := moves hp (by simp)
      rw [Function.update_of_ne hj] at hd
      unfold moved at hp
      split at hp
      · next ht =>
        -- The call that enters puts this one out, and has its number.
        refine .inr ⟨i, n, Ne.symm hj, ?_, Function.update_self ..⟩
        rw [Function.update_of_ne hj, ht.2]
      · refine (h.gone j d hd hp).imp_right ?_
        intro hx
        obtain ⟨k, m, hk, hjm, hkm⟩ := hx
        have hki : k ≠ i := by
          intro heq
          subst heq
          rw [hi] at hkm
          cases hkm
        refine ⟨k, m, hk, ?_, ?_⟩
        · rw [Function.update_of_ne hj, hjm]
        · rw [Function.update_of_ne hki, hkm]
    answer := fun j d k hd hp => by
      obtain ⟨hj, hp⟩ := moves hp (by simp)
      rw [Function.update_of_ne hj] at hd ⊢
      exact h.answer j d k hd (eq_of_moved hp (by simp))
    holder := fun j a k ha hk => by
      obtain ⟨j', d, hd, ht, hp⟩ := h.holder j a k ha hk
      have hj := other hp (by simp)
      exact ⟨j', d, by rw [Function.update_of_ne hj, hd], ht, stays hp (by simp) (by simp)⟩
    one := fun j j' k hj hj' =>
      h.one j j' k (eq_of_moved (moves hj (by simp)).2 (by simp))
        (eq_of_moved (moves hj' (by simp)).2 (by simp))
    loss := fun j d k hd hp => by
      obtain ⟨hj, hp⟩ := moves hp (by simp)
      rw [Function.update_of_ne hj] at hd
      exact h.loss j d k hd (eq_of_moved hp (by simp))
    drainer := fun j l k hl hk => by
      obtain ⟨j', d, hd, ht, hp⟩ := h.drainer j l k hl hk
      have hj := other hp (by simp)
      exact ⟨j', d, by rw [Function.update_of_ne hj, hd], ht, stays hp (by simp) (by simp)⟩
    told := fun k τ hτ => by
      obtain ⟨j, d, hd, ht, hs⟩ := h.told k τ hτ
      have hj : j ≠ i := by
        intro heq
        subst heq
        exact hs.absurd_of_new hi nowhere
      refine ⟨j, d, by rw [Function.update_of_ne hj, hd], ht, ?_⟩
      exact hs.moves (fun m hm => by rw [Function.update_of_ne hj, hm])
        fun p hp hne hnt => stays hp hne hnt }

/-- A call leaves the table of its own accord. -/
theorem withdraws {i : Nat} {c : Call} {s : Call.Stage} {n : UInt32}
    (h : Hands calls number place answers losses tidings) (known : calls i = some c)
    (hi : number i = some n) (done : s.done = true) :
    Hands (update calls i (some (c.goTo s))) number (moved place number n .withdrawn) answers losses
      tidings := by
  have hgoes := h.goes known (s := s) (fun _ => done) (fun _ => Call.Stage.over_of_done done)
  exact {
    gone := fun j d hd hp => by
      rcases of_update hd with ⟨rfl, rfl⟩ | ⟨hj, -⟩
      · exact .inl done
      · unfold moved at hp
        split at hp
        · next ht => exact .inr ⟨i, n, Ne.symm hj, ht.2, hi⟩
        · exact hgoes.gone j d hd hp
    answer := fun j d k hd hp => hgoes.answer j d k hd (eq_of_moved hp (by simp))
    holder := fun j a k ha hk => by
      obtain ⟨i', c', hc, ht, hp⟩ := hgoes.holder j a k ha hk
      exact ⟨i', c', hc, ht, moved_eq hp (by simp)⟩
    one := fun j j' k hj hj' =>
      hgoes.one j j' k (eq_of_moved hj (by simp)) (eq_of_moved hj' (by simp))
    loss := fun j d k hd hp => hgoes.loss j d k hd (eq_of_moved hp (by simp))
    drainer := fun j l k hl hk => by
      obtain ⟨i', c', hc, ht, hp⟩ := hgoes.drainer j l k hl hk
      exact ⟨i', c', hc, ht, moved_eq hp (by simp)⟩
    told := fun k τ hτ => by
      obtain ⟨i', c', hc, ht, hs⟩ := hgoes.told k τ hτ
      exact ⟨i', c', hc, ht, hs.moves (fun _ => id) fun _ hp _ hnt => moved_eq hp hnt⟩ }

/-- Something reaches a slot. -/
theorem tells {k : Nat} {τ : Tiding} (h : Hands calls number place answers losses tidings)
    (source : ∃ i c, calls i = some c ∧ c.ticket = some k ∧
      Source number place answers losses i c τ) :
    Hands calls number place answers losses (update tidings k (tidings k ++ [τ])) := by
  have more : ∀ {m σ}, σ ∈ tidings m → σ ∈ update tidings k (tidings k ++ [τ]) m := by
    intro m σ hσ
    by_cases hm : m = k
    · subst hm
      rw [Function.update_self]
      exact List.mem_append_left _ hσ
    · rwa [Function.update_of_ne hm]
  exact {
    gone := h.gone
    answer := fun i c j hc hp => by
      obtain ⟨a, ha, he, hn, hk⟩ := h.answer i c j hc hp
      exact ⟨a, ha, he, hn, fun m hm => (hk m hm).imp_right more⟩
    holder := h.holder
    one := h.one
    loss := fun i c j hc hp => by
      obtain ⟨l, hl, he, hk⟩ := h.loss i c j hc hp
      exact ⟨l, hl, he, fun m hm => (hk m hm).imp_right more⟩
    drainer := h.drainer
    told := fun m σ hσ => by
      by_cases hm : m = k
      · subst hm
        rw [Function.update_self] at hσ
        rcases List.mem_append.mp hσ with hσ | hσ
        · exact h.told m σ hσ
        · rw [List.mem_singleton.mp hσ]
          exact source
      · rw [Function.update_of_ne hm] at hσ
        exact h.told m σ hσ }

/-- An answer comes. -/
theorem answered {j : Nat} {a : Receipt} (h : Hands calls number place answers losses tidings)
    (caller : ∀ i, place i ≠ .nowhere → ∃ c, calls i = some c) (new : answers j = none)
    (early : a.stage.early = true) :
    Hands calls number place (update answers j (some a)) losses tidings := by
  have others : ∀ {i k}, place i = .answer k → k ≠ j := by
    intro i k hp heq
    subst heq
    exact h.not_taken caller (by simp [new]) i hp
  exact {
    gone := h.gone
    answer := fun i c k hc hp => by
      rw [Function.update_of_ne (others hp)]
      exact h.answer i c k hc hp
    holder := fun k b m hb hm => by
      rcases of_update hb with ⟨rfl, rfl⟩ | ⟨-, hb⟩
      · rcases hm with ⟨tag, hm⟩ | hm <;> rw [hm] at early <;> cases early
      · exact h.holder k b m hb hm
    one := h.one
    loss := h.loss
    drainer := h.drainer
    told := fun k τ hτ => by
      obtain ⟨i, c, hc, ht, hs⟩ := h.told k τ hτ
      refine ⟨i, c, hc, ht, hs.answers_go fun k' b hp hb => ?_⟩
      exact ⟨b, by rw [Function.update_of_ne (others hp), hb], rfl, rfl⟩ }

/-- A step of an answer that keeps what it has, or has told it. -/
theorem answerGoes {j : Nat} {a : Receipt} {s : Receipt.Stage}
    (h : Hands calls number place answers losses tidings) (known : answers j = some a)
    (early : s.early = true → a.stage.early = true)
    (keeps : ∀ k, a.Holds k → (a.goTo s).Holds k ∨ .response a.number a.outcome ∈ tidings k)
    (holds : ∀ k, (a.goTo s).Holds k → a.Holds k) :
    Hands calls number place (update answers j (some (a.goTo s))) losses tidings where
  gone := h.gone
  answer i c k hc hp := by
    refine row_of_update (P := fun _ b => b.stage.early = false ∧ number i = some b.number ∧
      ∀ m, c.ticket = some m → b.Holds m ∨ .response b.number b.outcome ∈ tidings m) known ?_
      (h.answer i c k hc hp)
    intro hx
    obtain ⟨he, hn, hk⟩ := hx
    refine ⟨?_, hn, fun m hm => ?_⟩
    · cases hs : s.early with
      | true => rw [early hs] at he; cases he
      | false => exact hs
    · rcases hk m hm with hk | hk
      · exact keeps m hk
      · exact .inr hk
  holder k b m hb hm := by
    rcases of_update hb with ⟨rfl, rfl⟩ | ⟨-, hb⟩
    · exact h.holder _ a m known (holds m hm)
    · exact h.holder k b m hb hm
  one := h.one
  loss := h.loss
  drainer := h.drainer
  told k τ hτ := by
    obtain ⟨i, c, hc, ht, hs⟩ := h.told k τ hτ
    refine ⟨i, c, hc, ht, hs.answers_go fun k' b _ hb => ?_⟩
    exact row_of_update (b := a.goTo s)
      (P := fun _ (a : Receipt) => a.number = b.number ∧ a.outcome = b.outcome) known id
      ⟨b, hb, rfl, rfl⟩

/-- An answer finds the entry of its call in the table, and takes it. -/
theorem claims {i j : Nat} {a : Receipt} {c : Call}
    (h : Hands calls number place answers losses tidings) (known : answers j = some a)
    (early : a.stage.early = true) (caller : ∀ i, place i ≠ .nowhere → ∃ c, calls i = some c)
    (hc : calls i = some c) (hp : place i = .table) (hi : number i = some a.number)
    (only : ∀ i', place i' = .table → number i' = some a.number → i' = i) :
    Hands calls number (moved place number a.number (.answer j))
      (update answers j (some (a.goTo (Receipt.found (some c.pending))))) losses tidings := by
  have untaken : ∀ i', place i' ≠ .answer j := h.not_taken caller (by simp [known, early])
  have takes : moved place number a.number (.answer j) i = .answer j := by
    rw [moved, if_pos ⟨hp, hi⟩]
  have mine : ∀ {i'}, moved place number a.number (.answer j) i' = .answer j → i' = i := by
    intro i' hp'
    unfold moved at hp'
    split at hp'
    · next ht => exact only i' ht.1 ht.2
    · exact absurd hp' (untaken i')
  exact {
    gone := fun i' d hd hp' => h.gone i' d hd (eq_of_moved hp' (by simp))
    answer := fun i' d k hd hp' => by
      by_cases hk : k = j
      · subst hk
        obtain rfl := mine hp'
        rw [hc] at hd
        cases hd
        refine ⟨_, Function.update_self .., ?_, hi, fun m hm => .inl (.inl ⟨c.envelope.tag, ?_⟩)⟩
        · cases ht : c.ticket <;> simp [Receipt.goTo, Receipt.found, Call.pending, ht] <;> rfl
        · simp [Receipt.goTo, Receipt.found, Call.pending, hm]
      · rw [Function.update_of_ne hk]
        exact h.answer i' d k hd (eq_of_moved hp' (by simp [hk]))
    holder := fun k b m hb hm => by
      rcases of_update hb with ⟨rfl, rfl⟩ | ⟨-, hb⟩
      · refine ⟨i, c, hc, ?_, takes⟩
        cases ht : c.ticket <;>
          simp [Receipt.Holds, Receipt.goTo, Receipt.found, Call.pending, ht] at hm
        rw [hm]
      · obtain ⟨i', d, hd, ht, hp'⟩ := h.holder k b m hb hm
        exact ⟨i', d, hd, ht, moved_eq hp' (by simp)⟩
    one := fun i₁ i₂ k h₁ h₂ => by
      by_cases hk : k = j
      · subst hk
        rw [mine h₁, mine h₂]
      · exact h.one i₁ i₂ k (eq_of_moved h₁ (by simp [hk])) (eq_of_moved h₂ (by simp [hk]))
    loss := fun i' d k hd hp' => h.loss i' d k hd (eq_of_moved hp' (by simp))
    drainer := fun k l m hl hm => by
      obtain ⟨i', d, hd, ht, hp'⟩ := h.drainer k l m hl hm
      exact ⟨i', d, hd, ht, moved_eq hp' (by simp)⟩
    told := fun k τ hτ => by
      obtain ⟨i', d, hd, ht, hs⟩ := h.told k τ hτ
      have others : Source number place
          (update answers j (some (a.goTo (Receipt.found (some c.pending))))) losses i' d τ := by
        refine hs.answers_go fun k' b hp' hb => ⟨b, ?_, rfl, rfl⟩
        have hk : k' ≠ j := by
          intro heq
          subst heq
          exact untaken i' hp'
        rw [Function.update_of_ne hk, hb]
      exact ⟨i', d, hd, ht, others.moves (fun _ => id) fun _ hp' _ hnt => moved_eq hp' hnt⟩ }

/-- A loss begins. -/
theorem lossBegins {j : Nat} {l : Loss} (h : Hands calls number place answers losses tidings)
    (caller : ∀ i, place i ≠ .nowhere → ∃ c, calls i = some c) (new : losses j = none)
    (unheld : ∀ k, ¬ l.Holds k) :
    Hands calls number place answers (update losses j (some l)) tidings := by
  have others : ∀ {i k}, place i = .loss k → k ≠ j := by
    intro i k hp heq
    subst heq
    exact h.not_drained caller (by simp [new]) i hp
  exact {
    gone := h.gone
    answer := h.answer
    holder := h.holder
    one := h.one
    loss := fun i c k hc hp => by
      rw [Function.update_of_ne (others hp)]
      exact h.loss i c k hc hp
    drainer := fun k m n hm hn => by
      rcases of_update hm with ⟨rfl, rfl⟩ | ⟨-, hm⟩
      · exact absurd hn (unheld n)
      · exact h.drainer k m n hm hn
    told := fun k τ hτ => by
      obtain ⟨i, c, hc, ht, hs⟩ := h.told k τ hτ
      refine ⟨i, c, hc, ht, hs.losses_go fun k' m hp hm => ?_⟩
      exact ⟨m, by rw [Function.update_of_ne (others hp), hm], rfl⟩ }

/-- A step of a loss that keeps what it has, or has told it. -/
theorem lossGoes {j : Nat} {l l' : Loss} (h : Hands calls number place answers losses tidings)
    (known : losses j = some l) (reason : l'.reason = l.reason)
    (emptied : l.stage.emptied = true → l'.stage.emptied = true)
    (keeps : ∀ k, l.Holds k → l'.Holds k ∨ .loss l.reason ∈ tidings k)
    (holds : ∀ k, l'.Holds k → l.Holds k) :
    Hands calls number place answers (update losses j (some l')) tidings where
  gone := h.gone
  answer := h.answer
  holder := h.holder
  one := h.one
  loss i c k hc hp := by
    refine row_of_update (P := fun _ m => m.stage.emptied = true ∧
      ∀ n, c.ticket = some n → m.Holds n ∨ .loss m.reason ∈ tidings n) known ?_
      (h.loss i c k hc hp)
    intro hx
    obtain ⟨he, hk⟩ := hx
    refine ⟨emptied he, fun n hn => ?_⟩
    rw [reason]
    rcases hk n hn with hk | hk
    · exact keeps n hk
    · exact .inr hk
  drainer k m n hm hn := by
    rcases of_update hm with ⟨rfl, rfl⟩ | ⟨-, hm⟩
    · exact h.drainer _ l n known (holds n hn)
    · exact h.drainer k m n hm hn
  told k τ hτ := by
    obtain ⟨i, c, hc, ht, hs⟩ := h.told k τ hτ
    refine ⟨i, c, hc, ht, hs.losses_go fun k' m _ hm => ?_⟩
    exact row_of_update (P := fun _ l => l.reason = m.reason) known reason.trans ⟨m, hm, rfl⟩

/-- A loss empties the table. -/
theorem drains {j : Nat} {l : Loss} (h : Hands calls number place answers losses tidings)
    (ht : Table calls number place pending)
    (caller : ∀ i, place i ≠ .nowhere → ∃ c, calls i = some c) (known : losses j = some l)
    (unemptied : l.stage.emptied = false) :
    Hands calls number (emptied place (.loss j)) answers
      (update losses j (some (l.goTo (.waking (pending.map Prod.snd))))) tidings := by
  have undrained : ∀ i, place i ≠ .loss j := h.not_drained caller (by simp [known, unemptied])
  have takes : ∀ {i}, place i = .table → emptied place (.loss j) i = .loss j := by
    intro i hp
    rw [emptied, if_pos hp]
  have mine : ∀ {i}, emptied place (.loss j) i = .loss j → place i = .table := by
    intro i hp
    unfold emptied at hp
    split at hp
    · assumption
    · exact absurd hp (undrained i)
  exact {
    gone := fun i c hc hp => h.gone i c hc (eq_of_emptied hp (by simp))
    answer := fun i c k hc hp => h.answer i c k hc (eq_of_emptied hp (by simp))
    holder := fun k a m ha hm => by
      obtain ⟨i, c, hc, htk, hp⟩ := h.holder k a m ha hm
      exact ⟨i, c, hc, htk, emptied_eq hp (by simp)⟩
    one := fun i i' k hi hi' =>
      h.one i i' k (eq_of_emptied hi (by simp)) (eq_of_emptied hi' (by simp))
    loss := fun i c k hc hp => by
      by_cases hk : k = j
      · subst hk
        refine ⟨_, Function.update_self .., rfl, fun m hm => .inl ⟨_, c.envelope.tag, rfl, ?_⟩⟩
        have hp' := mine hp
        cases hn : number i with
        | none => rw [(ht.nowhere i).mpr hn] at hp'; cases hp'
        | some n =>
          have hmem := (ht.entries n c.pending).mpr ⟨i, c, hc, hp', hn, rfl⟩
          rw [Call.pending_eq_blocking.mpr ⟨hm, rfl⟩] at hmem
          exact List.mem_map.mpr ⟨_, hmem, rfl⟩
      · rw [Function.update_of_ne hk]
        exact h.loss i c k hc (eq_of_emptied hp (by simp [hk]))
    drainer := fun k m n hm hn => by
      rcases of_update hm with ⟨rfl, rfl⟩ | ⟨-, hm⟩
      · obtain ⟨rest, tag, hrest, hmem⟩ := hn
        cases hrest
        obtain ⟨⟨m, p⟩, hmp, rfl⟩ := List.mem_map.mp hmem
        obtain ⟨i, c, hc, hp, -, hpending⟩ := (ht.entries m _).mp hmp
        exact ⟨i, c, hc, (Call.pending_eq_blocking.mp hpending.symm).1, takes hp⟩
      · obtain ⟨i, c, hc, htk, hp⟩ := h.drainer k m n hm hn
        exact ⟨i, c, hc, htk, emptied_eq hp (by simp)⟩
    told := fun k τ hτ => by
      obtain ⟨i, c, hc, htk, hs⟩ := h.told k τ hτ
      have others : Source number place answers
          (update losses j (some (l.goTo (.waking (pending.map Prod.snd))))) i c τ := by
        refine hs.losses_go fun k' m hp hm => ⟨m, ?_, rfl⟩
        have hk : k' ≠ j := by
          intro heq
          subst heq
          exact undrained i hp
        rw [Function.update_of_ne hk, hm]
      exact ⟨i, c, hc, htk, others.moves (fun _ => id) fun _ hp _ hnt => emptied_eq hp hnt⟩ }

theorem change (h : Hands t.calls t.number t.place t.answers t.losses t.tidings)
    (ht : Table t.calls t.number t.place t.session.pending)
    (hb : Bearing t.calls t.number t.handed) (hc : Change t t') :
    Hands t'.calls t'.number t'.place t'.answers t'.losses t'.tidings := by
  have caller : ∀ i, t.place i ≠ .nowhere → ∃ c, t.calls i = some c := fun i => ht.caller hb
  cases hc with
  | callBegins envelope new | castBegins envelope new =>
    exact h.begins new ((ht.nowhere _).mpr (hb.unnumbered (by simp [new])))
  | turnedAway known stage | looks known stage | looksAgain known stage | hands known stage
  | goesOut known stage | waits known stage | leaves known stage | collects known stage
  | expires known stage =>
    exact h.goes known (by simp [stage, Call.Stage.done]) (by simp [stage, Call.Stage.over])
  | @enters i c known stage free =>
    have hi : t.number i = none := hb.unnumbered (by simp [known, stage, Call.Stage.early])
    exact h.enters known ((ht.nowhere _).mpr hi) hi
  | givesUp known stage | withdraws known stage =>
    exact h.withdraws known (hb.known _ _ _ known (by rw [stage]; rfl)) rfl
  | refused known stage =>
    obtain ⟨rfl, -⟩ := hb.offered _ _ _ _ _ known stage
    exact h.withdraws known (hb.known _ _ _ known (by rw [stage]; rfl)) rfl
  | @lapses i c n k known stage ticket =>
    have hi := hb.known _ _ _ known (by rw [stage]; rfl)
    exact (h.goes known (by simp [stage, Call.Stage.done]) (fun _ => rfl)).tells
      ⟨i, c.goTo (.lapsed n), Function.update_self .., ticket, hi, rfl⟩
  | answered p agrees header new => exact h.answered caller new rfl
  | counts p agrees known stage =>
    exact h.answerGoes known (fun _ => by rw [stage]; rfl) (by simp [Receipt.Holds, stage])
      (by simp [Receipt.Holds, Receipt.goTo])
  | @claims j a known stage =>
    have early : a.stage.early = true := by rw [stage]; rfl
    cases hlookup : t.session.pending.lookup a.number with
    | none =>
      -- Nobody is in the table under the number, so nobody moves.
      have hplace : moved t.place t.number a.number (.answer j) = t.place := by
        funext i
        rw [moved, if_neg]
        intro hx
        obtain ⟨hp, hi⟩ := hx
        obtain ⟨c, hc⟩ := caller i (by simp [hp])
        have hmem := (ht.entries _ _).mpr ⟨i, c, hc, hp, hi, rfl⟩
        simpa using List.lookup_eq_none_iff.mp hlookup _ hmem
      show Hands _ _ (moved t.place t.number a.number (.answer j)) _ _ _
      rw [hplace]
      exact h.answerGoes known (fun _ => early) (by simp [Receipt.Holds, stage])
        (by simp [Receipt.Holds, Receipt.goTo, Receipt.found])
    | some p =>
      have hmem : (a.number, p) ∈ t.session.pending := by
        obtain ⟨before, after, hsplit, -⟩ := List.lookup_eq_some_iff.mp hlookup
        rw [hsplit]
        simp
      obtain ⟨i, c, hc, hp, hi, rfl⟩ := (ht.entries _ _).mp hmem
      exact h.claims known early caller hc hp hi fun i' hp' hi' => ht.unique _ _ _ hp' hp hi' hi
  | notes p agrees known stage =>
    exact h.answerGoes known (by simp [Receipt.Stage.early])
      (fun m hm => .inl (by simpa [Receipt.Holds, stage, Receipt.goTo] using hm))
      (fun m hm => by simpa [Receipt.Holds, stage, Receipt.goTo] using hm)
  | @wakes j a k known stage =>
    obtain ⟨i, c, hc, hk, hp⟩ := h.holder j a k known (.inr stage)
    obtain ⟨b, hb', -, hi, -⟩ := h.answer i c j hc hp
    rw [known] at hb'
    cases hb'
    have htells := h.tells (τ := .response a.number a.outcome)
      ⟨i, c, hc, hk, hi, j, a, hp, known, rfl, rfl⟩
    refine htells.answerGoes known (fun he => ?_) (fun m hm => .inr ?_) (fun m hm => ?_)
    · cases he
    · have : k = m := by simpa [Receipt.Holds, stage] using hm
      subst this
      rw [Function.update_self]
      simp
    · simp [Receipt.Holds, Receipt.goTo] at hm
  | lossBegins reason new =>
    refine h.lossBegins caller new ?_
    intro k hx
    obtain ⟨rest, tag, hs, -⟩ := hx
    cases hs
  | strikes known stage | comesLate known stage | sees known stage =>
    exact h.lossGoes known rfl (by simp [stage, Loss.Stage.emptied])
      (by simp [Loss.Holds, stage]) (by simp [Loss.Holds, Loss.goTo])
  | drains known stage => exact h.drains ht caller known (by rw [stage]; rfl)
  | @wakesCaller j l k tag rest known stage =>
    obtain ⟨i, c, hc, hk, hp⟩ := h.drainer j l k known ⟨_, tag, stage, List.mem_cons_self⟩
    have htells := h.tells (τ := .loss l.reason) ⟨i, c, hc, hk, j, l, hp, known, rfl⟩
    refine htells.lossGoes known rfl (fun _ => rfl) ?_ ?_
    · intro m hx
      obtain ⟨waiting, tag', hs, hm⟩ := hx
      rw [stage] at hs
      cases hs
      rcases List.mem_cons.mp hm with hm | hm
      · cases hm
        right
        rw [Function.update_self]
        simp
      · exact .inl ⟨_, tag', rfl, hm⟩
    · intro m hx
      obtain ⟨waiting, tag', hs, hm⟩ := hx
      cases hs
      exact ⟨_, tag', stage, List.mem_cons_of_mem _ hm⟩
  | @passesCast j l tag rest known stage =>
    refine h.lossGoes known rfl (fun _ => rfl) ?_ ?_
    · intro m hx
      obtain ⟨waiting, tag', hs, hm⟩ := hx
      rw [stage] at hs
      cases hs
      exact .inl ⟨_, tag', rfl, by simpa using hm⟩
    · intro m hx
      obtain ⟨waiting, tag', hs, hm⟩ := hx
      cases hs
      exact ⟨_, tag', stage, List.mem_cons_of_mem _ hm⟩
  | wakesNobody known stage =>
    exact h.lossGoes known rfl (fun _ => rfl) (by simp [Loss.Holds, stage])
      (by simp [Loss.Holds, Loss.goTo])
  | tears p agrees known tears =>
    refine h.lossGoes known rfl (fun _ => ?_) ?_ ?_
    · cases tears <;> rfl
    · intro m hx
      obtain ⟨waiting, tag, hs, -⟩ := hx
      cases tears <;> simp_all
    · intro m hx
      obtain ⟨waiting, tag, hs, -⟩ := hx
      cases tears <;> cases hs
  | _ => exact h

end Hands

end Traffic

end Federate
