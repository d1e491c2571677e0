/-
What is in the slots. Each caller has a slot of its own, and while it may still
look, the slot holds the first of what has reached it. So a call whose packet
the link accepted ends on the first tiding that reached its slot; the end of
its wait counts as one, when nothing came before.
-/
import Federate.Proofs.Session.Hands
namespace Federate

open Function (update)

/-- The link has accepted the packet of the call, and the call has not ended. -/
def Call.Stage.sent : Call.Stage → Bool
  | .accepted _ | .waiting _ | .lapsed _ | .expired _ => true
  | _ => false

def Call.Stage.isEnded : Call.Stage → Bool
  | .ended _ => true
  | _ => false

/-- Somebody waits, or has waited until now. -/
def Call.Stage.attended : Call.Stage → Bool
  | .waiting _ | .lapsed _ | .expired _ => true
  | _ => false

/-- The slot that something has reached. -/
def Tiding.fill (τs : List Tiding) : Slot Session.Wakening :=
  match τs.head?.bind (·.wakening?) with
  | some w => .filled w
  | none => .empty

namespace Traffic

variable {t t' : Traffic} {calls : Nat → Option Call} {number : Nat → Option UInt32}
  {place : Nat → Place} {answers : Nat → Option Receipt} {losses : Nat → Option Loss}
  {slots : List (Slot Session.Wakening)} {tidings : Nat → List Tiding} {sent : List Nat}
  {limits : Session.Limits}

/-- How a call may end whose packet the link accepted. -/
def Ends (tidings : Nat → List Tiding) (limits : Session.Limits) (c : Call)
    (r : Except Fault Bytes) : Prop :=
  match c.ticket with
  | some k => ∃ τ, (tidings k).head? = some τ ∧ r = τ.result limits
  | none => r = .ok []

/-- What is in the slots, and how calls have ended. -/
structure Slots (calls : Nat → Option Call) (slots : List (Slot Session.Wakening))
    (tidings : Nat → List Tiding) (sent : List Nat) (limits : Session.Limits) : Prop where
  ticket : ∀ i c k, calls i = some c → c.ticket = some k → k < slots.length
  apart : ∀ i j c d k, calls i = some c → calls j = some d → c.ticket = some k →
    d.ticket = some k → i = j
  waiting : ∀ i c k, calls i = some c → c.ticket = some k → c.stage.over = false →
    slots[k]? = some (Tiding.fill (tidings k))
  /-- A wait that is over was over before anything came. -/
  lapsed : ∀ i c k n, calls i = some c → c.ticket = some k →
    c.stage = .lapsed n ∨ c.stage = .expired n → (tidings k).head? = some (.expiry n)
  attended : ∀ i c, calls i = some c → c.stage.attended = true → c.ticket ≠ none
  /-- Whoever is past the link was accepted. -/
  passed : ∀ i c, calls i = some c → c.stage.sent = true → i ∈ sent
  onward : ∀ i, i ∈ sent → ∃ c, calls i = some c ∧ (c.stage.sent = true ∨ c.stage.isEnded = true)
  ended : ∀ i c r, calls i = some c → i ∈ sent → c.stage = .ended r → Ends tidings limits c r

namespace Slots

/-- The slot of a call that begins is one that nothing has reached. -/
theorem silent (h : Slots calls slots tidings sent limits)
    (hh : Hands calls number place answers losses tidings) : tidings slots.length = [] := by
  rw [List.eq_nil_iff_forall_not_mem]
  intro τ hτ
  obtain ⟨i, c, hc, hk, -⟩ := hh.told _ τ hτ
  exact Nat.lt_irrefl _ (h.ticket i c _ hc hk)

/-- A slot whose caller still waits is reached by nothing but what fills it. -/
theorem wakening_of_waiting (h : Slots calls slots tidings sent limits)
    (hh : Hands calls number place answers losses tidings) {i : Nat} {c : Call} {k : Nat}
    (hc : calls i = some c) (hk : c.ticket = some k) (still : c.stage.over = false)
    {τ : Tiding} (hτ : τ ∈ tidings k) : τ.wakening? ≠ none := by
  cases τ with
  | response => simp [Tiding.wakening?]
  | loss => simp [Tiding.wakening?]
  | expiry n =>
    obtain ⟨j, d, hd, hdk, -, hover⟩ := hh.told k _ hτ
    obtain rfl := h.apart _ _ _ _ _ hc hd hk hdk
    rw [hc] at hd
    cases hd
    rw [still] at hover
    cases hover

/-- The slot of a caller who may still look is full once anything has reached it. -/
theorem filled (h : Slots calls slots tidings sent limits)
    (hh : Hands calls number place answers losses tidings) {i : Nat} {c : Call} {k : Nat}
    (hc : calls i = some c) (hk : c.ticket = some k) (still : c.stage.over = false)
    {τ : Tiding} (hτ : τ ∈ tidings k) : ∃ w, slots[k]? = some (.filled w) := by
  rw [h.waiting i c k hc hk still]
  cases hτs : tidings k with
  | nil => rw [hτs] at hτ; cases hτ
  | cons σ τs =>
    cases hw : σ.wakening? with
    | none => exact absurd hw (h.wakening_of_waiting hh hc hk still (by simp [hτs]))
    | some w => exact ⟨w, by simp [Tiding.fill, hw]⟩

/-- A call that the link has not accepted. -/
theorem unsent (h : Slots calls slots tidings sent limits) {i : Nat} {c : Call}
    (known : calls i = some c) (before : c.stage.sent = false) (live : c.stage.isEnded = false) :
    i ∉ sent := by
  intro hi
  obtain ⟨d, hd, hs⟩ := h.onward i hi
  rw [known] at hd
  cases hd
  simp [before, live] at hs

/-- A step of a call that leaves its slot alone. -/
theorem goes {i : Nat} {c : Call} {s : Call.Stage} {u : List Nat}
    (h : Slots calls slots tidings sent limits) (known : calls i = some c)
    (others : ∀ j, j ≠ i → (j ∈ u ↔ j ∈ sent))
    (past : s.over = false → c.stage.over = false)
    (lapsed : ∀ k n, c.ticket = some k → s = .lapsed n ∨ s = .expired n →
      (tidings k).head? = some (.expiry n))
    (attended : s.attended = true → c.ticket ≠ none) (passed : s.sent = true → i ∈ u)
    (onward : i ∈ u → s.sent = true ∨ s.isEnded = true)
    (ended : ∀ r, i ∈ u → s = .ended r → Ends tidings limits c r) :
    Slots (update calls i (some (c.goTo s))) slots tidings u limits where
  ticket j d k hd hk := by
    rcases of_update hd with ⟨rfl, rfl⟩ | ⟨-, hd⟩
    · exact h.ticket _ c k known hk
    · exact h.ticket j d k hd hk
  apart j j' d d' k hd hd' hk hk' := by
    rcases of_update hd with ⟨hj, rfl⟩ | ⟨-, old⟩ <;>
      rcases of_update hd' with ⟨hj', rfl⟩ | ⟨-, old'⟩
    · rw [hj, hj']
    · rw [hj]
      exact h.apart _ _ c _ k known old' hk hk'
    · rw [hj']
      exact h.apart _ _ _ c k old known hk hk'
    · exact h.apart _ _ _ _ k old old' hk hk'
  waiting j d k hd hk ho := by
    rcases of_update hd with ⟨rfl, rfl⟩ | ⟨-, hd⟩
    · exact h.waiting _ c k known hk (past ho)
    · exact h.waiting j d k hd hk ho
  lapsed j d k n hd hk hs := by
    rcases of_update hd with ⟨rfl, rfl⟩ | ⟨-, hd⟩
    · exact lapsed k n hk hs
    · exact h.lapsed j d k n hd hk hs
  attended j d hd hs := by
    rcases of_update hd with ⟨rfl, rfl⟩ | ⟨-, hd⟩
    · exact attended hs
    · exact h.attended j d hd hs
  passed j d hd hs := by
    rcases of_update hd with ⟨rfl, rfl⟩ | ⟨hj, hd⟩
    · exact passed hs
    · exact (others j hj).mpr (h.passed j d hd hs)
  onward j hj := by
    by_cases hji : j = i
    · subst hji
      exact ⟨_, Function.update_self .., onward hj⟩
    · obtain ⟨d, hd, hs⟩ := h.onward j ((others j hji).mp hj)
      exact ⟨d, by rw [Function.update_of_ne hji, hd], hs⟩
  ended j d r hd hj hs := by
    rcases of_update hd with ⟨rfl, rfl⟩ | ⟨hji, hd⟩
    · exact ended r hj hs
    · exact h.ended j d r hd ((others j hji).mp hj) hs

/-- A call that begins, with a slot of its own or none. -/
theorem begins {i : Nat} {c : Call} {m : List (Slot Session.Wakening)}
    (h : Slots calls slots tidings sent limits) (new : calls i = none)
    (stage : c.stage = .arriving)
    (ticket : ∀ k, c.ticket = some k → slots.length ≤ k ∧
      (slots ++ m)[k]? = some (Tiding.fill (tidings k))) :
    Slots (update calls i (some c)) (slots ++ m) tidings sent limits := by
  have others : ∀ {j d}, calls j = some d → j ≠ i := by
    intro j d hd heq
    subst heq
    rw [new] at hd
    cases hd
  exact {
    ticket := fun j d k hd hk => by
      rcases of_update hd with ⟨rfl, rfl⟩ | ⟨-, hd⟩
      · exact (List.getElem?_eq_some_iff.mp (ticket k hk).2).1
      · exact Nat.lt_of_lt_of_le (h.ticket j d k hd hk) (by simp)
    apart := fun j j' d d' k hd hd' hk hk' => by
      rcases of_update hd with ⟨hj, rfl⟩ | ⟨-, old⟩ <;>
        rcases of_update hd' with ⟨hj', rfl⟩ | ⟨-, old'⟩
      · rw [hj, hj']
      · exact absurd (h.ticket _ _ k old' hk') (Nat.not_lt.mpr (ticket k hk).1)
      · exact absurd (h.ticket _ _ k old hk) (Nat.not_lt.mpr (ticket k hk').1)
      · exact h.apart _ _ _ _ k old old' hk hk'
    waiting := fun j d k hd hk ho => by
      rcases of_update hd with ⟨rfl, rfl⟩ | ⟨-, hd⟩
      · exact (ticket k hk).2
      · rw [List.getElem?_append_left (h.ticket j d k hd hk)]
        exact h.waiting j d k hd hk ho
    lapsed := fun j d k n hd hk hs => by
      rcases of_update hd with ⟨rfl, rfl⟩ | ⟨-, hd⟩
      · rw [stage] at hs
        rcases hs with hs | hs <;> cases hs
      · exact h.lapsed j d k n hd hk hs
    attended := fun j d hd hs => by
      rcases of_update hd with ⟨rfl, rfl⟩ | ⟨-, hd⟩
      · rw [stage] at hs; cases hs
      · exact h.attended j d hd hs
    passed := fun j d hd hs => by
      rcases of_update hd with ⟨rfl, rfl⟩ | ⟨-, hd⟩
      · rw [stage] at hs; cases hs
      · exact h.passed j d hd hs
    onward := fun j hj => by
      obtain ⟨d, hd, hs⟩ := h.onward j hj
      exact ⟨d, by rw [Function.update_of_ne (others hd), hd], hs⟩
    ended := fun j d r hd hj hs => by
      rcases of_update hd with ⟨rfl, rfl⟩ | ⟨-, hd⟩
      · rw [stage] at hs; cases hs
      · exact h.ended j d r hd hj hs }

theorem head?_of_fill {τs : List Tiding} {w : Session.Wakening}
    (h : Tiding.fill τs = .filled w) : ∃ τ, τs.head? = some τ ∧ τ.wakening? = some w := by
  unfold Tiding.fill at h
  split at h
  · next v hv =>
    cases h
    exact Option.bind_eq_some_iff.mp hv
  · cases h

theorem fill_append {τs : List Tiding} {τ : Tiding} {w : Session.Wakening}
    (hτ : τ.wakening? = some w) (all : ∀ σ ∈ τs, σ.wakening? ≠ none) :
    Tiding.fill (τs ++ [τ]) = (Tiding.fill τs).complete w := by
  cases τs with
  | nil => simp [Tiding.fill, hτ, Slot.complete]
  | cons σ σs =>
    cases hσ : σ.wakening? with
    | none => exact absurd hσ (all σ (by simp))
    | some v => simp [Tiding.fill, hσ, Slot.complete]

/-- What reaches a slot fills it, unless something did before. -/
theorem tells {k : Nat} {τ : Tiding} {w : Session.Wakening}
    (h : Slots calls slots tidings sent limits)
    (hh : Hands calls number place answers losses tidings) (hτ : τ.wakening? = some w) :
    Slots calls (slots.modify k (·.complete w)) (update tidings k (tidings k ++ [τ])) sent
      limits := by
  have head : ∀ {m σ}, (tidings m).head? = some σ →
      (update tidings k (tidings k ++ [τ]) m).head? = some σ := by
    intro m σ hm
    by_cases hk : m = k
    · subst hk
      rw [Function.update_self, List.head?_append, hm]
      rfl
    · rwa [Function.update_of_ne hk]
  exact {
    ticket := fun i c m hc hm => by
      rw [List.length_modify]
      exact h.ticket i c m hc hm
    apart := h.apart
    waiting := fun i c m hc hm ho => by
      have hw := h.waiting i c m hc hm ho
      rw [List.getElem?_modify, hw]
      by_cases hk : m = k
      · subst hk
        rw [Function.update_self,
          fill_append hτ fun σ hσ => h.wakening_of_waiting hh hc hm ho hσ]
        simp
      · rw [Function.update_of_ne hk]
        simp [Ne.symm hk]
    lapsed := fun i c m n hc hm hs => head (h.lapsed i c m n hc hm hs)
    attended := h.attended
    passed := h.passed
    onward := h.onward
    ended := fun i c r hc hi hs => by
      have he := h.ended i c r hc hi hs
      unfold Ends at he ⊢
      cases ht : c.ticket with
      | none => simpa [ht] using he
      | some m =>
        rw [ht] at he
        obtain ⟨σ, hσ, hr⟩ := he
        exact ⟨σ, head hσ, hr⟩ }

/-- The end of a wait, while nothing has reached the slot. -/
theorem tellsExpiry {k : Nat} {n : UInt32} (h : Slots calls slots tidings sent limits)
    (silent : tidings k = []) :
    Slots calls slots (update tidings k (tidings k ++ [.expiry n])) sent limits := by
  have head : ∀ {m σ}, (tidings m).head? = some σ →
      (update tidings k (tidings k ++ [.expiry n]) m).head? = some σ := by
    intro m σ hm
    by_cases hk : m = k
    · subst hk
      rw [silent] at hm
      cases hm
    · rwa [Function.update_of_ne hk]
  exact {
    ticket := h.ticket
    apart := h.apart
    waiting := fun i c m hc hm ho => by
      rw [h.waiting i c m hc hm ho]
      by_cases hk : m = k
      · subst hk
        rw [Function.update_self, silent]
        rfl
      · rw [Function.update_of_ne hk]
    lapsed := fun i c m n hc hm hs => head (h.lapsed i c m n hc hm hs)
    attended := h.attended
    passed := h.passed
    onward := h.onward
    ended := fun i c r hc hi hs => by
      have he := h.ended i c r hc hi hs
      unfold Ends at he ⊢
      cases ht : c.ticket with
      | none => simpa [ht] using he
      | some m =>
        rw [ht] at he
        obtain ⟨σ, hσ, hr⟩ := he
        exact ⟨σ, head hσ, hr⟩ }

/-- A slot to which nobody returns is of no account. -/
theorem empties {k : Nat} {f : Slot Session.Wakening → Slot Session.Wakening}
    (h : Slots calls slots tidings sent limits)
    (past : ∀ i c, calls i = some c → c.ticket = some k → c.stage.over = true) :
    Slots calls (slots.modify k f) tidings sent limits :=
  { h with
    ticket := fun i c m hc hm => by
      rw [List.length_modify]
      exact h.ticket i c m hc hm
    waiting := fun i c m hc hm ho => by
      have hk : k ≠ m := by
        intro heq
        subst heq
        rw [past i c hc hm] at ho
        cases ho
      rw [List.getElem?_modify, h.waiting i c m hc hm ho]
      simp [hk] }

theorem change
    (h : Slots t.calls t.session.slots t.tidings t.sent t.session.limits)
    (hh : Hands t.calls t.number t.place t.answers t.losses t.tidings) (hc : Change t t') :
    Slots t'.calls t'.session.slots t'.tidings t'.sent t'.session.limits := by
  cases hc with
  | callBegins envelope new =>
    refine h.begins new rfl fun k hk => ?_
    cases hk
    refine ⟨Nat.le_refl _, ?_⟩
    rw [h.silent hh]
    simp [Tiding.fill]
  | castBegins envelope new =>
    have := h.begins (m := []) (c := ⟨envelope, none, .arriving⟩) new rfl (by simp)
    rw [List.append_nil] at this
    exact this
  | turnedAway known stage | looks known stage | enters known stage | givesUp known stage
  | looksAgain known stage | hands known stage | refused known stage =>
    have hi := h.unsent known (by rw [stage]; rfl) (by rw [stage]; rfl)
    exact h.goes known (fun _ _ => Iff.rfl) (fun _ => by rw [stage]; rfl) (by simp)
      (by simp [Call.Stage.attended]) (by simp [Call.Stage.sent]) (fun hs => absurd hs hi)
      (fun _ hs => absurd hs hi)
  | goesOut known stage =>
    exact h.goes known (fun j hj => ⟨List.mem_of_ne_of_mem hj, List.mem_cons_of_mem _⟩)
      (fun _ => by rw [stage]; rfl) (by simp) (by simp [Call.Stage.attended])
      (fun _ => List.mem_cons_self) (fun _ => .inl rfl) (by simp)
  | waits known stage ticket =>
    have hi := h.passed _ _ known (by rw [stage]; rfl)
    exact h.goes known (fun _ _ => Iff.rfl) (fun _ => by rw [stage]; rfl) (by simp)
      (fun _ => by simp [ticket]) (fun _ => hi) (fun _ => .inl rfl) (by simp)
  | leaves known stage ticket =>
    have hi := h.passed _ _ known (by rw [stage]; rfl)
    refine h.goes (s := .ended (.ok [])) known (fun _ _ => Iff.rfl) (fun ho => by cases ho)
      (by simp) (by simp [Call.Stage.attended]) (fun _ => hi) (fun _ => .inr rfl) fun r _ hr => ?_
    cases hr
    simp [Ends, ticket]
  | @collects i c n k w known stage ticket filled =>
    have still : c.stage.over = false := by rw [stage]; rfl
    have hi := h.passed _ _ known (by rw [stage]; rfl)
    have hslot := h.waiting i c k known ticket still
    have hfill : Tiding.fill (t.tidings k) = .filled w := by
      rw [← filled, Session.slot, hslot]
      rfl
    obtain ⟨τ, hτ, hw⟩ := head?_of_fill hfill
    have hgoes := h.goes (u := t.sent) (s := .ended (Call.result w)) known
      (fun _ _ => Iff.rfl) (fun ho => by cases ho) (by simp) (by simp [Call.Stage.attended])
      (fun _ => hi) (fun _ => .inr rfl) fun r _ hr => by
        cases hr
        rw [Ends, ticket]
        exact ⟨τ, hτ, (Tiding.result_of_wakening _ hw).symm⟩
    -- The slot is emptied, but the only call that reads it has ended.
    refine hgoes.empties fun j d hd hk => ?_
    obtain rfl := hgoes.apart _ _ _ _ k hd (Function.update_self ..) hk ticket
    rw [Function.update_self] at hd
    cases hd
    rfl
  | @lapses i c n k known stage ticket waiting =>
    have still : c.stage.over = false := by rw [stage]; rfl
    have hi := h.passed _ _ known (by rw [stage]; rfl)
    have silent : t.tidings k = [] := by
      cases hτ : t.tidings k with
      | nil => rfl
      | cons τ τs =>
        have hslot := h.waiting i c k known ticket still
        rw [Session.slot, hslot, hτ] at waiting
        cases hw : τ.wakening? with
        | none => exact absurd hw (h.wakening_of_waiting hh known ticket still (by simp [hτ]))
        | some w => simp [Tiding.fill, hw, Slot.ready] at waiting
    refine (h.tellsExpiry silent).goes known (fun _ _ => Iff.rfl) (fun ho => by cases ho) ?_
      (fun _ => by simp [ticket]) (fun _ => hi) (fun _ => .inl rfl) (by simp)
    intro m n' hm hs
    rw [ticket] at hm
    cases hm
    rw [Function.update_self, silent]
    rcases hs with hs | hs <;> cases hs
    rfl
  | withdraws known stage =>
    have hi := h.passed _ _ known (by rw [stage]; rfl)
    have ha := h.attended _ _ known (by rw [stage]; rfl)
    refine h.goes known (fun _ _ => Iff.rfl) (fun ho => by cases ho) ?_ (fun _ => ha) (fun _ => hi)
      (fun _ => .inl rfl) (by simp)
    intro m n' hm hs
    rcases hs with hs | hs <;> cases hs
    exact h.lapsed _ _ m _ known hm (.inl stage)
  | @expires i c n known stage =>
    have hi := h.passed _ _ known (by rw [stage]; rfl)
    have ha := h.attended _ _ known (by rw [stage]; rfl)
    refine h.goes (s := .ended _) known (fun _ _ => Iff.rfl) (fun ho => by cases ho) (by simp)
      (by simp [Call.Stage.attended]) (fun _ => hi) (fun _ => .inr rfl) fun r _ hr => ?_
    cases hr
    cases hk : c.ticket with
    | none => exact absurd hk ha
    | some k =>
      rw [Ends, hk]
      exact ⟨.expiry n, h.lapsed i c k n known hk (.inr stage), rfl⟩
  | wakes known stage => exact h.tells hh rfl
  | wakesCaller known stage => exact h.tells hh rfl
  | aside p agrees | received p agrees | answered p agrees | counts p agrees | notes p agrees
  | tears p agrees =>
    show Slots _ p.session.slots _ _ p.session.limits
    rw [agrees.slots, agrees.limits]
    exact h
  | _ => exact h

end Slots

end Traffic

end Federate
