/-
One callback at a time. As long as nobody who was handed the marker finishes it
while an item is out, one item at most is out, the queue knows whether one is,
the mark of the callback thread is with the thread whose handler runs, and a
hold that has waited is followed by no handler until delivery is enabled again
(`Reachable.secluded`). So it is until the queue is stopped, and always where
the dispatcher alone delivers.

It is not so in every run. Whoever evokes treats the marker like a callback, and
in the end tells the queue that an item is done; a stopping queue that is held
back hands out the marker at any time. Then the queue believes that nothing is
out while a handler runs, and a hold returns in the middle of it
(`hold_returns_amid_handler`).
-/
import Federate.Proofs.Delivery.Evoking
namespace Federate.Evoking

open Function (update)

variable {i j k : Nat} {t t' : Evoking} {d : Delivery} {h : Hold}

/-! ## Who is out, and whose handler runs -/

/-- A handler has the thread. -/
def Attends (t : Evoking) (θ : Thread) : Prop :=
  ∃ k d, t.deliveries k = some d ∧ d.stage.attended = true ∧ d.thread = θ

theorem out_iff_of_known (known : t.deliveries k = some d) :
    t.Out k ↔ ∃ item, t.handed k = some item ∧ item.isStop = false ∧ d.stage.out = true := by
  constructor
  · rintro ⟨e, item, he, hrest⟩
    rw [known] at he
    cases he
    exact ⟨item, hrest⟩
  · rintro ⟨item, hrest⟩
    exact ⟨d, item, known, hrest⟩

theorem out_setDelivery_self :
    (t.setDelivery k d).Out k ↔
      ∃ item, t.handed k = some item ∧ item.isStop = false ∧ d.stage.out = true :=
  out_iff_of_known (t := t.setDelivery k d) (Function.update_self ..)

theorem out_setDelivery_of_ne (other : j ≠ k) : (t.setDelivery k d).Out j ↔ t.Out j := by
  simp only [Out, setDelivery, Function.update_of_ne other]

/-- A delivery goes to another stage, and has an item as before. -/
theorem out_goTo {s : Delivery.Stage} (known : t.deliveries k = some d)
    (same : s.out = d.stage.out) (j : Nat) : (t.setDelivery k (d.goTo s)).Out j ↔ t.Out j := by
  by_cases hj : j = k
  · subst hj
    rw [out_setDelivery_self, out_iff_of_known known]
    show (∃ item, _ ∧ _ ∧ s.out = true) ↔ _
    rw [same]
  · exact out_setDelivery_of_ne hj

/-- A delivery goes to another stage, and its handler runs as before. -/
theorem attends_goTo {s : Delivery.Stage} (known : t.deliveries k = some d)
    (same : s.attended = d.stage.attended) (θ : Thread) :
    (t.setDelivery k (d.goTo s)).Attends θ ↔ t.Attends θ := by
  constructor
  · rintro ⟨j, e, he, hattended, hthread⟩
    rcases of_update he with ⟨-, rfl⟩ | ⟨-, he⟩
    · exact ⟨k, d, known, same.symm.trans hattended, hthread⟩
    · exact ⟨j, e, he, hattended, hthread⟩
  · rintro ⟨j, e, he, hattended, hthread⟩
    obtain ⟨e', he', hp⟩ := row_of_update (P := fun _ e => e.stage.attended = true ∧ e.thread = θ)
      (b := d.goTo s) known (fun hp => ⟨same.trans hp.1, hp.2⟩) ⟨e, he, hattended, hthread⟩
    exact ⟨j, e', he', hp⟩

/-! ## What always holds -/

/-- What holds of the deliveries and holds for a session, whatever the order of their steps. -/
structure Proper (i : Nat) (t : Evoking) : Prop where
  known : i < t.ambassador.sessions.length
  home : ∀ k d, t.deliveries k = some d → d.session = i
  homeHold : ∀ j h, t.holds j = some h → h.session = i
  blank : ∀ k, t.deliveries k = none → t.handed k = none
  fits : ∀ k d, t.deliveries k = some d → Fits d.thread (t.handed k) d.stage
  /-- Delivery is held back from a hold until it is enabled again. -/
  closed : ∀ j h, t.holds j = some h → h.stage ≠ .closing → t.lifted j = false →
    (t.queue i).enabled = false
  /-- There is no marker before the queue is stopped. -/
  unmarked : (t.queue i).stopping = false →
    (∀ item ∈ (t.queue i).items, item.isStop = false) ∧ ∀ k, t.handed k ≠ some .stop

theorem proper_fresh {a : Ambassador} (known : i < a.sessions.length)
    (new : (a.session i).queue = .fresh) : Proper i (fresh a) where
  known := known
  home _ _ h := by cases h
  homeHold _ _ h := by cases h
  blank _ _ := rfl
  fits _ _ h := by cases h
  closed _ _ h := by cases h
  unmarked _ := by
    rw [queue, fresh, new]
    exact ⟨fun _ h => (List.not_mem_nil h).elim, fun _ h => by cases h⟩

namespace Proper

/-- A change of the queue alone. -/
theorem turns {a : Ambassador} {q : CallbackQueue} {mark : Option Thread} {lifted : Nat → Bool}
    (h : Proper i t) (has : Has i q mark a)
    (closed : ∀ j g, t.holds j = some g → g.stage ≠ .closing → lifted j = false →
      q.enabled = false)
    (unmarked : q.stopping = false → (t.queue i).stopping = false ∧
      ∀ item ∈ q.items, item ∈ (t.queue i).items ∨ item.isStop = false) :
    Proper i { t with ambassador := a, lifted := lifted } where
  known := has.known
  home := h.home
  homeHold := h.homeHold
  blank := h.blank
  fits := h.fits
  closed j g hg stage still := by
    rw [queue, has.queue]
    exact closed j g hg stage still
  unmarked running := by
    rw [queue, has.queue] at running ⊢
    obtain ⟨before, items⟩ := unmarked running
    exact ⟨fun item hm => (items item hm).elim ((h.unmarked before).1 item) id,
      (h.unmarked before).2⟩

/-- A change that leaves the queue alone. -/
theorem keeps {a : Ambassador} {mark : Option Thread} (h : Proper i t)
    (has : Has i (t.queue i) mark a) : Proper i { t with ambassador := a } :=
  h.turns has h.closed fun running => ⟨running, fun _ => .inl⟩

/-- A delivery goes to another stage, with what it was handed. -/
theorem hands {item : Option CallbackQueue.Item} {s : Delivery.Stage} (h : Proper i t)
    (known : t.deliveries k = some d) (fits : Fits d.thread item s)
    (ordinary : (t.queue i).stopping = false → item ≠ some .stop) :
    Proper i ({ t with handed := update t.handed k item }.setDelivery k (d.goTo s)) where
  known := h.known
  home j e he := by
    rcases of_update he with ⟨-, rfl⟩ | ⟨-, he⟩
    · exact h.home k d known
    · exact h.home j e he
  homeHold := h.homeHold
  blank j hj := by
    obtain ⟨hne, hj⟩ := none_of_update hj
    exact (Function.update_of_ne hne ..).trans (h.blank j hj)
  fits j e he := by
    rcases of_update he with ⟨rfl, rfl⟩ | ⟨hne, he⟩
    · show Fits _ (update t.handed j item j) s
      rwa [Function.update_self]
    · show Fits _ (update t.handed k item j) e.stage
      rw [Function.update_of_ne hne]
      exact h.fits j e he
  closed := h.closed
  unmarked running := by
    refine ⟨(h.unmarked running).1, fun j => ?_⟩
    show update t.handed k item j ≠ _
    by_cases hj : j = k
    · rw [hj, Function.update_self]
      exact ordinary running
    · rw [Function.update_of_ne hj]
      exact (h.unmarked running).2 j

/-- A delivery goes to another stage. -/
theorem goTo {s : Delivery.Stage} (h : Proper i t) (known : t.deliveries k = some d)
    (fits : Fits d.thread (t.handed k) s) : Proper i (t.setDelivery k (d.goTo s)) := by
  have := h.hands known fits fun running => (h.unmarked running).2 k
  rwa [Function.update_eq_self] at this

/-- A hold begins or goes on. -/
theorem holds (h : Proper i t) {g : Hold} (home : g.session = i)
    (closed : g.stage ≠ .closing → t.lifted j = false → (t.queue i).enabled = false) :
    Proper i (t.setHold j g) where
  known := h.known
  home := h.home
  homeHold m f hf := by
    rcases of_update hf with ⟨-, rfl⟩ | ⟨-, hf⟩
    · exact home
    · exact h.homeHold m f hf
  blank := h.blank
  fits := h.fits
  closed m f hf stage still := by
    rcases of_update hf with ⟨rfl, rfl⟩ | ⟨-, hf⟩
    · exact closed stage still
    · exact h.closed m f hf stage still
  unmarked := h.unmarked

theorem change (h : Proper i t) (hc : Change i t t') : Proper i t' := by
  cases hc with
  | stays => exact h
  | aside a has => exact h.keeps has
  | arrives a item ordinary has =>
    refine h.turns has h.closed fun running => ⟨running, fun x hx => ?_⟩
    rw [CallbackQueue.items_push] at hx
    rcases List.mem_append.mp hx with hx | hx
    · exact .inl hx
    · rw [List.mem_singleton.mp hx]
      exact .inr ordinary
  | stops a has => exact h.turns has h.closed fun running => by cases running
  | enables a has =>
    exact h.turns has (fun _ _ _ _ still => by cases still) fun running => ⟨running, fun _ => .inl⟩
  | @begins k thread new =>
    exact {
      known := h.known
      home := fun j e he => by
        rcases of_update he with ⟨-, rfl⟩ | ⟨-, he⟩
        · rfl
        · exact h.home j e he
      homeHold := h.homeHold
      blank := fun j hj => h.blank j (none_of_update hj).2
      fits := fun j e he => by
        rcases of_update he with ⟨rfl, rfl⟩ | ⟨-, he⟩
        · exact h.blank j new
        · exact h.fits j e he
      closed := h.closed
      unmarked := h.unmarked }
  | @takes k d item q a known stage next has =>
    -- Either the marker comes out of a queue that is held back, or the first item.
    have hfits : Fits d.thread (some item) (d.receive item) := by
      rw [Delivery.receive]
      split
      · trivial
      · next hstop =>
        refine ⟨rfl, fun hi hd => hstop ?_⟩
        rw [hi, hd]
        rfl
    rcases CallbackQueue.of_next_some next with ⟨rfl, rfl, stopping, -⟩ | hrest
    · refine (h.keeps has).hands known hfits fun running => ?_
      rw [queue, has.queue, stopping] at running
      cases running
    · obtain ⟨-, -, items, -, enabled, same⟩ := hrest
      have hturned : Proper i { t with ambassador := a } :=
        h.turns has (fun j g hg hs still => enabled.trans (h.closed j g hg hs still)) fun running =>
          ⟨same.symm.trans running, fun y hy => .inl (by rw [items]; exact .tail _ hy)⟩
      refine hturned.hands known hfits fun running heq => ?_
      rw [queue, has.queue, same] at running
      cases heq
      have := (h.unmarked running).1 .stop (by rw [items]; exact List.mem_cons_self)
      cases this
  | @findsNone k d q a known stage next has =>
    obtain rfl := CallbackQueue.of_next_none next
    exact (h.keeps has).hands known trivial fun _ heq => by cases heq
  | goes a known before after attended fits has =>
    exact (h.keeps has).goTo known (fits (h.fits _ _ known))
  | calls a known stage has =>
    have hfits := h.fits _ _ known
    rw [stage] at hfits
    exact (h.keeps has).goTo known hfits
  | leaves a known stage has =>
    have hfits := h.fits _ _ known
    rw [stage] at hfits
    exact (h.keeps has).goTo known hfits
  | @finishes k d a known stage has =>
    have hdone : Proper i { t with ambassador := a } :=
      h.turns has h.closed fun running => ⟨running, fun _ => .inl⟩
    exact { hdone.goTo (s := .ended true) known trivial with }
  | holdBegins thread new => exact h.holds rfl fun hs => absurd rfl hs
  | @closes j g a known stage has =>
    have hclosed : Proper i { t with ambassador := a, lifted := update t.lifted j false } :=
      h.turns has (fun _ _ _ _ _ => rfl) fun running => ⟨running, fun _ => .inl⟩
    exact hclosed.holds (g := g.goTo .looking) (h.homeHold j g known) fun _ _ =>
      congrArg CallbackQueue.enabled has.queue
  | @looks j g s known stage next =>
    exact h.holds (g := g.goTo s) (h.homeHold j g known) fun _ =>
      h.closed j g known (by rw [stage]; rintro ⟨⟩)
  | @quiets j g known stage idle =>
    exact h.holds (g := g.goTo .quiet) (h.homeHold j g known) fun _ =>
      h.closed j g known (by rw [stage]; rintro ⟨⟩)

theorem step (h : Proper i t) (hs : Step i t t') : Proper i t' :=
  h.change (hs.change h.known h.home h.homeHold)

/-- Whose handler runs, or who is just before or after it, has an item. -/
theorem out_of_fits (h : Proper i t) (known : t.deliveries k = some d)
    (ordinary : Fits d.thread (t.handed k) d.stage →
      ∃ item, t.handed k = some item ∧ item.isStop = false)
    (out : d.stage.out = true) : t.Out k := by
  obtain ⟨item, hitem, hstop⟩ := ordinary (h.fits k d known)
  exact ⟨d, item, known, hitem, hstop, out⟩

theorem out_of_attended (h : Proper i t) (known : t.deliveries k = some d)
    (attended : d.stage.attended = true) : t.Out k := by
  cases hs : d.stage with
  | handling | leaving =>
    exact h.out_of_fits known (by rw [hs]; exact id) (by rw [hs]; rfl)
  | _ => rw [hs] at attended; cases attended

end Proper

/-! ## What holds until a marker is finished amid a callback -/

/-- One item at most is out, and the queue and the mark of the callback thread say so. -/
structure Exclusive (i : Nat) (t : Evoking) : Prop where
  single : ∀ j k, t.Out j → t.Out k → j = k
  busy : (t.queue i).inProgress = true ↔ ∃ k, t.Out k
  marked : ∀ θ, t.ambassador.handling = some θ ↔ t.Attends θ
  quiet : ∀ j h, t.holds j = some h → h.stage = .quiet → t.lifted j = false → ∀ k, ¬ t.Out k

theorem exclusive_fresh {a : Ambassador} (new : (a.session i).queue = .fresh)
    (nobody : a.handling = none) : Exclusive i (fresh a) where
  single := by
    rintro j k ⟨d, item, known, -⟩
    cases known
  busy := by
    rw [queue, fresh, new]
    refine iff_of_false nofun ?_
    rintro ⟨k, d, item, known, -⟩
    cases known
  marked θ := by
    rw [fresh, nobody]
    refine iff_of_false nofun ?_
    rintro ⟨k, d, known, -⟩
    cases known
  quiet _ _ h := by cases h

namespace Exclusive

/-- A step after which the same deliveries have an item. -/
theorem same (h : Exclusive i t) (out : ∀ j, t'.Out j ↔ t.Out j)
    (busy : (t'.queue i).inProgress = (t.queue i).inProgress)
    (marked : ∀ θ, t'.ambassador.handling = some θ ↔ t'.Attends θ)
    (quiet : ∀ j g, t'.holds j = some g → g.stage = .quiet → t'.lifted j = false →
      ∀ k, ¬ t.Out k) : Exclusive i t' where
  single j k hj hk := h.single j k ((out j).mp hj) ((out k).mp hk)
  busy := by rw [busy, h.busy]; exact exists_congr fun k => (out k).symm
  marked := marked
  quiet j g hg hs still k hk := quiet j g hg hs still k ((out k).mp hk)

/-- A change of the queue that leaves it as busy as before, or of nothing that matters here. -/
theorem turns {a : Ambassador} {q : CallbackQueue} {lifted : Nat → Bool} (h : Exclusive i t)
    (has : Has i q t.ambassador.handling a) (busy : q.inProgress = (t.queue i).inProgress)
    (still : ∀ j, lifted j = false → t.lifted j = false) :
    Exclusive i { t with ambassador := a, lifted := lifted } :=
  h.same (fun _ => Iff.rfl) (by rw [queue, has.queue, busy])
    (fun θ => by
      show a.handling = some θ ↔ t.Attends θ
      rw [has.handling]
      exact h.marked θ)
    fun j g hg hs hl => h.quiet j g hg hs (still j hl)

/-- A hold begins or goes on, and does not end its wait. -/
theorem holds {g : Hold} (h : Exclusive i t)
    (quiet : g.stage = .quiet → ∀ k, ¬ t.Out k) : Exclusive i (t.setHold j g) :=
  h.same (fun _ => Iff.rfl) rfl h.marked fun m f hf hs still => by
    rcases of_update hf with ⟨-, rfl⟩ | ⟨-, hf⟩
    · exact quiet hs
    · exact h.quiet m f hf hs still

/-- A delivery goes to another stage, and has an item and its handler as before. -/
theorem goTo {s : Delivery.Stage} (h : Exclusive i t) (known : t.deliveries k = some d)
    (out : s.out = d.stage.out) (attended : s.attended = d.stage.attended) :
    Exclusive i (t.setDelivery k (d.goTo s)) :=
  h.same (out_goTo known out) rfl
    (fun θ => (h.marked θ).trans (attends_goTo known attended θ).symm)
    fun j g hg hs still => h.quiet j g hg hs still

/-- While a delivery has an item and its handler does not run, no handler runs. -/
theorem not_attends (h : Exclusive i t) (hp : Proper i t) (known : t.deliveries k = some d)
    (out : t.Out k) (attended : d.stage.attended = false) (θ : Thread) : ¬ t.Attends θ := by
  rintro ⟨j, e, he, hattended, -⟩
  obtain rfl := h.single j k (hp.out_of_attended he hattended) out
  rw [known] at he
  cases he
  rw [attended] at hattended
  cases hattended

/-- A delivery begins. -/
theorem begins {thread : Thread} (h : Exclusive i t) (new : t.deliveries k = none) :
    Exclusive i (t.setDelivery k (.fresh i thread)) := by
  refine h.same (fun j => ?_) rfl (fun θ => (h.marked θ).trans ⟨?_, ?_⟩)
    fun j g hg hs still => h.quiet j g hg hs still
  · by_cases hj : j = k
    · subst hj
      rw [out_setDelivery_self]
      refine iff_of_false (fun ⟨_, _, _, hout⟩ => by cases hout) ?_
      rintro ⟨e, item, he, -⟩
      rw [new] at he
      cases he
    · exact out_setDelivery_of_ne hj
  · rintro ⟨j, e, he, hrest⟩
    exact ⟨j, e, update_of_new new he, hrest⟩
  · rintro ⟨j, e, he, hattended, hthread⟩
    rcases of_update he with ⟨-, rfl⟩ | ⟨-, he⟩
    · cases hattended
    · exact ⟨j, e, he, hattended, hthread⟩

/-- A delivery that had nothing is handed something, but no item. -/
theorem handsNone {item : Option CallbackQueue.Item} {s : Delivery.Stage} (h : Exclusive i t)
    (known : t.deliveries k = some d) (stage : d.stage = .taking) (attended : s.attended = false)
    (none : ∀ x, item = some x → x.isStop = true) :
    Exclusive i ({ t with handed := update t.handed k item }.setDelivery k (d.goTo s)) := by
  have unattended : s.attended = d.stage.attended := by rw [stage, attended]; rfl
  refine h.same (fun j => ?_) rfl
    (fun θ => (h.marked θ).trans (attends_goTo known unattended θ).symm)
    fun j g hg hs still => h.quiet j g hg hs still
  by_cases hj : j = k
  · subst hj
    rw [out_setDelivery_self, out_iff_of_known known, stage]
    refine iff_of_false ?_ fun ⟨_, _, _, hout⟩ => by cases hout
    rintro ⟨x, hx, ordinary, -⟩
    have hx' : update t.handed j item j = some x := hx
    rw [Function.update_self] at hx'
    rw [none x hx'] at ordinary
    cases ordinary
  · rw [out_setDelivery_of_ne hj]
    simp only [Out, Function.update_of_ne hj]

/-- A delivery is handed an item, when none is out. -/
theorem handsItem {a : Ambassador} {q : CallbackQueue} {item : CallbackQueue.Item}
    (h : Exclusive i t) (hp : Proper i t) (known : t.deliveries k = some d)
    (stage : d.stage = .taking) (ordinary : item.isStop = false)
    (on : (t.queue i).enabled = true) (free : (t.queue i).inProgress = false)
    (busy : q.inProgress = true) (has : Has i q t.ambassador.handling a) :
    Exclusive i ({ t with
      ambassador := a, handed := update t.handed k (some item) }.setDelivery k
        (d.goTo (.taken item))) := by
  have nobody : ∀ j, ¬ t.Out j := by
    intro j hj
    have := h.busy.mpr ⟨j, hj⟩
    rw [free] at this
    cases this
  have mine : ∀ j, ({ t with
      ambassador := a, handed := update t.handed k (some item) }.setDelivery k
        (d.goTo (.taken item))).Out j ↔ j = k := by
    intro j
    by_cases hj : j = k
    · subst hj
      rw [out_setDelivery_self]
      exact iff_of_true ⟨item, Function.update_self .., ordinary, rfl⟩ rfl
    · rw [out_setDelivery_of_ne hj]
      refine iff_of_false ?_ hj
      simp only [Out, Function.update_of_ne hj]
      exact nobody j
  have unattended : (Delivery.Stage.taken item).attended = d.stage.attended := by rw [stage]; rfl
  exact {
    single := fun j l hj hl => ((mine j).mp hj).trans ((mine l).mp hl).symm
    busy := iff_of_true ((congrArg CallbackQueue.inProgress has.queue).trans busy)
      ⟨k, (mine k).mpr rfl⟩
    marked := fun θ => by
      show a.handling = some θ ↔ _
      rw [has.handling]
      exact (h.marked θ).trans (attends_goTo known unattended θ).symm
    quiet := fun j g hg hs still => by
      have := hp.closed j g hg (by rw [hs]; nofun) still
      rw [on] at this
      cases this }

theorem takes {a : Ambassador} {q : CallbackQueue} {item : CallbackQueue.Item}
    (h : Exclusive i t) (hp : Proper i t) (known : t.deliveries k = some d)
    (stage : d.stage = .taking) (next : (t.queue i).next = (some item, q))
    (has : Has i q t.ambassador.handling a) :
    Exclusive i ({ t with
      ambassador := a, handed := update t.handed k (some item) }.setDelivery k
        (d.goTo (d.receive item))) := by
  have unattended : (d.receive item).attended = false := by
    rw [Delivery.receive]
    split <;> rfl
  rcases CallbackQueue.of_next_some next with ⟨rfl, rfl, -⟩ | ⟨on, free, -, busy, -⟩
  · exact (h.turns has rfl fun _ => id).handsNone known stage unattended fun x hx => by
      cases hx; rfl
  · cases hx : item.isStop with
    | true =>
      refine (h.turns has ?_ fun _ => id).handsNone known stage unattended fun y hy => by
        cases hy; exact hx
      rw [busy, hx, free]
      rfl
    | false =>
      rw [d.receive_of_ordinary hx]
      exact h.handsItem hp known stage hx on free (by rw [busy, hx]; rfl) has

/-- A delivery is done. What it had been handed was the only item out, or it was the marker and
nothing is out. -/
theorem finishes {a : Ambassador} (h : Exclusive i t) (hp : Proper i t)
    (known : t.deliveries k = some d) (stage : d.stage = .finishing)
    (has : Has i (t.queue i).done t.ambassador.handling a) (fair : ¬ (t.overrun ∨ t.Overruns k)) :
    Exclusive i ({ t with ambassador := a, overrun := t.overrun ∨ t.Overruns k }.setDelivery k
      (d.goTo (.ended true))) := by
  have others : ∀ j, t.Out j → j = k := by
    intro j hj
    have hfits := hp.fits k d known
    rw [stage] at hfits
    obtain ⟨item, hitem, -⟩ := hfits
    cases item with
    | stop => exact absurd (.inr ⟨hitem, j, hj⟩) fair
    | request | lost =>
      exact h.single j k hj ⟨d, _, known, hitem, rfl, by rw [stage]; rfl⟩
  have nobody : ∀ j, ¬ ({ t with
      ambassador := a, overrun := t.overrun ∨ t.Overruns k }.setDelivery k
        (d.goTo (.ended true))).Out j := by
    intro j hj
    by_cases hjk : j = k
    · subst hjk
      obtain ⟨-, -, -, hout⟩ := out_setDelivery_self.mp hj
      cases hout
    · exact hjk (others j ((out_setDelivery_of_ne hjk).mp hj))
  have unattended : (Delivery.Stage.ended true).attended = d.stage.attended := by rw [stage]; rfl
  exact {
    single := fun j l hj => absurd hj (nobody j)
    busy := by
      refine iff_of_false ?_ fun ⟨j, hj⟩ => nobody j hj
      show ¬ (a.session i).queue.inProgress = true
      rw [has.queue]
      exact nofun
    marked := fun θ => by
      show a.handling = some θ ↔ _
      rw [has.handling]
      exact (h.marked θ).trans (attends_goTo known unattended θ).symm
    quiet := fun _ _ _ _ _ => nobody }

theorem change (h : Exclusive i t) (hp : Proper i t) (hc : Change i t t')
    (fair : ¬ t'.overrun) : Exclusive i t' := by
  cases hc with
  | stays => exact h
  | aside a has | arrives a item ordinary has | stops a has => exact h.turns has rfl fun _ => id
  | enables a has => exact h.turns has rfl fun _ still => by cases still
  | begins thread new => exact h.begins new
  | takes a known stage next has => exact h.takes hp known stage next has
  | @findsNone k d q a known stage next has =>
    obtain rfl := CallbackQueue.of_next_none next
    exact (h.turns has rfl fun _ => id).handsNone known stage rfl nofun
  | goes a known before after attended fits has =>
    exact (h.turns has rfl fun _ => id).goTo known (after.trans before.symm) attended
  | @calls k d n c a known stage has =>
    have out : t.Out k :=
      hp.out_of_fits known (by rw [stage]; exact id) (by rw [stage]; rfl)
    have nobody := h.not_attends hp known out (by rw [stage]; rfl)
    refine h.same (out_goTo known (by rw [stage]; rfl))
      (congrArg CallbackQueue.inProgress has.queue) (fun θ => ?_) h.quiet
    show a.handling = some θ ↔ _
    rw [has.handling, Option.some_inj]
    constructor
    · rintro rfl
      exact ⟨k, _, Function.update_self .., rfl, rfl⟩
    · rintro ⟨j, e, he, hattended, hthread⟩
      rcases of_update he with ⟨-, rfl⟩ | ⟨-, he⟩
      · exact hthread
      · exact absurd ⟨j, e, he, hattended, hthread⟩ (nobody θ)
  | @leaves k d n x a known stage has =>
    have out : t.Out k :=
      hp.out_of_fits known (by rw [stage]; exact id) (by rw [stage]; rfl)
    refine h.same (out_goTo known (by rw [stage]; rfl))
      (congrArg CallbackQueue.inProgress has.queue) (fun θ => ?_) h.quiet
    show a.handling = some θ ↔ _
    rw [has.handling]
    refine iff_of_false nofun ?_
    rintro ⟨j, e, he, hattended, -⟩
    rcases of_update he with ⟨-, rfl⟩ | ⟨hj, he⟩
    · cases hattended
    · exact hj (h.single j k (hp.out_of_attended he hattended) out)
  | finishes a known stage has => exact h.finishes hp known stage has fair
  | holdBegins thread new => exact h.holds nofun
  | @closes j g a known stage has =>
    refine h.same (fun _ => Iff.rfl) ?_ (fun θ => ?_) fun m f hf hs still => ?_
    · show (a.session i).queue.inProgress = _
      rw [has.queue]
      rfl
    · show a.handling = some θ ↔ t.Attends θ
      rw [has.handling]
      exact h.marked θ
    · rcases of_update hf with ⟨-, rfl⟩ | ⟨hm, hf⟩
      · cases hs
      · exact h.quiet m f hf hs ((Function.update_of_ne hm ..).symm.trans still)
  | @looks j g s known stage next =>
    refine h.holds fun hs => ?_
    rcases next with rfl | rfl <;> cases hs
  | quiets known stage idle =>
    refine h.holds fun _ j hj => ?_
    have := h.busy.mpr ⟨j, hj⟩
    rw [idle] at this
    cases this

end Exclusive

theorem Change.overrun (hc : Change i t t') (h : t.overrun) : t'.overrun := by
  cases hc with
  | finishes => exact .inl h
  | _ => exact h

theorem Reachable.proper (h : Reachable i t) : Proper i t := by
  obtain ⟨a, known, new, -, hs⟩ := h
  induction hs with
  | refl => exact proper_fresh known new
  | tail _ hs ih => exact ih.step hs

theorem Reachable.exclusive (h : Reachable i t) (fair : ¬ t.overrun) : Exclusive i t := by
  obtain ⟨a, known, new, nobody, hs⟩ := h
  induction hs with
  | refl => exact exclusive_fresh new nobody
  | @tail t t' before hs ih =>
    have hp : Proper i t := Reachable.proper ⟨a, known, new, nobody, before⟩
    have hc := hs.change hp.known hp.home hp.homeHold
    exact (ih fun overran => fair (hc.overrun overran)).change hp hc fair

/-! ## When a marker is finished amid a callback -/

/-- A queue that has been stopped stays so, and a delivery stays on its thread. -/
theorem Change.stays_stopped (hc : Change i t t') (stopped : (t.queue i).stopping = true) :
    (t'.queue i).stopping = true := by
  have stops {a : Ambassador} {q : CallbackQueue} {mark : Option Thread} (has : Has i q mark a)
      (same : q.stopping = true) : (a.session i).queue.stopping = true := by
    rw [has.queue, same]
  cases hc with
  | takes a known stage next has =>
    rcases CallbackQueue.of_next_some next with ⟨-, rfl, -⟩ | ⟨-, -, -, -, -, same⟩
    · exact stops has stopped
    · exact stops has (same.trans stopped)
  | findsNone a known stage next has =>
    obtain rfl := CallbackQueue.of_next_none next
    exact stops has stopped
  | aside a has | arrives a item ordinary has | enables a has | closes a known stage has
  | goes a known before after attended fits has | calls a known stage has
  | leaves a known stage has | finishes a known stage has => exact stops has stopped
  | stops a has => exact stops has rfl
  | _ => exact stopped

theorem Change.thread (hc : Change i t t') (known : t.deliveries k = some d) :
    ∃ e, t'.deliveries k = some e ∧ e.thread = d.thread := by
  have goes {j : Nat} {e : Delivery} {s : Delivery.Stage} (he : t.deliveries j = some e) :
      ∃ f, update t.deliveries j (some (e.goTo s)) k = some f ∧ f.thread = d.thread :=
    row_of_update (P := fun _ f => f.thread = d.thread) (b := e.goTo s) he id ⟨d, known, rfl⟩
  cases hc with
  | begins thread new => exact ⟨d, update_of_new new known, rfl⟩
  | takes a he | findsNone a he | goes a he | calls a he | leaves a he | finishes a he =>
    exact goes he
  | _ => exact ⟨d, known, rfl⟩

/-- A marker is finished amid a callback only once the queue has been stopped, and by somebody who
evokes. -/
theorem Reachable.stopped_of_overrun (h : Reachable i t) (overran : t.overrun) :
    (t.queue i).stopping = true ∧ ∃ k d, t.deliveries k = some d ∧ d.thread ≠ .dispatcher := by
  obtain ⟨a, known, new, nobody, hs⟩ := h
  induction hs with
  | refl => cases overran
  | @tail t t' before hs ih =>
    have hp : Proper i t := Reachable.proper ⟨a, known, new, nobody, before⟩
    have hc := hs.change hp.known hp.home hp.homeHold
    have now : (t.queue i).stopping = true ∧
        ∃ k d, t.deliveries k = some d ∧ d.thread ≠ .dispatcher := by
      by_cases already : t.overrun
      · exact ih already
      · cases hc with
        | @finishes k d a known stage has =>
          obtain ⟨marker, -⟩ := overran.resolve_left already
          have hfits := hp.fits k d known
          rw [stage] at hfits
          obtain ⟨item, hitem, evoked⟩ := hfits
          rw [marker] at hitem
          cases hitem
          refine ⟨?_, k, d, known, evoked rfl⟩
          cases running : (t.queue i).stopping with
          | true => rfl
          | false => exact absurd marker ((hp.unmarked running).2 k)
        | _ => exact absurd overran already
    obtain ⟨stopped, k, d, hd, hthread⟩ := now
    obtain ⟨e, he, hsame⟩ := hc.thread hd
    exact ⟨hc.stays_stopped stopped, k, e, he, by rw [hsame]; exact hthread⟩

/-- Once a marker has been finished amid a callback, the queue believes that nothing is out. -/
theorem Change.not_busy (hc : Change i t t') (fair : ¬ t.overrun)
    (overran : t'.overrun) : (t'.queue i).inProgress = false ∧ ∃ k, t'.Out k := by
  cases hc with
  | @finishes k d a known stage has =>
    obtain ⟨marker, j, hj⟩ := overran.resolve_left fair
    refine ⟨congrArg CallbackQueue.inProgress has.queue, j, ?_⟩
    have hne : j ≠ k := by
      rintro rfl
      obtain ⟨-, item, -, hitem, ordinary, -⟩ := hj
      rw [marker] at hitem
      cases hitem
      cases ordinary
    exact (out_setDelivery_of_ne hne).mpr hj
  | _ => exact absurd overran fair

/-- One callback at a time, and holds that are quiet. -/
structure Secluded (i : Nat) (t : Evoking) : Prop where
  /-- One item at most is out. -/
  single : ∀ j k, t.Out j → t.Out k → j = k
  /-- The queue knows whether one is. -/
  busy : (t.queue i).inProgress = true ↔ ∃ k, t.Out k
  /-- No two handlers run at once. -/
  alone : ∀ j k d e, t.deliveries j = some d → t.deliveries k = some e →
    d.stage.attended = true → e.stage.attended = true → j = k
  /-- The mark of the callback thread is with the thread whose handler runs. -/
  marked : ∀ θ, t.ambassador.handling = some θ ↔ t.Attends θ
  /-- A hold ends its wait only when no item is out. -/
  returns : ∀ j h, t.holds j = some h → h.stage = .waiting →
    (h.step t.ambassador).1.stage = .quiet → ∀ k, ¬ t.Out k
  /-- Then none is out until delivery is enabled again. -/
  quiet : ∀ j h, t.holds j = some h → h.stage = .quiet → t.lifted j = false → ∀ k, ¬ t.Out k

/-- **One callback at a time is out, and a hold that has waited is quiet, until a marker is finished
amid a callback**; then the queue believes that nothing is out. That takes a queue that has been
stopped, and somebody who evokes. -/
theorem Reachable.secluded (h : Reachable i t) :
    (¬ t.overrun → Secluded i t) ∧
      (∀ t', Step i t t' → ¬ t.overrun → t'.overrun →
        (t'.queue i).inProgress = false ∧ ∃ k, t'.Out k) ∧
      (t.overrun → (t.queue i).stopping = true ∧
        ∃ k d, t.deliveries k = some d ∧ d.thread ≠ .dispatcher) := by
  have hp := h.proper
  refine ⟨fun fair => ?_, fun t' hs fair overran => ?_, h.stopped_of_overrun⟩
  · have he := h.exclusive fair
    exact {
      single := he.single
      busy := he.busy
      alone := fun j k d e hd hk hda hea =>
        he.single j k (hp.out_of_attended hd hda) (hp.out_of_attended hk hea)
      marked := he.marked
      returns := fun j g hg stage quiet k hk => by
        have busy := he.busy.mpr ⟨k, hk⟩
        rw [← hp.homeHold j g hg] at busy
        have busy' : (t.ambassador.session g.session).queue.inProgress = true := busy
        simp [Hold.step, stage, busy'] at quiet
      quiet := he.quiet }
  · exact (hs.change hp.known hp.home hp.homeHold).not_busy fair overran

/-- A client with one session. -/
def client : Ambassador :=
  { Ambassador.fresh .standard with sessions := [.fresh ⟨none, none, .zero, none, ""⟩ .zero] }

/-- A callback is delivered on the federate's thread, and a hold of another thread waits. -/
theorem secluded_amid_handler : ∃ t, Reachable 0 t ∧ ¬ t.overrun ∧ t.Attends .application ∧
    t.holds 0 = some ⟨0, .background 2, .waiting⟩ ∧ Secluded 0 t := by
  have arrived := Relation.ReflTransGen.single
    (Step.push (i := 0) (t := fresh client) (.request 5 ⟨21, []⟩) rfl)
  have begun := arrived.tail (.begin (k := 0) .application rfl)
  have taken := begun.tail (.deliver (k := 0) rfl)
  have read := taken.tail (.deliver (k := 0) rfl)
  have observed := read.tail (.deliver (k := 0) rfl)
  have called := observed.tail (.deliver (k := 0) rfl)
  have held := called.tail (.beginHold (j := 0) (.background 2) rfl)
  have closed := held.tail (.hold (j := 0) rfl)
  have looked := closed.tail (.hold (j := 0) rfl)
  have reached := Reachable.secluded ⟨client, by decide, rfl, rfl, looked⟩
  exact ⟨_, ⟨client, by decide, rfl, rfl, looked⟩, id, ⟨0, _, rfl, rfl, rfl⟩, rfl, reached.1 id⟩

/-- A handler runs, another thread waits for a callback, and a third has begun a hold. The queue is
stopped: the second thread gets the marker and finishes it, and the hold returns while the handler
still runs. -/
theorem hold_returns_amid_handler : ∃ t, Reachable 0 t ∧ t.Attends .application ∧ t.Out 0 ∧
    t.holds 0 = some ⟨0, .background 2, .quiet⟩ ∧ t.lifted 0 = false ∧
    (t.queue 0).inProgress = false := by
  have arrived := Relation.ReflTransGen.single
    (Step.push (i := 0) (t := fresh client) (.request 5 ⟨21, []⟩) rfl)
  have begun := arrived.tail (.begin (k := 0) .application rfl)
  have taken := begun.tail (.deliver (k := 0) rfl)
  have read := taken.tail (.deliver (k := 0) rfl)
  have observed := read.tail (.deliver (k := 0) rfl)
  have called := observed.tail (.deliver (k := 0) rfl)
  have evoked := called.tail (.begin (k := 1) (.background 1) rfl)
  have held := evoked.tail (.beginHold (j := 0) (.background 2) rfl)
  have closed := held.tail (.hold (j := 0) rfl)
  have looked := closed.tail (.hold (j := 0) rfl)
  have stopped := looked.tail .stop
  have marked := stopped.tail (.deliver (k := 1) rfl)
  have passed := marked.tail (.deliver (k := 1) rfl)
  have finished := passed.tail (.deliver (k := 1) rfl)
  have returned := finished.tail (.hold (j := 0) rfl)
  exact ⟨_, ⟨client, by decide, rfl, rfl, returned⟩, ⟨0, _, rfl, rfl, rfl⟩,
    ⟨_, _, rfl, rfl, rfl, rfl⟩, rfl, rfl, rfl⟩

end Federate.Evoking
