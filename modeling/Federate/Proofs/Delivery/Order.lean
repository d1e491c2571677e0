/-
Callbacks are delivered in the order in which they came, each once, and each
request is answered once. One delivery at a time has an item, and it is the one
that got the last; so what is handed to deliveries, followed by what waits, is
what was pushed, and the answers follow the requests.
-/
import Mathlib.Data.List.Forall2
import Federate.Proofs.Delivery.Dispatch
namespace Federate.Dispatching

open Function (update)

variable {i : Nat} {t t' : Dispatching}

/-- The session is lost, or the link has refused an answer. -/
def silenced (t : Dispatching) (i : Nat) : Bool := (t.ambassador.session i).lost || t.refused

/-- What holds of the deliveries for a session, whatever the order of their steps. -/
structure Ordered (i : Nat) (t : Dispatching) : Prop where
  known : i < t.ambassador.sessions.length
  home : ∀ k d, t.deliveries k = some d → d.session = i
  running : (t.queue i).stopping = false
  ordinary : ∀ item ∈ (t.queue i).items, item.isStop = false
  arrival : t.handed.map Prod.snd ++ (t.queue i).items = t.pushed
  once : (t.handed.map Prod.fst).Nodup
  taken : ∀ k item, (k, item) ∈ t.handed → ∃ d, t.deliveries k = some d ∧
    item.isStop = false ∧ Delivery.Underway (t.silenced i) item d.stage (t.deeds k)
  untaken : ∀ k, k ∉ t.handed.map Prod.fst → t.deeds k = [] ∧
    ∀ d, t.deliveries k = some d → d.stage = .taking ∨ d.stage = .ended false
  /-- A delivery that has an item is the one that got the last. -/
  out : ∀ k d, t.deliveries k = some d → d.stage.out = true →
    (t.queue i).inProgress = true ∧ ∃ older item, t.handed = older ++ [(k, item)]
  answers : t.answers = t.handed.flatMap fun x => Delivery.accepted (t.deeds x.1)

theorem ordered_fresh {a : Ambassador} (known : i < a.sessions.length)
    (new : (a.session i).queue = .fresh) : Ordered i (fresh a) where
  known := known
  home _ _ h := by cases h
  running := by rw [queue, fresh, new]; rfl
  ordinary item h := by
    rw [queue, fresh, new] at h
    cases h
  arrival := by rw [queue, fresh, new]; rfl
  once := List.nodup_nil
  taken _ _ h := by cases h
  untaken _ _ := ⟨rfl, fun _ h => by cases h⟩
  out _ _ h := by cases h
  answers := rfl

namespace Ordered

/-- A step of the session around the deliveries. -/
theorem turns {q : CallbackQueue} {a : Ambassador} {pushed : List CallbackQueue.Item}
    (h : Ordered i t) (turns : Turns i q t.ambassador a) (running : q.stopping = false)
    (busy : q.inProgress = (t.queue i).inProgress)
    (ordinary : ∀ item ∈ q.items, item.isStop = false)
    (arrival : t.handed.map Prod.snd ++ q.items = pushed) :
    Ordered i { t with ambassador := a, pushed := pushed } where
  known := turns.known h.known
  home := h.home
  running := by rw [queue, turns.queue, running]
  ordinary item hm := by
    rw [queue, turns.queue] at hm
    exact ordinary item hm
  arrival := by
    rw [queue, turns.queue]
    exact arrival
  once := h.once
  taken k item hm := by
    obtain ⟨d, hd, hs, hu⟩ := h.taken k item hm
    refine ⟨d, hd, hs, hu.mono fun hq => ?_⟩
    rw [silenced, Bool.or_eq_true] at hq ⊢
    exact hq.imp_left turns.lost
  untaken := h.untaken
  out k d hd ho := by
    rw [queue, turns.queue, busy]
    exact h.out k d hd ho
  answers := h.answers

/-- A delivery begins. -/
theorem begins {k : Nat} {thread : Thread} (h : Ordered i t) (new : t.deliveries k = none) :
    Ordered i (t.setDelivery k (.fresh i thread)) where
  known := h.known
  home j d hd := by
    rcases of_update hd with ⟨-, rfl⟩ | ⟨-, hd⟩
    · rfl
    · exact h.home j d hd
  running := h.running
  ordinary := h.ordinary
  arrival := h.arrival
  once := h.once
  taken j item hm := by
    obtain ⟨d, hd, hrest⟩ := h.taken j item hm
    exact ⟨d, update_of_new new hd, hrest⟩
  untaken j hj := by
    refine ⟨(h.untaken j hj).1, fun d hd => ?_⟩
    rcases of_update hd with ⟨-, rfl⟩ | ⟨-, hd⟩
    · exact .inl rfl
    · exact (h.untaken j hj).2 d hd
  out j d hd ho := by
    rcases of_update hd with ⟨-, rfl⟩ | ⟨-, hd⟩
    · cases ho
    · exact h.out j d hd ho
  answers := h.answers

/-- A delivery that has ended, or has not begun, has no item. -/
theorem not_handed {k : Nat} {d : Delivery} (h : Ordered i t) (hd : t.deliveries k = some d)
    (idle : d.stage = .taking ∨ d.stage = .ended false) : k ∉ t.handed.map Prod.fst := by
  intro hk
  obtain ⟨⟨k, item⟩, hm, rfl⟩ := List.mem_map.mp hk
  obtain ⟨e, he, -, hu⟩ := h.taken k item hm
  rw [hd] at he
  cases he
  rcases idle with hs | hs <;> rw [hs] at hu <;> cases hu

/-- A delivery with an item is the only one. -/
theorem eq_of_out {j k : Nat} {d e : Delivery} (h : Ordered i t) (hd : t.deliveries j = some d)
    (he : t.deliveries k = some e) (hdo : d.stage.out = true) (heo : e.stage.out = true) :
    j = k := by
  obtain ⟨-, older, item, holder⟩ := h.out j d hd hdo
  obtain ⟨-, older', item', holder'⟩ := h.out k e he heo
  rw [holder] at holder'
  have hlast := (List.append_inj' holder' rfl).2
  exact congrArg Prod.fst (List.singleton_inj.mp hlast)

/-- A step of a delivery that has an item, with what it does. -/
theorem goes {k : Nat} {d : Delivery} {s : Delivery.Stage} {more : List Delivery.Deed}
    {q : CallbackQueue} {a : Ambassador} {answers : List Bytes} {refused : Bool}
    (h : Ordered i t) (known : t.deliveries k = some d) (out : d.stage.out = true)
    (turns : Turns i q t.ambassador a) (items : q.items = (t.queue i).items)
    (running : q.stopping = (t.queue i).stopping)
    (busy : s.out = true → q.inProgress = (t.queue i).inProgress)
    (more_refused : t.refused = true → refused = true)
    (more_answers : answers = t.answers ++ Delivery.accepted more)
    (underway : ∀ item, item.isStop = false →
      Delivery.Underway (t.silenced i) item d.stage (t.deeds k) →
      Delivery.Underway ((a.session i).lost || refused) item s (t.deeds k ++ more)) :
    Ordered i { t with
      ambassador := a
      deliveries := update t.deliveries k (some (d.goTo s))
      deeds := update t.deeds k (t.deeds k ++ more)
      answers := answers
      refused := refused } := by
  have silences : t.silenced i = true → ((a.session i).lost || refused) = true := by
    rw [silenced, Bool.or_eq_true, Bool.or_eq_true]
    exact Or.imp turns.lost more_refused
  obtain ⟨inProgress, older, item, last⟩ := h.out k d known out
  exact {
    known := turns.known h.known
    home := fun j e he => by
      rcases of_update he with ⟨-, rfl⟩ | ⟨-, he⟩
      · exact h.home k d known
      · exact h.home j e he
    running := by rw [queue, turns.queue, running, h.running]
    ordinary := fun item hm => by
      rw [queue, turns.queue, items] at hm
      exact h.ordinary item hm
    arrival := by
      rw [queue, turns.queue, items]
      exact h.arrival
    once := h.once
    taken := fun j item hm => by
      obtain ⟨e, he, hs, hu⟩ := h.taken j item hm
      by_cases hj : j = k
      · subst hj
        rw [known] at he
        cases he
        refine ⟨_, Function.update_self .., hs, ?_⟩
        show Delivery.Underway _ item s (update t.deeds j _ j)
        rw [Function.update_self]
        exact underway item hs hu
      · refine ⟨e, (Function.update_of_ne hj ..).trans he, hs, ?_⟩
        show Delivery.Underway _ item e.stage (update t.deeds k _ j)
        rw [Function.update_of_ne hj]
        exact hu.mono silences
    untaken := fun j hj => by
      have hjk : j ≠ k := by
        intro heq
        subst heq
        rw [last, List.map_append] at hj
        exact hj (List.mem_append_right _ (List.mem_singleton_self _))
      refine ⟨(Function.update_of_ne hjk ..).trans (h.untaken j hj).1, fun e he => ?_⟩
      exact (h.untaken j hj).2 e ((Function.update_of_ne hjk ..).symm.trans he)
    out := fun j e he ho => by
      rcases of_update he with ⟨rfl, rfl⟩ | ⟨hj, he⟩
      · refine ⟨?_, older, item, last⟩
        rw [queue, turns.queue, busy ho, inProgress]
      · exact absurd (h.eq_of_out he known ho out) hj
    answers := by
      have apart : ∀ x ∈ older, x.1 ≠ k := by
        have hnodup := h.once
        rw [last, List.map_append, List.nodup_append] at hnodup
        exact fun x hx => hnodup.2.2 _ (List.mem_map_of_mem hx) _ (List.mem_singleton_self _)
      have same :
          older.flatMap (fun x => Delivery.accepted (update t.deeds k (t.deeds k ++ more) x.1)) =
            older.flatMap fun x => Delivery.accepted (t.deeds x.1) :=
        List.flatMap_congr fun x hx => by rw [Function.update_of_ne (apart x hx)]
      show answers = t.handed.flatMap _
      rw [more_answers, h.answers, last, List.flatMap_append, List.flatMap_append, same,
        List.append_assoc]
      simp [Delivery.accepted, List.filterMap_append] }

/-- A step of a delivery that has an item, which nobody sees. -/
theorem goesOn {k : Nat} {d : Delivery} {s : Delivery.Stage} {q : CallbackQueue} {a : Ambassador}
    (h : Ordered i t) (known : t.deliveries k = some d) (out : d.stage.out = true)
    (turns : Turns i q t.ambassador a) (items : q.items = (t.queue i).items)
    (running : q.stopping = (t.queue i).stopping)
    (busy : s.out = true → q.inProgress = (t.queue i).inProgress)
    (underway : ∀ item, Delivery.Underway (t.silenced i) item d.stage (t.deeds k) →
      Delivery.Underway (t.silenced i) item s (t.deeds k)) :
    Ordered i ({ t with ambassador := a }.setDelivery k (d.goTo s)) := by
  have hgoes : Ordered i { t with
      ambassador := a
      deliveries := update t.deliveries k (some (d.goTo s))
      deeds := update t.deeds k (t.deeds k ++ [])
      answers := t.answers
      refused := t.refused } :=
    h.goes known out turns items running busy id (List.append_nil _).symm fun item _ hu => by
      rw [List.append_nil]
      refine (underway item hu).mono fun hq => ?_
      rw [silenced, Bool.or_eq_true] at hq
      rw [Bool.or_eq_true]
      exact hq.imp_left turns.lost
  rw [List.append_nil, Function.update_eq_self] at hgoes
  exact hgoes

/-- A delivery gets an item. -/
theorem takes {k : Nat} {d : Delivery} {item : CallbackQueue.Item} {q : CallbackQueue}
    {a : Ambassador} (h : Ordered i t) (known : t.deliveries k = some d)
    (stage : d.stage = .taking) (free : (t.queue i).inProgress = false)
    (items : (t.queue i).items = item :: q.items) (busy : q.inProgress = true)
    (running : q.stopping = false) (turns : Turns i q t.ambassador a) :
    Ordered i { t with
      ambassador := a
      deliveries := update t.deliveries k (some (d.goTo (.taken item)))
      handed := t.handed ++ [(k, item)] } := by
  have new : k ∉ t.handed.map Prod.fst := h.not_handed known (.inl stage)
  have silences : t.silenced i = true → ((a.session i).lost || t.refused) = true := by
    rw [silenced, Bool.or_eq_true, Bool.or_eq_true]
    exact Or.imp_left turns.lost
  have ordinary : item.isStop = false := h.ordinary item (by rw [items]; exact List.mem_cons_self)
  exact {
    known := turns.known h.known
    home := fun j e he => by
      rcases of_update he with ⟨-, rfl⟩ | ⟨-, he⟩
      · exact h.home k d known
      · exact h.home j e he
    running := by rw [queue, turns.queue, running]
    ordinary := fun item' hm => by
      rw [queue, turns.queue] at hm
      exact h.ordinary item' (by rw [items]; exact List.mem_cons_of_mem _ hm)
    arrival := by
      rw [queue, turns.queue, ← h.arrival, items, List.map_append, List.append_assoc]
      rfl
    once := by
      rw [List.map_append, List.nodup_append]
      refine ⟨h.once, List.pairwise_singleton .., fun j hj j' hj' heq => ?_⟩
      rw [heq, List.mem_singleton.mp hj'] at hj
      exact new hj
    taken := fun j item' hm => by
      rcases List.mem_append.mp hm with old | last
      · obtain ⟨e, he, hs, hu⟩ := h.taken j item' old
        have hj : j ≠ k := by
          intro heq
          subst heq
          exact new (List.mem_map_of_mem old)
        exact ⟨e, (Function.update_of_ne hj ..).trans he, hs, hu.mono silences⟩
      · cases List.mem_singleton.mp last
        refine ⟨_, Function.update_self .., ordinary, ?_⟩
        show Delivery.Underway _ item (.taken item) (t.deeds k)
        rw [(h.untaken k new).1]
        exact .taken
    untaken := fun j hj => by
      have hj' : j ∉ t.handed.map Prod.fst := fun hm =>
        hj (by rw [List.map_append]; exact List.mem_append_left _ hm)
      have hjk : j ≠ k := by
        intro heq
        subst heq
        refine hj ?_
        rw [List.map_append]
        exact List.mem_append_right _ (List.mem_singleton_self _)
      refine ⟨(h.untaken j hj').1, fun e he => ?_⟩
      exact (h.untaken j hj').2 e ((Function.update_of_ne hjk ..).symm.trans he)
    out := fun j e he ho => by
      rcases of_update he with ⟨rfl, rfl⟩ | ⟨-, he⟩
      · refine ⟨?_, t.handed, item, rfl⟩
        rw [queue, turns.queue, busy]
      · obtain ⟨hbusy, -⟩ := h.out j e he ho
        rw [free] at hbusy
        cases hbusy
    answers := by
      rw [List.flatMap_append, h.answers, List.flatMap_singleton, (h.untaken k new).1]
      exact (List.append_nil _).symm }

/-- A delivery finds nothing. -/
theorem findsNone {k : Nat} {d : Delivery} {a : Ambassador} (h : Ordered i t)
    (known : t.deliveries k = some d) (stage : d.stage = .taking)
    (turns : Turns i (t.queue i) t.ambassador a) :
    Ordered i ({ t with ambassador := a }.setDelivery k (d.goTo (.ended false))) := by
  have haside := h.turns turns h.running rfl h.ordinary h.arrival
  have new : k ∉ t.handed.map Prod.fst := h.not_handed known (.inl stage)
  exact { haside with
    home := fun j e he => by
      rcases of_update he with ⟨-, rfl⟩ | ⟨-, he⟩
      · exact h.home k d known
      · exact h.home j e he
    taken := fun j item hm => by
      obtain ⟨e, he, hrest⟩ := haside.taken j item hm
      have hj : j ≠ k := by
        intro heq
        subst heq
        exact new (List.mem_map_of_mem hm)
      exact ⟨e, (Function.update_of_ne hj ..).trans he, hrest⟩
    untaken := fun j hj => by
      refine ⟨(h.untaken j hj).1, fun e he => ?_⟩
      rcases of_update he with ⟨-, rfl⟩ | ⟨-, he⟩
      · exact .inr rfl
      · exact (h.untaken j hj).2 e he
    out := fun j e he ho => by
      rcases of_update he with ⟨-, rfl⟩ | ⟨-, he⟩
      · cases ho
      · exact haside.out j e he ho }

theorem change (h : Ordered i t) (hc : Change i t t') : Ordered i t' := by
  cases hc with
  | stays => exact h
  | aside a turns => exact h.turns turns h.running rfl h.ordinary h.arrival
  | arrives a item ordinary turns =>
    refine h.turns turns h.running rfl (fun x hx => ?_) ?_
    · rw [CallbackQueue.items_push] at hx
      rcases List.mem_append.mp hx with hx | hx
      · exact h.ordinary x hx
      · rw [List.mem_singleton.mp hx, ordinary]
    · rw [CallbackQueue.items_push, ← List.append_assoc, h.arrival]
  | enables a b turns => exact h.turns turns h.running rfl h.ordinary h.arrival
  | begins thread new => exact h.begins new
  | @takes k d item q a known stage next turns =>
    rcases (t.queue i).next_cases h.running with
      hnone | ⟨x, q', hnext, -, free, items, busy, running⟩
    · rw [next] at hnone
      cases hnone
    · rw [next] at hnext
      cases hnext
      have ordinary := h.ordinary item (by rw [items]; exact List.mem_cons_self)
      rw [d.receive_of_ordinary ordinary]
      exact h.takes known stage free items (by rw [busy, ordinary]; rfl) running turns
  | @findsNone k d a known stage turns next =>
    rcases (t.queue i).next_cases h.running with hnone | ⟨x, q', hnext, -⟩
    · rw [hnone] at turns
      exact h.findsNone known stage turns
    · rw [hnext] at next
      cases next
  | @reads k d item known stage =>
    refine h.goes known (by rw [stage]; rfl) (turns_of_sessions rfl) rfl rfl (fun _ => rfl) id
      (List.append_nil _).symm fun item' ordinary hu => ?_
    rw [stage] at hu
    generalize t.deeds k = deeds at hu
    cases hu
    exact Delivery.underway_examine ordinary _
  | observes a known stage turns =>
    refine h.goes known (by rw [stage]; rfl) turns rfl rfl (fun _ => rfl) id
      (List.append_nil _).symm fun item _ hu => ?_
    rw [stage] at hu
    generalize t.deeds _ = deeds at hu
    cases hu with
    | observing reads => exact .entering reads
  | calls a known stage turns =>
    refine h.goes known (by rw [stage]; rfl) turns rfl rfl (fun _ => rfl) id
      (List.append_nil _).symm fun item _ hu => ?_
    rw [stage] at hu
    generalize t.deeds _ = deeds at hu
    cases hu with
    | entering reads => exact .handling reads
  | returns known stage x =>
    refine h.goes known (by rw [stage]; rfl) (turns_of_sessions rfl) rfl rfl (fun _ => rfl) id
      (List.append_nil _).symm fun item _ hu => ?_
    rw [stage] at hu
    generalize t.deeds _ = deeds at hu
    cases hu with
    | handling reads => exact .leaving reads x
  | leaves a known stage turns =>
    refine h.goesOn known (by rw [stage]; rfl) turns rfl rfl (fun _ => rfl) fun item hu => ?_
    rw [stage] at hu
    generalize t.deeds _ = deeds at hu
    cases hu with
    | leaving reads => exact .counting (.callback reads (Delivery.raises_fault? _))
  | counts a known stage turns =>
    refine h.goesOn known (by rw [stage]; rfl) turns rfl rfl (fun _ => rfl) fun item hu => ?_
    rw [stage] at hu
    cases hu with
    | counting handled => exact .answering handled
  | passes known stage =>
    refine h.goesOn known (by rw [stage]; rfl) (turns_of_sessions rfl) rfl rfl (fun _ => rfl)
      fun item hu => ?_
    rw [stage] at hu
    cases hu with
    | answering handled => exact .finishing (.notice handled)
  | givesUp known stage lost =>
    refine h.goesOn known (by rw [stage]; rfl) (turns_of_sessions rfl) rfl rfl (fun _ => rfl)
      fun item hu => ?_
    rw [stage] at hu
    cases hu with
    | answering handled => exact .finishing (.silent handled (by rw [silenced, lost, Bool.true_or]))
  | offers a known stage answers turns =>
    refine h.goesOn known (by rw [stage]; rfl) turns rfl rfl (fun _ => rfl) fun item hu => ?_
    rw [stage] at hu
    cases hu with
    | answering handled => exact .offered handled answers
  | @hears k d packet known stage accepted =>
    refine h.goes known (by rw [stage]; rfl) (turns_of_sessions rfl) rfl rfl (fun _ => rfl)
      (fun hr => by rw [hr, Bool.true_or]) ?_ fun item _ hu => ?_
    · cases accepted with
      | true => rfl
      | false => exact (List.append_nil _).symm
    · rw [stage] at hu
      cases hu with
      | offered handled answers =>
        refine .finishing (.answered handled answers fun hq => ?_)
        rw [Bool.or_eq_false_iff, Bool.or_eq_false_iff, Bool.not_eq_false'] at hq
        exact hq.2.2
  | finishes a known stage turns =>
    refine h.goesOn known (by rw [stage]; rfl) turns rfl rfl (fun ho => by cases ho)
      fun item hu => ?_
    rw [stage] at hu
    cases hu with
    | finishing complete => exact .ended complete

theorem step (h : Ordered i t) (hs : Step i t t') : Ordered i t' :=
  h.change (hs.change h.known h.home)

end Ordered

theorem Reachable.ordered (h : Reachable i t) : Ordered i t := by
  obtain ⟨a, known, new, hs⟩ := h
  induction hs with
  | refl => exact ordered_fresh known new
  | tail _ hs ih => exact ih.step hs

/-! ## What it comes to -/

/-- An item of a delivery that the link has answered, if it had to. -/
def settledRequest (t : Dispatching) (x : Nat × CallbackQueue.Item) : Bool :=
  match x.2 with
  | .request _ _ => (t.deliveries x.1).any (·.stage.settled)
  | _ => false

/-- The packet answers the request under its number, and has the outcome that the request has
earned: it succeeded just when it was decoded and its handler returned. -/
def Replies (t : Dispatching) (x : Nat × CallbackQueue.Item) (packet : Bytes) : Prop :=
  ∃ n e deeds outcome number session last, x.2 = .request n e ∧
    packet = Packet.encode (.callbackResponse n outcome) number session last ∧
    t.deeds x.1 = deeds ++ [.answered packet true] ∧ Delivery.Earns e deeds outcome ∧
    (outcome = .succeeded ↔ ∃ family c, Callback.decode e family = .ok c ∧
      deeds = [.read family, .observed c, .called c, .returned .returned])

/-- What becomes of the callbacks that are pushed to a session. -/
structure Delivered (i : Nat) (t : Dispatching) : Prop where
  /-- None is lost, repeated or overtaken. -/
  arrival : t.handed.map Prod.snd ++ (t.queue i).items = t.pushed
  /-- A delivery has one item. -/
  once : (t.handed.map Prod.fst).Nodup
  /-- Each item takes its course: the standing moves on, then the handler is called, once; or it
  cannot be read, and neither happens. -/
  courses : ∀ k item, (k, item) ∈ t.handed → ∃ d, t.deliveries k = some d ∧
    Delivery.Underway (t.silenced i) item d.stage (t.deeds k)
  /-- Nothing happens without an item. -/
  idle : ∀ k, k ∉ t.handed.map Prod.fst → t.deeds k = []
  /-- One item at a time is out. -/
  single : ∀ j k d e, t.deliveries j = some d → t.deliveries k = some e → d.stage.out = true →
    e.stage.out = true → j = k
  /-- The standing moves on with the item, and stays as it is at any other step of a delivery. -/
  standing : ∀ k d, t.deliveries k = some d → (d.step t.ambassador).2.standing =
    match d.stage with
    | .observing _ c => t.ambassador.standing.observe c.kind
    | _ => t.ambassador.standing
  /-- Unless the session is lost or the link has refused an answer, the answers are those to the
  requests, one each, in their order. -/
  answers : t.silenced i = false →
    List.Forall₂ t.Replies (t.handed.filter t.settledRequest) t.answers

theorem forall₂_flatMap {α β : Type} {R : α → β → Prop} {p : α → Bool} {f : α → List β}
    {l : List α} (hit : ∀ x ∈ l, p x = true → ∃ y, f x = [y] ∧ R x y)
    (miss : ∀ x ∈ l, p x = false → f x = []) : List.Forall₂ R (l.filter p) (l.flatMap f) := by
  induction l with
  | nil => exact .nil
  | cons x l ih =>
    have rest := ih (fun y hy => hit y (List.mem_cons_of_mem _ hy))
      fun y hy => miss y (List.mem_cons_of_mem _ hy)
    cases hp : p x with
    | true =>
      obtain ⟨y, hy, hr⟩ := hit x List.mem_cons_self hp
      rw [List.filter_cons_of_pos hp, List.flatMap_cons, hy]
      exact .cons hr rest
    | false =>
      rw [List.filter_cons_of_neg (by rw [hp]; simp), List.flatMap_cons,
        miss x List.mem_cons_self hp]
      exact rest

/-- A request that is settled has its answer, if nothing has silenced the session. -/
theorem replies_of_complete {k : Nat} {n : UInt32} {e : Envelope} {deeds : List Delivery.Deed}
    (h : Delivery.Complete false (.request n e) deeds) (hk : t.deeds k = deeds) :
    ∃ packet, Delivery.accepted deeds = [packet] ∧ t.Replies (k, .request n e) packet := by
  cases h with
  | notice handled => cases handled with | callback reads => cases reads
  | @answered m fault deeds packet accepted handled answers heard =>
    obtain rfl := heard rfl
    obtain rfl : m = n := by
      cases handled with
      | callback reads => cases reads; rfl
      | undecodable => rfl
    obtain ⟨outcome, number, session, last, earns, sent⟩ := handled.earns answers
    refine ⟨packet, ?_, m, e, deeds, outcome, number, session, last, rfl, sent, hk, earns,
      earns.succeeded_iff⟩
    rw [Delivery.accepted_append, handled.accepted]
    rfl
  | silent handled lost => cases lost

/-- A notice is never answered. -/
theorem accepted_of_notice {silenced : Bool} {reason : String} {deeds : List Delivery.Deed}
    (h : Delivery.Complete silenced (.lost reason) deeds) : Delivery.accepted deeds = [] := by
  cases h with
  | notice handled => exact handled.accepted
  | answered handled => cases handled with | callback reads => cases reads
  | silent handled => cases handled with | callback reads => cases reads

/-- **Callbacks are delivered in the order of their arrival, each once, and each request is answered
once, in every order of steps.** -/
theorem Reachable.delivered (h : Reachable i t) : Delivered i t := by
  have ho := h.ordered
  exact {
    arrival := ho.arrival
    once := ho.once
    courses := fun k item hm => by
      obtain ⟨d, hd, -, hu⟩ := ho.taken k item hm
      exact ⟨d, hd, hu⟩
    idle := fun k hk => (ho.untaken k hk).1
    single := fun j k d e hd he hdo heo => ho.eq_of_out hd he hdo heo
    standing := fun k d _ => d.standing_step t.ambassador
    answers := fun loud => by
      rw [ho.answers]
      refine forall₂_flatMap (fun x hx hp => ?_) fun x hx hp => ?_
      · obtain ⟨k, item⟩ := x
        obtain ⟨d, hd, -, hu⟩ := ho.taken k item hx
        rw [loud] at hu
        cases item with
        | request n e =>
          have hs : d.stage.settled = true := by simpa [settledRequest, hd] using hp
          generalize hdeeds : t.deeds k = deeds at hu
          generalize d.stage = s at hu hs
          cases hu with
          | finishing complete | ended complete => exact replies_of_complete complete hdeeds
          | _ => cases hs
        | lost reason | stop => cases hp
      · obtain ⟨k, item⟩ := x
        obtain ⟨d, hd, ordinary, hu⟩ := ho.taken k item hx
        cases hs : d.stage.settled with
        | false => exact hu.accepted_of_unsettled hs
        | true =>
          cases item with
          | request n e => simp [settledRequest, hd, hs] at hp
          | lost reason =>
            show Delivery.accepted (t.deeds k) = []
            generalize t.deeds k = deeds at hu
            generalize d.stage = s at hu hs
            cases hu with
            | finishing complete | ended complete => exact accepted_of_notice complete
            | _ => cases hs
          | stop => cases ordinary }

/-- A callback and one that cannot be read arrive; both are delivered on the federate's thread. -/
theorem reachable_two_delivered : ∃ t, Reachable 0 t ∧ t.silenced 0 = false ∧
    t.handed = [(0, .request 5 ⟨21, []⟩), (1, .request 6 ⟨999, []⟩)] ∧ t.answers.length = 2 := by
  have arrived := Relation.ReflTransGen.single
    (Step.push (i := 0) (t := fresh { Ambassador.fresh .standard with
      sessions := [.fresh ⟨none, none, .zero, none, ""⟩ .zero] }) (.request 5 ⟨21, []⟩) rfl)
  have both := arrived.tail (.push (.request 6 ⟨999, []⟩) rfl)
  have begun := both.tail (.begin (k := 0) .application rfl)
  have taken := begun.tail (.deliver (k := 0) rfl)
  have read := taken.tail (.deliver (k := 0) rfl)
  have observed := read.tail (.deliver (k := 0) rfl)
  have called := observed.tail (.deliver (k := 0) rfl)
  have returned := called.tail (.returns (k := 0) rfl .returned)
  have left := returned.tail (.deliver (k := 0) rfl)
  have counted := left.tail (.deliver (k := 0) rfl)
  have offered := counted.tail (.deliver (k := 0) rfl)
  have heard := offered.tail (.verdict (k := 0) rfl true)
  have ended := heard.tail (.deliver (k := 0) rfl)
  have begun := ended.tail (.begin (k := 1) .application rfl)
  have taken := begun.tail (.deliver (k := 1) rfl)
  have read := taken.tail (.deliver (k := 1) rfl)
  have counted := read.tail (.deliver (k := 1) rfl)
  have offered := counted.tail (.deliver (k := 1) rfl)
  have heard := offered.tail (.verdict (k := 1) rfl true)
  refine ⟨_, ⟨_, by decide, rfl, heard⟩, ?_, ?_, ?_⟩ <;> decide +kernel

theorem delivered_of_two : ∃ t, Reachable 0 t ∧ t.silenced 0 = false ∧
    t.handed = [(0, .request 5 ⟨21, []⟩), (1, .request 6 ⟨999, []⟩)] ∧ t.answers.length = 2 ∧
    Delivered 0 t := by
  obtain ⟨t, ht, hq, hhanded, hlen⟩ := reachable_two_delivered
  exact ⟨t, ht, hq, hhanded, hlen, ht.delivered⟩

end Federate.Dispatching
