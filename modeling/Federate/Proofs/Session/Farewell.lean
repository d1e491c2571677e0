/-
The farewell of a session. Its queue gets one notice that the session is lost,
if it is struck while the federate is not ending it, and if the federate does
not begin to end it before the loss looks. If anybody but the reader lost the
session, or the link was cut, nothing is queued after that. But the reader goes
on when the coordinator has ended the session, and queues the callbacks that
came behind (`Reachable.parted`): a federate may be told to save after it was
told that its session is lost (`save_after_notice`).
-/
import Mathlib.Data.List.TakeWhile
import Federate.Proofs.Session.Manning
namespace Federate

open Function (update)

/-! ## The notice, and what is pushed after it -/

def CallbackQueue.Item.isLost : CallbackQueue.Item → Bool
  | .lost _ => true
  | _ => false

def CallbackQueue.Item.isRequest : CallbackQueue.Item → Bool
  | .request _ _ => true
  | _ => false

namespace Parting

variable {i : Nat} {t t' : Parting} {lost : Bool} {link : Loopback} {reader : Reading}
  {losses : Nat → Option Loss} {j : Nat} {l : Loss}

/-- The notices in a queue's history. -/
def notices (items : List CallbackQueue.Item) : List CallbackQueue.Item := items.filter (·.isLost)

/-- What came after the first notice. -/
def afterNotice (items : List CallbackQueue.Item) : List CallbackQueue.Item :=
  (items.dropWhile (!·.isLost)).tail

section

variable {pushed more waiting waiting' left : List CallbackQueue.Item}

theorem notices_append (ordinary : ∀ x ∈ more, x.isLost = false) :
    notices (pushed ++ more) = notices pushed := by
  have none : more.filter (·.isLost) = [] := List.filter_eq_nil_iff.mpr (by simpa using ordinary)
  rw [notices, List.filter_append, none, List.append_nil, notices]

theorem dropWhile_eq_nil_iff : pushed.dropWhile (!·.isLost) = [] ↔ notices pushed = [] := by
  rw [List.dropWhile_eq_nil_iff, notices, List.filter_eq_nil_iff]
  simp

theorem afterNotice_append (told : notices pushed ≠ []) :
    afterNotice (pushed ++ more) = afterNotice pushed ++ more := by
  have h : pushed.dropWhile (!·.isLost) ≠ [] := fun h => told (dropWhile_eq_nil_iff.mp h)
  rw [afterNotice, List.dropWhile_append, if_neg (by simpa using h), afterNotice,
    List.tail_append_of_ne_nil h]

/-- When the first notice is pushed, nothing has come after it. -/
theorem afterNotice_notice (untold : notices pushed = []) (reason : String) :
    afterNotice (pushed ++ [.lost reason]) = [] := by
  rw [afterNotice, List.dropWhile_append, if_pos (by simp [dropWhile_eq_nil_iff.mpr untold])]
  rfl

/-- Which notices have been pushed, and what came after them. -/
structure Noticed (losses : Nat → Option Loss) (pushed waiting left : List CallbackQueue.Item) :
    Prop where
  untold : (∀ j l, losses j = some l → l.told = false) → notices pushed = [] ∧ left = []
  told : ∀ j l, losses j = some l → l.told = true → notices pushed = [.lost l.reason] ∧
    (afterNotice pushed).filter (·.isRequest) ++ waiting = left ∧
    (left ≠ [] → l.reason = Presence.terminated)

namespace Noticed

/-- Items that are no notice are pushed, and the reader takes up what it pushes. -/
theorem pushes (h : Noticed losses pushed waiting left) (ordinary : ∀ x ∈ more, x.isLost = false)
    (taken : ∀ j l, losses j = some l → l.told = true →
      more.filter (·.isRequest) ++ waiting' = waiting) :
    Noticed losses (pushed ++ more) waiting' left where
  untold none := by
    rw [notices_append ordinary]
    exact h.untold none
  told j l hl ht := by
    obtain ⟨notice, after, reason⟩ := h.told j l hl ht
    rw [notices_append ordinary, afterNotice_append (by rw [notice]; nofun), List.filter_append,
      List.append_assoc, taken j l hl ht]
    exact ⟨notice, after, reason⟩

/-- The rows of losses that have not pushed the notice may change. -/
theorem rows {losses' : Nat → Option Loss} (h : Noticed losses pushed waiting left)
    (same : ∀ j l, l.told = true → (losses' j = some l ↔ losses j = some l)) :
    Noticed losses' pushed waiting left where
  untold none := h.untold fun j l hl => by
    cases ht : l.told with
    | false => rfl
    | true => exact ht.symm.trans (none j l ((same j l ht).mpr hl))
  told j l hl ht := h.told j l ((same j l ht).mp hl) ht

/-- A loss begins. -/
theorem begins {reason : String} (h : Noticed losses pushed waiting left)
    (new : losses j = none) :
    Noticed (update losses j (some (.fresh reason))) pushed waiting left :=
  h.rows fun k m hm => by
    constructor
    · intro hk
      rcases of_update hk with ⟨-, rfl⟩ | ⟨-, hk⟩
      · cases hm
      · exact hk
    · exact update_of_new new

/-- The reader has other callbacks to take up, unless the notice has been pushed. -/
theorem rewaits (h : Noticed losses pushed waiting left)
    (same : ∀ j l, losses j = some l → l.told = true → waiting' = waiting) :
    Noticed losses pushed waiting' left := by
  have : Noticed losses (pushed ++ []) waiting' left := h.pushes nofun same
  rwa [List.append_nil] at this

/-- The notice is pushed. -/
theorem tells (h : Noticed losses pushed waiting left) (hm : Manned lost link reader losses)
    (known : losses j = some l) (stage : l.stage = .telling)
    (reason : waiting ≠ [] → l.reason = Presence.terminated) :
    Noticed (update losses j (some (l.goTo .ended))) (pushed ++ [.lost l.reason]) waiting
      waiting := by
  obtain ⟨effects, hl⟩ := hm.losing
  -- The loss at hand has won, so no other has pushed a notice.
  have only : ∀ k m, losses k = some m → m.stage.won = true → k = j := fun k m hk hw =>
    hl.one k j m l hk known hw (by rw [stage]; rfl)
  have untold : notices pushed = [] := by
    refine (h.untold fun k m hk => ?_).1
    cases ht : m.told with
    | false => rfl
    | true =>
      obtain rfl := only k m hk (Loss.won_of_told ht)
      rw [known] at hk
      cases hk
      rw [Loss.told, stage] at ht
      cases ht
  exact {
    untold := fun none => by
      have := none j _ (Function.update_self ..)
      rw [Loss.told, Loss.goTo, hl.unclosed j l known (.inr stage)] at this
      cases this
    told := fun k m hk ht => by
      rcases of_update hk with ⟨-, rfl⟩ | ⟨hne, hk⟩
      · refine ⟨?_, by rw [afterNotice_notice untold]; rfl, reason⟩
        show (pushed ++ _).filter _ = _
        rw [List.filter_append, show pushed.filter _ = [] from untold]
        rfl
      · exact absurd (only k m hk (Loss.won_of_told ht)) hne }

/-- A loss goes on that does not push the notice. -/
theorem goes {p : Presence} (h : Noticed losses pushed waiting left) (known : losses j = some l)
    (silent : l.stage ≠ .telling) :
    Noticed (update losses j (some (l.step p).1)) pushed waiting left :=
  h.rows fun k m hm => by
    obtain ⟨before, after⟩ := l.step_of_told (p := p) silent
    constructor
    · intro hk
      rcases of_update hk with ⟨rfl, rfl⟩ | ⟨-, hk⟩
      · rw [after hm, known]
      · exact hk
    · intro hk
      by_cases hkj : k = j
      · subst hkj
        rw [known] at hk
        cases hk
        rw [Function.update_self, before hm]
      · rw [Function.update_of_ne hkj, hk]

end Noticed

end

theorem request?_of_decodes {bs : Bytes} {packet : Packet} (h : Packet.decode bs = .ok packet) :
    Packet.request? bs = packet.item? := by
  rw [Packet.request?, h]

theorem ordinary_item (packet : Packet) :
    (∀ x ∈ packet.item?.toList, x.isLost = false) ∧
      packet.item?.toList.filter (·.isRequest) = packet.item?.toList := by
  unfold Packet.item?
  cases packet.message with
  | callbackRequest e => exact ⟨by simp [CallbackQueue.Item.isLost], rfl⟩
  | _ => exact ⟨nofun, rfl⟩

/-- The reader takes up a packet, and with it the callback that is in it, if there is one. -/
theorem waiting_of_read {bs : Bytes} (h : t.link.read = (some (.packet bs), link))
    (bounded : t.link.Bounded) :
    (Packet.request? bs).toList ++ link.unread.filterMap Packet.request? = t.waiting := by
  obtain ⟨-, -, unread, -⟩ := Loopback.of_read_packet h bounded
  rw [waiting, unread, List.filterMap_cons]
  cases Packet.request? bs <;> rfl

namespace Noticed

theorem step (h : Noticed t.losses t.pushed t.waiting t.left)
    (hm : Manned t.session.lost t.link t.reader t.losses) (hs : Step i t t') :
    Noticed t'.losses t'.pushed t'.waiting t'.left := by
  -- Once the notice has been pushed, the link is closed, and nothing comes to what waits.
  have closed : ∀ j l, t.losses j = some l → l.told = true → t.link.closed = true :=
    fun j l hl ht => hm.shut j l hl (Loss.shut_of_told ht)
  have offered (x : Loopback.Item) : ∀ j l, t.losses j = some l → l.told = true →
      (t.link.offer x).unread.filterMap Packet.request? = t.waiting := fun j l hl ht => by
    rw [Loopback.unread_offer x (closed j l hl ht) hm.bounded, waiting]
  cases hs with
  | arrives sent =>
    rw [Loopback.of_peerSend sent]
    exact h.rewaits (offered _)
  | cut reason =>
    refine h.rewaits fun j l hl ht => ?_
    show (t.link.sever reason).unread.filterMap Packet.request? = t.waiting
    unfold Loopback.sever
    split
    · rfl
    · exact offered _ j l hl ht
  | skips idle next decodes =>
    have := waiting_of_read next hm.bounded
    rw [Packet.request?, decodes] at this
    exact h.rewaits fun _ _ _ _ => this
  | @reads bs link packet now idle next decodes other goesOn =>
    obtain ⟨ordinary, requests⟩ := ordinary_item packet
    refine h.pushes ordinary fun _ _ _ _ => ?_
    rw [requests, ← request?_of_decodes decodes]
    exact waiting_of_read next hm.bounded
  | @isTold j bs link packet reason now idle next decodes ends new =>
    have := waiting_of_read next hm.bounded
    rw [request?_of_decodes decodes, Packet.item?, (Presence.of_loss ends).1] at this
    exact (h.rewaits fun _ _ _ _ => this).begins new
  | @isCut j link reason idle next new =>
    obtain ⟨before, after, -⟩ := Loopback.of_read_other next nofun hm.bounded
    refine Noticed.begins (h.rewaits fun _ _ _ _ => ?_) new
    show link.unread.filterMap Packet.request? = t.link.unread.filterMap Packet.request?
    rw [before, after]
  | @ends link idle next =>
    obtain ⟨before, after, -⟩ := Loopback.of_read_other next nofun hm.bounded
    refine h.rewaits fun _ _ _ _ => ?_
    show link.unread.filterMap Packet.request? = t.link.unread.filterMap Packet.request?
    rw [before, after]
  | hears now idle next decodes =>
    have := waiting_of_read next hm.bounded
    rw [request?_of_decodes decodes] at this
    exact h.rewaits fun _ _ _ _ => this
  | beginLoss reason new => exact h.begins new
  | @loss j l known joined =>
    by_cases stage : l.stage = .telling
    · have reason : t.waiting ≠ [] → l.reason = Presence.terminated := by
        intro some
        have reading : t.link.stage = .reading :=
          Loopback.reading_of_unread fun none => some (by rw [waiting, none]; rfl)
        rcases hm.joined j l known stage with busy | ⟨-, finished⟩
        · obtain ⟨m, hk, hr⟩ := hm.busy j busy
          rw [known] at hk
          cases hk
          exact hr reading
        · rw [reading] at finished
          cases finished
      have := h.tells hm known stage reason
      simpa only [noteLoss, linkAfter, Loss.step, stage, setLoss, waiting] using this
    · obtain ⟨pushed, left⟩ := t.noteLoss_silent stage
      show Noticed (update (t.noteLoss l).losses j _) (t.noteLoss l).pushed _ (t.noteLoss l).left
      rw [pushed, left, (t.noteLoss_keeps l).2]
      refine Noticed.goes (h.rewaits fun k m hk ht => ?_) known stage
      show (t.linkAfter l).unread.filterMap Packet.request? = t.waiting
      rw [t.linkAfter_of_closed l (closed k m hk ht), waiting]
  | stop => exact h.pushes (by simp [CallbackQueue.Item.isLost]) fun _ _ _ _ => rfl
  | _ => exact h

end Noticed

/-! ## Whether the federate was ending the session -/

/-- A federate that was ending the session when it was struck still is, and the loss sees it. -/
structure Struck (struck : Option Bool) (lost closing : Bool) (losses : Nat → Option Loss) :
    Prop where
  unstruck : struck = none → lost = false
  ending : struck = some true → closing = true ∧ ∀ j l, losses j = some l →
    l.stage.won = true → l.stage = .looking ∨ l.closing = true

namespace Struck

variable {struck : Option Bool} {closing : Bool}

theorem begins {reason : String} (h : Struck struck lost closing losses) :
    Struck struck lost closing (update losses j (some (.fresh reason))) where
  unstruck := h.unstruck
  ending hs := by
    refine ⟨(h.ending hs).1, fun k m hk hw => ?_⟩
    rcases of_update hk with ⟨-, rfl⟩ | ⟨-, hk⟩
    · cases hw
    · exact (h.ending hs).2 k m hk hw

/-- A step of a loss that has struck. -/
theorem goes {m : Loss} (h : Struck struck lost closing losses) (known : losses j = some l)
    (won : m.stage.won = true → l.stage.won = true)
    (sees : closing = true → l.stage = .looking ∨ l.closing = true →
      m.stage.won = true → m.stage = .looking ∨ m.closing = true) :
    Struck struck lost closing (update losses j (some m)) where
  unstruck := h.unstruck
  ending hs := by
    obtain ⟨hc, hl⟩ := h.ending hs
    refine ⟨hc, fun k n hk hw => ?_⟩
    rcases of_update hk with ⟨-, rfl⟩ | ⟨-, hk⟩
    · exact sees hc (hl j l known (won hw)) hw
    · exact hl k n hk hw

theorem step (h : Struck t.struck t.session.lost t.session.closing t.losses)
    (hm : Manned t.session.lost t.link t.reader t.losses) (hs : Step i t t') :
    Struck t'.struck t'.session.lost t'.session.closing t'.losses := by
  have same {p : Presence} (keeps : p.session.lost = t.session.lost ∧
      p.session.closing = t.session.closing) :
      Struck t.struck p.session.lost p.session.closing t.losses := by rwa [keeps.1, keeps.2]
  cases hs with
  | @reads bs link packet now idle next decodes other goesOn =>
    obtain ⟨-, lost, closing, -⟩ := t.presence.receive_other now other
    exact same ⟨lost, closing⟩
  | @isTold j bs link packet reason now idle next decodes ends new =>
    obtain ⟨-, lost, closing, -⟩ := t.presence.receive_other now (Presence.other_of_loss ends)
    exact (same ⟨lost, closing⟩).begins
  | isCut idle next new | beginLoss reason new => exact h.begins
  | @answer r busy => exact same ⟨(keeps_answer r _).lost, (keeps_answer r _).closing⟩
  | aside p keeps standing => exact same ⟨keeps.lost, keeps.closing⟩
  | close => exact ⟨h.unstruck, fun hs => ⟨rfl, (h.ending hs).2⟩⟩
  | @loss j l known joined =>
    have hg := l.goes t.presence
    show Struck (t.noteLoss l).struck (l.step t.presence).2.session.lost
      (l.step t.presence).2.session.closing (update (t.noteLoss l).losses j _)
    rw [(t.noteLoss_keeps l).2]
    generalize (l.step t.presence).1 = m, (l.step t.presence).2 = q at hg ⊢
    cases hg with
    | stays finished =>
      rw [t.noteLoss_struck (by rcases finished with h | h <;> rw [h] <;> nofun)]
      exact h.goes known id fun _ sees _ => sees
    | comesLate stage lost =>
      simp only [noteLoss, stage, show t.session.lost = true from lost, if_true]
      exact h.goes known nofun fun _ _ => nofun
    | strikes stage unlost =>
      -- Nobody has struck before, so only this loss has not looked.
      obtain ⟨effects, hl⟩ := hm.losing
      have unstruck : t.session.lost = false := unlost
      have nobody : ∀ k m, t.losses k = some m → m.stage.won = false := fun k m hk => by
        cases hw : m.stage.won with
        | false => rfl
        | true => exact absurd (hl.struck.mpr ⟨k, m, hk, hw⟩) (by rw [unstruck]; nofun)
      simp only [noteLoss, stage, unstruck, Bool.false_eq_true, if_false]
      exact {
        unstruck := nofun
        ending := fun hs => ⟨Option.some.inj hs, fun k m hk hw => by
          rcases of_update hk with ⟨-, rfl⟩ | ⟨-, hk⟩
          · exact .inl rfl
          · rw [nobody k m hk] at hw
            cases hw⟩ }
    | looks stage =>
      rw [t.noteLoss_struck (by rw [stage]; nofun)]
      exact h.goes known (fun _ => by rw [stage]; rfl) fun hc _ _ => .inr hc
    | works won looked before won' after keeps standing =>
      rw [t.noteLoss_struck (fun hs => by rw [hs] at won; cases won)]
      exact Struck.goes (same ⟨keeps.lost, keeps.closing⟩) known (fun _ => won) fun _ sees _ =>
        .inr (sees.resolve_left looked)
    | shuts stage | falls stage | tells stage =>
      rw [t.noteLoss_struck (by rw [stage]; nofun)]
      exact h.goes known (fun _ => by rw [stage]; rfl) fun _ sees _ =>
        .inr (sees.resolve_left (by rw [stage]; nofun))
  | _ => exact h

end Struck

/-! ## What was handed out, and what was done to the standing -/

/-- What was pushed has been handed out or waits, and the standing is what was done to it. -/
structure Recorded (pushed handed : List CallbackQueue.Item) (p : Presence)
    (history : List Event) : Prop where
  order : pushed = handed ++ p.session.queue.items
  standing : p.standing = Event.stand history

namespace Recorded

variable {pushed handed more : List CallbackQueue.Item} {p q : Presence} {history : List Event}

theorem keeps (h : Recorded pushed handed p history)
    (items : q.session.queue.items = p.session.queue.items) (standing : q.standing = p.standing) :
    Recorded pushed handed q history :=
  ⟨by rw [items, ← h.order], standing.trans h.standing⟩

theorem pushes (h : Recorded pushed handed p history)
    (items : q.session.queue.items = p.session.queue.items ++ more)
    (standing : q.standing = p.standing) : Recorded (pushed ++ more) handed q history :=
  ⟨by rw [items, ← List.append_assoc, ← h.order], standing.trans h.standing⟩

theorem moves {x : Option Event} (h : Recorded pushed handed p history)
    (items : q.session.queue.items = p.session.queue.items)
    (standing : q.standing = p.standing.afterEvent x) :
    Recorded pushed handed q (history ++ x.toList) := by
  refine ⟨by rw [items, ← h.order], ?_⟩
  rw [standing, h.standing]
  cases x with
  | none => rw [Option.toList_none, List.append_nil]; rfl
  | some x => rw [Option.toList_some, Event.stand_append_singleton]; rfl

theorem step (h : Recorded t.pushed t.handed t.presence t.history) (hs : Step i t t') :
    Recorded t'.pushed t'.handed t'.presence t'.history := by
  cases hs with
  | @reads bs link packet now idle next decodes other goesOn =>
    obtain ⟨items, -, -, standing⟩ := t.presence.receive_other now other
    exact h.pushes items standing
  | @isTold j bs link packet reason now idle next decodes ends new =>
    obtain ⟨message, -⟩ := Presence.of_loss ends
    obtain ⟨items, -, -, standing⟩ := t.presence.receive_other now (Presence.other_of_loss ends)
    rw [Packet.item?, message] at items
    exact h.keeps (items.trans (List.append_nil _)) standing
  | @answer r busy => exact h.moves (keeps_answer r _).items (r.standing_step i _)
  | @loss j l known joined =>
    have hg := l.goes t.presence
    show Recorded (t.noteLoss l).pushed (t.noteLoss l).handed (l.step t.presence).2
      (t.noteLoss l).history
    generalize (l.step t.presence).1 = m, (l.step t.presence).2 = q at hg ⊢
    cases hg with
    | stays finished =>
      have other : l.stage ≠ .striking ∧ l.stage ≠ .falling ∧ l.stage ≠ .telling := by
        rcases finished with hs | hs <;> rw [hs] <;> exact ⟨nofun, nofun, nofun⟩
      rw [t.noteLoss_eq other]
      exact h
    | comesLate stage lost =>
      have lost' : t.session.lost = true := lost
      simp only [noteLoss, stage, lost', if_true]
      exact h
    | strikes stage unlost =>
      have unlost' : t.session.lost = false := unlost
      simp only [noteLoss, stage, unlost', Bool.false_eq_true, if_false]
      exact h.keeps rfl rfl
    | looks stage =>
      rw [t.noteLoss_eq (by rw [stage]; exact ⟨nofun, nofun, nofun⟩)]
      exact h
    | works won _ before won' after keeps standing =>
      have other : l.stage ≠ .striking ∧ l.stage ≠ .falling ∧ l.stage ≠ .telling := by
        refine ⟨fun hs => ?_, fun hs => ?_, fun hs => ?_⟩
        · rw [hs] at won
          cases won
        · rw [hs] at before
          cases before
        · rw [hs] at before
          cases before
      rw [t.noteLoss_eq other]
      exact h.keeps keeps.items standing
    | shuts stage =>
      rw [t.noteLoss_eq (by rw [stage]; exact ⟨nofun, nofun, nofun⟩)]
      exact h.keeps rfl rfl
    | falls stage =>
      simp only [noteLoss, stage]
      exact h.moves (x := some .resets) rfl rfl
    | tells stage =>
      simp only [noteLoss, stage]
      exact h.pushes (CallbackQueue.items_push ..) rfl
  | @take item q next first =>
    refine ⟨?_, h.standing⟩
    show t.pushed = t.handed ++ [item] ++ q.items
    rw [List.append_assoc, List.singleton_append, ← first]
    exact h.order
  | stop => exact h.pushes (CallbackQueue.items_push ..) rfl
  | moves x => exact h.moves (x := some x) rfl rfl
  | aside p keeps standing => exact h.keeps keeps.items standing
  | _ => exact h.keeps rfl rfl

end Recorded

/-! ## What always holds -/

theorem Reachable.manned (h : Reachable i t) :
    Manned t.session.lost t.link t.reader t.losses := by
  obtain ⟨limits, now, past, hs⟩ := h
  induction hs with
  | refl => exact .start
  | tail _ hs ih => exact ih.step hs

theorem Reachable.noticed (h : Reachable i t) :
    Noticed t.losses t.pushed t.waiting t.left := by
  obtain ⟨limits, now, past, hs⟩ := h
  induction hs with
  | refl => exact ⟨fun _ => ⟨rfl, rfl⟩, fun _ _ h => by cases h⟩
  | tail before hs ih => exact ih.step (Reachable.manned ⟨limits, now, past, before⟩) hs

theorem Reachable.struck (h : Reachable i t) :
    Struck t.struck t.session.lost t.session.closing t.losses := by
  obtain ⟨limits, now, past, hs⟩ := h
  induction hs with
  | refl => exact ⟨fun _ => rfl, nofun⟩
  | tail before hs ih => exact ih.step (Reachable.manned ⟨limits, now, past, before⟩) hs

theorem Reachable.recorded (h : Reachable i t) :
    Recorded t.pushed t.handed t.presence t.history := by
  obtain ⟨limits, now, past, hs⟩ := h
  induction hs with
  | refl => exact ⟨rfl, rfl⟩
  | tail before hs ih => exact ih.step hs

/-- How a session parts with its federate. -/
structure Parted (i : Nat) (t : Parting) : Prop where
  /-- The queue gets one notice at most. -/
  once : (notices t.pushed).length ≤ 1
  /-- It gets none unless the session was struck while the federate was not ending it. -/
  unlost : t.struck ≠ some false → notices t.pushed = []
  /-- A loss that is over has pushed it, unless it saw that the federate was ending the session. -/
  told : ∀ j l, t.losses j = some l → l.stage = .ended →
    notices t.pushed = if l.closing then [] else [.lost l.reason]
  /-- Behind it come the callbacks that the reader had still to take up, and no others. -/
  later : notices t.pushed ≠ [] →
    (afterNotice t.pushed).filter (·.isRequest) ++ t.waiting = t.left
  /-- There were none of those, unless the coordinator ended the session. -/
  left : t.left ≠ [] → notices t.pushed = [.lost Presence.terminated]
  /-- All of it is handed out in this order. -/
  order : t.pushed = t.handed ++ t.session.queue.items
  standing : t.presence.standing = Event.stand t.history
  /-- Once the notice has been delivered, the standing is that of a federate without a connection,
  for as long as nothing makes anything of it. -/
  gone : ∀ past since, t.history = past ++ .observes i .connectionLost :: since →
    ((∀ later, later <+: since →
      Event.stand (past ++ .observes i .connectionLost :: later) = .idle) ↔
        ∀ x ∈ since, x.move.stirs = false)

/-- The standing after the notice has been delivered, and more has been done to it. -/
theorem stand_after_notice (past since : List Event) :
    (∀ later, later <+: since →
      Event.stand (past ++ .observes i .connectionLost :: later) = .idle) ↔
        ∀ x ∈ since, x.move.stirs = false := by
  have after (later : List Event) : Event.stand (past ++ .observes i .connectionLost :: later) =
      Standing.idle.run (later.map Event.move) := by
    rw [Event.stand_append]
    rfl
  have stirs : (∀ x ∈ since, x.move.stirs = false) ↔
      ∀ m ∈ since.map Event.move, m.stirs = false := by
    rw [List.forall_mem_map]
  rw [stirs, ← Standing.run_idle_iff]
  constructor
  · intro all ns hns
    obtain ⟨later, hlater, rfl⟩ := List.prefix_map_iff.mp hns
    rw [← after]
    exact all later hlater
  · intro all later hlater
    rw [after]
    exact all _ (hlater.map _)

/-- **How a session parts with its federate**: with one notice if it is lost, and the federate was
not ending it; and after that with the callbacks that the reader had still to take up. -/
theorem Reachable.parted (h : Reachable i t) : Parted i t := by
  have hn := h.noticed
  obtain ⟨effects, hl⟩ := h.manned.losing
  have one : ∀ j l k m, t.losses j = some l → t.losses k = some m → l.stage = .ended →
      m.told = true → k = j := fun j l k m hj hk ended ht =>
    hl.one k j m l hk hj (Loss.won_of_told ht) (by rw [ended]; rfl)
  have teller (h : ¬ (notices t.pushed = [] ∧ t.left = [])) :
      ∃ j l, t.losses j = some l ∧ l.told = true := by
    by_contra none
    refine h (hn.untold fun j l hl => ?_)
    cases ht : l.told with
    | false => rfl
    | true => exact absurd ⟨j, l, hl, ht⟩ none
  exact {
    once := by
      by_cases none : notices t.pushed = []
      · rw [none]
        exact Nat.zero_le _
      · obtain ⟨j, l, hj, ht⟩ := teller fun h => none h.1
        rw [(hn.told j l hj ht).1]
        rfl
    unlost := fun hs => by
      by_contra pushed
      obtain ⟨j, l, hj, ht⟩ := teller fun h => pushed h.1
      have won := Loss.won_of_told ht
      obtain ⟨ended, unclosed⟩ := Loss.told_iff.mp ht
      cases hc : t.struck with
      | none =>
        have lost := hl.struck.mpr ⟨j, l, hj, won⟩
        rw [h.struck.unstruck hc] at lost
        cases lost
      | some closing =>
        cases closing with
        | false => exact hs hc
        | true =>
          rcases (h.struck.ending hc).2 j l hj won with looking | closing
          · rw [ended] at looking
            cases looking
          · rw [unclosed] at closing
            cases closing
    told := fun j l hj ended => by
      cases hc : l.closing with
      | false => exact (hn.told j l hj (Loss.told_iff.mpr ⟨ended, hc⟩)).1
      | true =>
        by_contra pushed
        obtain ⟨k, m, hk, ht⟩ := teller fun h => pushed h.1
        obtain rfl := one j l k m hj hk ended ht
        rw [hj] at hk
        cases hk
        rw [(Loss.told_iff.mp ht).2] at hc
        cases hc
    later := fun pushed => by
      obtain ⟨j, l, hj, ht⟩ := teller fun h => pushed h.1
      exact (hn.told j l hj ht).2.1
    left := fun more => by
      obtain ⟨j, l, hj, ht⟩ := teller fun h => more h.2
      obtain ⟨notice, -, reason⟩ := hn.told j l hj ht
      rw [notice, reason more]
    order := h.recorded.order
    standing := h.recorded.standing
    gone := fun past since _ => stand_after_notice past since }

/-! ## Two ways of losing a session -/

/-- What asks a federate to save. -/
def saveEnvelope : Envelope := ⟨20, [0, 0, 0, 1, 111, 0]⟩

def savePacket : Packet := ⟨.ofBody .callbackRequest 2 77 0 8, .callbackRequest saveEnvelope⟩

def endPacket : Packet := ⟨.ofBody .terminateSession 1 77 0 0, .terminateSession⟩

def saveBytes : Bytes := Packet.encode (.callbackRequest saveEnvelope) 2 77 0

def endBytes : Bytes := Packet.encode .terminateSession 1 77 0

theorem decode_saveBytes : Packet.decode saveBytes = .ok savePacket := by decide

theorem decode_endBytes : Packet.decode endBytes = .ok endPacket := by decide

/-- A session that has just been opened, when the federate has connected. -/
def opened : Parting := fresh ⟨none, none, .zero, none, ""⟩ .zero [.connects 0]

theorem step_done :
    Step i t { t with presence := t.presence.onSession (·.onQueue (·.done)) } :=
  .aside _ ⟨rfl, rfl, rfl⟩ rfl

/-- A caller loses the session while a callback is on its way: the reader queues that before the
caller pushes the notice. -/
theorem parted_of_lapse : ∃ t, Reachable 0 t ∧
    t.pushed = [.request 2 saveEnvelope, .lost "no response"] ∧ Parted 0 t := by
  have begun := Relation.ReflTransGen.single
    (Step.beginLoss (i := 0) (t := opened) (j := 0) "no response" rfl)
  have arrived := begun.tail (.arrives (b := saveBytes) rfl)
  have struck := arrived.tail (.loss (j := 0) rfl nofun)
  have looked := struck.tail (.loss (j := 0) rfl nofun)
  have drained := looked.tail (.loss (j := 0) rfl nofun)
  have woken := drained.tail (.loss (j := 0) rfl nofun)
  have shaken := woken.tail (.loss (j := 0) rfl nofun)
  have noted := shaken.tail (.loss (j := 0) rfl nofun)
  have shut := noted.tail (.loss (j := 0) rfl nofun)
  have read := shut.tail (.reads (b := saveBytes) .zero rfl rfl decode_saveBytes nofun rfl)
  have finished := read.tail (.ends rfl rfl)
  have fallen := finished.tail (.loss (j := 0) rfl fun _ => .inr ⟨rfl, rfl⟩)
  have told := fallen.tail (.loss (j := 0) rfl nofun)
  exact ⟨_, ⟨_, _, _, told⟩, rfl, Reachable.parted ⟨_, _, _, told⟩⟩

/-- The coordinator ends the session, and asks the federate to save: the reader loses the session,
and then queues what came behind. The federate is told to save after it was told that the session
is lost. -/
theorem save_after_notice : ∃ t, Reachable 0 t ∧
    t.handed = [.lost Presence.terminated, .request 2 saveEnvelope] ∧
    t.presence.standing = { Standing.idle with save := .inProgress } := by
  have arrived := Relation.ReflTransGen.single
    (Step.arrives (i := 0) (t := opened) (b := endBytes) rfl)
  have more := arrived.tail (.arrives (b := saveBytes) rfl)
  have told := more.tail (.isTold (j := 0) (b := endBytes) .zero rfl rfl decode_endBytes rfl rfl)
  have struck := told.tail (.loss (j := 0) rfl nofun)
  have looked := struck.tail (.loss (j := 0) rfl nofun)
  have drained := looked.tail (.loss (j := 0) rfl nofun)
  have woken := drained.tail (.loss (j := 0) rfl nofun)
  have shaken := woken.tail (.loss (j := 0) rfl nofun)
  have noted := shaken.tail (.loss (j := 0) rfl nofun)
  have shut := noted.tail (.loss (j := 0) rfl nofun)
  have fallen := shut.tail (.loss (j := 0) rfl fun _ => .inl rfl)
  have noticed := fallen.tail (.loss (j := 0) rfl nofun)
  have lost := noticed.tail (.hasLost (j := 0) rfl rfl (.inr rfl))
  have read := lost.tail (.reads (b := saveBytes) .zero rfl rfl decode_saveBytes nofun rfl)
  have first := read.tail (.take rfl rfl)
  have observed := first.tail (.moves (.observes 0 .connectionLost))
  have done := observed.tail step_done
  have second := done.tail (.take rfl rfl)
  have saves := second.tail (.moves (.observes 0 .initiateFederateSave))
  exact ⟨_, ⟨_, _, _, saves⟩, rfl, rfl⟩

end Parting

end Federate
