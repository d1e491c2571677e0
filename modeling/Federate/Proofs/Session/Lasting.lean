/-
What lasts of a session on its way to its end. A loss that has begun goes on as
it must; what was pushed stays pushed; the callbacks that came are those that
were pushed and those that wait for the reader, as long as no more come. A loss
that looks once the federate is ending the session leaves the queue without a
notice.
-/
import Federate.Proofs.Session.Farewell
namespace Federate

open Function (update update_self update_of_ne)

/-- The loss has seen that the federate is ending the session, if it has looked. -/
def Loss.Sees (l : Loss) : Prop := l.stage.won = true → l.stage = .looking ∨ l.closing = true

/-- The loss is over, or has found that another came first. -/
def Loss.Over (l : Loss) : Prop := l.stage = .late ∨ l.stage = .ended

theorem Loss.step_over {l : Loss} (finished : l.Over) (p : Presence) : (l.step p).1 = l := by
  rcases finished with late | ended
  · simp only [step, late]
  · simp only [step, ended]

/-- A loss looks once the federate is ending the session, and sees it. -/
theorem Loss.Sees.step {l : Loss} (h : l.Sees) {p : Presence} (closing : p.session.closing = true) :
    (l.step p).1.Sees := by
  have goes := l.goes p
  generalize (l.step p).1 = m, (l.step p).2 = q at goes
  cases goes with
  | stays => exact h
  | comesLate => exact nofun
  | strikes => exact fun _ => .inl rfl
  | looks => exact fun _ => .inr closing
  | works won looked => exact fun _ => .inr ((h won).resolve_left looked)
  | shuts stage | falls stage | tells stage =>
    exact fun _ => .inr ((h (by rw [stage]; rfl)).resolve_left (by rw [stage]; nofun))

namespace Parting

variable {i j : Nat} {t t' : Parting} {l : Loss}

theorem Step.refl : Step i t t := .aside t.presence (.refl _) rfl

/-- A loss that has begun goes on, or stays as it is. -/
theorem Step.row (hs : Step i t t') (known : t.losses j = some l) :
    t'.losses j = some l ∨ t'.losses j = some (l.step t.presence).1 := by
  cases hs with
  | isTold now idle next decodes ends new => exact .inl (update_of_new new known)
  | isCut idle next new | beginLoss reason new => exact .inl (update_of_new new known)
  | @loss k m hk joined =>
    show update (t.noteLoss m).losses k _ j = _ ∨ update (t.noteLoss m).losses k _ j = _
    rw [(t.noteLoss_keeps m).2]
    by_cases hj : j = k
    · subst hj
      rw [known] at hk
      cases hk
      exact .inr (update_self ..)
    · rw [update_of_ne hj]
      exact .inl known
  | _ => exact .inl known

/-- Whoever is ending the session does not think better of it. -/
theorem Step.closing (hs : Step i t t') (closing : t.session.closing = true) :
    t'.session.closing = true := by
  cases hs with
  | @reads b link packet now idle next decodes other goesOn =>
    exact (t.presence.receive_other now other).2.2.1.trans closing
  | @isTold k b link packet reason now idle next decodes ends new =>
    have other := Presence.other_of_loss ends
    exact (t.presence.receive_other now other).2.2.1.trans closing
  | @answer r busy => exact (keeps_answer r t.presence).closing.trans closing
  | close => rfl
  | @loss k m hk joined =>
    have goes := m.goes t.presence
    show (m.step t.presence).2.session.closing = true
    generalize (m.step t.presence).1 = n, (m.step t.presence).2 = q at goes ⊢
    cases goes with
    | works won looked before won' after keeps => exact keeps.closing.trans closing
    | _ => exact closing
  | aside p keeps => exact keeps.closing.trans closing
  | _ => exact closing

theorem Step.clear (hs : Step i t t') (clear : t.link.Clear) : t'.link.Clear := by
  cases hs with
  | arrives sent =>
    rw [Loopback.of_peerSend sent]
    exact clear.offer
  | cut reason => exact clear.sever reason
  | skips idle next | reads now idle next | isTold now idle next | isCut idle next
  | ends idle next | hears now idle next => exact clear.read next
  | @loss k m hk joined =>
    show (t.linkAfter m).Clear
    unfold linkAfter
    split
    · exact clear.close
    · exact clear
  | _ => exact clear

/-- What was pushed stays pushed. -/
theorem Step.pushed (hs : Step i t t') : ∃ more, t'.pushed = t.pushed ++ more := by
  cases hs with
  | reads now idle next | stop => exact ⟨_, rfl⟩
  | @loss k m hk joined =>
    show ∃ more, (t.noteLoss m).pushed = _
    by_cases telling : m.stage = .telling
    · simp only [noteLoss, telling]
      exact ⟨_, rfl⟩
    · exact ⟨[], by rw [(t.noteLoss_silent telling).1, List.append_nil]⟩
  | _ => exact ⟨[], (List.append_nil _).symm⟩

/-- A loss pushes no callbacks. -/
theorem requests_noteLoss (t : Parting) (l : Loss) :
    (t.noteLoss l).pushed.filter (·.isRequest) = t.pushed.filter (·.isRequest) := by
  by_cases telling : l.stage = .telling
  · simp only [noteLoss, telling, List.filter_append]
    exact List.append_nil _
  · rw [(t.noteLoss_silent telling).1]

/-- The reader pushes the callbacks that it takes up, and nobody else pushes any. -/
theorem Step.requests (hs : Step i t t') (bounded : t.link.Bounded)
    (unread : t'.link.unread <:+ t.link.unread) :
    t'.pushed.filter (·.isRequest) ++ t'.waiting =
      t.pushed.filter (·.isRequest) ++ t.waiting := by
  cases hs with
  | @arrives b link sent =>
    have link_eq := Loopback.of_peerSend sent
    have same : t.link.unread = link.unread := by
      rw [link_eq]
      refine (t.link.unread_prefix_offer _).eq_of_length_le ?_
      rw [← link_eq]
      exact unread.length_le
    show _ ++ link.unread.filterMap Packet.request? = _
    rw [← same, waiting]
  | cut reason =>
    show _ ++ (t.link.sever reason).unread.filterMap Packet.request? = _
    rw [Loopback.unread_sever, waiting]
  | skips idle next decodes =>
    have := waiting_of_read next bounded
    rw [Packet.request?, decodes] at this
    exact congrArg (_ ++ ·) this
  | @reads b link packet now idle next decodes other goesOn =>
    show (t.pushed ++ packet.item?.toList).filter _ ++ link.unread.filterMap Packet.request? = _
    rw [← waiting_of_read next bounded, request?_of_decodes decodes, List.filter_append,
      (ordinary_item packet).2, List.append_assoc]
  | @isTold k b link packet reason now idle next decodes ends new =>
    have := waiting_of_read next bounded
    rw [request?_of_decodes decodes, Packet.item?, (Presence.of_loss ends).1] at this
    exact congrArg (_ ++ ·) this
  | @isCut k link reason idle next new =>
    obtain ⟨before, after, -⟩ := Loopback.of_read_other next (by rintro b ⟨⟩) bounded
    show _ ++ link.unread.filterMap Packet.request? = _
    rw [after, waiting, before]
    rfl
  | @ends link idle next =>
    obtain ⟨before, after, -⟩ := Loopback.of_read_other next (by rintro b ⟨⟩) bounded
    show _ ++ link.unread.filterMap Packet.request? = _
    rw [after, waiting, before]
  | hears now idle next decodes =>
    have := waiting_of_read next bounded
    rw [request?_of_decodes decodes] at this
    exact congrArg (_ ++ ·) this
  | @loss k m hk joined =>
    have same : (t.linkAfter m).unread = t.link.unread := by
      unfold linkAfter
      split
      · exact t.link.unread_close
      · rfl
    show (t.noteLoss m).pushed.filter _ ++ (t.linkAfter m).unread.filterMap Packet.request? = _
    rw [requests_noteLoss, same, waiting]
  | stop =>
    show (t.pushed ++ [CallbackQueue.Item.stop]).filter _ ++ t.waiting = _
    rw [List.filter_append]
    exact congrArg (· ++ t.waiting) (List.append_nil _)
  | _ => rfl

/-- A packet that the peer sends before the link is closed comes to what waits for the reader. -/
theorem waiting_peerSend {b : Bytes} {link : Loopback} (t : Parting)
    (sent : t.link.peerSend b = .ok link) (clear : t.link.Clear) (bounded : t.link.Bounded) :
    link.unread.filterMap Packet.request? =
      t.waiting ++ if t.link.closed then [] else (Packet.request? b).toList := by
  cases closed : t.link.closed with
  | true =>
    rw [Loopback.of_peerSend sent, Loopback.unread_offer _ closed bounded, if_pos rfl,
      List.append_nil, waiting]
  | false =>
    rw [clear.unread_peerSend closed sent, List.filterMap_append, List.filterMap_cons,
      List.filterMap_nil]
    cases Packet.request? b <;> rfl

/-- What waits for the reader are callbacks. -/
theorem requests_waiting (t : Parting) : t.waiting.filter (·.isRequest) = t.waiting := by
  rw [List.filter_eq_self]
  intro x hx
  obtain ⟨bs, -, hb⟩ := List.mem_filterMap.mp hx
  unfold Packet.request? Packet.item? at hb
  split at hb
  · split at hb <;> cases hb
    rfl
  · cases hb

/-- A loss that has won, and has seen that the federate was ending the session, leaves the queue
without a notice. -/
theorem Reachable.untold (h : Reachable i t) (known : t.losses j = some l)
    (ended : l.stage = .ended) (sees : l.Sees) : notices t.pushed = [] := by
  obtain ⟨effects, hl⟩ := h.manned.losing
  refine (h.noticed.untold fun k m hk => ?_).1
  cases told : m.told with
  | false => rfl
  | true =>
    have won : l.stage.won = true := by rw [ended]; rfl
    obtain rfl := hl.one k j m l hk known (Loss.won_of_told told) won
    rw [known] at hk
    cases hk
    have closing := (sees won).resolve_left (by rw [ended]; nofun)
    rw [(Loss.told_iff.mp told).2] at closing
    cases closing

/-- What is neither marker nor notice is a callback. -/
theorem requests_of {items : List CallbackQueue.Item} (unmarked : items.filter (·.isStop) = [])
    (untold : notices items = []) : items.filter (·.isRequest) = items := by
  rw [List.filter_eq_self]
  intro x hx
  have marker := List.filter_eq_nil_iff.mp unmarked x hx
  have notice := List.filter_eq_nil_iff.mp untold x hx
  cases x with
  | request => rfl
  | lost => exact absurd rfl notice
  | stop => exact absurd rfl marker

end Parting

end Federate
