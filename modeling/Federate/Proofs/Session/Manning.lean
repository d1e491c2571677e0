/-
Who mans a session that is on its way to its end: its reader, and those who lose
it. Whoever is about to push the notice is the reader itself, or has waited for
the reader to come to its end; by then the link is closed, and what the reader
has still to take up is settled.
-/
import Federate.Proofs.Session.Parting
namespace Federate

open Function (update)

namespace Parting

variable {i : Nat} {t t' : Parting} {lost : Bool} {link link' : Loopback} {reader reader' : Reading}
  {losses : Nat → Option Loss} {j : Nat} {l : Loss}

theorem noteLoss_keeps (t : Parting) (l : Loss) :
    (t.noteLoss l).reader = t.reader ∧ (t.noteLoss l).losses = t.losses := by
  unfold noteLoss
  split
  · split <;> exact ⟨rfl, rfl⟩
  all_goals exact ⟨rfl, rfl⟩

theorem noteLoss_silent (t : Parting) (silent : l.stage ≠ .telling) :
    (t.noteLoss l).pushed = t.pushed ∧ (t.noteLoss l).left = t.left := by
  unfold noteLoss
  split
  · split <;> exact ⟨rfl, rfl⟩
  · exact ⟨rfl, rfl⟩
  · next stage => exact absurd stage silent
  · exact ⟨rfl, rfl⟩

/-- The observer has nothing to note of most steps. -/
theorem noteLoss_eq (t : Parting)
    (other : l.stage ≠ .striking ∧ l.stage ≠ .falling ∧ l.stage ≠ .telling) : t.noteLoss l = t := by
  unfold noteLoss
  split
  · next hs => exact absurd hs other.1
  · next hs => exact absurd hs other.2.1
  · next hs => exact absurd hs other.2.2
  · rfl

theorem noteLoss_struck (t : Parting) (struck : l.stage ≠ .striking) :
    (t.noteLoss l).struck = t.struck := by
  unfold noteLoss
  split
  · next stage => exact absurd stage struck
  all_goals rfl

theorem linkAfter_of_closed (t : Parting) (l : Loss) (closed : t.link.closed = true) :
    t.linkAfter l = t.link := by
  unfold linkAfter
  split
  · rw [Loopback.close, if_pos closed]
  · rfl

/-- What always holds of the reader and the losses. -/
structure Manned (lost : Bool) (link : Loopback) (reader : Reading)
    (losses : Nat → Option Loss) : Prop where
  losing : ∃ effects, Traffic.Losing lost losses effects
  bounded : link.Bounded
  /-- The reader loses the session, and goes on, only if the coordinator has ended it. -/
  busy : ∀ j, reader = .losing j → ∃ l, losses j = some l ∧
    (link.stage = .reading → l.reason = Presence.terminated)
  shut : ∀ j l, losses j = some l → l.stage.shut = true → link.closed = true
  /-- Whoever is about to push the notice is the reader itself, or has waited for it. -/
  joined : ∀ j l, losses j = some l → l.stage = .telling →
    reader = .losing j ∨ reader = .idle ∧ link.stage = .ended

namespace Manned

theorem start : Manned false { Loopback.fresh with stage := .reading } .idle fun _ => none where
  losing := ⟨[], {
    struck := iff_of_false nofun fun ⟨_, _, h, _⟩ => by cases h
    one := fun _ _ _ _ h => by cases h
    did := fun _ _ h => by cases h
    untouched := fun _ => rfl
    unclosed := fun _ _ h => by cases h }⟩
  bounded := nofun
  busy _ h := by cases h
  shut _ _ h := by cases h
  joined _ _ h := by cases h

/-- While the reader takes something up, nobody is about to push the notice. -/
theorem not_telling (h : Manned lost link reader losses) (busy : ∀ j, reader ≠ .losing j)
    (reads : reader = .idle → link.stage ≠ .ended) (known : losses j = some l) :
    l.stage ≠ .telling := by
  intro stage
  rcases h.joined j l known stage with hj | ⟨idle, finished⟩
  · exact busy j hj
  · exact reads idle finished

/-- Something happens on the link. -/
theorem relink (h : Manned lost link reader losses) (bounded : link'.Bounded)
    (closed : link'.closed = link.closed) (stage : link'.stage = link.stage) :
    Manned lost link' reader losses where
  losing := h.losing
  bounded := bounded
  busy j hj := by rw [stage]; exact h.busy j hj
  shut j l hl hs := closed.trans (h.shut j l hl hs)
  joined j l hl hs := by rw [stage]; exact h.joined j l hl hs

/-- The reader finds that there is nothing to take up. -/
theorem ends (h : Manned lost link .idle losses) (bounded : link'.Bounded)
    (closed : link'.closed = link.closed) (finished : link.stage = .ended → link'.stage = .ended) :
    Manned lost link' .idle losses where
  losing := h.losing
  bounded := bounded
  busy _ hj := by cases hj
  shut j l hl hs := closed.trans (h.shut j l hl hs)
  joined j l hl hs := (h.joined j l hl hs).imp nofun fun ⟨_, ended⟩ => ⟨rfl, finished ended⟩

/-- The reader turns from something to something else, neither of which is losing the session. -/
theorem turns (h : Manned lost link reader losses) (busy : ∀ j, reader ≠ .losing j)
    (reads : reader = .idle → link.stage ≠ .ended) (busy' : ∀ j, reader' ≠ .losing j) :
    Manned lost link reader' losses where
  losing := h.losing
  bounded := h.bounded
  busy j hj := absurd hj (busy' j)
  shut := h.shut
  joined _ _ hl hs := absurd hs (h.not_telling busy reads hl)

/-- The reader has lost the session, or found it lost. -/
theorem rests (h : Manned lost link (.losing j) losses) (known : losses j = some l)
    (finished : l.stage = .late ∨ l.stage = .ended) : Manned lost link .idle losses where
  losing := h.losing
  bounded := h.bounded
  busy _ hj := by cases hj
  shut := h.shut
  joined k m hm hs := by
    rcases h.joined k m hm hs with hk | ⟨idle, -⟩
    · cases hk
      rw [known] at hm
      cases hm
      rw [hs] at finished
      rcases finished with finished | finished <;> cases finished
    · cases idle

/-- The reader has taken up that the session is at its end. -/
theorem loses {reason : String} (h : Manned lost link .idle losses)
    (reading : link.stage = .reading) (bounded : link'.Bounded)
    (closed : link'.closed = link.closed) (new : losses j = none)
    (terminated : link'.stage = .reading → reason = Presence.terminated) :
    Manned lost link' (.losing j) (update losses j (some (.fresh reason))) where
  losing := by
    obtain ⟨effects, hl⟩ := h.losing
    exact ⟨effects, hl.idle (fun m hm => by rw [new] at hm; cases hm) rfl⟩
  bounded := bounded
  busy k hk := by
    cases hk
    exact ⟨_, Function.update_self .., terminated⟩
  shut k m hm hs := by
    rcases of_update hm with ⟨-, rfl⟩ | ⟨-, hm⟩
    · cases hs
    · exact closed.trans (h.shut k m hm hs)
  joined k m hm hs := by
    rcases of_update hm with ⟨-, rfl⟩ | ⟨-, hm⟩
    · cases hs
    · exact absurd hs (h.not_telling nofun (fun _ => by rw [reading]; nofun) hm)

/-- Somebody else begins to lose the session. -/
theorem begins (h : Manned lost link reader losses) (reason : String) (new : losses j = none) :
    Manned lost link reader (update losses j (some (.fresh reason))) where
  losing := by
    obtain ⟨effects, hl⟩ := h.losing
    exact ⟨effects, hl.idle (fun m hm => by rw [new] at hm; cases hm) rfl⟩
  bounded := h.bounded
  busy k hk := by
    obtain ⟨m, hm, hr⟩ := h.busy k hk
    exact ⟨m, update_of_new new hm, hr⟩
  shut k m hm hs := by
    rcases of_update hm with ⟨-, rfl⟩ | ⟨-, hm⟩
    · cases hs
    · exact h.shut k m hm hs
  joined k m hm hs := by
    rcases of_update hm with ⟨-, rfl⟩ | ⟨-, hm⟩
    · cases hs
    · exact h.joined k m hm hs

/-- A loss goes on. -/
theorem goes {p : Presence} (h : Manned p.session.lost link reader losses)
    (known : losses j = some l) (bounded : link'.Bounded) (stage : link'.stage = link.stage)
    (closed : link.closed = true ∨ l.stage = .shutting → link'.closed = true)
    (joined : l.stage = .falling → reader = .losing j ∨ reader = .idle ∧ link.stage = .ended) :
    Manned (l.step p).2.session.lost link' reader (update losses j (some (l.step p).1)) where
  losing := by
    obtain ⟨effects, hl⟩ := h.losing
    exact hl.step known
  bounded := bounded
  busy k hk := by
    obtain ⟨m, hm, hr⟩ := h.busy k hk
    rw [stage]
    exact row_of_update (P := fun _ m => link.stage = .reading → m.reason = Presence.terminated)
      known (fun hr hs => (l.reason_step p).trans (hr hs)) ⟨m, hm, hr⟩
  shut k m hm hs := by
    rcases of_update hm with ⟨rfl, rfl⟩ | ⟨-, hm⟩
    · have hg := l.goes p
      generalize (l.step p).1 = m, (l.step p).2 = q at hg hs
      have before (now : l.stage.shut = true) : link'.closed = true :=
        closed (.inl (h.shut _ l known now))
      cases hg with
      | stays => exact before hs
      | comesLate | strikes | looks => cases hs
      | @works s q won _ _ won' after => exact absurd (after.symm.trans hs) nofun
      | shuts stage => exact closed (.inr stage)
      | falls stage | tells stage => exact before (by rw [stage]; rfl)
    · exact closed (.inl (h.shut k m hm hs))
  joined k m hm hs := by
    rw [stage]
    rcases of_update hm with ⟨rfl, rfl⟩ | ⟨-, hm⟩
    · have hg := l.goes p
      generalize (l.step p).1 = m, (l.step p).2 = q at hg hs
      cases hg with
      | stays => exact h.joined _ l known hs
      | comesLate | strikes | looks | tells => cases hs
      | works won _ _ won' after =>
        cases hs
        cases after
      | shuts stage =>
        simp only [Loss.goTo] at hs
        split at hs <;> cases hs
      | falls stage => exact joined stage
    · exact h.joined k m hm hs

/-- The link after a step of a loss. -/
theorem linkAfter (h : Manned lost t.link reader losses) (l : Loss) :
    (t.linkAfter l).Bounded ∧ (t.linkAfter l).stage = t.link.stage ∧
      (t.link.closed = true ∨ l.stage = .shutting → (t.linkAfter l).closed = true) := by
  unfold Parting.linkAfter
  split
  · exact ⟨h.bounded.close.1, Loopback.stage_close _, fun _ => h.bounded.close.2⟩
  · next hs => exact ⟨h.bounded, rfl, fun hc => hc.resolve_right hs⟩

theorem step (h : Manned t.session.lost t.link t.reader t.losses) (hs : Step i t t') :
    Manned t'.session.lost t'.link t'.reader t'.losses := by
  cases hs with
  | arrives sent =>
    rw [Loopback.of_peerSend sent]
    exact h.relink (h.bounded.offer _) (Loopback.closed_offer ..) (Loopback.stage_offer ..)
  | cut reason =>
    show Manned _ (t.link.sever reason) _ _
    unfold Loopback.sever
    split
    · exact h
    · exact h.relink (fun hc hs => h.bounded.offer _ hc hs) (Loopback.closed_offer ..)
        (Loopback.stage_offer ..)
  | skips idle next decodes =>
    obtain ⟨reading, reading', -, closed, bounded⟩ := Loopback.of_read_packet next h.bounded
    exact h.relink bounded closed (reading'.trans reading.symm)
  | @reads bs link packet now idle next decodes other goesOn =>
    obtain ⟨reading, reading', -, closed, bounded⟩ := Loopback.of_read_packet next h.bounded
    have lost : (t.presence.receive packet now).2.session.lost = t.session.lost :=
      (t.presence.receive_other now other).2.1
    show Manned (t.presence.receive packet now).2.session.lost _ _ _
    rw [lost]
    exact h.relink bounded closed (reading'.trans reading.symm)
  | @isTold j bs link packet reason now idle next decodes ends new =>
    obtain ⟨reading, reading', -, closed, bounded⟩ := Loopback.of_read_packet next h.bounded
    obtain ⟨-, rfl⟩ := Presence.of_loss ends
    have lost : (t.presence.receive packet now).2.session.lost = t.session.lost :=
      (t.presence.receive_other now (Presence.other_of_loss ends)).2.1
    show Manned (t.presence.receive packet now).2.session.lost _ _ _
    rw [lost]
    rw [idle] at h
    exact h.loses reading bounded closed new fun _ => rfl
  | @isCut j link reason idle next new =>
    obtain ⟨-, -, closed, bounded, -⟩ := Loopback.of_read_other next nofun h.bounded
    rw [idle] at h
    have finished := Loopback.stage_of_read_lost next
    exact h.loses (Loopback.reading_of_read next) bounded closed new fun hs =>
      absurd (finished.symm.trans hs) nofun
  | ends idle next =>
    obtain ⟨-, -, closed, bounded, finished⟩ := Loopback.of_read_other next nofun h.bounded
    rw [idle] at h
    show Manned _ _ t.reader _
    rw [idle]
    exact h.ends bounded closed finished
  | @hears bs link header n outcome now idle next decodes =>
    obtain ⟨reading, reading', -, closed, bounded⟩ := Loopback.of_read_packet next h.bounded
    have turned : Manned t.session.lost t.link (.answering (.fresh n outcome)) t.losses :=
      h.turns (by rw [idle]; nofun) (fun _ => by rw [reading]; nofun) nofun
    exact turned.relink bounded closed (reading'.trans reading.symm)
  | @answer r busy =>
    show Manned (r.step t.presence).2.session.lost _ _ _
    rw [(keeps_answer r t.presence).lost]
    exact h.turns (by rw [busy]; nofun) (by rw [busy]; nofun) nofun
  | answered busy finished => exact h.turns (by rw [busy]; nofun) (by rw [busy]; nofun) nofun
  | hasLost busy known finished =>
    rw [busy] at h
    exact h.rests known finished
  | beginLoss reason new => exact h.begins reason new
  | @loss j l known joined =>
    obtain ⟨bounded, stage, closed⟩ := h.linkAfter l
    show Manned _ _ (t.noteLoss l).reader (update (t.noteLoss l).losses j _)
    rw [(t.noteLoss_keeps l).1, (t.noteLoss_keeps l).2]
    exact h.goes known bounded stage closed joined
  | aside p keeps standing =>
    show Manned p.session.lost _ _ _
    rw [keeps.lost]
    exact h
  | close | take | stop | moves => exact h

end Manned

end Parting

end Federate
