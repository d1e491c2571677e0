/-
The opening of a session. One thread asks for the session and waits; another
takes packets in, and settles the handshake with the id in the header of the
status that accepts the session. The first has still to note that id while the
second goes on with the packets behind the status, and a packet goes out with
the id that is noted by then. So a packet that goes out after that status
carries its id just if it has been noted (`Reachable.stamped`). An answer to
what comes right behind the status can be too early for that
(`answer_without_id`); everybody else begins when the session is open.
-/
import Mathlib.Logic.Relation
import Federate.Client.Connection
import Federate.Proofs.Session.Loss
namespace Federate

/-- The session in whose name some bytes are a packet, as a header is read. -/
def Packet.sessionOf (bs : Bytes) : UInt64 := UInt64.ofNat (Header.numberAt bs 8 8)

/-- A packet goes out with the id of its session. -/
theorem Session.sessionOf_offer (s : Session) (m : Message) :
    Packet.sessionOf (s.offer m).1 = s.id := by
  show UInt64.ofNat (Packet.Header.numberAt ((Packet.Header.ofBody ..).bytes ++ m.body) 8 8) = s.id
  rw [Packet.Header.numberAt_bytes_session]
  exact UInt64.ofNat_toNat

/-! ## Who does what -/

/-- How far the thread has come that opens a session. -/
inductive Opening.Stage where
  | asking
  | waiting
  /-- The wait has brought an id, which is not noted. -/
  | answered (id : UInt64)
  | opened
  | failed
  deriving DecidableEq

/-- Who hands a packet to the link. -/
inductive Opening.Sender where
  | opener
  /-- The thread that takes packets in. -/
  | receiver
  /-- A call, a delivery, a heartbeat, or the end of the session. -/
  | other
  deriving DecidableEq

/-- A packet that was handed to the link, and what was known then. -/
structure Opening.Sending where
  sender : Opening.Sender
  bytes : Bytes
  /-- The status by which the session was accepted. -/
  accepting : Option Packet
  /-- Was the id noted? -/
  noted : Bool

/-- The opening of a session, and what comes after. -/
structure Opening where
  presence : Presence
  stage : Opening.Stage
  /-- What is still to be done about the latest packet. -/
  reaction : Presence.Reaction
  /-- The status that has settled the handshake and accepts the session. -/
  accepting : Option Packet
  sent : List Opening.Sending

namespace Opening

/-- Before anything has been said. -/
def fresh (limits : Session.Limits) (now : Duration) (standing : Standing) : Opening where
  presence := ⟨.fresh limits now, standing⟩
  stage := .asking
  reaction := ⟨none, none⟩
  accepting := none
  sent := []

def session (t : Opening) : Session := t.presence.session

/-- A message is handed to the link. -/
def handOver (t : Opening) (sender : Sender) (m : Message) : Opening :=
  { t with
    presence := t.presence.onSession fun s => (s.offer m).2
    sent := t.sent ++ [⟨sender, (t.session.offer m).1, t.accepting, t.stage == .opened⟩] }

/-- The status that accepts the session, when a packet has come. -/
def acceptance (t : Opening) (packet : Packet) : Option Packet :=
  match t.session.handshake, packet.message with
  | .empty, .newSessionStatus .ok => some packet
  | _, _ => t.accepting

/-- A step of an opening. -/
inductive Step (t : Opening) : Opening → Prop where
  | ask (stage : t.stage = .asking) :
    Step t { t.handOver .opener (.newSession Message.protocolVersion) with stage := .waiting }
  /-- The link does not begin, or refuses the packet, or the wait is in vain. -/
  | fail (stage : t.stage = .asking ∨ t.stage = .waiting) : Step t { t with stage := .failed }
  | answer {id : UInt64} (stage : t.stage = .waiting)
    (result : Client.handshakeResult t.session = .ok id) : Step t { t with stage := .answered id }
  | note {id : UInt64} (stage : t.stage = .answered id) :
    Step t { t with presence := t.presence.onSession (·.establish id), stage := .opened }
  | receive (packet : Packet) (now : Duration) (free : t.reaction = ⟨none, none⟩) :
    Step t { t with
      presence := (t.presence.receive packet now).2
      reaction := (t.presence.receive packet now).1
      accepting := t.acceptance packet }
  | reply {m : Message} (owed : t.reaction.reply = some m) :
    Step t { t.handOver .receiver m with reaction := { t.reaction with reply := none } }
  /-- The receiver has done what it owed. -/
  | free (paid : t.reaction.reply = none) : Step t { t with reaction := ⟨none, none⟩ }
  /-- The session is lost, by whatever thread. -/
  | loss (l : Loss) : Step t { t with presence := (l.step t.presence).2 }
  | send (m : Message) (opened : t.stage = .opened) : Step t (t.handOver .other m)
  /-- Anything else that the client does. -/
  | aside (p : Presence) (id : p.session.id = t.session.id)
    (handshake : p.session.handshake = t.session.handshake) : Step t { t with presence := p }

/-- The opening of a session, at any time. -/
def Reachable (t : Opening) : Prop :=
  ∃ limits now standing, Relation.ReflTransGen Step (fresh limits now standing) t

end Opening

/-! ## What befalls the handshake -/

/-- The handshake has brought an id. -/
def Session.Granted (s : Session) (id : UInt64) : Prop := s.handshake = .filled (.ok id)

theorem Session.Granted.unique {s : Session} {id id' : UInt64} (h : s.Granted id)
    (h' : s.Granted id') : id = id' := by
  rw [Granted, h] at h'
  cases h'
  rfl

namespace Presence

/-- The answer to a call leaves the opening of the session alone. -/
theorem opening_resolve (p : Presence) (n : UInt32) (outcome : CallOutcome) :
    (p.resolve n outcome).session.id = p.session.id ∧
      (p.resolve n outcome).session.handshake = p.session.handshake := by
  have noted : ∀ (p : Presence) tag, (p.noteOutcome tag outcome).session = p.session := by
    intro p tag
    cases outcome with
    | fault name details => rfl
    | result payload =>
      simp only [noteOutcome, noteJoin]
      split
      · cases Service.readMembership.whole payload <;> rfl
      · rfl
  unfold resolve
  dsimp only
  split
  · simp only [onSession, noted]
    exact ⟨rfl, rfl⟩
  · exact ⟨rfl, rfl⟩
  · exact ⟨rfl, rfl⟩

theorem id_receive (p : Presence) (packet : Packet) (now : Duration) :
    (p.receive packet now).2.session.id = p.session.id := by
  unfold receive
  cases packet.message with
  | callResponse n outcome => exact (opening_resolve _ n outcome).1
  | _ => rfl

theorem handshakeOutcome_eq_ok_iff {h : Packet.Header} {status : SessionStatus} {id : UInt64} :
    handshakeOutcome h status = .ok id ↔ status = .ok ∧ h.session = id := by
  cases status <;> simp [handshakeOutcome]

/-- Only a status that says so settles a handshake with an id, and only if nothing has settled
it. -/
theorem granted_receive_iff {p : Presence} {packet : Packet} {now : Duration} {id : UInt64} :
    (p.receive packet now).2.session.Granted id ↔ p.session.Granted id ∨
      p.session.handshake = .empty ∧ packet.message = .newSessionStatus .ok ∧
        packet.header.session = id := by
  unfold receive Session.Granted
  cases packet.message with
  | newSessionStatus status =>
    show p.session.handshake.complete (handshakeOutcome packet.header status) = _ ↔ _
    cases p.session.handshake <;> simp [Slot.complete, handshakeOutcome_eq_ok_iff]
  | callResponse n outcome =>
    show ((p.onSession (·.stamp packet.header.sequenceNumber now)).resolve n
      outcome).session.handshake = _ ↔ _
    rw [(opening_resolve _ n outcome).2]
    simp [onSession, Session.stamp]
  | _ => simp [onSession, Session.stamp, Session.noteTerminated, Session.onQueue, Session.count]

end Presence

/-- A loss brings no id, and takes none away. -/
theorem Loss.opening_step (l : Loss) (p : Presence) :
    (l.step p).2.session.id = p.session.id ∧
      ∀ id, (l.step p).2.session.Granted id ↔ p.session.Granted id := by
  unfold step
  split
  case h_1 => split <;> exact ⟨rfl, fun _ => .rfl⟩
  case h_5 entry _ _ => cases entry <;> exact ⟨rfl, fun _ => .rfl⟩
  case h_7 =>
    refine ⟨rfl, fun id => ?_⟩
    show p.session.handshake.complete _ = .filled (.ok id) ↔ p.session.handshake = _
    cases p.session.handshake <;> simp [Slot.complete]
  all_goals exact ⟨rfl, fun _ => .rfl⟩

theorem Session.granted_of_result {s : Session} {id : UInt64}
    (h : Client.handshakeResult s = .ok id) : s.Granted id := by
  unfold Client.handshakeResult at h
  split at h
  · next hs => rw [Granted, hs, h]
  · cases h
  · cases h

/-! ## In every order of steps -/

namespace Opening

variable {t t' : Opening} {x : Sending} {status : Packet}

/-- The id that a session has, as far as its opening has come. -/
structure Sound (t : Opening) : Prop where
  /-- The handshake has brought the id of the status that accepts the session. -/
  granted : ∀ id, t.session.Granted id ↔
    ∃ status, t.accepting = some status ∧ status.header.session = id
  accepts : ∀ status, t.accepting = some status → status.message = .newSessionStatus .ok
  answered : ∀ id, t.stage = .answered id → t.session.Granted id
  opened : t.stage = .opened → t.session.Granted t.session.id
  unopened : t.stage ≠ .opened → t.session.id = 0

theorem sound_fresh (limits : Session.Limits) (now : Duration) (standing : Standing) :
    Sound (fresh limits now standing) where
  granted _ := iff_of_false nofun nofun
  accepts := nofun
  answered := nofun
  opened := nofun
  unopened _ := rfl

/-- A step that leaves alone what the handshake has brought, and who has noted it. -/
theorem Sound.of_same (h : Sound t) (id : t'.session.id = t.session.id)
    (granted : ∀ id, t'.session.Granted id ↔ t.session.Granted id)
    (accepting : t'.accepting = t.accepting)
    (answered : ∀ id, t'.stage = .answered id → t.session.Granted id)
    (opened : t'.stage = .opened ↔ t.stage = .opened) : Sound t' where
  granted id' := by rw [granted, accepting]; exact h.granted id'
  accepts := by rw [accepting]; exact h.accepts
  answered id' hs := (granted id').mpr (answered id' hs)
  opened hs := by rw [id]; exact (granted _).mpr (h.opened (opened.mp hs))
  unopened hs := by rw [id]; exact h.unopened (mt opened.mpr hs)

theorem Sound.receive (h : Sound t) (packet : Packet) (now : Duration) :
    Sound { t with
      presence := (t.presence.receive packet now).2
      reaction := (t.presence.receive packet now).1
      accepting := t.acceptance packet } := by
  by_cases settles : t.session.handshake = .empty ∧ packet.message = .newSessionStatus .ok
  · -- The status accepts the session, and nobody has heard of an id before.
    obtain ⟨empty, message⟩ := settles
    have nothing : ∀ id, ¬ t.session.Granted id := fun id hg => by
      rw [Session.Granted, empty] at hg
      cases hg
    have accepted : t.acceptance packet = some packet := by rw [acceptance, empty, message]
    have unopened : t.stage ≠ .opened := fun hs => nothing _ (h.opened hs)
    constructor
    · intro id
      refine Presence.granted_receive_iff.trans ?_
      show _ ↔ ∃ status, t.acceptance packet = some status ∧ _
      rw [accepted]
      constructor
      · rintro (hg | ⟨-, -, hid⟩)
        · exact absurd hg (nothing id)
        · exact ⟨packet, rfl, hid⟩
      · rintro ⟨_, ⟨⟩, hid⟩
        exact .inr ⟨empty, message, hid⟩
    · show ∀ status, t.acceptance packet = some status → _
      rw [accepted]
      rintro _ ⟨⟩
      exact message
    · exact fun id hs => absurd (h.answered id hs) (nothing id)
    · exact fun hs => absurd hs unopened
    · intro _
      exact (Presence.id_receive ..).trans (h.unopened unopened)
  · have accepted : t.acceptance packet = t.accepting := by
      unfold acceptance
      split
      · next empty message => exact absurd ⟨empty, message⟩ settles
      · rfl
    refine h.of_same (Presence.id_receive ..) (fun id => ?_) accepted h.answered Iff.rfl
    refine Presence.granted_receive_iff.trans (or_iff_left ?_)
    exact fun ⟨empty, message, _⟩ => settles ⟨empty, message⟩

theorem Sound.step (h : Sound t) (hs : Step t t') : Sound t' := by
  cases hs with
  | ask stage =>
    exact h.of_same rfl (fun _ => .rfl) rfl nofun (iff_of_false nofun (by rw [stage]; nofun))
  | fail stage =>
    refine h.of_same rfl (fun _ => .rfl) rfl nofun (iff_of_false nofun fun hs => ?_)
    rcases stage with stage | stage <;> · rw [stage] at hs; cases hs
  | answer stage result =>
    refine h.of_same rfl (fun _ => .rfl) rfl ?_ (iff_of_false nofun (by rw [stage]; nofun))
    rintro _ ⟨⟩
    exact Session.granted_of_result result
  | note stage =>
    exact ⟨h.granted, h.accepts, nofun, fun _ => h.answered _ stage, fun hs => absurd rfl hs⟩
  | receive packet now free => exact h.receive packet now
  | reply owed => exact h.of_same rfl (fun _ => .rfl) rfl h.answered .rfl
  | free paid => exact h.of_same rfl (fun _ => .rfl) rfl h.answered .rfl
  | loss l =>
    exact h.of_same (l.opening_step _).1 (l.opening_step _).2 rfl h.answered .rfl
  | send m opened => exact h.of_same rfl (fun _ => .rfl) rfl h.answered .rfl
  | aside p id handshake =>
    refine h.of_same id (fun _ => ?_) rfl h.answered .rfl
    show p.session.handshake = _ ↔ _
    rw [handshake]
    rfl

/-- The status that accepts a session stays the one, whatever statuses come after it. -/
theorem Sound.accepting_step (h : Sound t) (hs : Step t t') (accepted : t.accepting = some status) :
    t'.accepting = some status := by
  cases hs with
  | receive packet now free =>
    have granted := (h.granted _).mpr ⟨status, accepted, rfl⟩
    show t.acceptance packet = some status
    rw [acceptance, granted]
    exact accepted
  | _ => exact accepted

/-- What is known of a packet that was handed to the link. -/
structure Sending.Sound (x : Sending) (accepting : Option Packet) : Prop where
  accepting : ∀ status, x.accepting = some status → accepting = some status
  noted : x.noted = true → ∃ status, x.accepting = some status ∧
    Packet.sessionOf x.bytes = status.header.session
  unnoted : x.noted = false → Packet.sessionOf x.bytes = 0
  sender : x.sender = .other → x.noted = true

/-- A packet goes out with the id that is noted by then. -/
theorem Sound.handOver (h : Sound t) {sender : Sender} (m : Message)
    (turn : sender = .other → t.stage = .opened) :
    Sending.Sound ⟨sender, (t.session.offer m).1, t.accepting, t.stage == .opened⟩
      t.accepting where
  accepting _ hs := hs
  noted hn := by
    obtain ⟨status, accepted, hid⟩ := (h.granted _).mp (h.opened (by simpa using hn))
    exact ⟨status, accepted, by rw [Session.sessionOf_offer, hid]⟩
  unnoted hn := by
    show Packet.sessionOf (t.session.offer m).1 = 0
    rw [Session.sessionOf_offer]
    exact h.unopened (by simpa using hn)
  sender hs := by simpa using turn hs

/-- Every packet that was handed to the link is as it should be. -/
def Tracked (t : Opening) : Prop := ∀ x ∈ t.sent, x.Sound t.accepting

theorem Tracked.step (h : Tracked t) (sound : Sound t) (hs : Step t t') : Tracked t' := by
  have kept : ∀ x ∈ t.sent, x.Sound t'.accepting := fun x hx =>
    { h x hx with accepting := fun status hx' =>
        sound.accepting_step hs ((h x hx).accepting status hx') }
  have handed : ∀ {sender : Sender} (m : Message), (sender = .other → t.stage = .opened) →
      ∀ x ∈ (t.handOver sender m).sent, x.Sound t.accepting := by
    intro sender m turn x hx
    rcases List.mem_append.mp hx with hx | hx
    · exact h x hx
    · rw [List.mem_singleton.mp hx]
      exact sound.handOver m turn
  cases hs with
  | ask stage => exact handed _ nofun
  | reply owed => exact handed _ nofun
  | send m opened => exact handed m fun _ => opened
  | _ => exact kept

theorem Reachable.sound (h : Reachable t) : Sound t ∧ Tracked t := by
  obtain ⟨limits, now, standing, hs⟩ := h
  induction hs with
  | refl => exact ⟨sound_fresh limits now standing, fun x hx => absurd hx List.not_mem_nil⟩
  | tail _ hs ih => exact ⟨ih.1.step hs, ih.2.step ih.1 hs⟩

/-- **In whose name packets go out.** In every order of steps, one status accepts a session, and no
later one changes that. A packet that is handed to the link after it carries the id in its header
just if the opener has noted it by then, as it always has when anybody but the opener and the
receiver hands it over; otherwise the packet carries zero. -/
theorem Reachable.stamped (h : Reachable t) (hx : x ∈ t.sent)
    (after : x.accepting = some status) :
    t.accepting = some status ∧ status.message = .newSessionStatus .ok ∧
      (t.stage = .opened → t.session.id = status.header.session) ∧
      (Packet.sessionOf x.bytes = status.header.session ↔
        x.noted = true ∨ status.header.session = 0) ∧
      (x.noted = false → Packet.sessionOf x.bytes = 0 ∧ x.sender ≠ .other) := by
  obtain ⟨sound, tracked⟩ := h.sound
  have fact := tracked x hx
  have accepted := fact.accepting status after
  refine ⟨accepted, sound.accepts status accepted, fun opened => ?_, ?_, fun unnoted => ?_⟩
  · have granted := (sound.granted _).mpr ⟨status, accepted, rfl⟩
    exact (sound.opened opened).unique granted
  · cases hn : x.noted with
    | true =>
      obtain ⟨_, after', hid⟩ := fact.noted hn
      rw [after] at after'
      cases after'
      exact iff_of_true hid (.inl rfl)
    | false =>
      rw [fact.unnoted hn]
      simp [eq_comm]
  · refine ⟨fact.unnoted unnoted, fun other => ?_⟩
    rw [fact.sender other] at unnoted
    cases unnoted

/-- The status that accepts a session under 77. -/
def welcome : Packet := ⟨.ofBody .newSessionStatus 1 77 0 4, .newSessionStatus .ok⟩

/-- What the coordinator sends right behind it. -/
def pulse : Packet := ⟨.ofBody .heartbeat 2 77 0 0, .heartbeat⟩

/-- The opener has noted the id before the receiver answers: the answer carries it. -/
theorem stamped_after_note : ∃ t x, Reachable t ∧ x ∈ t.sent ∧
    x.accepting = some welcome ∧ x.sender = .receiver ∧ Packet.sessionOf x.bytes = 77 := by
  have begun : Relation.ReflTransGen Step (fresh ⟨none, none, .zero, none, ""⟩ .zero .idle) _ :=
    .refl
  have asked := begun.tail (.ask rfl)
  have accepted := asked.tail (.receive welcome .zero rfl)
  have answered := accepted.tail (.answer rfl rfl)
  have noted := answered.tail (.note rfl)
  have come := noted.tail (.receive pulse .zero rfl)
  have replied := come.tail (.reply rfl)
  have h : Reachable _ := ⟨_, _, _, replied⟩
  refine ⟨_, _, h, List.mem_cons_of_mem _ List.mem_cons_self, rfl, rfl, ?_⟩
  exact (Reachable.stamped h (List.mem_cons_of_mem _ List.mem_cons_self) rfl).2.2.2.1.mpr (.inl rfl)

/-- The receiver answers what comes right behind the status before the opener has noted the id: the
answer goes over an open link in nobody's name. -/
theorem answer_without_id : ∃ t x, Reachable t ∧ x ∈ t.sent ∧
    x.accepting = some welcome ∧ x.sender = .receiver ∧ t.session.linkClosed = false ∧
    Packet.sessionOf x.bytes = 0 := by
  have begun : Relation.ReflTransGen Step (fresh ⟨none, none, .zero, none, ""⟩ .zero .idle) _ :=
    .refl
  have asked := begun.tail (.ask rfl)
  have accepted := asked.tail (.receive welcome .zero rfl)
  have come := accepted.tail (.receive pulse .zero rfl)
  have replied := come.tail (.reply rfl)
  exact ⟨_, _, ⟨_, _, _, replied⟩, List.mem_cons_of_mem _ List.mem_cons_self, rfl, rfl, rfl,
    Session.sessionOf_offer ..⟩

end Opening

end Federate
