/-
What passes over a link within one process, in whatever order the client, the
peer and the reader act. The peer receives packets in the order in which they
were accepted; the client is handed packets in the order in which they were
accepted, and is told of the loss of the link once, after all of them, unless it
had closed the link before the link was cut (`Exchange.contract`).

Each act is one step, and a run is any list of acts on a new link. The invariant
is about all that was laid for the reader since the beginning: until the reader
ends, this is what it has handed on and what still waits for it, and it ends at
the first thing laid for it that is no packet (`Exchange.Inward`).
-/
import Federate.Proofs.Session.Unread
namespace Federate.Loopback

/-! ## Acts and what comes of them -/

/-- What the client, the peer and the reader do to a link. -/
inductive Act where
  /-- The reader is started, or cannot be for some reason. -/
  | start (failure : Option String)
  | send (bs : Bytes)
  | close
  | peerSend (bs : Bytes)
  | receive
  | sever (reason : String)
  | dropPeer
  | read
  deriving DecidableEq, Repr

/-- What comes of an act. -/
inductive Answer where
  | done
  | refused (e : LinkFault)
  /-- The packet that the peer took up, if one waited. -/
  | received (x : Option Bytes)
  /-- What the reader handed to the client, if anything. -/
  | handed (x : Option Event)
  deriving DecidableEq, Repr

/-- A refused operation leaves the link. -/
def attempt (l : Loopback) : Except LinkFault Loopback → Answer × Loopback
  | .ok l' => (.done, l')
  | .error e => (.refused e, l)

/-- An act, as one step. -/
def perform (l : Loopback) : Act → Answer × Loopback
  | .start failure =>
    match l.start failure with
    | (.ok (), l') => (.done, l')
    | (.error e, l') => (.refused e, l')
  | .send bs => l.attempt (l.send bs)
  | .close => (.done, l.close)
  | .peerSend bs => l.attempt (l.peerSend bs)
  | .receive => (.received l.receive.1, l.receive.2)
  | .sever reason => (.done, l.sever reason)
  | .dropPeer => (.done, l.dropPeer)
  | .read => (.handed l.read.1, l.read.2)

/-- What an act lays for the reader, be it that the reader has ended or not. -/
def lays (l : Loopback) : Act → List Item
  | .close => if l.closed then [] else [.closed]
  | .peerSend bs =>
    match l.peerSend bs with
    | .ok _ => [.packet bs]
    | .error _ => []
  | .sever reason => if l.severed then [] else [.lost reason]
  | .dropPeer => if l.severed then [] else [.lost "coordinator went away"]
  | .start _ | .send _ | .receive | .read => []

/-- An act and what came of it. -/
abbrev Entry := Act × Answer

/-- Acts and what came of them, first to last. -/
abbrev History := List Entry

namespace Entry

/-- The packet that was accepted from the client. -/
def accepted? : Entry → Option Bytes
  | (.send bs, .done) => some bs
  | _ => none

/-- The packet that the peer received. -/
def received? : Entry → Option Bytes
  | (.receive, .received x) => x
  | _ => none

/-- The packet that was accepted from the peer. -/
def peerAccepted? : Entry → Option Bytes
  | (.peerSend bs, .done) => some bs
  | _ => none

/-- The packet that the client was handed. -/
def delivered? : Entry → Option Bytes
  | (.read, .handed (some (.packet bs))) => some bs
  | _ => none

/-- The loss that the client was told of. -/
def loss? : Entry → Option String
  | (.read, .handed (some (.lost reason))) => some reason
  | _ => none

/-- Why the link was cut. -/
def cut? : Entry → Option String
  | (.sever reason, _) => some reason
  | (.dropPeer, _) => some "coordinator went away"
  | _ => none

def closes : Entry → Bool
  | (.close, _) => true
  | _ => false

end Entry

namespace History

def accepted (h : History) : List Bytes := h.filterMap Entry.accepted?
def received (h : History) : List Bytes := h.filterMap Entry.received?
def peerAccepted (h : History) : List Bytes := h.filterMap Entry.peerAccepted?
def delivered (h : History) : List Bytes := h.filterMap Entry.delivered?
def losses (h : History) : List String := h.filterMap Entry.loss?

/-- Why the link was cut first. -/
def cut (h : History) : Option String := h.findSome? Entry.cut?

/-- Did the client close the link? -/
def closed (h : History) : Bool := h.any Entry.closes

/-- Did the client close the link while it was not cut? -/
def ClosedBeforeCut (h : History) : Prop :=
  ∃ before e after, h = before ++ e :: after ∧ e.closes = true ∧ cut before = none

variable {h : History} {e : Entry}

@[simp] theorem accepted_snoc : accepted (h ++ [e]) = accepted h ++ e.accepted?.toList := by
  cases he : e.accepted? <;> simp [accepted, he]

@[simp] theorem received_snoc : received (h ++ [e]) = received h ++ e.received?.toList := by
  cases he : e.received? <;> simp [received, he]

@[simp] theorem peerAccepted_snoc :
    peerAccepted (h ++ [e]) = peerAccepted h ++ e.peerAccepted?.toList := by
  cases he : e.peerAccepted? <;> simp [peerAccepted, he]

@[simp] theorem delivered_snoc : delivered (h ++ [e]) = delivered h ++ e.delivered?.toList := by
  cases he : e.delivered? <;> simp [delivered, he]

@[simp] theorem losses_snoc : losses (h ++ [e]) = losses h ++ e.loss?.toList := by
  cases he : e.loss? <;> simp [losses, he]

@[simp] theorem cut_snoc : cut (h ++ [e]) = (cut h).or e.cut? := by
  simp [cut, List.findSome?_append]

@[simp] theorem closed_snoc : closed (h ++ [e]) = (closed h || e.closes) := by simp [closed]

/-- A split of a longer history is one at its end or one of the history before. -/
theorem split_snoc {before after : History} {x : Entry} (split : h ++ [e] = before ++ x :: after) :
    (after = [] ∧ x = e ∧ before = h) ∨ ∃ rest, after = rest ++ [e] ∧ h = before ++ x :: rest := by
  rcases List.eq_nil_or_concat after with rfl | ⟨rest, y, rfl⟩
  · obtain ⟨rfl, hx⟩ := List.append_inj' split rfl
    cases hx
    exact .inl ⟨rfl, rfl, rfl⟩
  · rw [List.concat_eq_append, ← List.cons_append, ← List.append_assoc] at split
    obtain ⟨rfl, hy⟩ := List.append_inj' split rfl
    cases hy
    exact .inr ⟨rest, List.concat_eq_append, rfl⟩

/-- Once the link was cut, closing it is too late. -/
theorem closedBeforeCut_snoc (cut : h.cut ≠ none) :
    ClosedBeforeCut (h ++ [e]) ↔ ClosedBeforeCut h := by
  constructor
  · rintro ⟨before, x, after, split, closes, none⟩
    rcases split_snoc split with ⟨-, -, rfl⟩ | ⟨rest, -, split⟩
    · exact absurd none cut
    · exact ⟨before, x, rest, split, closes, none⟩
  · rintro ⟨before, x, after, rfl, closes, none⟩
    exact ⟨before, x, after ++ [e], by simp, closes, none⟩

theorem closed_of_closedBeforeCut (before : ClosedBeforeCut h) : h.closed = true := by
  obtain ⟨before, x, after, rfl, closes, -⟩ := before
  simp [closed, closes]

end History

/-! ## What acts do to a link -/

/-- The packets among what waits, whatever lies between them. -/
def Item.bodies (items : List Item) : List Bytes :=
  items.filterMap fun x =>
    match x with
    | .packet bs => some bs
    | _ => none

theorem Item.bodies_append (xs ys : List Item) : bodies (xs ++ ys) = bodies xs ++ bodies ys :=
  List.filterMap_append

@[simp] theorem Item.bodies_map_packet (bs : List Bytes) : bodies (bs.map .packet) = bs := by
  induction bs with
  | nil => rfl
  | cons b bs ih => exact congrArg (b :: ·) ih

/-- All that an act can come to: its answer, the link after it, and what it has laid for the
reader. -/
inductive Effect (l : Loopback) : Act → Answer → Loopback → List Item → Prop
  | starts (stage : l.stage = .unstarted) :
      Effect l (.start none) .done { l with stage := .reading } []
  | startFails {reason : String} {e : LinkFault} (stage : l.stage = .unstarted) :
      Effect l (.start (some reason)) (.refused e) { l with inbound := [], stage := .ended } []
  | startRefused {failure : Option String} {e : LinkFault} :
      Effect l (.start failure) (.refused e) l []
  | sends {bs : Bytes} (going : l.closed = false) (whole : l.severed = false) :
      Effect l (.send bs) .done { l with outbound := l.outbound ++ [bs], sent := l.sent + 1 } []
  | sendRefused {bs : Bytes} {e : LinkFault} : Effect l (.send bs) (.refused e) l []
  | closes (going : l.closed = false) :
      Effect l .close .done { l.offer .closed with closed := true } [.closed]
  | closesAgain (closed : l.closed = true) : Effect l .close .done l []
  | peerSends {bs : Bytes} (whole : l.severed = false) (going : l.stage ≠ .ended) :
      Effect l (.peerSend bs) .done (l.offer (.packet bs)) [.packet bs]
  | peerRefused {bs : Bytes} {e : LinkFault} : Effect l (.peerSend bs) (.refused e) l []
  | receives {bs : Bytes} {rest : List Bytes} (waits : l.outbound = bs :: rest) :
      Effect l .receive (.received (some bs)) { l with outbound := rest } []
  | receivesNothing : Effect l .receive (.received none) l []
  | severs {reason : String} (whole : l.severed = false) : Effect l (.sever reason) .done
      { l.offer (.lost reason) with severed := true } [.lost reason]
  | seversAgain {reason : String} (severed : l.severed = true) :
      Effect l (.sever reason) .done l []
  | drops (whole : l.severed = false) : Effect l .dropPeer .done
      { l.offer (.lost "coordinator went away") with severed := true }
      [.lost "coordinator went away"]
  | dropsAgain (severed : l.severed = true) : Effect l .dropPeer .done l []
  | hands {bs : Bytes} {rest : List Item} (reading : l.stage = .reading)
      (first : l.inbound = .packet bs :: rest) :
      Effect l .read (.handed (some (.packet bs))) { l with inbound := rest } []
  | loses {reason : String} {rest : List Item} (reading : l.stage = .reading)
      (first : l.inbound = .lost reason :: rest) :
      Effect l .read (.handed (some (.lost reason))) { l with inbound := [], stage := .ended } []
  | ends {rest : List Item} (reading : l.stage = .reading) (first : l.inbound = .closed :: rest) :
      Effect l .read (.handed none) { l with inbound := [], stage := .ended } []
  | idles : Effect l .read (.handed none) l []

theorem effect (l : Loopback) (a : Act) :
    Effect l a (l.perform a).1 (l.perform a).2 (l.lays a) := by
  cases a with
  | start failure =>
    simp only [perform, start, lays]
    cases hs : l.stage with
    | unstarted =>
      cases failure with
      | none => exact .starts hs
      | some reason => exact .startFails hs
    | reading | ended => exact .startRefused
  | send bs =>
    simp only [perform, send, lays]
    split
    · exact .sendRefused
    split
    · exact .sendRefused
    · next going whole => exact .sends (by simpa using going) (by simpa using whole)
  | close =>
    simp only [perform, close, lays]
    split
    · next closed => exact .closesAgain closed
    · next going => exact .closes (by simpa using going)
  | peerSend bs =>
    simp only [perform, peerSend, lays]
    split
    · exact .peerRefused
    · next whole =>
      split
      · exact .peerRefused
      · next going => exact .peerSends (by simpa using whole) going
  | receive =>
    simp only [perform, receive, lays]
    split
    · exact .receivesNothing
    · next waits => exact .receives waits
  | sever reason =>
    simp only [perform, sever, lays]
    split
    · next severed => exact .seversAgain severed
    · next whole => exact .severs (by simpa using whole)
  | dropPeer =>
    simp only [perform, dropPeer, sever, lays]
    split
    · next severed => exact .dropsAgain severed
    · next whole => exact .drops (by simpa using whole)
  | read =>
    simp only [perform, read, lays]
    split
    · next reading first => exact .hands reading first
    · next reading first => exact .loses reading first
    · next reading first => exact .ends reading first
    · exact .idles

theorem outbound_offer (l : Loopback) (i : Item) : (l.offer i).outbound = l.outbound := by
  unfold offer
  split <;> rfl

theorem sent_offer (l : Loopback) (i : Item) : (l.offer i).sent = l.sent := by
  unfold offer
  split <;> rfl

theorem inbound_offer {l : Loopback} {i : Item} (going : l.stage ≠ .ended) :
    (l.offer i).inbound = l.inbound ++ [i] := by
  unfold offer
  split
  · next ended => exact absurd ended going
  · rfl

namespace Effect

variable {l l' : Loopback} {a : Act} {x : Answer} {laid : List Item} {reason : String}

/-- What was accepted for the peer waits until the peer takes it up, and the link counts it. -/
theorem outward (h : Effect l a x l' laid) :
    l.outbound ++ (Entry.accepted? (a, x)).toList =
      (Entry.received? (a, x)).toList ++ l'.outbound ∧
    l'.sent = l.sent + (Entry.accepted? (a, x)).toList.length := by
  cases h <;> simp_all [Entry.accepted?, Entry.received?, outbound_offer, sent_offer]

/-- Whether the link is closed, and whether it is cut, is told by the acts. -/
theorem flags (h : Effect l a x l' laid) : l'.closed = (l.closed || Entry.closes (a, x)) ∧
    l'.severed = (l.severed || (Entry.cut? (a, x)).isSome) := by
  cases h <;> simp_all [Entry.closes, Entry.cut?, closed_offer, severed_offer]

/-- The packets that are laid for the reader are those that are accepted from the peer. -/
theorem packets (h : Effect l a x l' laid) :
    Item.bodies laid = (Entry.peerAccepted? (a, x)).toList := by
  cases h <;> rfl

/-- Closing the link leaves a mark. -/
theorem marks (h : Effect l a x l' laid) (going : l.closed = false) (closed : l'.closed = true) :
    .closed ∈ laid := by
  cases h <;> simp_all [closed_offer]

/-- Only the first cut is laid for the reader. -/
theorem cuts (h : Effect l a x l' laid) (lost : .lost reason ∈ laid) :
    laid = [.lost reason] ∧ l.severed = false ∧ Entry.cut? (a, x) = some reason ∧
      Entry.closes (a, x) = false := by
  cases h <;> simp_all [Entry.cut?, Entry.closes]

/-- Once the link was cut, nothing comes from the peer any more. -/
theorem after_cut (h : Effect l a x l' laid) (severed : l.severed = true) :
    Item.bodies laid = [] ∧ ∀ r, .lost r ∉ laid := by
  cases h <;> simp_all [Item.bodies]

/-- The reader keeps what waits in order, and hands on what comes first. -/
theorem inward (h : Effect l a x l' laid) (going : l.stage ≠ .ended) :
    (l'.stage ≠ .ended ∧ l.inbound ++ laid =
        (Entry.delivered? (a, x)).toList.map .packet ++ l'.inbound ∧
        Entry.loss? (a, x) = none) ∨
    (l'.stage = .ended ∧ laid = [] ∧ Entry.delivered? (a, x) = none ∧
      (Entry.loss? (a, x) = none ∨
        ∃ reason rest, l.inbound = .lost reason :: rest ∧ Entry.loss? (a, x) = some reason)) := by
  cases h <;>
    simp_all [Entry.delivered?, Entry.loss?, stage_offer, inbound_offer]

/-- A reader that has ended hands on nothing. -/
theorem stopped (h : Effect l a x l' laid) (ended : l.stage = .ended) :
    l'.stage = .ended ∧ Entry.delivered? (a, x) = none ∧ Entry.loss? (a, x) = none := by
  cases h <;> simp_all [Entry.delivered?, Entry.loss?, stage_offer]

end Effect

/-! ## Runs -/

/-- A link with what has been done to it. -/
structure Exchange where
  link : Loopback
  history : History
  /-- All that was laid for the reader. -/
  laid : List Item

namespace Exchange

def fresh : Exchange := ⟨.fresh, [], []⟩

/-- One more act, noted with what comes of it. -/
def act (t : Exchange) (a : Act) : Exchange where
  link := (t.link.perform a).2
  history := t.history ++ [(a, (t.link.perform a).1)]
  laid := t.laid ++ t.link.lays a

/-- The acts on a new link, one after another. -/
def run (acts : List Act) : Exchange := acts.foldl act fresh

/-- What holds at first and is kept by every act holds after every run. -/
theorem run_induction {P : Exchange → Prop} (first : P fresh) (step : ∀ t a, P t → P (t.act a))
    (acts : List Act) : P (run acts) := by
  unfold run
  generalize fresh = t at first
  induction acts generalizing t with
  | nil => exact first
  | cons a acts ih => exact ih (t.act a) (step t a first)

/-- How far the reader has come with what was laid for it. -/
inductive Inward (t : Exchange) : Prop
  /-- The reader has handed on the packets before what still waits. -/
  | going (stage : t.link.stage ≠ .ended)
      (rest : t.laid = t.history.delivered.map .packet ++ t.link.inbound)
      (silent : t.history.losses = [])
  /-- The reader has come to the mark of a closed link, or was never started and cannot be. -/
  | stopped (stage : t.link.stage = .ended)
      (rest : t.history.delivered.map .packet <+: t.laid)
      (silent : t.history.losses = [])
  /-- The reader has come to the loss of the link. -/
  | lost (reason : String) (stage : t.link.stage = .ended)
      (rest : t.history.delivered.map .packet ++ [.lost reason] <+: t.laid)
      (once : t.history.losses = [reason])

/-- What holds after every run. -/
structure Sound (t : Exchange) : Prop where
  outward : t.history.received ++ t.link.outbound = t.history.accepted
  count : t.link.sent = t.history.accepted.length
  closed : t.link.closed = t.history.closed
  severed : t.link.severed = t.history.cut.isSome
  packets : Item.bodies t.laid = t.history.peerAccepted
  marked : t.link.closed = true → .closed ∈ t.laid
  /-- The link is lost for the reason of the first cut, behind all packets, and behind the mark of
  its closing if it was closed first. -/
  last : ∀ front reason back, t.laid = front ++ .lost reason :: back →
    t.history.cut = some reason ∧ Item.bodies back = [] ∧
      (.closed ∉ front → ¬ t.history.ClosedBeforeCut)
  inward : Inward t

variable {t : Exchange} {reason : String} {front back : List Item}

/-- What the reader has come to is the loss of the link or what was laid before it. -/
theorem Inward.act (h : Inward t) (a : Act) : Inward (t.act a) := by
  have eff := t.link.effect a
  cases h with
  | going stage rest silent =>
    rcases eff.inward stage with ⟨stage', moved, quiet⟩ | ⟨stage', idle, none, last⟩
    · refine .going stage' ?_ (by simp [Exchange.act, silent, quiet])
      simp only [Exchange.act, rest, List.append_assoc, moved, History.delivered_snoc,
        List.map_append]
    · rcases last with quiet | ⟨reason, left, first, told⟩
      · refine .stopped stage' ⟨t.link.inbound, ?_⟩ (by simp [Exchange.act, silent, quiet])
        simp [Exchange.act, rest, idle, none]
      · refine .lost reason stage' ⟨left, ?_⟩ (by simp [Exchange.act, silent, told])
        simp [Exchange.act, rest, idle, none, first]
  | stopped stage rest silent =>
    obtain ⟨stage', none, quiet⟩ := eff.stopped stage
    refine .stopped stage' ?_ (by simp [Exchange.act, silent, quiet])
    simpa [Exchange.act, none] using rest.trans (List.prefix_append _ _)
  | lost reason stage rest once =>
    obtain ⟨stage', none, quiet⟩ := eff.stopped stage
    refine .lost reason stage' ?_ (by simp [Exchange.act, once, quiet])
    simpa [Exchange.act, none] using rest.trans (List.prefix_append _ _)

namespace Sound

theorem first : Sound fresh where
  outward := rfl
  count := rfl
  closed := rfl
  severed := rfl
  packets := rfl
  marked h := by cases h
  last front reason back h := by simp [fresh] at h
  inward := .going (by decide) rfl rfl

/-- An act cuts the link for the first time. -/
theorem last_cut {a : Act} {new : List Item} (h : Sound t)
    (laid : t.link.lays a = new ++ .lost reason :: back) :
    (t.act a).history.cut = some reason ∧ Item.bodies back = [] ∧
      (.closed ∉ t.laid ++ new → ¬ (t.act a).history.ClosedBeforeCut) := by
  have eff := t.link.effect a
  have lost : .lost reason ∈ t.link.lays a := by simp [laid]
  obtain ⟨only, whole, cut, notClosing⟩ := eff.cuts lost
  have uncut : t.history.cut = none := by simpa [h.severed] using whole
  rw [only] at laid
  obtain ⟨rfl, rfl⟩ : new = [] ∧ back = [] := by
    cases new with
    | nil => exact ⟨rfl, by simpa using laid.symm⟩
    | cons y new => simp at laid
  refine ⟨by simp [Exchange.act, uncut, cut], rfl, fun unmarked before => ?_⟩
  have closed : t.history.closed = true := by
    simpa [Exchange.act, notClosing] using History.closed_of_closedBeforeCut before
  exact unmarked (by simpa using h.marked (h.closed.trans closed))

/-- After the end of the link, only the mark of its closing can be laid for the reader. -/
theorem last_act (h : Sound t) (a : Act) (split : (t.act a).laid = front ++ .lost reason :: back) :
    (t.act a).history.cut = some reason ∧ Item.bodies back = [] ∧
      (.closed ∉ front → ¬ (t.act a).history.ClosedBeforeCut) := by
  rcases List.append_eq_append_iff.mp split with ⟨new, rfl, laid⟩ | ⟨old, before, rest⟩
  · exact h.last_cut laid
  cases old with
  | nil =>
    have laid : t.link.lays a = [] ++ .lost reason :: back := rest.symm
    have cut := h.last_cut laid
    rwa [before, List.append_nil, List.append_nil] at cut
  | cons y old =>
    rw [List.cons_append, List.cons.injEq] at rest
    obtain ⟨rfl, rfl⟩ := rest
    obtain ⟨cut, none, inTime⟩ := h.last _ _ _ before
    have severed : t.link.severed = true := by rw [h.severed, cut]; rfl
    refine ⟨by simp [Exchange.act, cut], ?_, fun unmarked => ?_⟩
    · rw [Item.bodies_append, none, ((t.link.effect a).after_cut severed).1, List.append_nil]
    · rw [Exchange.act, History.closedBeforeCut_snoc (by simp [cut])]
      exact inTime unmarked

theorem act (h : Sound t) (a : Act) : Sound (t.act a) := by
  have eff := t.link.effect a
  obtain ⟨outward, count⟩ := eff.outward
  obtain ⟨closed, severed⟩ := eff.flags
  exact {
    outward := by
      simp only [Exchange.act, History.received_snoc, History.accepted_snoc, List.append_assoc,
        ← outward, ← h.outward]
    count := by
      simp only [Exchange.act, History.accepted_snoc, List.length_append, count, h.count]
    closed := by simp only [Exchange.act, closed, h.closed, History.closed_snoc]
    severed := by
      simp only [Exchange.act, severed, h.severed, History.cut_snoc, Option.isSome_or]
    packets := by
      simp only [Exchange.act, Item.bodies_append, h.packets, eff.packets,
        History.peerAccepted_snoc]
    marked := fun now => by
      simp only [Exchange.act, List.mem_append]
      by_cases before : t.link.closed = true
      · exact .inl (h.marked before)
      · exact .inr (eff.marks (by simpa using before) now)
    last := fun front reason back => h.last_act a
    inward := h.inward.act a }

theorem run (acts : List Act) : Sound (run acts) :=
  run_induction first (fun _ a h => h.act a) acts

/-- What the client was handed is the beginning of what was accepted from the peer. -/
theorem delivered_prefix (h : Sound t) : t.history.delivered <+: t.history.peerAccepted := by
  rw [← h.packets]
  cases h.inward with
  | going stage rest silent =>
    rw [rest, Item.bodies_append, Item.bodies_map_packet]
    exact List.prefix_append _ _
  | stopped stage rest silent =>
    obtain ⟨left, rest⟩ := rest
    rw [← rest, Item.bodies_append, Item.bodies_map_packet]
    exact List.prefix_append _ _
  | lost reason stage rest once =>
    obtain ⟨left, rest⟩ := rest
    rw [← rest, Item.bodies_append, Item.bodies_append, Item.bodies_map_packet]
    exact (List.prefix_append _ _).trans (List.prefix_append _ _)

/-- A link that was closed before it was cut is not lost. -/
theorem silent (h : Sound t) (before : t.history.ClosedBeforeCut) : t.history.losses = [] := by
  cases h.inward with
  | going stage rest silent => exact silent
  | stopped stage rest silent => exact silent
  | lost reason stage rest once =>
    obtain ⟨left, rest⟩ := rest
    rw [List.append_assoc] at rest
    obtain ⟨-, -, inTime⟩ := h.last _ _ _ rest.symm
    exact absurd before (inTime (by simp))

/-- What the reader does next, if it tells of the loss of the link: it is the first time, for the
reason of the first cut, and all packets have been handed on. -/
theorem told (h : Sound t) {a : Act}
    (loss : Entry.loss? (a, (t.link.perform a).1) = some reason) :
    t.history.cut = some reason ∧ t.history.delivered = t.history.peerAccepted ∧
      t.history.losses = [] := by
  have eff := t.link.effect a
  cases h.inward with
  | going stage rest silent =>
    rcases eff.inward stage with
      ⟨-, -, none⟩ | ⟨-, -, -, none | ⟨reason', left, first, told⟩⟩
    · rw [none] at loss
      cases loss
    · rw [none] at loss
      cases loss
    · obtain rfl : reason' = reason := Option.some.inj (told.symm.trans loss)
      rw [first] at rest
      obtain ⟨cut, none, -⟩ := h.last _ _ _ rest
      refine ⟨cut, ?_, silent⟩
      rw [← h.packets, rest, Item.bodies_append, Item.bodies_map_packet]
      have behind : Item.bodies (.lost reason' :: left) = Item.bodies left := rfl
      rw [behind, none, List.append_nil]
  | stopped stage rest silent | lost reason stage rest once =>
    rw [(eff.stopped stage).2.2] at loss
    cases loss

end Sound

/-- How the client is told of the loss of the link: for the reason of the first cut, after all
packets that were accepted from the peer; not for the second time, and with no packet after it. -/
def TellsOnce (t : Exchange) : Prop :=
  ∀ (before after : History) reason,
    t.history = before ++ (.read, .handed (some (.lost reason))) :: after →
      before.cut = some reason ∧ before.delivered = before.peerAccepted ∧ before.losses = [] ∧
        after.losses = [] ∧ after.delivered = []

theorem TellsOnce.act (sound : Sound t) (h : TellsOnce t) (a : Act) : TellsOnce (t.act a) := by
  intro before after reason split
  rcases History.split_snoc split with ⟨rfl, entry, rfl⟩ | ⟨rest, rfl, earlier⟩
  · obtain ⟨cut, all, none⟩ := sound.told (a := a) (by rw [← entry]; rfl)
    exact ⟨cut, all, none, rfl, rfl⟩
  · obtain ⟨cut, all, none, quiet, still⟩ := h before rest reason earlier
    have ended : t.link.stage = .ended := by
      cases sound.inward with
      | going stage laid silent =>
        rw [earlier] at silent
        simp [History.losses, Entry.loss?] at silent
      | stopped stage laid silent => exact stage
      | lost reason stage laid once => exact stage
    obtain ⟨-, undelivered, untold⟩ := (t.link.effect a).stopped ended
    exact ⟨cut, all, none, by simp [quiet, untold], by simp [still, undelivered]⟩

theorem tellsOnce_run (acts : List Act) : TellsOnce (run acts) := by
  have both : Sound (run acts) ∧ TellsOnce (run acts) :=
    run_induction (P := fun t => Sound t ∧ TellsOnce t)
      ⟨.first, fun _ _ _ h => by simp [fresh] at h⟩
      (fun t a h => ⟨h.1.act a, h.2.act h.1 a⟩) acts
  exact both.2

theorem send_closed {l : Loopback} (closed : l.closed = true) (bs : Bytes) :
    l.perform (.send bs) = (.refused .closed, l) := by
  simp [perform, send, attempt, closed]

theorem send_severed {l : Loopback} (going : l.closed = false) (severed : l.severed = true)
    (bs : Bytes) :
    l.perform (.send bs) = (.refused (.disconnected "peer severed the connection"), l) := by
  simp [perform, send, attempt, going, severed]

/-- **What a link within one process promises**, for any acts of the client, the peer and the
reader in any order. What the peer has received and what waits for it are the packets accepted
from the client, in order, and the link has counted them. What the client was handed is the
beginning of what was accepted from the peer. The client is told of the loss of the link once at
most, for the reason of the first cut, after all packets and with none after it; and not at all if
it closed the link before it was cut. Once the link is closed or cut, the client's packets are
refused and nothing changes. -/
theorem contract (acts : List Act) :
    (run acts).history.received ++ (run acts).link.outbound = (run acts).history.accepted ∧
    (run acts).link.sent = (run acts).history.accepted.length ∧
    (run acts).history.delivered <+: (run acts).history.peerAccepted ∧
    (∀ (before after : History) reason,
      (run acts).history = before ++ (.read, .handed (some (.lost reason))) :: after →
        before.cut = some reason ∧ before.delivered = before.peerAccepted ∧ before.losses = [] ∧
          after.losses = [] ∧ after.delivered = []) ∧
    (∀ (before after : History) answer,
      (run acts).history = before ++ (.close, answer) :: after → before.cut = none →
        (run acts).history.losses = []) ∧
    (∀ answer, (.close, answer) ∈ (run acts).history →
      ∀ bs, (run acts).link.perform (.send bs) = (.refused .closed, (run acts).link)) ∧
    ((run acts).history.cut ≠ none → (∀ answer, (.close, answer) ∉ (run acts).history) →
      ∀ bs, (run acts).link.perform (.send bs) =
        (.refused (.disconnected "peer severed the connection"), (run acts).link)) := by
  have sound := Sound.run acts
  refine ⟨sound.outward, sound.count, sound.delivered_prefix, tellsOnce_run acts,
    fun before after answer split uncut => ?_, fun answer closed bs => ?_,
    fun cut unclosed bs => ?_⟩
  · exact sound.silent ⟨before, _, after, split, rfl, uncut⟩
  · refine send_closed ?_ bs
    rw [sound.closed, History.closed, List.any_eq_true]
    exact ⟨_, closed, rfl⟩
  · refine send_severed ?_ ?_ bs
    · rw [sound.closed, History.closed, List.any_eq_false]
      rintro ⟨a, answer⟩ there
      cases a with
      | close => exact absurd there (unclosed answer)
      | _ => simp [Entry.closes]
    · rw [sound.severed]
      exact Option.isSome_iff_ne_none.mpr cut

/-- The client sends and is sent something, and the peer cuts the link. -/
def cableCut : List Act :=
  [.start none, .send [1], .receive, .send [2], .peerSend [3], .peerSend [4], .read,
    .sever "cable cut", .peerSend [5], .sever "again", .read, .read, .read]

/-- The client is handed both packets that were accepted and then told of the first cut, and its
next packet is refused. A client that closed the link is not told, and its packets are refused. -/
theorem contract_cableCut :
    History.delivered ((run cableCut).history.take 11) = [[3], [4]] ∧
    History.cut ((run cableCut).history.take 11) = some "cable cut" ∧
    (run cableCut).link.perform (.send [6]) =
      (.refused (.disconnected "peer severed the connection"), (run cableCut).link) ∧
    (run [.start none, .close, .dropPeer, .read, .read]).history.losses = [] ∧
    (run [.start none, .close]).link.perform (.send [6]) =
      (.refused .closed, (run [.start none, .close]).link) := by
  obtain ⟨-, -, -, tells, -, -, severed⟩ := contract cableCut
  obtain ⟨cut, all, -⟩ := tells ((run cableCut).history.take 11) ((run cableCut).history.drop 12)
    "cable cut" (by decide)
  obtain ⟨-, -, -, -, silent, -⟩ := contract [.start none, .close, .dropPeer, .read, .read]
  obtain ⟨-, -, -, -, -, closed, -⟩ := contract [.start none, .close]
  refine ⟨all.trans (by decide), cut, severed (by decide) ?_ [6], ?_, closed .done (by decide) [6]⟩
  · intro answer there
    have : (run cableCut).history.closed = true := List.any_eq_true.mpr ⟨_, there, rfl⟩
    exact absurd this (by decide)
  · exact silent [(.start none, .done)]
      [(.dropPeer, .done), (.read, .handed none), (.read, .handed none)] .done (by decide)
      (by decide)

end Exchange

end Federate.Loopback
