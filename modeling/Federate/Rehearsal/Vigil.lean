/-
Vigils: a client connects and then does nothing but give signs of life, one
after each interval, until enough of them have gone out and some time has
passed, or until its session is lost.
-/
import Federate.Rehearsal.Performance
namespace Federate.Rehearsal

/-- What a vigil waits for. -/
structure Vigil where
  /-- What the coordinator does about a heartbeat. -/
  response : Response
  beats : Nat
  untilLost : Bool
  wait : Duration

/-- How a vigil went. -/
structure Vigil.Report where
  heartbeats : List Bytes
  /-- How often a heartbeat was given to the link, taken or not. -/
  attempts : Nat
  connected : Bool
  /-- What came of a call in the end. -/
  call : Except Fault Reply
  /-- The callback that a handler got in the end, if one was evoked. -/
  delivered : List Performance.Delivery

namespace Vigil

open Performance

/-- How far a vigil has come. -/
structure Progress where
  attempts : Nat
  /-- Heartbeats still go out. -/
  alive : Bool
  /-- When enough heartbeats had gone out. -/
  enough : Option Duration

/-- Is the wait over before the next heartbeat, at `next`? -/
def isOver (v : Vigil) (p : Progress) (next : Duration) : Bool :=
  match p.enough with
  | none => false
  | some t => !v.untilLost && t.nanoseconds + v.wait.nanoseconds < next.nanoseconds

/-- Has the vigil seen enough heartbeats? -/
def note (v : Vigil) (p : Progress) (now : Duration) : Progress :=
  if p.enough.isNone && v.beats ≤ p.attempts then { p with enough := some now } else p

/-- Keeps the vigil over one session. -/
def keep (v : Vigil) (i : Nat) (interval : Duration) : (fuel : Nat) → Progress → Scene Progress
  | 0, p => pure p
  | fuel + 1, p => do
    let next : Duration := ⟨(← Client.ambassador).clock.nanoseconds + interval.nanoseconds⟩
    if !p.alive || v.isOver p next then return p
    Client.alter fun a => { a with clock := next }
    let a ← Client.ambassador
    let attempted := ((a.session i).overdue? a.clock).isNone
    let alive ← Client.beat line i
    keep v i interval fuel
      (v.note { p with attempts := p.attempts + attempted.toNat, alive } next)

/-- How many heartbeats a vigil may take. -/
def length (v : Vigil) (limits : Session.Limits) : Nat :=
  let span := v.wait.nanoseconds + (limits.liveness.getD .zero).nanoseconds
  v.beats + span / limits.heartbeat.nanoseconds + 2

/-- The heartbeats among packets. -/
def heartbeats (packets : List Bytes) : List Bytes :=
  packets.filter fun bs =>
    match Packet.decode bs with
    | .ok p => p.message == .heartbeat
    | .error _ => false

/-- Evokes what waits, one callback after another, until a handler has got one. -/
def evokeFirst : (pending : Nat) → Scene Unit
  | 0 => pure ()
  | pending + 1 => do
    discard (Client.evoke line handler .application)
    if (← world).delivered.isEmpty then evokeFirst pending

/-- Keeps a vigil from the beginning, in which a fault of the connection ends it. A vigil that
waited for the loss of its session goes on until a handler has got something. -/
def watch (v : Vigil) : Scene (Except Fault Report) := do
  alterCoordinator (·.set (.heartbeat v.response))
  cast (some ⟨[], [], []⟩)
  match ← (Client.connect line handler .application .evoked none none).run with
  | .error e => return .error e
  | .ok () =>
    let some (i, s) ← latest? | return .error Session.absent
    let start : Progress := v.note ⟨0, !s.limits.heartbeat.isZero, none⟩ .zero
    let p ← v.keep i s.limits.heartbeat (v.length s.limits) start
    if v.untilLost then evokeFirst ((← Client.ambassador).session i).queue.items.length
    let connected := (← Client.ambassador).standing.connected
    let call ← Client.perform line .application (.other 900 [] .connection)
    let w ← world
    return .ok {
      heartbeats := (heartbeats w.coordinator.sent.reverse).take v.beats
      attempts := p.attempts
      connected
      call
      delivered := w.delivered.reverse }

/-- Keeps a vigil. -/
def run (v : Vigil) (settings : Settings) : Except Fault Report :=
  Rehearsal.run v.watch settings .fresh

end Vigil

end Federate.Rehearsal
