/-
Scripts of a rehearsal, in which a client plays against a coordinator that does
as it is told. A script says what the federate does step by step, how the
coordinator responds and what it says on its own account, and what the
federate's handlers do.
-/
import Federate.Ambassador.Errand
import Federate.Text.Json
namespace Federate.Rehearsal

/-- What the coordinator says. -/
inductive Utterance where
  /-- A message, under a number of its own choice or the coordinator's next. -/
  | message (m : Message) (number : Option UInt32)
  | raw (packet : Bytes)

/-- How the coordinator answers a packet. -/
inductive Answer where
  /-- As coordinators do. -/
  | usual
  /-- With an outcome, if it is a call; otherwise as usual. -/
  | outcome (o : CallOutcome)
  | silence
  | cut (reason : String)

/-- What the coordinator does about a packet. -/
structure Response where
  /-- The link refuses the packet, and nothing else happens. -/
  refusal : Option LinkFault
  before : List Utterance
  answer : Answer
  /-- A heartbeat gets a sign of life for its answer, and otherwise none. -/
  sign : Bool
  after : List Utterance
  /-- The link is cut in the end. -/
  cut : Option String

/-- The usual answer and nothing else. -/
def Response.usual : Response := ⟨none, [], .usual, false, [], none⟩

/-- How the coordinator welcomes a new session. -/
structure Welcome where
  status : SessionStatus
  session : UInt64
  response : Response

def Welcome.usual : Welcome := ⟨.ok, 77, .usual⟩

/-- A setting of the coordinator, or of the way to it. -/
inductive Setting where
  | family (f : TimeFamily)
  | welcome (w : Welcome)
  /-- About the end of a session. -/
  | farewell (r : Response)
  | heartbeat (r : Response)
  /-- About packets that want no answer. -/
  | acknowledgement (r : Response)
  | connectFault (e : Option LinkFault)
  | startFault (e : Option LinkFault)

/-- What a federate does. A request that could not be made out is the report that refuses it. -/
inductive Act where
  | call (r : Except Text.Json Request)
  /-- A call from another thread. -/
  | callElsewhere (r : Except Text.Json Request)
  /-- Connecting in a handler, where it is never allowed. -/
  | connectAgain (model : CallbackModel)
  | disconnect
  | flags
  | enable
  | disable
  | evoke
  /-- Evokes callbacks, all of them if there is time. -/
  | evokeMultiple (time : Bool)
  | unreadable (report : Text.Json)

/-- An act of the federate or of the coordinator. -/
inductive Cue where
  | act (a : Act)
  | push (us : List Utterance)
  | sever (reason : String)
  /-- One more response to the next calls of an operation. -/
  | script (tag : UInt16) (r : Response)
  | set (s : Setting)
  /-- A call that waits in the background. -/
  | begin (id : String) (r : Except Text.Json Request)
  /-- Answers a call in the background. -/
  | release (id : String) (o : CallOutcome)

/-- How a handler breaks off. -/
inductive Break where
  | text (s : String)
  /-- With something that is no text. -/
  | other

/-- The federate of a connection: what its handlers do, by name. -/
structure Role where
  hooks : List (String × List Cue)
  breaks : List (String × Break)
  failures : List (String × Fault)

/-- A step of a script. A connection without a role has a federate whose handlers do nothing and
keep no record. -/
inductive Step where
  | cue (c : Cue)
  | connect (model : CallbackModel) (localLine overrides : Option String) (role : Option Role)

/-- What came of a step. -/
inductive Result where
  | nothing
  | reply (r : Except Fault Reply)
  | truth (r : Except Fault Bool)
  | standing (s : Standing)
  | count (n : Nat)
  | numbers (ns : List UInt32)
  | text (s : String)
  | unreadable (report : Text.Json)

/-- The result of evoking callbacks, if it comes back. -/
def Result.ofSummons : Option (Except Fault Bool) → Result
  | none => .nothing
  | some r => .truth r

/-- The result of a step that only succeeds or fails. -/
def Result.ofAttempt : Except Fault Unit → Result
  | .ok () => .nothing
  | .error e => .reply (.error e)

end Federate.Rehearsal
