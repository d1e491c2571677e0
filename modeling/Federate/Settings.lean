/-
Client settings, read from lines of `name=value` entries between commas. Each
entry is checked by itself (`Change.ofEntry`) and then changes one setting;
lines are applied in order, so that the last entry for a setting stands. How
durations are put in words is left to a reader of such words, which the reading of
lines is given (`Words`).
-/
import Federate.Duration.Phrase
import Federate.Link
import Federate.Text.Blank
namespace Federate

/-- The settings of a client. -/
structure Settings where
  heartbeatInterval : Duration
  /-- How long an answer may take; no limit when zero. -/
  responseTimeout : Duration
  reconnectLimit : Duration
  connectTimeout : Option Duration
  /-- Are updates sent without waiting for their answers? -/
  asyncUpdates : Bool
  rateLimited : Bool
  host : String
  port : UInt16
  protocol : Protocol
  maxRetryAttempts : UInt32
  messageQueueSize : UInt32
  deriving DecidableEq, Repr

/-- Why a line of settings is refused. -/
inductive SettingsFault where
  | unknownSetting (name : String)
  | malformed (entry : String)
  | invalidValue (name value reason : String)
  deriving DecidableEq, Repr

namespace SettingsFault

def name : SettingsFault → String
  | .unknownSetting _ => "UnknownSetting"
  | .malformed _ => "Malformed"
  | .invalidValue _ _ _ => "InvalidValue"

/-- The wording of a refusal. -/
def message : SettingsFault → String
  | .unknownSetting n => "unknown setting '" ++ n ++ "'"
  | .malformed e => "malformed settings entry '" ++ e ++ "', expected name=value"
  | .invalidValue n v reason => "invalid value '" ++ v ++ "' for " ++ n ++ ": " ++ reason

/-- The fault that a refusal amounts to. -/
def fault (e : SettingsFault) : Fault := .known .invalidLocalSettingsDesignator e.message

end SettingsFault

namespace Settings

/-- The settings where no line says otherwise. -/
def standard : Settings where
  heartbeatInterval := .ofSeconds 60
  responseTimeout := .ofSeconds 180
  reconnectLimit := .ofSeconds 600
  connectTimeout := none
  asyncUpdates := false
  rateLimited := false
  host := "localhost"
  port := 15164
  protocol := .tcp
  maxRetryAttempts := 0
  messageQueueSize := 2000

/-- The names of the settings. -/
inductive Key where
  | heartbeatInterval
  | responseTimeout
  | reconnectLimit
  | connectTimeout
  | asyncUpdates
  | rateLimited
  | host
  | port
  | protocol
  | maxRetryAttempts
  | messageQueueSize
  deriving DecidableEq, Repr

namespace Key

/-- The spelling of a name in a line. -/
def name : Key → String
  | .heartbeatInterval => "FED_INT_HEART"
  | .responseTimeout => "FED_TIMEOUT_HEART"
  | .reconnectLimit => "FED_TIMEOUT_RECONNECT"
  | .connectTimeout => "connect.timeout"
  | .asyncUpdates => "asyncUpdates"
  | .rateLimited => "messageQueue.outgoing.limitedRate"
  | .host => "connect.hostname"
  | .port => "connect.port"
  | .protocol => "connect.protocol"
  | .maxRetryAttempts => "connect.maxRetryAttempts"
  | .messageQueueSize => "messageQueue.size"

def all : List Key :=
  [.heartbeatInterval, .responseTimeout, .reconnectLimit, .connectTimeout, .asyncUpdates,
   .rateLimited, .host, .port, .protocol, .maxRetryAttempts, .messageQueueSize]

/-- The setting that a name stands for. -/
def ofName? (n : String) : Option Key := all.find? (·.name == n)

theorem ofName?_name (k : Key) : ofName? k.name = some k := by cases k <;> rfl

theorem name_of_ofName? {n : String} {k : Key} (h : ofName? n = some k) : k.name = n := by
  simpa using List.find?_some h

/-- What a setting holds. -/
@[reducible] def Value : Key → Type
  | .heartbeatInterval | .responseTimeout | .reconnectLimit | .connectTimeout => Duration
  | .asyncUpdates | .rateLimited => Bool
  | .host => String
  | .port => UInt16
  | .protocol => Protocol
  | .maxRetryAttempts | .messageQueueSize => UInt32

end Key

/-! ## Values in lines -/

/-- The number that decimal digits spell, if there is nothing else. -/
def digits? (cs : List Char) : Option Nat :=
  if !cs.isEmpty && cs.all Char.isDigit then
    some (cs.foldl (fun n c => n * 10 + (c.toNat - 48)) 0)
  else none

private def tooLarge : String := "number too large to fit in target type"

/-- A number of decimal digits below `bound`. -/
def readNumber (bound : Nat) (cs : List Char) : Except String Nat :=
  match digits? cs with
  | none => .error "expected an unsigned integer"
  | some n => if n < bound then .ok n else .error tooLarge

/-- A reader of durations in words; where it refuses it says why. -/
abbrev Words : Type := List Char → Except String Duration

/-- Durations in words such as `1m 30s`. -/
def phrases : Words := fun cs =>
  match Duration.Phrase.read cs with
  | .ok d => .ok d
  | .error flaw => .error flaw.message

/-- A duration: whole seconds in digits alone, or words. -/
def readDuration (words : Words) (cs : List Char) : Except String Duration :=
  match digits? cs with
  | some n => if n < 0x10000000000000000 then .ok (.ofSeconds n) else .error tooLarge
  | none => words cs

/-- A truth value, in ASCII letters of either case. -/
def readFlag (cs : List Char) : Except String Bool :=
  let lower := cs.map Char.toLower
  if lower = "true".toList then .ok true
  else if lower = "false".toList then .ok false
  else .error "expected true or false"

/-- The value of a setting. -/
def Key.read (words : Words) (k : Key) (cs : List Char) : Except String k.Value :=
  match k with
  | .heartbeatInterval | .responseTimeout | .reconnectLimit | .connectTimeout =>
    readDuration words cs
  | .asyncUpdates | .rateLimited => readFlag cs
  | .host => if cs.isEmpty then .error "empty host name" else .ok (String.ofList cs)
  | .port => do return UInt16.ofNat (← readNumber 0x10000 cs)
  | .protocol =>
    match Protocol.ofText (String.ofList cs) with
    | .ok p => .ok p
    | .error e => .error e.message
  | .maxRetryAttempts | .messageQueueSize => do return UInt32.ofNat (← readNumber 0x100000000 cs)

/-- A change to one setting. -/
structure Change where
  key : Key
  value : key.Value

/-- The change that an entry asks for. Blanks around the name and the value do not count. -/
def Change.ofEntry (words : Words) (entry : List Char) : Except SettingsFault Change :=
  match Text.cutAt '=' entry with
  | none => .error (.malformed (String.ofList entry))
  | some (left, right) =>
    let name := String.ofList (Text.trim left)
    match Key.ofName? name with
    | none => .error (.unknownSetting name)
    | some key =>
      let value := Text.trim right
      match key.read words value with
      | .ok value => .ok { key, value }
      | .error reason => .error (.invalidValue name (String.ofList value) reason)

/-- The settings with one of them changed. -/
def apply (s : Settings) (c : Change) : Settings :=
  match c with
  | ⟨.heartbeatInterval, v⟩ => { s with heartbeatInterval := v }
  | ⟨.responseTimeout, v⟩ => { s with responseTimeout := v }
  | ⟨.reconnectLimit, v⟩ => { s with reconnectLimit := v }
  | ⟨.connectTimeout, v⟩ => { s with connectTimeout := some v }
  | ⟨.asyncUpdates, v⟩ => { s with asyncUpdates := v }
  | ⟨.rateLimited, v⟩ => { s with rateLimited := v }
  | ⟨.host, v⟩ => { s with host := v }
  | ⟨.port, v⟩ => { s with port := v }
  | ⟨.protocol, v⟩ => { s with protocol := v }
  | ⟨.maxRetryAttempts, v⟩ => { s with maxRetryAttempts := v }
  | ⟨.messageQueueSize, v⟩ => { s with messageQueueSize := v }

/-- The entries of a line: what stands between commas, without blanks around it, unless empty. -/
def entries (line : String) : List (List Char) :=
  ((Text.fields ',' line.toList).map Text.trim).filter (!·.isEmpty)

/-- The settings after some entries; the first bad one is reported. -/
def applyEntries (words : Words) (s : Settings) (es : List (List Char)) :
    Except SettingsFault Settings :=
  es.foldlM (fun s e => do return s.apply (← Change.ofEntry words e)) s

/-- The settings after a line. -/
def applyLine (words : Words) (s : Settings) (line : String) : Except SettingsFault Settings :=
  s.applyEntries words (entries line)

/-- The standard settings changed by a line of defaults, a line of the federate's own and a line
of overrides, in this order. -/
def layeredBy (words : Words) (defaults : Option String) (line : String)
    (overrides : Option String) : Except SettingsFault Settings :=
  (defaults.toList ++ [line] ++ overrides.toList).foldlM (applyLine words) standard

/-- Settings for one connection: changed by a line for it, and by the overrides again. -/
def localBy (words : Words) (s : Settings) (line : String) (overrides : Option String) :
    Except SettingsFault Settings :=
  ([line] ++ overrides.toList).foldlM (applyLine words) s

@[inherit_doc layeredBy] def layered (defaults : Option String) (line : String)
    (overrides : Option String) : Except SettingsFault Settings :=
  layeredBy phrases defaults line overrides

@[inherit_doc localBy] def local? (s : Settings) (line : String) (overrides : Option String) :
    Except SettingsFault Settings :=
  s.localBy phrases line overrides

/-- How long connecting may take: as long as an answer, unless set. -/
def connectLimit (s : Settings) : Duration := s.connectTimeout.getD s.responseTimeout

/-- How long an answer may take, if there is a limit. -/
def callLimit (s : Settings) : Option Duration :=
  if s.responseTimeout.isZero then none else some s.responseTimeout

/-- Where the settings lead. -/
def endpoint (s : Settings) : Endpoint where
  host := s.host
  port := s.port
  protocol := s.protocol
  timeout := s.connectLimit

end Settings

end Federate
