/-
Settings as a JSON document. Written, a document names every setting; read, a
setting that is missing keeps its standard value, names that no setting has are
passed over, and a setting named twice or with a value of the wrong kind spoils
the document. In place of names the values may stand in an array, in order.
-/
import Federate.Settings
import Federate.Text.Json
namespace Federate.Settings

open Text (Json)

open Text.Json in
/-- The document of a duration: seconds, and nanoseconds past them. -/
def durationDocument (d : Duration) : Json :=
  ofMembers [("secs", ofNat d.seconds), ("nanos", ofNat d.subsecond)]

open Text.Json in
/-- The document of settings. -/
def document (s : Settings) : Json :=
  ofMembers
    [("heartbeat_interval", durationDocument s.heartbeatInterval),
     ("response_timeout", durationDocument s.responseTimeout),
     ("reconnect_limit", durationDocument s.reconnectLimit),
     ("connect_timeout", (s.connectTimeout.map durationDocument).getD .null),
     ("async_updates", .bool s.asyncUpdates),
     ("rate_limited", .bool s.rateLimited),
     ("host", ofString s.host),
     ("port", ofNat s.port.toNat),
     ("protocol", ofString s.protocol.name),
     ("max_retry_attempts", ofNat s.maxRetryAttempts.toNat),
     ("message_queue_size", ofNat s.messageQueueSize.toNat)]

/-- The name of a setting in a document. -/
def Key.member : Key → String
  | .heartbeatInterval => "heartbeat_interval"
  | .responseTimeout => "response_timeout"
  | .reconnectLimit => "reconnect_limit"
  | .connectTimeout => "connect_timeout"
  | .asyncUpdates => "async_updates"
  | .rateLimited => "rate_limited"
  | .host => "host"
  | .port => "port"
  | .protocol => "protocol"
  | .maxRetryAttempts => "max_retry_attempts"
  | .messageQueueSize => "message_queue_size"

/-- The order of the settings in a document. -/
def Key.inOrder : List Key :=
  [.heartbeatInterval, .responseTimeout, .reconnectLimit, .connectTimeout, .asyncUpdates,
   .rateLimited, .host, .port, .protocol, .maxRetryAttempts, .messageQueueSize]

private def below (bound : Nat) (v : Json) : Option Nat := do
  let n ← v.natural?
  if n < bound then some n else none

/-- A duration of seconds and nanoseconds, whole seconds among the latter carried over. -/
def durationOf? (secs nanos : Json) : Option Duration := do
  let s ← below 0x10000000000000000 secs
  let n ← below 0x100000000 nanos
  if s + n / Duration.perSecond < 0x10000000000000000 then some ⟨s * Duration.perSecond + n⟩
  else none

/-- The duration of a document, which must name both parts and nothing else. -/
def readDurationDocument (v : Json) : Option Duration :=
  match v, v.members? with
  | .array [s, n], _ => durationOf? s n
  | _, some [("secs", s), ("nanos", n)] => durationOf? s n
  | _, some [("nanos", n), ("secs", s)] => durationOf? s n
  | _, _ => none

/-- The protocol of a document: its name, alone or with nothing under it. -/
def readProtocolDocument (v : Json) : Option Protocol :=
  match v.members? with
  | some [(name, .null)] => Protocol.ofName? name
  | _ => do Protocol.ofName? (← v.string?)

/-- The change that a member of a document makes; a connect timeout may be absent, which leaves
it as it is. -/
def Key.readDocument (k : Key) (v : Json) : Option (Option Change) :=
  match k, v with
  | .heartbeatInterval, v => do return some ⟨.heartbeatInterval, ← readDurationDocument v⟩
  | .responseTimeout, v => do return some ⟨.responseTimeout, ← readDurationDocument v⟩
  | .reconnectLimit, v => do return some ⟨.reconnectLimit, ← readDurationDocument v⟩
  | .connectTimeout, .null => some none
  | .connectTimeout, v => do return some ⟨.connectTimeout, ← readDurationDocument v⟩
  | .asyncUpdates, .bool b => some (some ⟨.asyncUpdates, b⟩)
  | .rateLimited, .bool b => some (some ⟨.rateLimited, b⟩)
  | .host, v => do return some ⟨.host, ← v.string?⟩
  | .port, v => do return some ⟨.port, UInt16.ofNat (← below 0x10000 v)⟩
  | .protocol, v => do return some ⟨.protocol, ← readProtocolDocument v⟩
  | .maxRetryAttempts, v => do return some ⟨.maxRetryAttempts, UInt32.ofNat (← below 0x100000000 v)⟩
  | .messageQueueSize, v => do return some ⟨.messageQueueSize, UInt32.ofNat (← below 0x100000000 v)⟩
  | .asyncUpdates, _ | .rateLimited, _ => none

private def applyDocument (s : Settings) (k : Key) (v : Json) : Option Settings := do
  return ((← k.readDocument v).map s.apply).getD s

/-- The settings of named values. -/
def readMembers (members : List (String × Json)) : Option Settings := do
  let named := members.filterMap fun m => (Key.inOrder.find? (·.member == m.1)).map (·, m.2)
  if (named.map Prod.fst).Nodup then
    named.foldlM (fun s m => applyDocument s m.1 m.2) standard
  else none

/-- The settings of values in order; no more than there are settings. -/
def readItems (items : List Json) : Option Settings :=
  if items.length ≤ Key.inOrder.length then
    (Key.inOrder.zip items).foldlM (fun s m => applyDocument s m.1 m.2) standard
  else none

/-- The settings of a document. -/
def ofDocument? : Json → Option Settings
  | .array items => readItems items
  | v => do readMembers (← v.members?)

/-- The settings of the text of a document. -/
def ofText? (s : String) : Option Settings := do ofDocument? (← Json.ofText? s)

end Federate.Settings
