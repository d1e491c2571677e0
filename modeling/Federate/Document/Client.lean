/-
Documents of a client's settings and standing.
-/
import Federate.Document.Basic
import Federate.Standing
namespace Federate.Document

open Text (Json)

def duration (d : Duration) : Json := .array [decimal d.seconds, number d.subsecond]

/-- All settings, and what follows from them. -/
def settings (s : Settings) : Json :=
  .ofMembers [("heartbeat_interval", duration s.heartbeatInterval),
    ("response_timeout", duration s.responseTimeout),
    ("reconnect_limit", duration s.reconnectLimit),
    ("connect_timeout", .ofOption duration s.connectTimeout),
    ("async_updates", truth s.asyncUpdates), ("rate_limited", truth s.rateLimited),
    ("host", text s.host), ("port", number s.port.toNat), ("protocol", text s.protocol.name),
    ("max_retry_attempts", number s.maxRetryAttempts.toNat),
    ("message_queue_size", number s.messageQueueSize.toNat),
    ("effective_connect_timeout", duration s.connectLimit),
    ("call_timeout", .ofOption duration s.callLimit),
    ("endpoint", text s.endpoint.text), ("endpoint_timeout", duration s.endpoint.timeout)]

/-- Settings, or the report of their refusal. -/
def readSettings : Except SettingsFault Settings → Reading Settings
  | .ok s => .ok s
  | .error e => .error (settingsFault e)

def standing (s : Standing) : Json :=
  .array [truth s.connected, truth s.joined, text s.regulation.name, text s.constrained.name,
    text ((s.advance.map Advance.name).getD "None"), text s.save.name, text s.restore.name,
    .ofOption (fun f => text f.name) s.family]

end Federate.Document
