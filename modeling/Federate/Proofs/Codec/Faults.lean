/-
Faults on the wire. A coordinator reports a fault by its name and details, and
the call that it answers ends in the fault that is rebuilt from them
(`Fault.survives`). The names of the kinds are a table in which no two are the
same (`Kind.nodup_names`), and the names of the newer vocabulary are none of
them (`Kind.apart_aliases`); so a kind is found under its own name, an alias
under the name of its kind, and what is under neither keeps the name under which
it came.
-/
import Mathlib.Data.List.Nodup
import Federate.Proofs.Codec.Packets
import Federate.Session.Call
import Federate.Session.Presence
namespace Federate

open Bytes (capacity)

/-! ## Names -/

namespace Fault.Kind

variable {n : String} {k : Kind}

theorem nodup_names : (all.map name).Nodup := by decide +kernel

theorem nodup_aliases : (aliases.map Prod.fst).Nodup := by decide +kernel

/-- No kind has the name of an alias. -/
theorem apart_aliases : ∀ a ∈ aliases, ∀ k ∈ all, k.name ≠ a.1 := by decide +kernel

/-- A table without repeated keys is searched by key. -/
theorem find?_eq_some_of_nodup {α : Type} {key : α → String} {table : List α} {x : α}
    (nodup : (table.map key).Nodup) (mem : x ∈ table) :
    table.find? (fun y => key y == key x) = some x := by
  cases found : table.find? (fun y => key y == key x) with
  | none => exact absurd (List.find?_eq_none.mp found x mem) (by simp)
  | some y =>
    have same : key y = key x := by simpa using List.find?_some found
    rw [List.inj_on_of_nodup_map nodup (List.mem_of_find?_eq_some found) mem same]

/-- A kind is found under its own name. -/
theorem ofName?_name (k : Kind) : ofName? k.name = some k := by
  rw [ofName?, find?_eq_some_of_nodup nodup_names k.mem_all]
  rfl

/-- A name that no kind has is looked up among the aliases. -/
theorem ofName?_of_other (other : ∀ k : Kind, k.name ≠ n) :
    ofName? n = (aliases.find? fun a => a.1 == n).map Prod.snd := by
  have missing : all.find? (fun k => k.name == n) = none :=
    List.find?_eq_none.mpr fun k _ => by simpa using other k
  rw [ofName?, missing]
  rfl

/-- An alias stands for its kind. -/
theorem ofName?_of_alias (known : (n, k) ∈ aliases) : ofName? n = some k := by
  rw [ofName?_of_other fun k' => apart_aliases _ known k' k'.mem_all,
    find?_eq_some_of_nodup nodup_aliases known]
  rfl

/-- What stands for nothing is neither the name of a kind nor an alias. -/
theorem ofName?_eq_none_iff :
    ofName? n = none ↔ (∀ k : Kind, k.name ≠ n) ∧ ∀ k, (n, k) ∉ aliases := by
  constructor
  · intro h
    refine ⟨?_, fun k known => ?_⟩
    · rintro k rfl
      rw [ofName?_name] at h
      cases h
    · rw [ofName?_of_alias known] at h
      cases h
  · rintro ⟨other, unaliased⟩
    rw [ofName?_of_other other, Option.map_eq_none_iff, List.find?_eq_none]
    rintro ⟨m, k⟩ known same
    rw [beq_iff_eq] at same
    exact unaliased k (same ▸ known)

/-- What stands for a kind is its name or an alias of it. -/
theorem name_or_alias_of_ofName? (h : ofName? n = some k) : k.name = n ∨ (n, k) ∈ aliases := by
  by_cases named : ∃ k' : Kind, k'.name = n
  · obtain ⟨k', rfl⟩ := named
    rw [ofName?_name] at h
    cases h
    exact .inl rfl
  · rw [ofName?_of_other fun k' same => named ⟨k', same⟩, Option.map_eq_some_iff] at h
    obtain ⟨⟨m, _⟩, found, rfl⟩ := h
    have same : m = n := by simpa using List.find?_some found
    exact .inr (same ▸ List.mem_of_find?_eq_some found)

end Fault.Kind

/-! ## Faults from names -/

namespace Fault

variable {n : String} {k : Kind}

theorem ofName_of_kind (h : Kind.ofName? n = some k) (d : String) : ofName n d = .known k d := by
  rw [ofName, h]

theorem ofName_of_none (h : Kind.ofName? n = none) (d : String) :
    ofName n d = .unexpected n d := by
  rw [ofName, h]

@[simp] theorem ofName_name (k : Kind) (d : String) : ofName k.name d = .known k d :=
  ofName_of_kind k.ofName?_name d

/-- A fault that was rebuilt is rebuilt again as it is. -/
theorem ofName_originalName (n d : String) :
    ofName (ofName n d).originalName (ofName n d).details = ofName n d := by
  cases h : Kind.ofName? n with
  | some k =>
    rw [ofName_of_kind h]
    exact ofName_name k d
  | none =>
    rw [ofName_of_none h]
    exact ofName_of_none h d

/-- Only an alias gives up its name, for that of its kind. -/
theorem originalName_ofName (d : String) (unaliased : ∀ k, (n, k) ∉ Kind.aliases) :
    (ofName n d).originalName = n := by
  cases h : Kind.ofName? n with
  | some k =>
    rw [ofName_of_kind h]
    exact (Kind.name_or_alias_of_ofName? h).resolve_right (unaliased k)
  | none =>
    rw [ofName_of_none h]
    rfl

theorem unexpected_ofName_iff (n d : String) :
    (∃ m e, ofName n d = .unexpected m e) ↔ Kind.ofName? n = none := by
  cases h : Kind.ofName? n with
  | some k => simp [ofName_of_kind h]
  | none => simp [ofName_of_none h]

end Fault

/-! ## A call that is answered with a fault -/

theorem Session.slot_wake (s : Session) (ticket : Nat) (w : Wakening) :
    (s.wake ticket w).slot ticket = (s.slot ticket).complete w := by
  rw [slot, wake, List.getElem?_modify, slot]
  cases s.slots[ticket]? <;> simp [Slot.complete]

/-- The answer to a call that waits lies in its slot. -/
theorem Presence.slot_resolve {p : Presence} {number : UInt32} {ticket : Nat} {tag : UInt16}
    (waits : p.session.pending.lookup number = some (.blocking ticket tag))
    (empty : p.session.slot ticket = .empty) (name details : String) :
    (p.resolve number (.fault name details)).session.slot ticket =
      .filled (.ok (.fault name details)) := by
  have waits' : (p.session.count (.countResponse true)).pending.lookup number =
      some (.blocking ticket tag) := waits
  simp only [resolve, isFault, onSession, Session.claim, waits', noteOutcome, Session.slot_wake]
  show (p.session.slot ticket).complete _ = _
  rw [empty]
  rfl

/-- A call that waits ends on what lies in its slot. -/
theorem Call.step_of_filled {c : Call} {s : Session} {number : UInt32} {ticket : Nat}
    {w : Session.Wakening} (stage : c.stage = .waiting number) (own : c.ticket = some ticket)
    (filled : s.slot ticket = .filled w) : (c.step s).1 = c.goTo (.ended (result w)) := by
  simp only [step, stage, own, Session.collect, filled, Slot.take]

namespace Fault

/-- **Faults survive the wire.** A name and details that fit into a packet go through it, and the
call that waits for the answer ends in the fault that they stand for. It has these details, and the
name is that under which it came, or that of the kind for which this is an alias; only a name that
is neither that of a kind nor an alias makes an unexpected fault. A fault that was rebuilt is
rebuilt again as it is, raised or not, and so is every fault of a registered kind. -/
theorem survives {n d : String} (fits : 37 + n.utf8ByteSize + d.utf8ByteSize < capacity 4)
    (number sequence : UInt32) (session : UInt64) (last : UInt32) :
    (∃ packet, Packet.decode
        (Packet.encode (.callResponse number (.fault n d)) sequence session last) = .ok packet ∧
      ∀ (p : Presence) (now : Duration) (ticket : Nat) (tag : UInt16) (c : Call) (s : Session),
        p.session.pending.lookup number = some (.blocking ticket tag) →
        p.session.slot ticket = .empty → c.stage = .waiting number → c.ticket = some ticket →
        s.slot ticket = (p.receive packet now).2.session.slot ticket →
        (c.step s).1 = c.goTo (.ended (.error (ofName n d)))) ∧
    (ofName n d).details = d ∧
    (∀ k, (n, k) ∈ Kind.aliases → (ofName n d).originalName = k.name) ∧
    ((∀ k, (n, k) ∉ Kind.aliases) → (ofName n d).originalName = n) ∧
    ((∃ m e, ofName n d = .unexpected m e) ↔
      (∀ k : Kind, k.name ≠ n) ∧ ∀ k, (n, k) ∉ Kind.aliases) ∧
    ofName (ofName n d).originalName (ofName n d).details = ofName n d ∧
    (∀ α : Type, (raise n d : Except Fault α) = .error (ofName n d)) ∧
    ∀ (k : Kind) (e : String), ofName (known k e).name (known k e).details = .known k e := by
  have size : Packet.headerLength + (Message.callResponse number (.fault n d)).body.length <
      capacity 4 := by
    rw [Message.body, List.length_append, Bytes.length_ofUInt32, Message.length_faultBody]
    have length (s : String) : (Text.encode s).length = s.utf8ByteSize := rfl
    rw [length, length]
    exact lt_of_eq_of_lt (by simp only [Packet.headerLength]; omega) fits
  refine ⟨⟨_, Packet.decode_encode size sequence session last, ?_⟩, details_ofName n d, ?_,
    originalName_ofName d, (unexpected_ofName_iff n d).trans Kind.ofName?_eq_none_iff,
    ofName_originalName n d, fun _ => rfl, ofName_name⟩
  · intro p now ticket tag c s waits empty stage own same
    refine Call.step_of_filled (w := .ok (.fault n d)) stage own (same.trans ?_)
    exact Presence.slot_resolve (p := p.onSession (·.stamp sequence now)) waits empty n d
  · intro k known
    rw [ofName_of_kind (Kind.ofName?_of_alias known)]
    rfl

/-- A federate that waits for the answer to its ninth packet. -/
def asking : Presence :=
  ⟨{ Session.fresh ⟨none, none, .zero, none, ""⟩ .zero with
      pending := [(9, .blocking 0 10)]
      slots := [.empty] }, .fresh⟩

/-- The call that waits. -/
def asked : Call := { envelope := ⟨10, []⟩, ticket := some 0, stage := .waiting 9 }

/-- A fault of the newer vocabulary comes to the call as one of the older, with details outside
ASCII. -/
theorem survives_as_older : ∃ packet, Packet.decode
      (Packet.encode (.callResponse 9 (.fault "ErrorReadingFOM" "über")) 5 42 4) = .ok packet ∧
    (asked.step (asking.receive packet .zero).2.session).1 =
      asked.goTo (.ended (.error (.known .errorReadingFdd "über"))) ∧
    (ofName "ErrorReadingFOM" "über").originalName = "ErrorReadingFDD" := by
  have older : ("ErrorReadingFOM", Kind.errorReadingFdd) ∈ Kind.aliases := by decide
  obtain ⟨⟨packet, decoded, ends⟩, -, renamed, -⟩ :=
    survives (n := "ErrorReadingFOM") (d := "über") (by decide) 9 5 42 4
  have ended := ends asking .zero 0 10 asked _ rfl rfl rfl rfl rfl
  rw [ofName_of_kind (Kind.ofName?_of_alias older)] at ended
  exact ⟨packet, decoded, ended, renamed _ older⟩

end Fault

end Federate
