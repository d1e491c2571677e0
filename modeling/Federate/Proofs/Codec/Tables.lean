/-
Sets of handles and maps from handles in use. Whatever is inserted, erased and
read, and in whatever order, a table stays what mathematics makes of the same
steps (`get?_after`, `toFinset_keys_after`): a step does to the table what it
does to the set or map (`get?_apply`), and so do all steps of a run. With the
listings of the module before, this makes the bytes of a table depend on its
contents alone and its contents on its bytes alone (`canonical`).
-/
import Mathlib.Data.Finset.Basic
import Federate.Proofs.Codec.Listings
namespace Federate.Handle.Table

open Bytes (capacity)

variable {k : Handle.Kind} {β : Type} {u : Usage β}

/-- What is done to a table. -/
inductive Step (k : Handle.Kind) (β : Type) where
  | insert (h : Handle k) (v : β)
  | erase (h : Handle k)
  | read (payload : Bytes)

/-- What the user of a table is told. -/
inductive Answer (u : Usage β) where
  | told (reply : u.Reply)
  /-- The bytes behind a table that could be read. -/
  | left (rest : Bytes)
  | refused (e : Fault)

namespace Step

/-- A step with its answer. A reading that fails leaves the table as it was. -/
def apply (u : Usage β) (t : Table k β) : Step k β → Answer u × Table k β
  | .insert h v => (u.insert t h v).map .told id
  | .erase h => (u.erase t h).map .told id
  | .read payload =>
    match (Table.read k u.read).run payload with
    | (.ok t', rest) => (.left rest, t')
    | (.error e, _) => (.refused e, t)

/-- What the step makes of a map: a reading puts the entries listed in place of it. -/
def onMap (u : Usage β) (m : Handle k → Option β) : Step k β → Handle k → Option β
  | .insert h v => Function.update m h (some v)
  | .erase h => Function.update m h none
  | .read payload => ((u.listed? k payload).map lastValue).getD m

/-- What the step makes of a set. -/
def onSet (s : Finset (Handle k)) : Step k Unit → Finset (Handle k)
  | .insert h _ => Insert.insert h s
  | .erase h => s.erase h
  | .read payload =>
    ((Usage.sets.listed? k payload).map fun es => (es.map Prod.fst).toFinset).getD s

end Step

open Step

/-- The table after steps from the empty one. -/
def after (u : Usage β) (steps : List (Step k β)) : Table k β :=
  steps.foldl (fun t s => (s.apply u t).2) empty

/-! ## One step -/

theorem apply_read_of_listed {payload : Bytes} {es : List (Handle k × β)}
    (h : u.listed? k payload = some es) (t : Table k β) :
    ((Step.read payload).apply u t).2 = ofList es := by
  obtain ⟨lists, rest, rfl⟩ := Usage.listed?_eq_some_iff.mp h
  rw [apply, Usage.run_listing lists rest]

theorem run_read_of_not_listed {payload : Bytes} (h : u.listed? k payload = none) :
    ∃ e rest, (Table.read k u.read).run payload = (.error e, rest) := by
  cases run : (Table.read k u.read).run payload with
  | mk outcome rest =>
    cases outcome with
    | error e => exact ⟨e, rest, rfl⟩
    | ok t =>
      obtain ⟨es, lists, rfl, -⟩ := Usage.run_read.mp run
      have listed := Usage.listed?_eq_some_iff.mpr ⟨lists, List.prefix_append _ rest⟩
      rw [h] at listed
      cases listed

theorem apply_read_of_not_listed {payload : Bytes} (h : u.listed? k payload = none)
    (t : Table k β) : ∃ e, (Step.read payload).apply u t = (.refused e, t) := by
  obtain ⟨e, rest, run⟩ := run_read_of_not_listed h
  exact ⟨e, by rw [apply, run]⟩

theorem apply_insert_snd (t : Table k β) (h : Handle k) (v : β) :
    ((Step.insert h v).apply u t).2 = t.insert h v := u.insert_snd t h v

theorem apply_erase_snd (t : Table k β) (h : Handle k) :
    ((Step.erase h).apply u t).2 = t.erase h := u.erase_snd t h

/-- A step does to what a table holds what it does to the map. -/
theorem get?_apply (t : Table k β) (s : Step k β) : (s.apply u t).2.get? = s.onMap u t.get? := by
  cases s with
  | insert h v =>
    funext h'
    rw [apply_insert_snd, get?_insert]
    exact (Function.update_apply ..).symm
  | erase h =>
    funext h'
    rw [apply_erase_snd, get?_erase]
    exact (Function.update_apply ..).symm
  | read payload =>
    cases listed : u.listed? k payload with
    | some es => rw [apply_read_of_listed listed, get?_ofList, onMap, listed]; rfl
    | none =>
      obtain ⟨e, same⟩ := apply_read_of_not_listed listed t
      rw [same, onMap, listed]
      rfl

theorem isSome_lastValue_iff {es : List (Handle k × β)} {h : Handle k} :
    (lastValue es h).isSome ↔ h ∈ es.map Prod.fst := by
  induction es with
  | nil => simp [lastValue]
  | cons e es ih =>
    rw [lastValue_cons, List.map_cons, List.mem_cons, ← ih]
    by_cases heq : h = e.1
    · cases lastValue es h <;> simp [heq]
    · simp [heq]

theorem mem_toFinset_keys {t : Table k β} {h : Handle k} :
    h ∈ t.keys.toFinset ↔ (t.get? h).isSome := List.mem_toFinset.trans mem_keys_iff

theorem toFinset_keys_ofList (es : List (Handle k × β)) :
    (ofList es).keys.toFinset = (es.map Prod.fst).toFinset := by
  ext h
  rw [mem_toFinset_keys, get?_ofList, isSome_lastValue_iff, List.mem_toFinset]

/-- A set is determined by its members. -/
theorem ext_toFinset_keys {s t : Set k} (h : s.keys.toFinset = t.keys.toFinset) : s = t := by
  refine ext_get? (funext fun x => ?_)
  have same : (s.get? x).isSome ↔ (t.get? x).isSome := by
    rw [← mem_toFinset_keys, ← mem_toFinset_keys, h]
  cases hs : s.get? x <;> cases ht : t.get? x <;> simp_all

/-- A step does to the members of a table what it does to the set. -/
theorem toFinset_keys_apply (t : Set k) (s : Step k Unit) :
    (s.apply .sets t).2.keys.toFinset = s.onSet t.keys.toFinset := by
  cases s with
  | insert h v =>
    ext h'
    rw [onSet, Finset.mem_insert, mem_toFinset_keys, mem_toFinset_keys, apply_insert_snd,
      get?_insert]
    by_cases heq : h' = h <;> simp [heq]
  | erase h =>
    ext h'
    rw [onSet, Finset.mem_erase, mem_toFinset_keys, mem_toFinset_keys, apply_erase_snd, get?_erase]
    by_cases heq : h' = h <;> simp [heq]
  | read payload =>
    cases listed : Usage.sets.listed? k payload with
    | some es => rw [apply_read_of_listed listed, toFinset_keys_ofList, onSet, listed]; rfl
    | none =>
      obtain ⟨e, same⟩ := apply_read_of_not_listed listed t
      rw [same, onSet, listed]
      rfl

/-- A handle that was not in a set is told to be new. -/
theorem insert_eq_self_iff {s : Set k} {h : Handle k} :
    s.insert h () = s ↔ (s.get? h).isSome := by
  constructor
  · intro same
    rw [← same, get?_insert, if_pos rfl]
    rfl
  · intro there
    refine ext_get? (funext fun h' => ?_)
    rw [get?_insert]
    by_cases heq : h' = h
    · subst heq
      rw [if_pos rfl]
      exact Option.some_get there
    · rw [if_neg heq]

theorem erase_eq_self_iff {t : Table k β} {h : Handle k} : t.erase h = t ↔ t.get? h = none := by
  constructor
  · intro same
    rw [← same, get?_erase, if_pos rfl]
  · intro absent
    refine ext_get? (funext fun h' => ?_)
    rw [get?_erase]
    by_cases heq : h' = h
    · rw [if_pos heq, heq, absent]
    · rw [if_neg heq]

/-! ## Runs -/

theorem get?_foldl_apply (t : Table k β) (steps : List (Step k β)) :
    (steps.foldl (fun t s => (s.apply u t).2) t).get? = steps.foldl (onMap u) t.get? := by
  induction steps generalizing t with
  | nil => rfl
  | cons s steps ih => rw [List.foldl_cons, List.foldl_cons, ih, get?_apply]

theorem get?_after (steps : List (Step k β)) :
    (after u steps).get? = steps.foldl (onMap u) fun _ => none :=
  get?_foldl_apply empty steps

theorem toFinset_keys_foldl_apply (t : Set k) (steps : List (Step k Unit)) :
    (steps.foldl (fun t s => (s.apply .sets t).2) t).keys.toFinset =
      steps.foldl onSet t.keys.toFinset := by
  induction steps generalizing t with
  | nil => rfl
  | cons s steps ih => rw [List.foldl_cons, List.foldl_cons, ih, toFinset_keys_apply]

theorem toFinset_keys_after (steps : List (Step k Unit)) :
    (after .sets steps).keys.toFinset = steps.foldl onSet ∅ :=
  toFinset_keys_foldl_apply empty steps

/-! ## Bytes -/

/-- The bytes after some steps tell nothing but what the steps come to. -/
theorem write_after_congr {steps steps' : List (Step k β)}
    (same : steps.foldl (onMap u) (fun _ => none) = steps'.foldl (onMap u) fun _ => none) :
    (after u steps).write u.write = (after u steps').write u.write := by
  have holds : (after u steps).get? = (after u steps').get? := by rw [get?_after, get?_after, same]
  rw [ext_get? holds]

/-- What the tables of one use have in common. -/
structure Usage.Canonical (u : Usage β) (k : Handle.Kind) : Prop where
  /-- After any steps a table holds what they make of the empty map. -/
  holds : ∀ steps : List (Step k β), (after u steps).get? = steps.foldl (onMap u) fun _ => none
  /-- The handles under which it holds something are listed in the order of their bytes, each
  once. -/
  ascending : ∀ steps : List (Step k β),
    (after u steps).keys.Pairwise fun a b => a.bytes < b.bytes
  listed : ∀ (t : Table k β) (h : Handle k), h ∈ t.keys ↔ (t.get? h).isSome
  /-- Steps that come to the same leave the same bytes. -/
  forgets : ∀ steps steps' : List (Step k β),
    steps.foldl (onMap u) (fun _ => none) = steps'.foldl (onMap u) (fun _ => none) →
      (after u steps).write u.write = (after u steps').write u.write
  /-- Two tables with the same bytes are the same. -/
  tells : ∀ s t : Table k β, u.Lists s.entries → u.Lists t.entries →
    (s = t ↔ s.write u.write = t.write u.write)
  /-- The payloads that can be read are those that begin with a listing. -/
  readable : ∀ (payload : Bytes) (es : List (Handle k × β)),
    u.listed? k payload = some es ↔ u.Lists es ∧ u.listing es <+: payload
  /-- From a listing in any order, handles repeated, the last value of each is read, and written
  again it is not longer. -/
  reads : ∀ (es : List (Handle k × β)) (rest : Bytes), u.Lists es → ∃ t : Table k β,
    (Table.read k u.read).run (u.listing es ++ rest) = (.ok t, rest) ∧ t.get? = lastValue es ∧
      (t.write u.write).length ≤ (u.listing es).length
  /-- A reading that fails changes nothing. -/
  refuses : ∀ (t : Table k β) (payload : Bytes), u.listed? k payload = none →
    ∃ e, (Step.read payload).apply u t = (.refused e, t)

theorem Usage.isCanonical (u : Usage β) (k : Handle.Kind) : u.Canonical k where
  holds := get?_after
  ascending steps := ascending_keys (after u steps)
  listed _ _ := mem_keys_iff
  forgets _ _ := write_after_congr
  tells _ _ hs ht := (write_inj hs ht).symm
  readable _ _ := listed?_eq_some_iff
  reads es rest lists :=
    ⟨ofList es, run_listing lists rest, get?_ofList es, u.length_write_ofList_le es⟩
  refuses t _ h := apply_read_of_not_listed h t

/-- **Tables are canonical.** Sets and maps hold and list what mathematics makes of the steps done
to them, in the order of the handles' bytes; their bytes tell what they hold and nothing else; and
they are read from entries in any order, without ever growing longer. A set is told of an insertion
and an erasure whether it has changed by it, and a map is told the value that stood there before;
its set of handles has those under which it holds a value. -/
theorem canonical (k : Handle.Kind) :
    Usage.sets.Canonical k ∧ Usage.maps.Canonical k ∧
    (∀ steps : List (Step k Unit), (after .sets steps).keys.toFinset = steps.foldl onSet ∅) ∧
    (∀ s t : Set k, s.keys.toFinset = t.keys.toFinset → s = t) ∧
    (∀ (s : Set k) (h : Handle k),
      ((Step.insert h ()).apply .sets s).1 = .told (decide (s.insert h () ≠ s)) ∧
      ((Step.erase h).apply .sets s).1 = .told (decide (s.erase h ≠ s))) ∧
    (∀ (es : List (Handle k × Unit)) (rest : Bytes), Usage.sets.Lists es → ∃ s : Set k,
      (Set.read k).run (Usage.sets.listing es ++ rest) = (.ok s, rest) ∧
      s.keys.toFinset = (es.map Prod.fst).toFinset) ∧
    ∀ (m : Map k) (h : Handle k) (v : Bytes),
      ((Step.insert h v).apply .maps m).1 = .told (m.get? h) ∧
      (h ∈ m.keySet.keys ↔ (m.get? h).isSome) := by
  refine ⟨Usage.sets.isCanonical k, Usage.maps.isCanonical k, toFinset_keys_after,
    fun _ _ => ext_toFinset_keys, fun s h => ⟨?_, ?_⟩,
    fun es rest lists => ⟨ofList es, Usage.run_listing lists rest, toFinset_keys_ofList es⟩,
    fun m h v => ⟨rfl, ?_⟩⟩
  · refine congrArg Answer.told (Bool.eq_iff_iff.mpr ?_)
    rw [decide_eq_true_iff, Ne, insert_eq_self_iff, Bool.not_eq_true, Option.isSome_eq_false_iff]
  · refine congrArg Answer.told (Bool.eq_iff_iff.mpr ?_)
    rw [decide_eq_true_iff, Ne, erase_eq_self_iff]
    exact Option.isSome_iff_ne_none
  · have keys : m.keySet.keys = m.keys := by
      rw [Table.keys, keySet, List.map_map]
      rfl
    rw [keys, mem_keys_iff]

/-- Three entries under two handles, the second of them before the first in the order. -/
def repeats : List (Handle .attribute × Bytes) :=
  [(.ofUInt32 7, [1]), (.ofUInt32 5, []), (.ofUInt32 7, [2, 3])]

theorem canonical_of_repeats :
    Usage.maps.Lists repeats ∧ ∃ m : Map .attribute,
      (Map.read .attribute).run (Usage.maps.listing repeats ++ [9]) = (.ok m, [9]) ∧
      m.get? (.ofUInt32 7) = some [2, 3] ∧
      (m.write Bytes.blob).length ≤ (Usage.maps.listing repeats).length := by
  have lists : Usage.maps.Lists repeats :=
    ⟨by decide, by decide, fun e he => by
      have short : ∀ e ∈ repeats, e.2.length < capacity 4 := by decide
      exact short e he⟩
  obtain ⟨m, run, holds, shorter⟩ := (canonical .attribute).2.1.reads repeats [9] lists
  refine ⟨lists, m, run, ?_, shorter⟩
  rw [holds]
  decide

end Federate.Handle.Table
