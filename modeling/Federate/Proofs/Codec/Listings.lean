/-
Tables and the entries they are made of. Entries come in any order and with keys
repeated: of the entries under one handle the last one stands (`get?_ofList`).
A payload is a listing if it is made of the bytes of some entries after their
number; a table is read from listings and from nothing else (`listed?_eq_some_iff`,
`run_read`), and the listing of a table is never longer than the one it was read
from (`length_write_ofList_le`).
-/
import Federate.Proofs.Codec.Costs
namespace Federate.Handle.Table

open Bytes (capacity)

variable {k : Handle.Kind} {β : Type}

/-! ## What a table holds -/

/-- What entries give last under a handle. -/
def lastValue (es : List (Handle k × β)) (h : Handle k) : Option β :=
  (es.filter (·.1 = h)).getLast?.map Prod.snd

theorem lastValue_cons (e : Handle k × β) (es : List (Handle k × β)) (h : Handle k) :
    lastValue (e :: es) h = (lastValue es h).or (if h = e.1 then some e.2 else none) := by
  have split : (e :: es).filter (·.1 = h) = [e].filter (·.1 = h) ++ es.filter (·.1 = h) :=
    List.filter_append [e] es
  rw [lastValue, split, List.getLast?_append, lastValue]
  by_cases heq : h = e.1
  · subst heq
    cases (es.filter (·.1 = e.1)).getLast? <;> simp
  · have other : ¬ e.1 = h := fun he => heq he.symm
    cases (es.filter (·.1 = h)).getLast? <;> simp [heq, other]

theorem get?_foldl_insert (t : Table k β) (es : List (Handle k × β)) (h : Handle k) :
    (es.foldl (fun t e => t.insert e.1 e.2) t).get? h = (lastValue es h).or (t.get? h) := by
  induction es generalizing t with
  | nil => rfl
  | cons e es ih =>
    rw [List.foldl_cons, ih, get?_insert, lastValue_cons, Option.or_assoc]
    by_cases heq : h = e.1 <;> simp [heq]

theorem get?_empty (h : Handle k) : (empty : Table k β).get? h = none := rfl

/-- A table of entries holds under each handle what they give last. -/
theorem get?_ofList (es : List (Handle k × β)) : (ofList es).get? = lastValue es := by
  funext h
  rw [ofList, get?_foldl_insert, get?_empty, Option.or_none]

theorem ascending_keys (t : Table k β) : t.keys.Pairwise fun a b => a.bytes < b.bytes :=
  List.pairwise_map.mpr t.ascending

/-! ## Listings -/

/-- How a table is used: how its values stand in payloads, which of them are short enough for
that, and how its user inserts and erases, with the reply to each. -/
structure Usage (β : Type) where
  read : Reader β
  write : β → Bytes
  Fits : β → Prop
  takes_read : ∀ {v}, Fits v → read.Takes (write v) v
  of_read : ∀ {bs v rest}, read.run bs = (.ok v, rest) → Fits v ∧ bs = write v ++ rest
  Reply : Type
  insert : ∀ {k}, Table k β → Handle k → β → Reply × Table k β
  erase : ∀ {k}, Table k β → Handle k → Reply × Table k β
  insert_snd : ∀ {k} (t : Table k β) h v, (insert t h v).2 = t.insert h v
  erase_snd : ∀ {k} (t : Table k β) h, (erase t h).2 = t.erase h

/-- Sets of handles are told whether they have changed. -/
def Usage.sets : Usage Unit where
  read := pure ()
  write _ := []
  Fits _ := True
  takes_read _ := .pure ()
  of_read h := by
    cases h
    exact ⟨trivial, rfl⟩
  Reply := Bool
  insert s h _ := Set.add s h
  erase := Set.remove
  insert_snd _ _ _ := rfl
  erase_snd _ _ := rfl

theorem run_blob_eq_ok {bs v rest : Bytes} (h : Reader.blob.run bs = (.ok v, rest)) :
    v.length < capacity 4 ∧ bs = Bytes.blob v ++ rest := by
  obtain ⟨n, mid, size, taken⟩ := Reader.run_bind_eq_ok.mp h
  have counted := (Reader.run_nat_eq_ok size).1
  have length := (Reader.run_take_eq_ok taken).1
  exact ⟨length ▸ counted, Reader.canonical_blob bs v rest h⟩

/-- Maps are told the value that stood there before. -/
def Usage.maps : Usage Bytes where
  read := Reader.blob
  write := Bytes.blob
  Fits v := v.length < capacity 4
  takes_read := Reader.takes_blob
  of_read := run_blob_eq_ok
  Reply := Option Bytes
  insert := replace
  erase := remove
  insert_snd _ _ _ := rfl
  erase_snd _ _ := rfl

namespace Usage

variable (u : Usage β)

/-- The bytes of one entry. -/
def entry (e : Handle k × β) : Bytes := e.1.write ++ u.write e.2

/-- Entries in the given order, after their number. -/
def listing (es : List (Handle k × β)) : Bytes := Bytes.ofNat 4 es.length ++ es.flatMap u.entry

/-- The entries can be listed: their number, and the lengths in each of them, fit in four bytes. -/
structure Lists (es : List (Handle k × β)) : Prop where
  size : es.length < capacity 4
  handles : ∀ e ∈ es, e.1.bytes.length < capacity 4
  values : ∀ e ∈ es, u.Fits e.2

/-- Reads one entry. -/
def readEntry (k : Handle.Kind) : Reader (Handle k × β) := do
  let h ← Handle.read k
  let v ← u.read
  pure (h, v)

/-- The entries that a payload lists, as they stand in it. -/
def listed? (k : Handle.Kind) (payload : Bytes) : Option (List (Handle k × β)) :=
  ((u.readEntry k).counted.run payload).1.toOption

variable {u}

theorem write_eq_listing (t : Table k β) : t.write u.write = u.listing t.entries := rfl

theorem takes_entry {e : Handle k × β} (handle : e.1.bytes.length < capacity 4)
    (value : u.Fits e.2) : (u.readEntry k).Takes (u.entry e) e :=
  (Handle.takes_read handle).bind ((u.takes_read value).map _)

theorem takes_listing {es : List (Handle k × β)} (h : u.Lists es) :
    (u.readEntry k).counted.Takes (u.listing es) es :=
  Reader.takes_counted h.size fun e he => takes_entry (h.handles e he) (h.values e he)

theorem of_readEntry {bs rest : Bytes} {e : Handle k × β}
    (h : (u.readEntry k).run bs = (.ok e, rest)) :
    (e.1.bytes.length < capacity 4 ∧ u.Fits e.2) ∧ bs = u.entry e ++ rest := by
  obtain ⟨handle, mid, readHandle, h⟩ := Reader.run_bind_eq_ok.mp h
  obtain ⟨v, mid', readValue, made⟩ := Reader.run_bind_eq_ok.mp h
  cases made
  obtain ⟨bytes, mid'', readBytes, checked⟩ := Reader.run_bind_eq_ok.mp readHandle
  obtain ⟨size, rfl⟩ := run_blob_eq_ok readBytes
  obtain ⟨fits, rfl⟩ := u.of_read readValue
  have known : Handle.ofBytes k bytes = .ok handle := congrArg Prod.fst checked
  have left : mid'' = u.write v ++ rest := congrArg Prod.snd checked
  have same : handle.bytes = bytes := by
    unfold Handle.ofBytes at known
    split at known
    · cases known
    · cases known
      rfl
  subst same left
  exact ⟨⟨size, fits⟩, (List.append_assoc ..).symm⟩

/-- What is read one after another stands one after another. -/
theorem of_many {n : Nat} {bs rest : Bytes} {es : List (Handle k × β)}
    (h : ((u.readEntry k).many n).run bs = (.ok es, rest)) :
    es.length = n ∧ (∀ e ∈ es, e.1.bytes.length < capacity 4 ∧ u.Fits e.2) ∧
      bs = es.flatMap u.entry ++ rest := by
  induction n generalizing bs es with
  | zero =>
    cases h
    exact ⟨rfl, nofun, rfl⟩
  | succ n ih =>
    obtain ⟨e, mid, first, h⟩ := Reader.run_bind_eq_ok.mp h
    obtain ⟨es', mid', later, made⟩ := Reader.run_bind_eq_ok.mp h
    cases made
    obtain ⟨fits, rfl⟩ := of_readEntry first
    obtain ⟨rfl, others, rfl⟩ := ih later
    refine ⟨rfl, List.forall_mem_cons.mpr ⟨fits, others⟩, ?_⟩
    rw [List.flatMap_cons, List.append_assoc]

theorem of_listing {bs rest : Bytes} {es : List (Handle k × β)}
    (h : (u.readEntry k).counted.run bs = (.ok es, rest)) :
    u.Lists es ∧ bs = u.listing es ++ rest := by
  obtain ⟨n, mid, size, h⟩ := Reader.run_bind_eq_ok.mp h
  obtain ⟨counted, hbs⟩ := Reader.run_nat_eq_ok size
  obtain ⟨number, each, rfl⟩ := of_many h
  subst number
  refine ⟨⟨counted, fun e he => (each e he).1, fun e he => (each e he).2⟩, ?_⟩
  rw [hbs, listing, List.append_assoc]

/-- A payload lists entries if it begins with their listing. -/
theorem listed?_eq_some_iff {payload : Bytes} {es : List (Handle k × β)} :
    u.listed? k payload = some es ↔ u.Lists es ∧ u.listing es <+: payload := by
  constructor
  · intro h
    obtain ⟨rest, run⟩ : ∃ rest, (u.readEntry k).counted.run payload = (.ok es, rest) := by
      unfold listed? at h
      generalize (u.readEntry k).counted.run payload = outcome at h
      obtain ⟨x, rest⟩ := outcome
      cases x with
      | ok es' =>
        cases h
        exact ⟨rest, rfl⟩
      | error e => cases h
    obtain ⟨lists, rfl⟩ := of_listing run
    exact ⟨lists, List.prefix_append ..⟩
  · rintro ⟨lists, rest, rfl⟩
    rw [listed?, takes_listing lists rest]
    rfl

/-! ## Reading tables -/

theorem run_listing {es : List (Handle k × β)} (lists : u.Lists es) (rest : Bytes) :
    (Table.read k u.read).run (u.listing es ++ rest) = (.ok (ofList es), rest) :=
  (takes_listing lists).map ofList rest

/-- A table is read as the table of the entries that the payload lists. -/
theorem run_read {bs rest : Bytes} {t : Table k β} :
    (Table.read k u.read).run bs = (.ok t, rest) ↔
      ∃ es, u.Lists es ∧ bs = u.listing es ++ rest ∧ t = ofList es := by
  constructor
  · intro h
    obtain ⟨es, mid, listed, made⟩ := Reader.run_bind_eq_ok.mp h
    cases made
    obtain ⟨lists, rfl⟩ := of_listing listed
    exact ⟨es, lists, rfl, rfl⟩
  · rintro ⟨es, lists, rfl, rfl⟩
    exact run_listing lists rest

/-- Tables are the same if their bytes are. -/
theorem write_inj {s t : Table k β} (hs : u.Lists s.entries) (ht : u.Lists t.entries) :
    s.write u.write = t.write u.write ↔ s = t := by
  refine ⟨fun same => ext ?_, fun same => same ▸ rfl⟩
  rw [write_eq_listing, write_eq_listing] at same
  have first := (takes_listing hs).run_alone
  have second := (takes_listing ht).run_alone
  -- The same bytes are read back as the entries of either table.
  rw [same, second] at first
  exact (Except.ok.inj (congrArg Prod.fst first)).symm

/-! ## The length of listings -/

variable (u)

theorem length_flatMap_put_le (h : Handle k) (v : β) (es : List (Handle k × β)) :
    ((put h v es).flatMap u.entry).length ≤ (u.entry (h, v)).length + (es.flatMap u.entry).length := by
  induction es with
  | nil => simp [put]
  | cons e es ih =>
    simp only [put]
    split
    · simp
    · split
      · simp
      · simp only [List.flatMap_cons, List.length_append]
        omega

theorem length_flatMap_foldl_insert_le (t : Table k β) (es : List (Handle k × β)) :
    ((es.foldl (fun t e => t.insert e.1 e.2) t).entries.flatMap u.entry).length ≤
      (t.entries.flatMap u.entry).length + (es.flatMap u.entry).length := by
  induction es generalizing t with
  | nil => exact Nat.le_refl _
  | cons e es ih =>
    have grown : ((t.insert e.1 e.2).entries.flatMap u.entry).length ≤
        (u.entry e).length + (t.entries.flatMap u.entry).length :=
      u.length_flatMap_put_le e.1 e.2 t.entries
    have rest := ih (t.insert e.1 e.2)
    rw [List.foldl_cons, List.flatMap_cons, List.length_append]
    omega

/-- A table is not longer than any listing it can be read from. -/
theorem length_write_ofList_le (es : List (Handle k × β)) :
    ((ofList es).write u.write).length ≤ (u.listing es).length := by
  have entries := u.length_flatMap_foldl_insert_le (empty : Table k β) es
  have none : ((empty : Table k β).entries.flatMap u.entry).length = 0 := rfl
  rw [write_eq_listing, listing, listing, List.length_append, List.length_append,
    Bytes.length_ofNat, Bytes.length_ofNat, ofList]
  omega

end Usage

end Federate.Handle.Table
