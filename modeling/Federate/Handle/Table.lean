/-
Tables keyed by handles, in ascending order of the keys, each key once. Sets of
handles are tables without values. What a table holds under a handle after an
insertion or an erasure is stated for every handle (`get?_insert`, `get?_erase`),
and a table is determined by what it holds (`ext_get?`).
-/
import Federate.Handle
namespace Federate.Handle

variable {k : Handle.Kind} {β : Type}

/-- A table from handles to values. -/
structure Table (k : Handle.Kind) (β : Type) where
  entries : List (Handle k × β)
  ascending : entries.Pairwise fun a b => a.1 < b.1

/-- A set of handles. -/
abbrev Set (k : Handle.Kind) := Table k Unit

/-- Byte strings under handles. -/
abbrev Map (k : Handle.Kind) := Table k Bytes

namespace Table

@[ext] theorem ext {s t : Table k β} (h : s.entries = t.entries) : s = t := by
  cases s; cases t; simp_all

instance [DecidableEq β] : DecidableEq (Table k β) := fun s t =>
  if h : s.entries = t.entries then isTrue (ext h) else isFalse fun he => h (he ▸ rfl)

def empty : Table k β := ⟨[], .nil⟩

instance : Inhabited (Table k β) := ⟨empty⟩

/-- Entries with one more, which takes the place of one with the same key. -/
def put (h : Handle k) (v : β) : List (Handle k × β) → List (Handle k × β)
  | [] => [(h, v)]
  | e :: rest =>
    if h < e.1 then (h, v) :: e :: rest
    else if h = e.1 then (h, v) :: rest
    else e :: put h v rest

theorem mem_put {h : Handle k} {v : β} {e : Handle k × β} {es : List (Handle k × β)}
    (he : e ∈ put h v es) : e = (h, v) ∨ e ∈ es := by
  induction es with
  | nil => simp_all [put]
  | cons x rest ih =>
    simp only [put] at he
    split at he
    · simpa using he
    · split at he
      · rcases List.mem_cons.mp he with rfl | hr
        · exact .inl rfl
        · exact .inr (List.mem_cons_of_mem _ hr)
      · rcases List.mem_cons.mp he with rfl | hr
        · exact .inr List.mem_cons_self
        · exact (ih hr).imp id (List.mem_cons_of_mem _)

theorem pairwise_put (h : Handle k) (v : β) {es : List (Handle k × β)}
    (hes : es.Pairwise fun a b => a.1 < b.1) : (put h v es).Pairwise fun a b => a.1 < b.1 := by
  induction es with
  | nil => simp [put]
  | cons x rest ih =>
    obtain ⟨hx, hrest⟩ := List.pairwise_cons.mp hes
    simp only [put]
    split
    · rename_i hlt
      refine List.pairwise_cons.mpr ⟨fun e he => ?_, hes⟩
      rcases List.mem_cons.mp he with rfl | he
      · exact hlt
      · exact lt_trans hlt (hx e he)
    · rename_i hnlt
      split
      · rename_i heq
        exact List.pairwise_cons.mpr ⟨fun e he => heq ▸ hx e he, hrest⟩
      · rename_i hne
        refine List.pairwise_cons.mpr ⟨fun e he => ?_, ih hrest⟩
        rcases mem_put he with rfl | he
        · exact lt_of_not_lt hnlt hne
        · exact hx e he

/-- The table with a value under a handle, in place of one that stood there. -/
def insert (t : Table k β) (h : Handle k) (v : β) : Table k β :=
  ⟨put h v t.entries, pairwise_put h v t.ascending⟩

/-- The table without what stood under a handle. -/
def erase (t : Table k β) (h : Handle k) : Table k β :=
  ⟨t.entries.filter (·.1 ≠ h), t.ascending.filter _⟩

/-- What stands under a handle. -/
def get? (t : Table k β) (h : Handle k) : Option β :=
  (t.entries.find? (·.1 = h)).map Prod.snd

/-- `insert`, with what stood under the handle before. -/
def replace (t : Table k β) (h : Handle k) (v : β) : Option β × Table k β :=
  (t.get? h, t.insert h v)

/-- `erase`, with what stood under the handle. -/
def remove (t : Table k β) (h : Handle k) : Option β × Table k β := (t.get? h, t.erase h)

def contains (t : Table k β) (h : Handle k) : Bool := (t.get? h).isSome

def size (t : Table k β) : Nat := t.entries.length

/-- The handles, ascending. -/
def keys (t : Table k β) : List (Handle k) := t.entries.map Prod.fst

/-- The handles as a set. -/
def keySet (t : Table k β) : Set k :=
  ⟨t.entries.map fun e => (e.1, ()), List.pairwise_map.mpr t.ascending⟩

/-- The table of entries given in any order; of two with one key the later stands. -/
def ofList (es : List (Handle k × β)) : Table k β :=
  es.foldl (fun t e => t.insert e.1 e.2) empty

/-- The handles in words, between braces. -/
def text (t : Table k β) : String :=
  "\x7b" ++ String.intercalate ", " (t.keys.map Handle.labelled) ++ "\x7d"

/-- A map in words: each handle with the number of bytes under it. -/
def sizesText (t : Map k) : String :=
  "\x7b" ++ String.intercalate ", "
    (t.entries.map fun e => e.1.labelled ++ s!": {e.2.length}") ++ "\x7d"

/-- A table on the wire: the number of entries, then each handle with its value. -/
def write (value : β → Bytes) (t : Table k β) : Bytes :=
  Bytes.ofNat 4 t.size ++ t.entries.flatMap fun e => e.1.write ++ value e.2

def read (k : Handle.Kind) (value : Reader β) : Reader (Table k β) := do
  let es ← Reader.counted do
    let h ← Handle.read k
    let v ← value
    pure (h, v)
  pure (ofList es)

/-! ## What a table holds -/

theorem find?_put_self (h : Handle k) (v : β) (es : List (Handle k × β)) :
    (put h v es).find? (·.1 = h) = some (h, v) := by
  induction es with
  | nil => simp [put]
  | cons x rest ih =>
    simp only [put]
    split
    · simp
    · split
      · simp
      · rename_i hne
        have : ¬ x.1 = h := fun he => hne he.symm
        simp [this, ih]

theorem find?_put_other {h h' : Handle k} (hne : h' ≠ h) (v : β) (es : List (Handle k × β)) :
    (put h v es).find? (·.1 = h') = es.find? (·.1 = h') := by
  have hh : ¬ h = h' := fun he => hne he.symm
  induction es with
  | nil => simp [put, hh]
  | cons x rest ih =>
    simp only [put]
    split
    · simp [List.find?_cons, hh]
    · split
      · rename_i heq
        have : ¬ x.1 = h' := fun he => hh (heq.trans he)
        simp [hh, this]
      · simp [List.find?_cons, ih]

theorem get?_insert (t : Table k β) (h h' : Handle k) (v : β) :
    (t.insert h v).get? h' = if h' = h then some v else t.get? h' := by
  by_cases heq : h' = h
  · subst heq
    simp [get?, insert, find?_put_self]
  · simp [get?, insert, find?_put_other heq, heq]

theorem get?_erase (t : Table k β) (h h' : Handle k) :
    (t.erase h).get? h' = if h' = h then none else t.get? h' := by
  simp only [get?, erase, List.find?_filter]
  by_cases heq : h' = h
  · subst heq
    simp
  · have : ∀ e : Handle k × β, (e.1 ≠ h ∧ e.1 = h') ↔ e.1 = h' :=
      fun e => ⟨And.right, fun he => ⟨fun hh => heq (he.symm.trans hh), he⟩⟩
    simp [heq, this]

theorem mem_entries_iff {t : Table k β} {h : Handle k} {v : β} :
    (h, v) ∈ t.entries ↔ t.get? h = some v := by
  obtain ⟨es, hes⟩ := t
  simp only [get?]
  induction es with
  | nil => simp
  | cons x rest ih =>
    obtain ⟨hx, hrest⟩ := List.pairwise_cons.mp hes
    by_cases heq : x.1 = h
    · subst heq
      have hnot : (x.1, v) ∉ rest := fun hm => lt_irrefl x.1 (hx (x.1, v) hm)
      simp only [List.mem_cons, hnot, or_false, List.find?_cons, decide_true, Option.map_some,
        Option.some.injEq]
      exact ⟨fun he => he ▸ rfl, fun he => by rw [← he]⟩
    · have : (h, v) ≠ x := fun he => heq (he ▸ rfl)
      simp only [List.mem_cons, this, false_or, List.find?_cons, heq, decide_false]
      exact ih hrest

theorem nodup_entries (t : Table k β) : t.entries.Nodup := by
  refine t.ascending.imp ?_
  rintro a b hab rfl
  exact lt_irrefl a.1 hab

/-- A table is determined by what it holds. -/
theorem ext_get? {s t : Table k β} (h : s.get? = t.get?) : s = t := by
  have same : ∀ e : Handle k × β, e ∈ s.entries ↔ e ∈ t.entries := fun e => by
    rw [mem_entries_iff, mem_entries_iff, h]
  have perm : s.entries.Perm t.entries :=
    (List.perm_ext_iff_of_nodup s.nodup_entries t.nodup_entries).mpr same
  refine ext (perm.eq_of_pairwise (fun a b _ _ hab hba => ?_) s.ascending t.ascending)
  exact absurd (lt_trans hab hba) (lt_irrefl a.1)

theorem mem_keys_iff {t : Table k β} {h : Handle k} : h ∈ t.keys ↔ (t.get? h).isSome := by
  rw [keys, List.mem_map, Option.isSome_iff_exists]
  constructor
  · rintro ⟨e, he, rfl⟩
    exact ⟨e.2, mem_entries_iff.mp he⟩
  · rintro ⟨v, hv⟩
    exact ⟨(h, v), mem_entries_iff.mpr hv, rfl⟩

/-! ## Tables and their entries -/

theorem put_last {h : Handle k} {es : List (Handle k × β)} (below : ∀ e ∈ es, e.1 < h) (v : β) :
    put h v es = es ++ [(h, v)] := by
  induction es with
  | nil => rfl
  | cons x rest ih =>
    have hx := below x List.mem_cons_self
    have hnot : ¬ h < x.1 := fun hlt => lt_irrefl h (lt_trans hlt hx)
    have hne : h ≠ x.1 := fun heq => lt_irrefl h (heq ▸ hx)
    simp only [put, hnot, hne, ↓reduceIte, List.cons_append]
    rw [ih fun e he => below e (List.mem_cons_of_mem _ he)]

theorem entries_foldl_insert (t : Table k β) (es : List (Handle k × β))
    (ascending : (t.entries ++ es).Pairwise fun a b => a.1 < b.1) :
    (es.foldl (fun t e => t.insert e.1 e.2) t).entries = t.entries ++ es := by
  induction es generalizing t with
  | nil => exact (List.append_nil _).symm
  | cons e es ih =>
    have below : ∀ x ∈ t.entries, x.1 < e.1 := fun x hx =>
      (List.pairwise_append.mp ascending).2.2 x hx e List.mem_cons_self
    have hput : (t.insert e.1 e.2).entries = t.entries ++ [e] := put_last below e.2
    rw [List.foldl_cons, ih _ (by rw [hput]; simpa using ascending), hput]
    simp

/-- A table is made up of its entries. -/
theorem ofList_entries (t : Table k β) : ofList t.entries = t :=
  ext (entries_foldl_insert empty t.entries t.ascending)

end Table

/-- Puts a handle into a set, and tells whether it was not there before. -/
def Set.add (s : Set k) (h : Handle k) : Bool × Set k :=
  let (before, s) := Table.replace s h ()
  (before.isNone, s)

/-- Takes a handle out of a set, and tells whether it was there. -/
def Set.remove (s : Set k) (h : Handle k) : Bool × Set k :=
  let (before, s) := Table.remove s h
  (before.isSome, s)

/-- Reads a set of handles. -/
def Set.read (k : Handle.Kind) : Reader (Set k) := Table.read k (pure ())

/-- Reads byte strings under handles. -/
def Map.read (k : Handle.Kind) : Reader (Map k) := Table.read k Reader.blob

end Federate.Handle
