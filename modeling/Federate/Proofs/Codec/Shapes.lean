/-
The readers of the shapes of values. Every one of them is strict, whatever it is
nested in (`strict_read`), takes up what was written for a value whose times are
of the settled family (`takes_read`), and yields no value whose times are of
another (`yields_read`). Before a family is settled, a value with a time in it is
not read at all (`rejects_read`).
-/
import Federate.Payload.Shape
import Federate.Proofs.Codec.Reading
namespace Federate

open Bytes (capacity)

/-! ## The readers of single values -/

namespace Handle

variable {k : Handle.Kind} {β : Type} {value : Reader β}

theorem ofBytes_bytes (h : Handle k) : ofBytes k h.bytes = .ok h := dif_neg h.ne_nil

theorem strict_read : (read k).Strict := Reader.strict_blob.bind fun _ => .lift _

theorem plain_read : (read k).Plain := by
  refine Reader.plain_blob.bind fun bs => .lift fun e he => ?_
  unfold ofBytes at he
  split at he
  · cases he
    exact ⟨_, rfl⟩
  · cases he

theorem takes_read {h : Handle k} (size : h.bytes.length < capacity 4) :
    (read k).Takes h.write h :=
  (Reader.takes_blob size).bind_lift h.ofBytes_bytes

namespace Table

theorem strict_read (h : value.Strict) : (read k value).Strict :=
  (Reader.Strict.counted (Handle.strict_read.bind fun _ => h.map _)).map _

theorem plain_read (h : value.Plain) : (read k value).Plain :=
  (Reader.Plain.counted (Handle.plain_read.bind fun _ => h.map _)).map _

theorem takes_read {write : β → Bytes} {t : Table k β} (size : t.size < capacity 4)
    (keys : ∀ e ∈ t.entries, e.1.bytes.length < capacity 4)
    (values : ∀ e ∈ t.entries, value.Takes (write e.2) e.2) :
    (read k value).Takes (t.write write) t := by
  have entry : ∀ e ∈ t.entries, (do
      let key ← Handle.read k
      let v ← value
      pure (key, v) : Reader (Handle k × β)).Takes (e.1.write ++ write e.2) e := fun e he =>
    (Handle.takes_read (keys e he)).bind ((values e he).map _)
  have table := (Reader.takes_counted size entry).map ofList
  rwa [ofList_entries] at table

end Table

end Handle

namespace Transportation

theorem strict_read : read.Strict := Reader.strict_blob.bind fun _ => .lift _

theorem plain_read : read.Plain := by
  refine Reader.plain_blob.bind fun bs => .lift fun e he => ?_
  unfold ofBytes at he
  split at he
  · cases he
  split at he
  · cases he
  · cases he
    exact ⟨_, rfl⟩

theorem takes_read (t : Transportation) : read.Takes t.write t := by
  have size : t.bytes.length < capacity 4 := by cases t <;> decide
  exact (Reader.takes_blob size).bind_lift t.ofBytes_bytes

end Transportation

namespace Extent

theorem strict_read : read.Strict := by
  refine Reader.strict_word64.bind fun lower => Reader.strict_word64.bind fun upper => ?_
  split
  · exact .pure _
  · exact .fail _

theorem plain_read : read.Plain := by
  refine Reader.plain_word64.bind fun lower => Reader.plain_word64.bind fun upper => ?_
  split
  · exact .pure _
  · exact .fail _

theorem takes_read (e : Extent) : read.Takes e.write e := by
  refine (Reader.takes_word64 e.lower).bind ?_
  have upper := Reader.takes_word64 e.upper
  rw [← List.append_nil (Bytes.ofUInt64 e.upper)]
  refine upper.bind ?_
  rw [ofBounds_bounds]
  exact .pure e

end Extent

namespace ResignAction

theorem strict_read : read.Strict := by
  refine Reader.strict_byte.bind fun b => ?_
  split
  · exact .pure _
  · exact .fail _

theorem plain_read : read.Plain := by
  refine Reader.plain_byte.bind fun b => ?_
  split
  · exact .pure _
  · exact .fail _

theorem takes_read (a : ResignAction) : read.Takes [a.code] a := by
  refine (Reader.takes_byte a.code).bind (v := []) ?_
  rw [ofCode_code]
  exact .pure a

end ResignAction

namespace MessageOrder

theorem strict_read : read.Strict :=
  Reader.strict_byte.bind fun _ => .ite (.pure _) (.ite (.pure _) (.fail _))

theorem plain_read : read.Plain :=
  Reader.plain_byte.bind fun _ => .ite (.pure _) (.ite (.pure _) (.fail _))

theorem takes_read (o : MessageOrder) : read.Takes [o.code] o := by
  refine (Reader.takes_byte o.code).bind (v := []) ?_
  cases o <;> exact .pure _

end MessageOrder

namespace TimeFamily

variable {f : TimeFamily}

theorem strict_readTime : f.readTime.Strict := (Reader.strict_take 8).bind fun _ => .lift _

theorem plain_readTime : f.readTime.Plain := by
  refine (Reader.plain_take 8).bind fun bs => .lift fun e he => ?_
  cases f with
  | discrete =>
    simp only [timeOfBytes, DiscreteTime.ofBytes] at he
    cases ht : DiscreteTime.ofInt (Int.bmod bs.toNat 0x10000000000000000) with
    | ok t => rw [ht] at he; cases he
    | error x => rw [ht] at he; cases he; exact ⟨_, rfl⟩
  | continuous => cases he

theorem yields_readTime : f.readTime.Yields fun t => t.family = f :=
  .of_bind fun _ => .lift fun _ h => family_of_timeOfBytes h

theorem takes_readTime (t : Time) : t.family.readTime.Takes t.bytes t := by
  have size : t.bytes.length = 8 := by
    cases t
    · exact Bytes.length_ofNat 8 _
    · exact Bytes.length_ofUInt64 _
  have read := (Reader.takes_take t.bytes).bind_lift (timeOfBytes_bytes t)
  rwa [size] at read

theorem strict_readInterval : f.readInterval.Strict := (Reader.strict_take 8).map _

theorem plain_readInterval : f.readInterval.Plain := (Reader.plain_take 8).map _

theorem yields_readInterval : f.readInterval.Yields fun i => i.family = f :=
  .of_bind fun bs => .pure (family_intervalOfBytes f bs)

theorem takes_readInterval (i : Interval) : i.family.readInterval.Takes i.bytes i := by
  have size : i.bytes.length = 8 := by
    cases i
    · exact Bytes.length_ofNat 8 _
    · exact Bytes.length_ofUInt64 _
  have read := (Reader.takes_take i.bytes).map i.family.intervalOfBytes
  rwa [size, intervalOfBytes_bytes] at read

end TimeFamily

/-! ## Shapes -/

namespace Shape

/-- Every text, blob and collection in the value has fewer than `2 ^ 32` bytes or members. -/
def Fits : (s : Shape) → s.Value → Prop
  | .text, v => (Text.encode v).length < capacity 4
  | .blob, v => v.length < capacity 4
  | .handle _, v => v.bytes.length < capacity 4
  | .handles _, v => v.size < capacity 4 ∧ ∀ e ∈ v.entries, e.1.bytes.length < capacity 4
  | .values _, v => v.size < capacity 4 ∧
      ∀ e ∈ v.entries, e.1.bytes.length < capacity 4 ∧ e.2.length < capacity 4
  | .info, v => v.producer.bytes.length < capacity 4
  | .maybeText, v => ∀ t ∈ v, (Text.encode t).length < capacity 4
  | .maybe s, v => ∀ a ∈ v, s.Fits a
  | .list s, v => v.length < capacity 4 ∧ ∀ a ∈ v, s.Fits a
  | .pair s t, v => s.Fits v.1 ∧ t.Fits v.2
  | _, _ => True

/-- Whether a value fits. -/
def decFits : (s : Shape) → (v : s.Value) → Decidable (s.Fits v)
  | .text, v => inferInstanceAs (Decidable ((Text.encode v).length < capacity 4))
  | .blob, v => inferInstanceAs (Decidable (v.length < capacity 4))
  | .handle _, v => inferInstanceAs (Decidable (v.bytes.length < capacity 4))
  | .handles _, v => inferInstanceAs (Decidable (v.size < capacity 4 ∧
      ∀ e ∈ v.entries, e.1.bytes.length < capacity 4))
  | .values _, v => inferInstanceAs (Decidable (v.size < capacity 4 ∧
      ∀ e ∈ v.entries, e.1.bytes.length < capacity 4 ∧ e.2.length < capacity 4))
  | .info, v => inferInstanceAs (Decidable (v.producer.bytes.length < capacity 4))
  | .maybeText, v => inferInstanceAs (Decidable (∀ t ∈ v, (Text.encode t).length < capacity 4))
  | .maybe s, v =>
    have := decFits s
    inferInstanceAs (Decidable (∀ a ∈ v, s.Fits a))
  | .list s, v =>
    have := decFits s
    inferInstanceAs (Decidable (v.length < capacity 4 ∧ ∀ a ∈ v, s.Fits a))
  | .pair s t, v =>
    have := decFits s v.1
    have := decFits t v.2
    inferInstanceAs (Decidable (s.Fits v.1 ∧ t.Fits v.2))
  | .flag, _ | .word, _ | .transportation, _ | .extent, _ | .resignAction, _ | .order, _
  | .family, _ | .time, _ | .interval, _ => .isTrue trivial

instance (s : Shape) (v : s.Value) : Decidable (s.Fits v) := decFits s v

/-- The families of the times and intervals in the value, first to last. -/
def families : (s : Shape) → s.Value → List TimeFamily
  | .time, v => [v.family]
  | .interval, v => [v.family]
  | .info, v => v.time.toList.map Time.family
  | .maybe s, v => v.toList.flatMap (families s)
  | .list s, v => v.flatMap (families s)
  | .pair s t, v => families s v.1 ++ families t v.2
  | _, _ => []

/-- Does a value of the shape name a family of times? -/
def namesFamily : Shape → Bool
  | .family => true
  | .maybe s | .list s => s.namesFamily
  | .pair s t => s.namesFamily || t.namesFamily
  | _ => false

variable {f : Option TimeFamily} {α : Type}

theorem strict_negotiated : (negotiated f).Strict := by
  cases f with
  | none => exact .fail _
  | some f => exact .pure f

theorem plain_negotiated : (negotiated f).Plain := by
  cases f with
  | none => exact .fail _
  | some f => exact .pure f

theorem yields_negotiated : (negotiated f).Yields fun g => f = some g := by
  cases f with
  | none => exact .fail _
  | some f => exact .pure rfl

theorem rejects_negotiated (r : TimeFamily → Reader α) (bs : Bytes) :
    (negotiated none >>= r).Rejects bs :=
  ⟨_, bs, rfl⟩

theorem strict_readMaybe {r : Reader α} (h : r.Strict) : (readMaybe r).Strict :=
  Reader.strict_flag.bind fun _ => .ite (h.map _) (.pure _)

theorem plain_readMaybe {r : Reader α} (h : r.Plain) : (readMaybe r).Plain :=
  Reader.plain_flag.bind fun _ => .ite (h.map _) (.pure _)

theorem yields_readMaybe {r : Reader α} {p : α → Prop} (h : r.Yields p) :
    (readMaybe r).Yields fun v => ∀ a ∈ v, p a := by
  refine .of_bind fun present => ?_
  cases present with
  | true => exact h.bind fun a ha => .pure (by simpa using ha)
  | false => exact .pure (by simp)

theorem takes_readMaybe {r : Reader α} {write : α → Bytes} {v : Option α}
    (h : ∀ a ∈ v, r.Takes (write a) a) : (readMaybe r).Takes (writeMaybe write v) v := by
  cases v with
  | none => exact (Reader.takes_flag false).bind (v := []) (.pure none)
  | some a => exact (Reader.takes_flag true).bind ((h a rfl).map some)

theorem rejects_readMaybe {r : Reader α} {write : α → Bytes} {a : α} {rest : Bytes}
    (h : r.Rejects (write a ++ rest)) :
    (readMaybe r).Rejects (writeMaybe write (some a) ++ rest) := by
  rw [writeMaybe, List.append_assoc]
  exact (Reader.takes_flag true).rejects_bind h.bind

theorem strict_readTime : (readTime f).Strict :=
  strict_negotiated.bind fun _ => TimeFamily.strict_readTime

theorem plain_readTime : (readTime f).Plain :=
  plain_negotiated.bind fun _ => TimeFamily.plain_readTime

theorem yields_readTime : (readTime f).Yields fun t => f = some t.family := by
  refine yields_negotiated.bind fun g hg => ?_
  intro bs t rest h
  rw [hg, TimeFamily.yields_readTime bs t rest h]

theorem takes_readTime {t : Time} (h : f = some t.family) : (readTime f).Takes t.bytes t := by
  subst h
  exact (Reader.Takes.pure t.family).bind (TimeFamily.takes_readTime t)

theorem strict_readInfo : (readInfo f).Strict :=
  MessageOrder.strict_read.bind fun _ => Transportation.strict_read.bind fun _ =>
    Handle.strict_read.bind fun _ => (strict_readMaybe strict_readTime).map _

theorem plain_readInfo : (readInfo f).Plain :=
  MessageOrder.plain_read.bind fun _ => Transportation.plain_read.bind fun _ =>
    Handle.plain_read.bind fun _ => (plain_readMaybe plain_readTime).map _

theorem write_info (i : MessageInfo) : write .info i =
    [i.order.code] ++ (i.transportation.write ++
      (i.producer.write ++ writeMaybe Time.bytes i.time)) := by
  simp only [write, List.append_assoc, List.cons_append, List.nil_append]

theorem takes_readInfo {i : MessageInfo} (producer : i.producer.bytes.length < capacity 4)
    (time : ∀ t ∈ i.time, f = some t.family) : (readInfo f).Takes (write .info i) i := by
  rw [write_info]
  have time : (readMaybe (readTime f)).Takes (writeMaybe Time.bytes i.time) i.time :=
    takes_readMaybe fun t ht => takes_readTime (time t ht)
  exact (MessageOrder.takes_read i.order).bind ((Transportation.takes_read i.transportation).bind
    ((Handle.takes_read producer).bind (time.map _)))

theorem rejects_readInfo {i : MessageInfo} {t : Time}
    (producer : i.producer.bytes.length < capacity 4) (time : i.time = some t) (rest : Bytes) :
    (readInfo none).Rejects (write .info i ++ rest) := by
  rw [write_info, time]
  simp only [List.append_assoc]
  have time : (readMaybe (readTime none)).Rejects (writeMaybe Time.bytes (some t) ++ rest) :=
    rejects_readMaybe (rejects_negotiated _ _)
  exact (MessageOrder.takes_read i.order).rejects_bind
    ((Transportation.takes_read i.transportation).rejects_bind
      ((Handle.takes_read producer).rejects_bind time.bind))

/-- Nothing depends on the bytes behind a value, and nothing is read from fewer than all its
bytes. -/
theorem strict_read (s : Shape) : (s.read f).Strict := by
  induction s with
  | text => exact Reader.strict_text
  | blob => exact Reader.strict_blob
  | flag => exact Reader.strict_flag
  | word => exact Reader.strict_word32
  | handle k => exact Handle.strict_read
  | handles k => exact Handle.Table.strict_read (.pure ())
  | values k => exact Handle.Table.strict_read Reader.strict_blob
  | transportation => exact Transportation.strict_read
  | extent => exact Extent.strict_read
  | resignAction => exact ResignAction.strict_read
  | order => exact MessageOrder.strict_read
  | family => exact Reader.strict_text.bind fun _ => .lift _
  | time => exact strict_readTime
  | interval => exact strict_negotiated.bind fun _ => TimeFamily.strict_readInterval
  | info => exact strict_readInfo
  | maybeText => exact Reader.strict_flag.bind fun _ => Reader.strict_text.map _
  | maybe s ih => exact strict_readMaybe ih
  | list s ih => exact ih.counted
  | pair s t hs ht => exact hs.bind fun _ => ht.map _

/-- Only the name of a family can be refused for another reason than its bytes. -/
theorem plain_read {s : Shape} (h : s.namesFamily = false) : (s.read f).Plain := by
  induction s with
  | text => exact Reader.plain_text
  | blob => exact Reader.plain_blob
  | flag => exact Reader.plain_flag
  | word => exact Reader.plain_word32
  | handle k => exact Handle.plain_read
  | handles k => exact Handle.Table.plain_read (.pure ())
  | values k => exact Handle.Table.plain_read Reader.plain_blob
  | transportation => exact Transportation.plain_read
  | extent => exact Extent.plain_read
  | resignAction => exact ResignAction.plain_read
  | order => exact MessageOrder.plain_read
  | family => cases h
  | time => exact plain_readTime
  | interval => exact plain_negotiated.bind fun _ => TimeFamily.plain_readInterval
  | info => exact plain_readInfo
  | maybeText => exact Reader.plain_flag.bind fun _ => Reader.plain_text.map _
  | maybe s ih => exact plain_readMaybe (ih h)
  | list s ih => exact (ih h).counted
  | pair s t hs ht =>
    rw [namesFamily, Bool.or_eq_false_iff] at h
    exact (hs h.1).bind fun _ => (ht h.2).map _

/-- All times that are read are of the settled family. -/
theorem yields_read (s : Shape) : (s.read f).Yields fun v => ∀ g ∈ s.families v, f = some g := by
  induction s with
  | time => exact fun bs t rest h g hg => List.mem_singleton.mp hg ▸ yields_readTime bs t rest h
  | interval =>
    refine yields_negotiated.bind fun g hg => ?_
    intro bs i rest h g' hg'
    rw [hg, List.mem_singleton.mp hg', TimeFamily.yields_readInterval bs i rest h]
  | info =>
    refine .of_bind fun order => .of_bind fun transportation => .of_bind fun producer =>
      (yields_readMaybe yields_readTime).bind fun time htime => .pure ?_
    simpa [families] using htime
  | maybe s ih =>
    intro bs v rest h g hg
    obtain ⟨a, ha, hg⟩ := List.mem_flatMap.mp hg
    exact yields_readMaybe ih bs v rest h a (Option.mem_toList.mp ha) g hg
  | list s ih =>
    intro bs v rest h g hg
    obtain ⟨a, ha, hg⟩ := List.mem_flatMap.mp hg
    exact ih.counted bs v rest h a ha g hg
  | pair s t hs ht =>
    refine hs.bind fun a ha => ht.bind fun b hb => .pure fun g hg => ?_
    rcases List.mem_append.mp hg with hg | hg
    · exact ha g hg
    · exact hb g hg
  | _ => exact fun _ _ _ _ _ hg => absurd hg List.not_mem_nil

/-- What was written for a value is read as that value. -/
theorem takes_read {s : Shape} {v : s.Value} (fits : s.Fits v)
    (settled : ∀ g ∈ s.families v, f = some g) : (s.read f).Takes (s.write v) v := by
  induction s with
  | text => exact Reader.takes_text fits
  | blob => exact Reader.takes_blob fits
  | flag => exact Reader.takes_flag v
  | word => exact Reader.takes_word32 v
  | handle k => exact Handle.takes_read fits
  | handles k => exact Handle.Table.takes_read fits.1 fits.2 fun e _ => .pure e.2
  | values k =>
    exact Handle.Table.takes_read fits.1 (fun e he => (fits.2 e he).1)
      fun e he => Reader.takes_blob (fits.2 e he).2
  | transportation => exact Transportation.takes_read v
  | extent => exact Extent.takes_read v
  | resignAction => exact ResignAction.takes_read v
  | order => exact MessageOrder.takes_read v
  | family =>
    have size : (Text.encode (TimeFamily.name v)).length < capacity 4 := by
      cases (v : TimeFamily) <;> decide
    exact (Reader.takes_text size).bind_lift (TimeFamily.ofName_name v)
  | time => exact takes_readTime (settled _ List.mem_cons_self)
  | interval =>
    rw [show f = some (Interval.family v) from settled _ List.mem_cons_self]
    exact (Reader.Takes.pure _).bind (TimeFamily.takes_readInterval v)
  | info =>
    exact takes_readInfo fits fun t ht =>
      settled _ (List.mem_map_of_mem (Option.mem_toList.mpr ht))
  | maybeText =>
    cases (v : Option String) with
    | none =>
      have empty : Reader.text.Takes (Bytes.text "") "" := Reader.takes_text (by decide)
      exact (Reader.takes_flag false).bind (empty.map _)
    | some t =>
      have text := Reader.takes_text (fits t rfl)
      exact (Reader.takes_flag true).bind (text.map _)
  | maybe s ih =>
    refine takes_readMaybe fun a ha => ih (fits a ha) fun g hg => settled g ?_
    exact List.mem_flatMap.mpr ⟨a, Option.mem_toList.mpr ha, hg⟩
  | list s ih =>
    refine Reader.takes_counted fits.1 fun a ha => ih (fits.2 a ha) fun g hg => settled g ?_
    exact List.mem_flatMap.mpr ⟨a, ha, hg⟩
  | pair s t hs ht =>
    have first := hs fits.1 fun g hg => settled g (List.mem_append_left _ hg)
    have second := ht fits.2 fun g hg => settled g (List.mem_append_right _ hg)
    exact first.bind (second.map fun b => (v.1, b))

/-- Before a family is settled, a value with a time in it cannot be read. -/
theorem rejects_read {s : Shape} {v : s.Value} (fits : s.Fits v) (timed : s.families v ≠ [])
    (rest : Bytes) : (s.read none).Rejects (s.write v ++ rest) := by
  induction s generalizing rest with
  | time => exact rejects_negotiated _ _
  | interval => exact rejects_negotiated _ _
  | info =>
    cases time : (v : MessageInfo).time with
    | none => exact absurd (by simp [families, time]) timed
    | some t => exact rejects_readInfo fits time rest
  | maybe s ih =>
    cases v with
    | none => exact absurd rfl timed
    | some a => exact rejects_readMaybe (ih (fits a rfl) (by simpa [families] using timed) rest)
  | list s ih =>
    have some : ∃ a ∈ v, ¬ s.families a = [] := by
      simpa [families, List.flatMap_eq_nil_iff] using timed
    have items := Reader.rejects_many (p := fun a => s.families a = [])
      (fun a ha timeless => takes_read (f := none) (fits.2 a ha) (by simp [timeless]))
      (fun a ha => ih (fits.2 a ha)) some rest
    rw [write, List.append_assoc]
    exact (Reader.takes_nat fits.1).rejects_bind items
  | pair s t hs ht =>
    rw [write, List.append_assoc]
    by_cases first : s.families v.1 = []
    · have second : t.families v.2 ≠ [] := by simpa [families, first] using timed
      exact (takes_read fits.1 (by simp [first])).rejects_bind (ht fits.2 second rest).bind
    · exact (hs fits.1 first _).bind
  | _ => exact absurd rfl timed

end Shape

end Federate
