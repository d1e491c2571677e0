/-
Callbacks and their envelopes. A callback is read from its own envelope as it
was, wherever the times in it are of the settled family; before a family is
settled, an envelope with a time in it cannot be read. Whatever envelope comes
is a callback of its number or undecodable, and the payload of a callback can be
neither shortened nor lengthened (`Callback.decode_exact`). All of this is put
together from the shapes of the fields. Of the kinds of callback two things are
used: that the fields of each are read in the order in which they are written
(`Callback.Kind.read_eq`), and that none of them is the name of a family.
-/
import Federate.Callback
import Federate.Proofs.Codec.Shapes
namespace Federate

/-! ## Layouts -/

namespace Layout

variable {f : Option TimeFamily}

/-- Every text, blob and collection in the record has fewer than `2 ^ 32` bytes or members. -/
def Fits : (l : Layout) → l.Record → Prop
  | [], _ => True
  | field :: rest, r => field.2.Fits r.1 ∧ Fits rest r.2

/-- Whether a record fits. -/
def decFits : (l : Layout) → (r : l.Record) → Decidable (l.Fits r)
  | [], _ => .isTrue trivial
  | field :: rest, r =>
    have := decFits rest r.2
    inferInstanceAs (Decidable (field.2.Fits r.1 ∧ Fits rest r.2))

/-- The families of the times and intervals in the record, first to last. -/
def families : (l : Layout) → l.Record → List TimeFamily
  | [], _ => []
  | field :: rest, r => field.2.families r.1 ++ families rest r.2

theorem strict_read (l : Layout) : (l.read f).Strict := by
  induction l with
  | nil => exact .pure ()
  | cons field rest ih => exact (field.2.strict_read).bind fun _ => ih.map _

theorem plain_read {l : Layout} (h : ∀ field ∈ l, field.2.namesFamily = false) :
    (l.read f).Plain := by
  induction l with
  | nil => exact .pure ()
  | cons field rest ih =>
    obtain ⟨first, others⟩ := List.forall_mem_cons.mp h
    exact (Shape.plain_read first).bind fun _ => (ih others).map _

theorem yields_read (l : Layout) : (l.read f).Yields fun r => ∀ g ∈ l.families r, f = some g := by
  induction l with
  | nil => exact .pure fun _ hg => absurd hg List.not_mem_nil
  | cons field rest ih =>
    refine field.2.yields_read.bind fun v hv => ih.bind fun r hr => .pure fun g hg => ?_
    rcases List.mem_append.mp hg with hg | hg
    · exact hv g hg
    · exact hr g hg

theorem takes_read {l : Layout} {r : l.Record} (fits : l.Fits r)
    (settled : ∀ g ∈ l.families r, f = some g) : (l.read f).Takes (l.write r) r := by
  induction l with
  | nil => exact .pure ()
  | cons field rest ih =>
    have first := Shape.takes_read fits.1 fun g hg => settled g (List.mem_append_left _ hg)
    have others := ih fits.2 fun g hg => settled g (List.mem_append_right _ hg)
    exact first.bind (others.map fun r' => (r.1, r'))

/-- The fields before the first one with a time are read, and that one is not. -/
theorem rejects_read {l : Layout} {r : l.Record} (fits : l.Fits r) (timed : l.families r ≠ []) :
    (l.read none).Rejects (l.write r) := by
  induction l with
  | nil => exact absurd rfl timed
  | cons field rest ih =>
    by_cases first : field.2.families r.1 = []
    · have others : families rest r.2 ≠ [] := by simpa [families, first] using timed
      have read := Shape.takes_read (f := none) fits.1 (by simp [first])
      exact read.rejects_bind (ih fits.2 others).bind
    · exact (Shape.rejects_read fits.1 first _).bind

end Layout

/-! ## Callbacks -/

namespace Callback

variable {settled : Option TimeFamily} {c : Callback} {e : Envelope}

/-- Every text, blob and collection in the callback has fewer than `2 ^ 32` bytes or members. -/
def Fits (c : Callback) : Prop := c.kind.layout.Fits c.fields

instance (c : Callback) : Decidable c.Fits := Layout.decFits _ c.fields

/-- The families of the times in the callback, first to last. -/
def families (c : Callback) : List TimeFamily := c.kind.layout.families c.fields

/-- The families of times are negotiated in calls, and callbacks only rely on them. -/
theorem Kind.namesFamily_layout (k : Kind) : ∀ field ∈ k.layout, field.2.namesFamily = false := by
  cases k <;> decide

/-- The fields of every kind are read in the order in which they are written, each as what it is
written as. -/
theorem Kind.read_eq (k : Kind) : k.read settled = k.layout.read settled := by
  cases k <;> simp [Kind.read, Layout.read, Shape.read]

/-- The number of an envelope picks the layout by which its payload is read, to the end. -/
theorem decode_of_kind {k : Kind} (h : Kind.ofCode? e.tag = some k) : decode e settled =
    match (k.layout.read settled).run e.payload with
    | (.error fault, _) => .error fault
    | (.ok fields, rest) =>
      if rest.isEmpty then .ok ⟨k, fields⟩
      else .error (.couldNotDecode (s!"{rest.length} trailing bytes after " ++ k.name)) := by
  unfold decode
  split
  · next unknown =>
    rw [h] at unknown
    cases unknown
  · next k' known =>
    cases h.symm.trans known
    exact k.read_eq ▸ rfl

theorem decode_of_run {k : Kind} {fields : k.layout.Record} (h : Kind.ofCode? e.tag = some k)
    (read : (k.layout.read settled).run e.payload = (.ok fields, [])) :
    decode e settled = .ok ⟨k, fields⟩ := by
  rw [decode_of_kind h, read]
  rfl

theorem decode_of_rejects {k : Kind} (h : Kind.ofCode? e.tag = some k)
    (reject : (k.layout.read settled).Rejects e.payload) :
    ∃ details, decode e settled = .error (.couldNotDecode details) := by
  obtain ⟨details, left, read⟩ := reject
  rw [decode_of_kind h, read]
  exact ⟨details, rfl⟩

/-- What decodes to a callback is its number and exactly the bytes that its fields take up. -/
theorem takes_of_decode (h : decode e settled = .ok c) :
    Kind.ofCode? e.tag = some c.kind ∧
      (c.kind.layout.read settled).Takes e.payload c.fields := by
  cases hk : Kind.ofCode? e.tag with
  | none =>
    rw [decode, hk] at h
    cases h
  | some k =>
    rw [decode_of_kind hk] at h
    split at h
    · cases h
    · next fields rest read =>
      split at h
      · next none =>
        cases h
        obtain ⟨used, whole, takes⟩ := (Layout.strict_read _).takes read
        rw [List.isEmpty_iff.mp none, List.append_nil] at whole
        exact ⟨rfl, whole ▸ takes⟩
      · cases h

theorem decode_encode (fits : c.Fits) (h : ∀ g ∈ c.families, settled = some g) :
    decode c.encode settled = .ok c := by
  have read := (Layout.takes_read fits h).run_alone
  exact decode_of_run c.kind.ofCode?_code read

theorem decode_encode_none (fits : c.Fits) (timed : c.families ≠ []) :
    ∃ details, decode c.encode none = .error (.couldNotDecode details) :=
  decode_of_rejects c.kind.ofCode?_code (Layout.rejects_read fits timed)

theorem code_of_decode (h : decode e settled = .ok c) : c.kind.code = e.tag :=
  Kind.code_of_ofCode? (takes_of_decode h).1

theorem families_of_decode (h : decode e settled = .ok c) :
    ∀ g ∈ c.families, settled = some g := by
  have read := (takes_of_decode h).2 []
  exact Layout.yields_read _ _ _ _ read

theorem couldNotDecode_of_decode {fault : Fault} (h : decode e settled = .error fault) :
    ∃ details, fault = .couldNotDecode details := by
  cases hk : Kind.ofCode? e.tag with
  | none =>
    rw [decode, hk] at h
    cases h
    exact ⟨_, rfl⟩
  | some k =>
    rw [decode_of_kind hk] at h
    split at h
    · next read =>
      cases h
      exact Layout.plain_read k.namesFamily_layout _ _ _ read
    · split at h
      · cases h
      · cases h
        exact ⟨_, rfl⟩

/-- A payload without its end is given up where it ends. -/
theorem decode_beginning {front back : Bytes} (h : decode e settled = .ok c)
    (whole : e.payload = front ++ back) (ne : back ≠ []) :
    ∃ details, decode { e with payload := front } settled = .error (.couldNotDecode details) := by
  obtain ⟨known, takes⟩ := takes_of_decode h
  rw [whole] at takes
  exact decode_of_rejects known ((Layout.strict_read _).short takes ne)

theorem decode_extension {back : Bytes} (h : decode e settled = .ok c) (ne : back ≠ []) :
    ∃ details, decode { e with payload := e.payload ++ back } settled =
      .error (.couldNotDecode details) := by
  obtain ⟨known, takes⟩ := takes_of_decode h
  have read := takes back
  rw [decode_of_kind (e := ⟨e.tag, e.payload ++ back⟩) known, read]
  exact ⟨_, if_neg (by simpa using ne)⟩

/-- **Callbacks and their envelopes.** The envelope of a callback is read as that callback if its
times are of the settled family, and is undecodable if it has times and no family is settled. An
envelope that is read at all is that of a kind with its number, its times of the settled family,
and neither its payload cut short nor its payload with more behind it can be read. -/
theorem decode_exact (settled : Option TimeFamily) :
    (∀ c : Callback, c.Fits → (∀ g ∈ c.families, settled = some g) →
      decode c.encode settled = .ok c) ∧
    (∀ c : Callback, c.Fits → c.families = [] → decode c.encode none = .ok c) ∧
    (∀ c : Callback, c.Fits → c.families ≠ [] →
      ∃ details, decode c.encode none = .error (.couldNotDecode details)) ∧
    (∀ e, (∃ c, decode e settled = .ok c ∧ c.kind.code = e.tag ∧
        ∀ g ∈ c.families, settled = some g) ∨
      ∃ details, decode e settled = .error (.couldNotDecode details)) ∧
    (∀ e c, decode e settled = .ok c →
      (∀ front back, e.payload = front ++ back → back ≠ [] →
        ∃ details, decode { e with payload := front } settled =
          .error (.couldNotDecode details)) ∧
      (∀ back, back ≠ [] →
        ∃ details, decode { e with payload := e.payload ++ back } settled =
          .error (.couldNotDecode details))) := by
  refine ⟨fun c => decode_encode, fun c fits timeless => decode_encode fits (by simp [timeless]),
    fun c => decode_encode_none, fun e => ?_, fun e c h => ?_⟩
  · cases h : decode e settled with
    | ok c => exact .inl ⟨c, rfl, code_of_decode h, families_of_decode h⟩
    | error fault =>
      obtain ⟨details, rfl⟩ := couldNotDecode_of_decode h
      exact .inr ⟨details, rfl⟩
  · exact ⟨fun front back => decode_beginning h, fun back => decode_extension h⟩

/-- An update of two attributes at a time. -/
def timedUpdate : Callback where
  kind := .reflectAttributeValues
  fields := (⟨[7], by decide⟩, .ofList [(⟨[1], by decide⟩, [10, 11]), (⟨[2], by decide⟩, [])], [],
    ⟨.timestamp, .reliable, ⟨[9], by decide⟩, some (.discrete ⟨5, by decide⟩)⟩, ())

/-- An update is read back where times are discrete, not where none are settled; neither without
its last byte nor with another one; and the loss of a connection needs no settled family. -/
theorem decode_exact_timedUpdate :
    decode timedUpdate.encode (some .discrete) = .ok timedUpdate ∧
    (∃ details, decode timedUpdate.encode none = .error (.couldNotDecode details)) ∧
    decode (connectionLost "gone").encode none = .ok (connectionLost "gone") ∧
    (∃ details, decode { timedUpdate.encode with payload := timedUpdate.encode.payload.dropLast }
      (some .discrete) = .error (.couldNotDecode details)) ∧
    (∃ details, decode { timedUpdate.encode with payload := timedUpdate.encode.payload ++ [0] }
      (some .discrete) = .error (.couldNotDecode details)) := by
  have fits : timedUpdate.Fits := by decide
  obtain ⟨timed, timeless, early, -, exact⟩ := decode_exact (some .discrete)
  have read := timed timedUpdate fits (by decide)
  obtain ⟨short, long⟩ := exact _ _ read
  exact ⟨read, early _ fits (by decide), timeless _ (by decide) rfl,
    short _ [5] (by decide) (by decide), long [0] (by decide)⟩

end Callback

end Federate
