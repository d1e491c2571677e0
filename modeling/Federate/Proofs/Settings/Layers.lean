/-
Layers of settings. However many lines there are, what comes of them is what comes
of their entries one after another (`applyEntries_flatMap`): each entry is good or bad
by itself, the first bad one is reported, and of the good ones the last for a
setting stands (`lastWins`). Nothing is supposed of the words for durations.
-/
import Federate.Proofs.Settings.Values
namespace Federate.Settings

variable {words : Words} {s t : Settings}

/-! ## The values of settings -/

/-- The value of a setting, if it has one. -/
def value? (s : Settings) : (k : Key) → Option k.Value
  | .heartbeatInterval => some s.heartbeatInterval
  | .responseTimeout => some s.responseTimeout
  | .reconnectLimit => some s.reconnectLimit
  | .connectTimeout => s.connectTimeout
  | .asyncUpdates => some s.asyncUpdates
  | .rateLimited => some s.rateLimited
  | .host => some s.host
  | .port => some s.port
  | .protocol => some s.protocol
  | .maxRetryAttempts => some s.maxRetryAttempts
  | .messageQueueSize => some s.messageQueueSize

/-- Settings are as their values are. -/
theorem ext_value? (h : ∀ k, s.value? k = t.value? k) : s = t := by
  have same {k : Key} {a b : k.Value} (hs : s.value? k = some a) (ht : t.value? k = some b) :
      a = b := Option.some.inj (hs.symm.trans ((h k).trans ht))
  rcases s with ⟨⟩
  rcases t with ⟨⟩
  simp only [mk.injEq]
  exact ⟨same (k := .heartbeatInterval) rfl rfl, same (k := .responseTimeout) rfl rfl,
    same (k := .reconnectLimit) rfl rfl, h .connectTimeout, same (k := .asyncUpdates) rfl rfl,
    same (k := .rateLimited) rfl rfl, same (k := .host) rfl rfl, same (k := .port) rfl rfl,
    same (k := .protocol) rfl rfl, same (k := .maxRetryAttempts) rfl rfl,
    same (k := .messageQueueSize) rfl rfl⟩

/-- A change gives its setting its value. -/
theorem value?_apply_self (s : Settings) (c : Change) : (s.apply c).value? c.key = some c.value := by
  rcases c with ⟨k, v⟩
  cases k <;> rfl

/-- A change leaves the other settings as they are. -/
theorem value?_apply_of_ne {c : Change} {k : Key} (h : c.key ≠ k) :
    (s.apply c).value? k = s.value? k := by
  rcases c with ⟨key, v⟩
  cases key <;> cases k <;> first | rfl | exact absurd rfl h

/-- Changes of different settings may change places. -/
theorem apply_comm {c d : Change} (h : c.key ≠ d.key) (s : Settings) :
    (s.apply c).apply d = (s.apply d).apply c := by
  apply ext_value?
  intro k
  by_cases hc : c.key = k
  · subst hc
    rw [value?_apply_of_ne h.symm, value?_apply_self, value?_apply_self]
  · by_cases hd : d.key = k
    · subst hd
      rw [value?_apply_self, value?_apply_of_ne hc, value?_apply_self]
    · rw [value?_apply_of_ne hd, value?_apply_of_ne hc, value?_apply_of_ne hc,
        value?_apply_of_ne hd]

/-! ## Entries by themselves -/

/-- The name that an entry spells before its first equals sign. -/
def name? (e : List Char) : Option String :=
  (Text.cutAt '=' e).map fun p => String.ofList (Text.trim p.1)

/-- Whether an entry names a setting. -/
def Names (e : List Char) (k : Key) : Prop := name? e = some k.name

instance (e : List Char) (k : Key) : Decidable (Names e k) :=
  inferInstanceAs (Decidable (name? e = some k.name))

/-- Whether an entry names a setting, and what it says after the equals sign reads as a value. -/
def Gives (words : Words) (e : List Char) (k : Key) (v : k.Value) : Prop :=
  ∃ left right, Text.cutAt '=' e = some (left, right) ∧
    String.ofList (Text.trim left) = k.name ∧ k.read words (Text.trim right) = .ok v

/-- Whether an entry is good by itself. -/
def Valid (words : Words) (e : List Char) : Prop := ∃ k v, Gives words e k v

/-- An entry gives a value by spelling it. -/
theorem gives_iff {e : List Char} {k : Key} {v : k.Value} :
    Gives words e k v ↔ ∃ left right, Text.cutAt '=' e = some (left, right) ∧
      Text.trim left = k.name.toList ∧ k.Spells words v (Text.trim right) := by
  have spelt (left : List Char) : String.ofList (Text.trim left) = k.name ↔
      Text.trim left = k.name.toList := by rw [← String.toList_inj, String.toList_ofList]
  simp only [Gives, Key.read_eq_ok_iff, spelt]

theorem Gives.names {e : List Char} {k : Key} {v : k.Value} (h : Gives words e k v) : Names e k := by
  obtain ⟨left, right, cut, spelt, -⟩ := h
  rw [Names, name?, cut, ← spelt]
  rfl

theorem Names.unique {e : List Char} {k l : Key} (hk : Names e k) (hl : Names e l) : k = l := by
  have same : k.name = l.name := Option.some.inj (hk.symm.trans hl)
  have found := Key.ofName?_name k
  rw [same, Key.ofName?_name] at found
  exact (Option.some.inj found).symm

/-- The change of an entry is to the setting it names, and to the value it gives. -/
theorem ofEntry_eq_ok_iff {e : List Char} {c : Change} :
    Change.ofEntry words e = .ok c ↔ Gives words e c.key c.value := by
  constructor
  · intro h
    unfold Change.ofEntry at h
    cases cut : Text.cutAt '=' e with
    | none =>
      rw [cut] at h
      cases h
    | some p =>
      obtain ⟨left, right⟩ := p
      cases found : Key.ofName? (String.ofList (Text.trim left)) with
      | none =>
        simp only [cut, found] at h
        cases h
      | some key =>
        cases value : key.read words (Text.trim right) with
        | error reason =>
          simp only [cut, found, value] at h
          cases h
        | ok v =>
          simp only [cut, found, value] at h
          cases h
          exact ⟨left, right, cut, (Key.name_of_ofName? found).symm, value⟩
  · rintro ⟨left, right, cut, spelt, value⟩
    have found : Key.ofName? (String.ofList (Text.trim left)) = some c.key :=
      spelt ▸ Key.ofName?_name c.key
    unfold Change.ofEntry
    simp only [cut, found, value]

theorem valid_iff {e : List Char} : Valid words e ↔ ∃ c, Change.ofEntry words e = .ok c := by
  constructor
  · rintro ⟨k, v, h⟩
    exact ⟨⟨k, v⟩, ofEntry_eq_ok_iff.mpr h⟩
  · rintro ⟨c, h⟩
    exact ⟨c.key, c.value, ofEntry_eq_ok_iff.mp h⟩

/-! ## One entry after another -/

variable {e : List Char} {es : List (List Char)}

/-- A good entry changes one setting. -/
theorem applyEntries_cons_of_ok {c : Change} (h : Change.ofEntry words e = .ok c) :
    s.applyEntries words (e :: es) = (s.apply c).applyEntries words es := by
  rw [applyEntries, List.foldlM_cons, h]
  rfl

/-- A bad entry is reported, whatever comes after it. -/
theorem applyEntries_cons_of_error {x : SettingsFault} (h : Change.ofEntry words e = .error x) :
    s.applyEntries words (e :: es) = .error x := by
  rw [applyEntries, List.foldlM_cons, h]
  rfl

theorem applyEntries_append (before after : List (List Char)) :
    s.applyEntries words (before ++ after) =
      s.applyEntries words before >>= fun t => t.applyEntries words after :=
  List.foldlM_append

theorem applyEntries_append_of_ok {before after : List (List Char)}
    (h : s.applyEntries words before = .ok t) :
    s.applyEntries words (before ++ after) = t.applyEntries words after := by
  rw [applyEntries_append, h]
  rfl

/-- Entries are taken if each is good by itself. -/
theorem applyEntries_ok_iff :
    (∃ t, s.applyEntries words es = .ok t) ↔ ∀ e ∈ es, Valid words e := by
  induction es generalizing s with
  | nil => exact iff_of_true ⟨s, rfl⟩ (by simp)
  | cons e es ih =>
    rw [List.forall_mem_cons, valid_iff]
    cases h : Change.ofEntry words e with
    | ok c =>
      rw [applyEntries_cons_of_ok h, ih]
      exact ⟨fun rest => ⟨⟨c, rfl⟩, rest⟩, And.right⟩
    | error x =>
      rw [applyEntries_cons_of_error h]
      simp

/-- What is reported is the first bad entry. -/
theorem applyEntries_error_iff {x : SettingsFault} :
    s.applyEntries words es = .error x ↔ ∃ before e after, es = before ++ e :: after ∧
      (∀ b ∈ before, Valid words b) ∧ Change.ofEntry words e = .error x := by
  constructor
  · intro h
    induction es generalizing s with
    | nil => cases h
    | cons e es ih =>
      cases he : Change.ofEntry words e with
      | error y =>
        rw [applyEntries_cons_of_error he] at h
        cases h
        exact ⟨[], e, es, rfl, by simp, he⟩
      | ok c =>
        rw [applyEntries_cons_of_ok he] at h
        obtain ⟨before, f, after, rfl, good, bad⟩ := ih h
        refine ⟨e :: before, f, after, rfl, ?_, bad⟩
        exact List.forall_mem_cons.mpr ⟨valid_iff.mpr ⟨c, he⟩, good⟩
  · rintro ⟨before, e, after, rfl, good, bad⟩
    obtain ⟨t, ht⟩ := applyEntries_ok_iff (s := s).mpr good
    rw [applyEntries_append_of_ok ht, applyEntries_cons_of_error bad]

/-- A setting that no entry names stays as it is. -/
theorem value?_of_not_named {k : Key} (h : s.applyEntries words es = .ok t)
    (unnamed : ∀ e ∈ es, ¬ Names e k) : t.value? k = s.value? k := by
  induction es generalizing s with
  | nil =>
    cases h
    rfl
  | cons e es ih =>
    rw [List.forall_mem_cons] at unnamed
    cases he : Change.ofEntry words e with
    | error x =>
      rw [applyEntries_cons_of_error he] at h
      cases h
    | ok c =>
      rw [applyEntries_cons_of_ok he] at h
      have other : c.key ≠ k := fun same =>
        unnamed.1 (same ▸ (ofEntry_eq_ok_iff.mp he).names)
      rw [ih h unnamed.2, value?_apply_of_ne other]

/-- The last entry that names a setting gives it its value. -/
theorem value?_of_last {before after : List (List Char)} {k : Key}
    (h : s.applyEntries words (before ++ e :: after) = .ok t) (named : Names e k)
    (last : ∀ a ∈ after, ¬ Names a k) : ∃ v, Gives words e k v ∧ t.value? k = some v := by
  have good := applyEntries_ok_iff.mp ⟨t, h⟩
  rw [List.forall_mem_append, List.forall_mem_cons] at good
  obtain ⟨u, hu⟩ := applyEntries_ok_iff (s := s).mpr good.1
  obtain ⟨c, hc⟩ := valid_iff.mp good.2.1
  have gives := ofEntry_eq_ok_iff.mp hc
  obtain rfl := gives.names.unique named
  -- What comes before the entry does not matter, and what comes after leaves its setting alone.
  rw [applyEntries_append_of_ok hu, applyEntries_cons_of_ok hc] at h
  exact ⟨c.value, gives, by rw [value?_of_not_named h last, value?_apply_self]⟩

/-- Good entries for different settings may change places. -/
theorem applyEntries_swap {before after : List (List Char)} {f : List Char}
    (he : Valid words e) (hf : Valid words f) (other : name? e ≠ name? f) :
    s.applyEntries words (before ++ e :: f :: after) =
      s.applyEntries words (before ++ f :: e :: after) := by
  obtain ⟨c, hc⟩ := valid_iff.mp he
  obtain ⟨d, hd⟩ := valid_iff.mp hf
  have keys : c.key ≠ d.key := fun same => by
    have nameE : name? e = some c.key.name := (ofEntry_eq_ok_iff.mp hc).names
    have nameF : name? f = some d.key.name := (ofEntry_eq_ok_iff.mp hd).names
    exact other (by rw [nameE, nameF, same])
  have swapped (u : Settings) :
      u.applyEntries words (e :: f :: after) = u.applyEntries words (f :: e :: after) := by
    rw [applyEntries_cons_of_ok hc, applyEntries_cons_of_ok hd, applyEntries_cons_of_ok hd,
      applyEntries_cons_of_ok hc, apply_comm keys]
  rw [applyEntries_append, applyEntries_append]
  simp only [swapped]

/-- What comes of entries, each checked by itself, the last one for a setting standing. -/
structure LastWins (words : Words) (s : Settings) (es : List (List Char))
    (result : Except SettingsFault Settings) : Prop where
  accepted_iff : (∃ t, result = .ok t) ↔ ∀ e ∈ es, Valid words e
  refused_iff : ∀ x, result = .error x ↔ ∃ before e after, es = before ++ e :: after ∧
    (∀ b ∈ before, Valid words b) ∧ Change.ofEntry words e = .error x
  last : ∀ t, result = .ok t → ∀ k before e after, es = before ++ e :: after → Names e k →
    (∀ a ∈ after, ¬ Names a k) → ∃ v, Gives words e k v ∧ t.value? k = some v
  kept : ∀ t, result = .ok t → ∀ k, (∀ e ∈ es, ¬ Names e k) → t.value? k = s.value? k

theorem lastWins (words : Words) (s : Settings) (es : List (List Char)) :
    LastWins words s es (s.applyEntries words es) where
  accepted_iff := applyEntries_ok_iff
  refused_iff _ := applyEntries_error_iff
  last _ ht _ _ _ _ cut := by
    subst cut
    exact value?_of_last ht
  kept _ ht _ := value?_of_not_named ht

/-! ## Lines -/

/-- Lines one after another are their entries one after another. -/
theorem applyEntries_flatMap (lines : List String) :
    lines.foldlM (applyLine words) s = s.applyEntries words (lines.flatMap entries) := by
  induction lines generalizing s with
  | nil => rfl
  | cons line lines ih =>
    rw [List.foldlM_cons, List.flatMap_cons, applyEntries_append]
    simp only [ih]
    rfl

theorem entries_append_comma (a b : String) : entries (a ++ "," ++ b) = entries a ++ entries b := by
  have cut : (a ++ "," ++ b).toList = a.toList ++ ',' :: b.toList := by
    rw [String.toList_append, String.toList_append, List.append_assoc]
    rfl
  rw [entries, cut, Text.fields_append_cons, List.map_append, List.filter_append]
  rfl

/-- Lines joined by commas have the entries of all of them, and no others. -/
theorem entries_intercalate (lines : List String) :
    entries (",".intercalate lines) = lines.flatMap entries := by
  induction lines with
  | nil => rfl
  | cons line lines ih =>
    cases lines with
    | nil => simp
    | cons next lines =>
      rw [String.intercalate_cons_cons, entries_append_comma, ih]
      rfl

/-- An entry alone is a line with this entry. -/
theorem entries_ofList {line : String} (h : e ∈ entries line) : entries (String.ofList e) = [e] := by
  rw [entries, List.mem_filter, List.mem_map] at h
  obtain ⟨⟨field, hfield, rfl⟩, nonempty⟩ := h
  have free : ',' ∉ Text.trim field := fun mem =>
    Text.not_mem_of_mem_fields hfield (Text.mem_of_mem_trim mem)
  rw [entries, String.toList_ofList, Text.fields_of_not_mem free, List.map_singleton,
    Text.trim_trim]
  exact List.filter_cons_of_pos nonempty

/-- The entries of all layers, in order. -/
def layerEntries (defaults : Option String) (line : String) (overrides : Option String) :
    List (List Char) := (defaults.toList ++ [line] ++ overrides.toList).flatMap entries

theorem layeredBy_eq (words : Words) (defaults : Option String) (line : String)
    (overrides : Option String) : layeredBy words defaults line overrides =
      standard.applyEntries words (layerEntries defaults line overrides) :=
  applyEntries_flatMap _

theorem layerEntries_joined (lines : List String) :
    layerEntries none (",".intercalate lines) none = lines.flatMap entries :=
  (List.append_nil _).trans (entries_intercalate lines)

/-- The entries of a line for one connection, and the overrides again. -/
def localEntries (line : String) (overrides : Option String) : List (List Char) :=
  entries line ++ overrides.toList.flatMap entries

theorem localBy_eq (words : Words) (s : Settings) (line : String) (overrides : Option String) :
    s.localBy words line overrides = s.applyEntries words (localEntries line overrides) :=
  applyEntries_flatMap _

/-- An entry alone on a line is as good or bad as it is among others, in whatever settings. -/
theorem applyLine_alone {line : String} (h : e ∈ entries line) (s : Settings) :
    s.applyLine words (String.ofList e) = (Change.ofEntry words e).map s.apply := by
  rw [applyLine, entries_ofList h]
  cases he : Change.ofEntry words e with
  | ok c => exact applyEntries_cons_of_ok he
  | error x => exact applyEntries_cons_of_error he

/-- **Of all entries of all layers the last for a setting stands.** An entry is good or bad by
itself. The layers are taken if each of their entries is good, and else the first bad one is
reported; a setting has the value that the last entry for it gives, or its standard one. The
layers come to what one line of them all comes to, and two good entries next to each other, for
different settings, may change places. For one connection a line and the overrides are applied to
the settings at hand in the same way, so that a setting named by the overrides is theirs. -/
theorem layered_last_wins (words : Words) (defaults : Option String) (line : String)
    (overrides : Option String) :
    (∀ e ∈ layerEntries defaults line overrides, ∀ t : Settings,
      t.applyLine words (String.ofList e) = (Change.ofEntry words e).map t.apply) ∧
    LastWins words standard (layerEntries defaults line overrides)
      (layeredBy words defaults line overrides) ∧
    layeredBy words defaults line overrides = layeredBy words none
      (",".intercalate (defaults.toList ++ [line] ++ overrides.toList)) none ∧
    (∀ before e f after, layerEntries defaults line overrides = before ++ e :: f :: after →
      Valid words e → Valid words f → name? e ≠ name? f → ∀ defaults' line' overrides',
      layerEntries defaults' line' overrides' = before ++ f :: e :: after →
      layeredBy words defaults' line' overrides' = layeredBy words defaults line overrides) ∧
    ∀ s : Settings,
      s.localBy words line overrides = s.applyEntries words (localEntries line overrides) ∧
      LastWins words s (localEntries line overrides) (s.localBy words line overrides) ∧
      (∀ t, s.localBy words line overrides = .ok t → ∀ o, overrides = some o →
        ∀ k before e after, entries o = before ++ e :: after → Names e k →
        (∀ a ∈ after, ¬ Names a k) → ∃ v, Gives words e k v ∧ t.value? k = some v) := by
  refine ⟨?_, ?_, ?_, ?_, fun s => ⟨localBy_eq words s line overrides, ?_, ?_⟩⟩
  · intro e he t
    obtain ⟨layer, -, mem⟩ := List.mem_flatMap.mp he
    exact applyLine_alone mem t
  · rw [layeredBy_eq]
    exact lastWins words standard _
  · rw [layeredBy_eq, layeredBy_eq, layerEntries_joined]
    rfl
  · intro before e f after here he hf other defaults' line' overrides' there
    rw [layeredBy_eq, layeredBy_eq, here, there]
    exact (applyEntries_swap he hf other).symm
  · rw [localBy_eq]
    exact lastWins words s _
  · rintro t ht o rfl k before e after cut named last
    have whole : localEntries line (some o) = (entries line ++ before) ++ e :: after := by
      rw [localEntries, Option.toList_some, List.flatMap_singleton, cut, List.append_assoc]
    rw [localBy_eq, whole] at ht
    exact value?_of_last ht named last

/-- A reader that knows no words for durations. -/
def noWords : Words := fun _ => .error "no words are known"

/-- A port named in the defaults and in the overrides is that of the overrides, a setting named
nowhere is the standard one, and two entries of different layers may change places. -/
theorem layered_last_wins_port :
    (∃ t, layeredBy noWords (some "connect.port=1, asyncUpdates = TRUE") " ,connect.hostname=a=b"
        (some "connect.port=2") = .ok t ∧
      t.value? .port = some 2 ∧ t.value? .messageQueueSize = some 2000) ∧
    layeredBy noWords none
        "connect.port=1,connect.hostname=a=b,asyncUpdates = TRUE,connect.port=2" none =
      layeredBy noWords (some "connect.port=1, asyncUpdates = TRUE") " ,connect.hostname=a=b"
        (some "connect.port=2") := by
  obtain ⟨-, wins, -, swap, -⟩ := layered_last_wins noWords
    (some "connect.port=1, asyncUpdates = TRUE") " ,connect.hostname=a=b" (some "connect.port=2")
  have flag : Valid noWords "asyncUpdates = TRUE".toList :=
    ⟨.asyncUpdates, true, _, _, rfl, rfl, rfl⟩
  have host : Valid noWords "connect.hostname=a=b".toList :=
    ⟨.host, "a=b", _, _, rfl, rfl, rfl⟩
  have cut : layerEntries (some "connect.port=1, asyncUpdates = TRUE") " ,connect.hostname=a=b"
      (some "connect.port=2") = ["connect.port=1".toList] ++ "asyncUpdates = TRUE".toList ::
        "connect.hostname=a=b".toList :: ["connect.port=2".toList] := by rfl
  have good : ∀ e ∈ layerEntries (some "connect.port=1, asyncUpdates = TRUE")
      " ,connect.hostname=a=b" (some "connect.port=2"), Valid noWords e := by
    rw [cut]
    simp only [List.singleton_append, List.forall_mem_cons, List.not_mem_nil, false_imp_iff,
      implies_true, and_true]
    exact ⟨⟨.port, 1, _, _, rfl, rfl, rfl⟩, flag, host, ⟨.port, 2, _, _, rfl, rfl, rfl⟩⟩
  obtain ⟨t, ht⟩ := wins.accepted_iff.mpr good
  refine ⟨⟨t, ht, ?_, ?_⟩, swap _ _ _ _ cut flag host (by decide) none _ none rfl⟩
  · obtain ⟨v, ⟨left, right, hcut, -, value⟩, hv⟩ := wins.last t ht .port
      ["connect.port=1".toList, "asyncUpdates = TRUE".toList, "connect.hostname=a=b".toList]
      "connect.port=2".toList [] rfl rfl (by simp)
    cases hcut
    cases value
    exact hv
  · refine wins.kept t ht .messageQueueSize ?_
    rw [cut]
    decide

end Federate.Settings
