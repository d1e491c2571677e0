/-
White space, in the sense of the Unicode property White_Space, and the cutting
of text at it and at separators. A field never holds its separator
(`not_mem_of_mem_fields`), and the fields joined again are the text
(`intercalate_fields`); what is trimmed has nothing left to trim (`trim_trim`).
-/
namespace Federate.Text

/-- The characters with the Unicode property White_Space. -/
def isBlank (c : Char) : Bool :=
  let n := c.toNat
  (9 ≤ n && n ≤ 13) || n == 0x20 || n == 0x85 || n == 0xA0 || n == 0x1680 ||
    (0x2000 ≤ n && n ≤ 0x200A) || n == 0x2028 || n == 0x2029 || n == 0x202F || n == 0x205F ||
    n == 0x3000

/-- Without the white space at both ends. -/
def trim (cs : List Char) : List Char :=
  ((cs.dropWhile isBlank).reverse.dropWhile isBlank).reverse

/-- The stretches between occurrences of `sep`: one more than there are occurrences. -/
def fields (sep : Char) : List Char → List (List Char)
  | [] => [[]]
  | c :: rest =>
    if c = sep then [] :: fields sep rest
    else match fields sep rest with
      | [] => [[c]]
      | f :: fs => (c :: f) :: fs

/-- The text before and after the first `sep`, if there is one. -/
def cutAt (sep : Char) : List Char → Option (List Char × List Char)
  | [] => none
  | c :: rest =>
    if c = sep then some ([], rest)
    else (cutAt sep rest).map fun (a, b) => (c :: a, b)

theorem fields_ne_nil (sep : Char) (cs : List Char) : fields sep cs ≠ [] := by
  cases cs with
  | nil => simp [fields]
  | cons c rest =>
    simp only [fields]
    split
    · simp
    · split <;> simp

theorem not_mem_of_mem_fields {sep : Char} {cs f : List Char} (h : f ∈ fields sep cs) :
    sep ∉ f := by
  induction cs generalizing f with
  | nil => simp_all [fields]
  | cons c rest ih =>
    simp only [fields] at h
    split at h
    · rcases List.mem_cons.mp h with rfl | h
      · simp
      · exact ih h
    · rename_i hc
      split at h
      · simp only [List.mem_singleton] at h
        subst h
        simpa using fun he => hc he.symm
      · rename_i g gs hg
        rcases List.mem_cons.mp h with rfl | h
        · have := ih (f := g) (by rw [hg]; exact List.mem_cons_self)
          simpa [this] using fun he => hc he.symm
        · exact ih (by rw [hg]; exact List.mem_cons_of_mem _ h)

theorem intercalate_fields (sep : Char) (cs : List Char) :
    [sep].intercalate (fields sep cs) = cs := by
  induction cs with
  | nil => rfl
  | cons c rest ih =>
    simp only [fields]
    split
    · rename_i hc
      subst hc
      cases hf : fields c rest with
      | nil => exact absurd hf (fields_ne_nil _ _)
      | cons g gs =>
        rw [hf] at ih
        simp [List.intercalate, ← ih]
    · cases hf : fields sep rest with
      | nil => exact absurd hf (fields_ne_nil _ _)
      | cons g gs =>
        rw [hf] at ih
        cases gs with
        | nil => simpa [List.intercalate] using ih
        | cons g' gs => simpa [List.intercalate] using ih

theorem fields_append_cons (sep : Char) (a b : List Char) :
    fields sep (a ++ sep :: b) = fields sep a ++ fields sep b := by
  induction a with
  | nil => simp [fields]
  | cons c a ih =>
    rw [List.cons_append, fields, ih, fields]
    split
    · rfl
    · cases h : fields sep a with
      | nil => exact absurd h (fields_ne_nil sep a)
      | cons f fs => rfl

theorem fields_of_not_mem {sep : Char} {cs : List Char} (h : sep ∉ cs) : fields sep cs = [cs] := by
  induction cs with
  | nil => rfl
  | cons c rest ih =>
    rw [List.mem_cons, not_or] at h
    rw [fields, if_neg (Ne.symm h.1), ih h.2]

theorem mem_of_mem_trim {c : Char} {cs : List Char} (h : c ∈ trim cs) : c ∈ cs := by
  have left := List.mem_reverse.mp h
  have right := List.mem_reverse.mp ((List.dropWhile_sublist isBlank).mem left)
  exact (List.dropWhile_sublist isBlank).mem right

theorem dropWhile_of_prefix {p : Char → Bool} {cs t : List Char} (h : t <+: cs.dropWhile p) :
    t.dropWhile p = t := by
  cases t with
  | nil => rfl
  | cons c t =>
    obtain ⟨rest, hrest⟩ := h
    have head := List.head?_dropWhile_not p cs
    rw [← hrest] at head
    exact List.dropWhile_cons_of_neg (by simpa using head)

/-- What is trimmed has no white space left to trim. -/
theorem trim_trim (cs : List Char) : trim (trim cs) = trim cs := by
  have front : (trim cs).dropWhile isBlank = trim cs := by
    have start : trim cs <+: cs.dropWhile isBlank := by
      rw [trim, ← List.reverse_suffix, List.reverse_reverse]
      exact List.dropWhile_suffix isBlank
    exact dropWhile_of_prefix start
  have back : (trim cs).reverse.dropWhile isBlank = (trim cs).reverse := by
    rw [trim, List.reverse_reverse]
    exact dropWhile_of_prefix (List.prefix_refl _)
  rw [trim, front, back, List.reverse_reverse]

end Federate.Text
