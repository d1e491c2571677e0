/-
What readers take up. A reader takes up some bytes and yields a value if it does
so whatever follows them (`Takes`). It is strict if that is the only way in
which it succeeds, and if no proper beginning of the bytes of a value can be
decoded (`Strict`); it is plain if the only fault it has is that bytes cannot be
decoded (`Plain`). Putting readers together keeps all three, so that they are
known of every reader made of the readers here. A reader is canonical if what it
takes up for a value is what is written for that value (`Canonical`).
-/
import Federate.Reader
namespace Federate.Reader

variable {α β : Type} {r : Reader α} {f : α → Reader β} {bs rest u v : Bytes} {a : α} {b : β}

/-- The reader takes up exactly these bytes and yields the value, whatever follows. -/
def Takes (r : Reader α) (used : Bytes) (a : α) : Prop :=
  ∀ rest, r.run (used ++ rest) = (.ok a, rest)

/-- What the reader finds undecodable: it fails, and for no other reason. -/
def Rejects (r : Reader α) (bs : Bytes) : Prop :=
  ∃ details left, r.run bs = (.error (.couldNotDecode details), left)

/-- The reader depends on the bytes that it takes up, on all of them and on no others. -/
structure Strict (r : Reader α) : Prop where
  takes : ∀ {bs a rest}, r.run bs = (.ok a, rest) → ∃ used, bs = used ++ rest ∧ r.Takes used a
  short : ∀ {front back a}, r.Takes (front ++ back) a → back ≠ [] → r.Rejects front

/-- The reader fails only where bytes cannot be decoded. -/
def Plain (r : Reader α) : Prop :=
  ∀ bs e rest, r.run bs = (.error e, rest) → ∃ details, e = .couldNotDecode details

/-- What is true of every value that the reader yields. -/
def Yields (r : Reader α) (p : α → Prop) : Prop := ∀ bs a rest, r.run bs = (.ok a, rest) → p a

/-- The bytes that a value is read from are the ones that are written for it. -/
def Canonical (r : Reader α) (write : α → Bytes) : Prop :=
  ∀ bs a rest, r.run bs = (.ok a, rest) → bs = write a ++ rest

/-! ## Bytes as they are -/

theorem takes_take (bs : Bytes) : (take bs.length).Takes bs bs := by
  intro rest
  rw [run_take_of_le (by simp), List.take_left, List.drop_left]

theorem run_take_eq_ok {n : Nat} (h : (take n).run bs = (.ok u, rest)) :
    u.length = n ∧ bs = u ++ rest := by
  by_cases hn : n ≤ bs.length
  · rw [run_take_of_le hn] at h
    cases h
    exact ⟨List.length_take_of_le hn, (List.take_append_drop n bs).symm⟩
  · rw [run_take_of_lt (by omega)] at h
    cases h

/-! ## One reading after another -/

theorem run_bind_eq_ok : (r >>= f).run bs = (.ok b, rest) ↔
    ∃ a mid, r.run bs = (.ok a, mid) ∧ (f a).run mid = (.ok b, rest) := by
  rw [run_bind]
  constructor
  · intro h
    split at h
    · next a mid hr => exact ⟨a, mid, hr, h⟩
    · cases h
  · rintro ⟨a, mid, hr, hf⟩
    rw [hr]
    exact hf

theorem run_bind_eq_error {e : Fault} : (r >>= f).run bs = (.error e, rest) ↔
    r.run bs = (.error e, rest) ∨
      ∃ a mid, r.run bs = (.ok a, mid) ∧ (f a).run mid = (.error e, rest) := by
  rw [run_bind]
  constructor
  · intro h
    split at h
    · next a mid hr => exact .inr ⟨a, mid, hr, h⟩
    · next e mid hr =>
      cases h
      exact .inl hr
  · rintro (hr | ⟨a, mid, hr, hf⟩)
    · rw [hr]
    · rw [hr]
      exact hf

theorem Takes.run_bind (h : r.Takes u a) (rest : Bytes) :
    (r >>= f).run (u ++ rest) = (f a).run rest :=
  run_bind_ok (h rest)

/-- Bytes with nothing behind them. -/
theorem Takes.run_alone (h : r.Takes u a) : r.run u = (.ok a, []) := by
  have read := h []
  rwa [List.append_nil] at read

theorem Takes.pure (a : α) : (pure a : Reader α).Takes [] a := fun _ => rfl

theorem Takes.bind (hr : r.Takes u a) (hf : (f a).Takes v b) : (r >>= f).Takes (u ++ v) b := by
  intro rest
  rw [List.append_assoc, hr.run_bind]
  exact hf rest

theorem Takes.map (h : r.Takes u a) (g : α → β) :
    (r >>= fun x => Pure.pure (g x)).Takes u (g a) := by
  intro rest
  rw [h.run_bind]
  rfl

/-- A check passes what was taken up. -/
theorem Takes.bind_lift {g : α → Except Fault β} (h : r.Takes u a) (hg : g a = .ok b) :
    (r >>= fun x => Reader.lift (g x)).Takes u b := by
  intro rest
  rw [h.run_bind, hg]
  rfl

theorem Rejects.bind (h : r.Rejects bs) : (r >>= f).Rejects bs := by
  obtain ⟨details, left, h⟩ := h
  exact ⟨details, left, run_bind_error h⟩

theorem Takes.rejects_bind (h : r.Takes u a) (later : (f a).Rejects v) :
    (r >>= f).Rejects (u ++ v) := by
  obtain ⟨details, left, later⟩ := later
  exact ⟨details, left, (h.run_bind v).trans later⟩

/-! ## Strict readers -/

/-- A reader that takes up nothing when it succeeds is strict. -/
theorem Strict.of_idle (idle : ∀ {bs a rest}, r.run bs = (.ok a, rest) → rest = bs ∧ r.Takes [] a) :
    r.Strict where
  takes h := ⟨[], (idle h).1.symm, (idle h).2⟩
  short h ne := by
    exact absurd (List.append_eq_nil_iff.mp (idle (h [])).1.symm).1 (by simp [ne])

theorem Strict.pure (a : α) : (Pure.pure a : Reader α).Strict := by
  refine .of_idle fun h => ?_
  cases h
  exact ⟨rfl, .pure a⟩

theorem Strict.fail (e : Fault) : (fail e : Reader α).Strict := .of_idle fun h => by cases h

theorem Strict.lift (x : Except Fault α) : (lift x).Strict := by
  refine .of_idle fun h => ?_
  cases h
  exact ⟨rfl, fun _ => rfl⟩

/-- A proper beginning of two values' bytes ends within the first or within the second. -/
theorem Strict.bind (hr : r.Strict) (hf : ∀ a, (f a).Strict) : (r >>= f).Strict where
  takes h := by
    obtain ⟨a, mid, hfirst, hsecond⟩ := run_bind_eq_ok.mp h
    obtain ⟨u, rfl, takes⟩ := hr.takes hfirst
    obtain ⟨v, rfl, later⟩ := (hf a).takes hsecond
    exact ⟨u ++ v, (List.append_assoc ..).symm, takes.bind later⟩
  short {front back b} h ne := by
    obtain ⟨a, mid, hfirst, hsecond⟩ := run_bind_eq_ok.mp (h [])
    obtain ⟨u, hu, takes⟩ := hr.takes hfirst
    obtain ⟨v, rfl, later⟩ := (hf a).takes hsecond
    simp only [List.append_nil] at hu
    rcases List.append_eq_append_iff.mp hu with ⟨cut, rfl, hback⟩ | ⟨front, rfl, rfl⟩
    · by_cases hcut : cut = []
      · subst hcut hback
        have none : (f a).Rejects [] := (hf a).short later ne
        rw [List.append_nil] at takes
        rw [← List.append_nil front]
        exact takes.rejects_bind none
      · exact (hr.short takes hcut).bind
    · exact takes.rejects_bind ((hf a).short later ne)

theorem Strict.map (h : r.Strict) (g : α → β) : (r >>= fun x => Pure.pure (g x)).Strict :=
  h.bind fun _ => .pure _

theorem Strict.ite {p : Prop} [Decidable p] {r r' : Reader α} (h : r.Strict) (h' : r'.Strict) :
    (if p then r else r').Strict := by
  split
  · exact h
  · exact h'

theorem strict_take (n : Nat) : (take n).Strict where
  takes {bs a rest} h := by
    obtain ⟨rfl, rfl⟩ := run_take_eq_ok h
    exact ⟨a, rfl, takes_take a⟩
  short {front back a} h ne := by
    obtain ⟨hlen, hbytes⟩ := run_take_eq_ok (h [])
    rw [List.append_nil, List.append_nil] at hbytes
    have hpos := List.length_pos_iff.mpr ne
    have hall := congrArg List.length hbytes
    rw [List.length_append] at hall
    exact ⟨_, _, run_take_of_lt (by omega)⟩

theorem strict_nat (width : Nat) : (nat width).Strict := (strict_take width).map _
theorem strict_byte : byte.Strict := (strict_nat 1).map _
theorem strict_word32 : word32.Strict := (strict_nat 4).map _
theorem strict_word64 : word64.Strict := (strict_nat 8).map _

theorem strict_flag : flag.Strict :=
  strict_byte.bind fun _ => .ite (.pure _) (.ite (.pure _) (.fail _))

theorem strict_blob : blob.Strict := (strict_nat 4).bind fun n => strict_take n

theorem strict_text : text.Strict := by
  refine strict_blob.bind fun bs => ?_
  split
  · exact .pure _
  · exact .fail _

theorem Strict.many (h : r.Strict) (n : Nat) : (r.many n).Strict := by
  induction n with
  | zero => exact .pure _
  | succ n ih => exact h.bind fun a => ih.map _

theorem Strict.counted (h : r.Strict) : r.counted.Strict := (strict_nat 4).bind fun n => h.many n

/-! ## Plain readers -/

theorem Plain.pure (a : α) : (Pure.pure a : Reader α).Plain := fun _ _ _ h => by cases h

theorem Plain.fail (details : String) : (fail (.couldNotDecode details) : Reader α).Plain := by
  intro _ _ _ h
  cases h
  exact ⟨details, rfl⟩

theorem Plain.lift {x : Except Fault α}
    (h : ∀ e, x = .error e → ∃ details, e = .couldNotDecode details) : (lift x).Plain :=
  fun _ e _ hx => h e (congrArg Prod.fst hx)

theorem Plain.bind (hr : r.Plain) (hf : ∀ a, (f a).Plain) : (r >>= f).Plain := by
  intro _ _ _ h
  rcases run_bind_eq_error.mp h with hfirst | ⟨a, mid, -, hsecond⟩
  · exact hr _ _ _ hfirst
  · exact hf a _ _ _ hsecond

theorem Plain.map (h : r.Plain) (g : α → β) : (r >>= fun x => Pure.pure (g x)).Plain :=
  h.bind fun _ => .pure _

theorem Plain.ite {p : Prop} [Decidable p] {r r' : Reader α} (h : r.Plain) (h' : r'.Plain) :
    (if p then r else r').Plain := by
  split
  · exact h
  · exact h'

theorem plain_take (n : Nat) : (take n).Plain := by
  intro bs e rest h
  by_cases hn : n ≤ bs.length
  · rw [run_take_of_le hn] at h
    cases h
  · rw [run_take_of_lt (by omega)] at h
    cases h
    exact ⟨_, rfl⟩

theorem plain_nat (width : Nat) : (nat width).Plain := (plain_take width).map _
theorem plain_byte : byte.Plain := (plain_nat 1).map _
theorem plain_word32 : word32.Plain := (plain_nat 4).map _
theorem plain_word64 : word64.Plain := (plain_nat 8).map _

theorem plain_flag : flag.Plain :=
  plain_byte.bind fun _ => .ite (.pure _) (.ite (.pure _) (.fail _))

theorem plain_blob : blob.Plain := (plain_nat 4).bind fun n => plain_take n

theorem plain_text : text.Plain := by
  refine plain_blob.bind fun bs => ?_
  split
  · exact .pure _
  · exact .fail _

theorem Plain.many (h : r.Plain) (n : Nat) : (r.many n).Plain := by
  induction n with
  | zero => exact .pure _
  | succ n ih => exact h.bind fun a => ih.map _

theorem Plain.counted (h : r.Plain) : r.counted.Plain := (plain_nat 4).bind fun n => h.many n

/-! ## What readers yield -/

theorem Yields.pure {p : α → Prop} (h : p a) : (Pure.pure a : Reader α).Yields p := by
  intro _ _ _ hr
  cases hr
  exact h

theorem Yields.fail {p : α → Prop} (e : Fault) : (fail e : Reader α).Yields p :=
  fun _ _ _ h => by cases h

theorem Yields.lift {p : α → Prop} {x : Except Fault α} (h : ∀ a, x = .ok a → p a) :
    (lift x).Yields p :=
  fun _ a _ hx => h a (congrArg Prod.fst hx)

theorem Yields.bind {p : α → Prop} {q : β → Prop} (hr : r.Yields p)
    (hf : ∀ a, p a → (f a).Yields q) : (r >>= f).Yields q := by
  intro _ _ _ h
  obtain ⟨a, mid, hfirst, hsecond⟩ := run_bind_eq_ok.mp h
  exact hf a (hr _ _ _ hfirst) _ _ _ hsecond

theorem Yields.of_bind {q : β → Prop} (hf : ∀ a, (f a).Yields q) : (r >>= f).Yields q :=
  .bind (p := fun _ => True) (fun _ _ _ _ => trivial) fun a _ => hf a

theorem Yields.many {p : α → Prop} (h : r.Yields p) (n : Nat) :
    (r.many n).Yields fun as => ∀ a ∈ as, p a := by
  induction n with
  | zero => exact .pure (by simp)
  | succ n ih =>
    exact h.bind fun a ha => ih.bind fun as has => .pure (List.forall_mem_cons.mpr ⟨ha, has⟩)

theorem Yields.counted {p : α → Prop} (h : r.Yields p) :
    r.counted.Yields fun as => ∀ a ∈ as, p a :=
  .of_bind fun n => h.many n

/-! ## What was written is taken up -/

theorem takes_nat {w n : Nat} (h : n < Bytes.capacity w) :
    (nat w).Takes (Bytes.ofNat w n) n := by
  have taken := takes_take (Bytes.ofNat w n)
  rw [Bytes.length_ofNat] at taken
  have read := taken.map Bytes.toNat
  rwa [Bytes.toNat_ofNat_of_lt h] at read

theorem takes_byte (b : UInt8) : byte.Takes [b] b := by
  have hb : UInt8.ofNat (Bytes.toNat [b]) = b := by simp [Bytes.toNat, Bytes.capacity]
  have read := ((takes_take [b]).map Bytes.toNat).map UInt8.ofNat
  rwa [hb] at read

theorem takes_word16 (n : UInt16) : word16.Takes (Bytes.ofUInt16 n) n := by
  have read := (takes_nat (w := 2) n.toNat_lt).map UInt16.ofNat
  rwa [UInt16.ofNat_toNat] at read

theorem takes_word32 (n : UInt32) : word32.Takes (Bytes.ofUInt32 n) n := by
  have read := (takes_nat (w := 4) n.toNat_lt).map UInt32.ofNat
  rwa [UInt32.ofNat_toNat] at read

theorem takes_word64 (n : UInt64) : word64.Takes (Bytes.ofUInt64 n) n := by
  have read := (takes_nat (w := 8) n.toNat_lt).map UInt64.ofNat
  rwa [UInt64.ofNat_toNat] at read

theorem takes_flag (b : Bool) : flag.Takes (Bytes.flag b) b := by
  intro rest
  cases b with
  | false => exact (takes_byte 0).run_bind rest
  | true => exact (takes_byte 1).run_bind rest

theorem takes_blob {bs : Bytes} (h : bs.length < Bytes.capacity 4) :
    blob.Takes (Bytes.blob bs) bs :=
  (takes_nat h).bind (takes_take bs)

theorem takes_text {s : String} (h : (Text.encode s).length < Bytes.capacity 4) :
    text.Takes (Bytes.text s) s := by
  intro rest
  rw [text, Bytes.text, (takes_blob h).run_bind]
  simp only [Text.decode_encode]
  rfl

theorem takes_many {write : α → Bytes} {as : List α} (h : ∀ a ∈ as, r.Takes (write a) a) :
    (r.many as.length).Takes (as.flatMap write) as := by
  induction as with
  | nil => exact .pure _
  | cons a as ih =>
    have later := ih fun a' ha' => h a' (List.mem_cons_of_mem a ha')
    exact (h a List.mem_cons_self).bind (later.map _)

/-- A list is given up at the first value that is rejected. -/
theorem rejects_many {write : α → Bytes} {p : α → Prop} {as : List α}
    (good : ∀ a ∈ as, p a → r.Takes (write a) a)
    (bad : ∀ a ∈ as, ¬ p a → ∀ rest, r.Rejects (write a ++ rest))
    (some : ∃ a ∈ as, ¬ p a) (rest : Bytes) :
    (r.many as.length).Rejects (as.flatMap write ++ rest) := by
  induction as with
  | nil => simp at some
  | cons a as ih =>
    rw [List.flatMap_cons, List.append_assoc]
    by_cases ha : p a
    · obtain ⟨a', ha', hp⟩ := some
      rcases List.mem_cons.mp ha' with rfl | later
      · exact absurd ha hp
      · exact (good a List.mem_cons_self ha).rejects_bind
          (ih (fun a ha => good a (List.mem_cons_of_mem _ ha))
            (fun a ha => bad a (List.mem_cons_of_mem _ ha)) ⟨a', later, hp⟩).bind
    · exact (bad a List.mem_cons_self ha _).bind

theorem takes_counted {write : α → Bytes} {as : List α} (size : as.length < Bytes.capacity 4)
    (h : ∀ a ∈ as, r.Takes (write a) a) :
    r.counted.Takes (Bytes.ofNat 4 as.length ++ as.flatMap write) as :=
  (takes_nat size).bind (takes_many h)

/-! ## What was read is written so -/

theorem Canonical.map {w : α → Bytes} {w' : β → Bytes} {g : α → β} (h : r.Canonical w)
    (same : ∀ a, w' (g a) = w a) : (r >>= fun x => Pure.pure (g x)).Canonical w' := by
  intro bs b rest hr
  obtain ⟨a, mid, hfirst, hpure⟩ := run_bind_eq_ok.mp hr
  cases hpure
  rw [same a, h _ _ _ hfirst]

/-- A number in so many bytes is written in as many. -/
theorem run_nat_eq_ok {w n : Nat} (h : (nat w).run bs = (.ok n, rest)) :
    n < Bytes.capacity w ∧ bs = Bytes.ofNat w n ++ rest := by
  obtain ⟨u, mid, taken, hpure⟩ := run_bind_eq_ok.mp h
  cases hpure
  obtain ⟨rfl, rfl⟩ := run_take_eq_ok taken
  exact ⟨u.toNat_lt, by rw [u.ofNat_toNat]⟩

theorem canonical_byte : byte.Canonical fun b => [b] := by
  intro bs b rest h
  obtain ⟨n, mid, read, hpure⟩ := run_bind_eq_ok.mp h
  cases hpure
  rw [(run_nat_eq_ok read).2]
  simp [Bytes.ofNat, Bytes.capacity]

theorem canonical_word16 : word16.Canonical Bytes.ofUInt16 := by
  intro bs v rest h
  obtain ⟨n, mid, read, hpure⟩ := run_bind_eq_ok.mp h
  cases hpure
  obtain ⟨fits, rfl⟩ := run_nat_eq_ok read
  rw [Bytes.ofUInt16, UInt16.toNat_ofNat_of_lt' fits]

theorem canonical_word32 : word32.Canonical Bytes.ofUInt32 := by
  intro bs v rest h
  obtain ⟨n, mid, read, hpure⟩ := run_bind_eq_ok.mp h
  cases hpure
  obtain ⟨fits, rfl⟩ := run_nat_eq_ok read
  rw [Bytes.ofUInt32, UInt32.toNat_ofNat_of_lt' fits]

theorem canonical_blob : blob.Canonical Bytes.blob := by
  intro bs v rest h
  obtain ⟨n, mid, size, taken⟩ := run_bind_eq_ok.mp h
  obtain ⟨rfl, rfl⟩ := run_take_eq_ok taken
  rw [(run_nat_eq_ok size).2, Bytes.blob, List.append_assoc]

theorem canonical_text : text.Canonical Bytes.text := by
  intro bs s rest h
  obtain ⟨u, mid, read, h⟩ := run_bind_eq_ok.mp h
  cases known : Text.decode u with
  | ok s' =>
    rw [known] at h
    cases h
    rw [canonical_blob _ _ _ read, Text.eq_encode_of_decode known, Bytes.text]
  | error flaw =>
    rw [known] at h
    cases h

/-! ## Whole byte strings -/

theorem whole_eq_ok : r.whole bs = .ok a ↔ r.run bs = (.ok a, []) := by
  constructor
  · intro h
    have run : ∃ left, (r >>= fun a => finish >>= fun _ => Pure.pure a).run bs = (.ok a, left) :=
      ⟨_, Prod.ext h rfl⟩
    obtain ⟨left, run⟩ := run
    obtain ⟨a', mid, read, run⟩ := run_bind_eq_ok.mp run
    obtain ⟨_, mid', finished, hpure⟩ := run_bind_eq_ok.mp run
    cases hpure
    cases mid with
    | nil => exact read
    | cons b mid => cases finished
  · intro h
    have run : (r >>= fun a => finish >>= fun _ => Pure.pure a).run bs = (.ok a, []) := by
      rw [run_bind_ok h]
      rfl
    exact congrArg Prod.fst run

end Federate.Reader
