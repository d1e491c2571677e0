/-
What the reader of a link has still to take up: the packets before the end of
the link, or before the mark that closing it leaves. Once the link is closed,
nothing comes to them any more (`unread_offer`); they only become fewer, one by
one.
-/
import Federate.Link.Loopback
namespace Federate

namespace Loopback

def Item.isPacket : Item → Bool
  | .packet _ => true
  | _ => false

/-- The packets before anything else. -/
def Item.packets : List Item → List Bytes
  | .packet bs :: rest => bs :: packets rest
  | _ => []

/-- The packets that the reader has still to take up. -/
def unread (l : Loopback) : List Bytes :=
  match l.stage with
  | .reading => Item.packets l.inbound
  | _ => []

/-- Once the link is closed, the reader comes to its end. -/
def Bounded (l : Loopback) : Prop :=
  l.closed = true → l.stage = .reading → ∃ x ∈ l.inbound, x.isPacket = false

variable {l l' : Loopback}

theorem reading_of_unread (h : l.unread ≠ []) : l.stage = .reading := by
  unfold unread at h
  split at h
  · assumption
  · exact absurd rfl h

/-- What comes after the end is never taken up. -/
theorem Item.packets_append {xs : List Item} (ends : ∃ x ∈ xs, x.isPacket = false)
    (ys : List Item) : packets (xs ++ ys) = packets xs := by
  induction xs with
  | nil =>
    obtain ⟨x, hx, -⟩ := ends
    cases hx
  | cons y xs ih =>
    cases y with
    | packet bs =>
      refine congrArg (bs :: ·) (ih ?_)
      obtain ⟨x, hx, hp⟩ := ends
      rcases List.mem_cons.mp hx with rfl | hx
      · cases hp
      · exact ⟨x, hx, hp⟩
    | lost | closed => rfl

theorem Item.packets_append_other (xs : List Item) {y : Item} (other : y.isPacket = false) :
    packets (xs ++ [y]) = packets xs := by
  induction xs with
  | nil =>
    cases y with
    | packet bs => cases other
    | lost | closed => rfl
  | cons x xs ih =>
    cases x with
    | packet bs => exact congrArg (bs :: ·) ih
    | lost | closed => rfl

theorem Item.packets_append_packet {xs : List Item} (packets : ∀ x ∈ xs, x.isPacket = true)
    (bs : Bytes) : Item.packets (xs ++ [.packet bs]) = Item.packets xs ++ [bs] := by
  induction xs with
  | nil => rfl
  | cons x xs ih =>
    obtain ⟨first, rest⟩ := List.forall_mem_cons.mp packets
    cases x with
    | packet b => exact congrArg (b :: ·) (ih rest)
    | lost | closed => cases first

theorem Item.packets_prefix (xs ys : List Item) : packets xs <+: packets (xs ++ ys) := by
  induction xs with
  | nil => exact List.nil_prefix
  | cons x xs ih =>
    cases x with
    | packet bs => exact List.cons_prefix_cons.mpr ⟨rfl, ih⟩
    | lost | closed => exact List.nil_prefix

/-- Nothing that is put behind the end of a link is taken up. -/
theorem unread_offer (i : Item) (closed : l.closed = true) (bounded : l.Bounded) :
    (l.offer i).unread = l.unread := by
  cases hs : l.stage with
  | reading =>
    simp only [offer, unread, hs]
    exact Item.packets_append (bounded closed hs) _
  | _ => simp only [offer, unread, hs]

/-- The end of a link hides no packet that came before it. -/
theorem unread_offer_other (l : Loopback) {i : Item} (other : i.isPacket = false) :
    (l.offer i).unread = l.unread := by
  cases hs : l.stage with
  | reading =>
    simp only [offer, unread, hs]
    exact Item.packets_append_other _ other
  | _ => simp only [offer, unread, hs]

/-- What was to be taken up comes before what is put behind it. -/
theorem unread_prefix_offer (l : Loopback) (i : Item) : l.unread <+: (l.offer i).unread := by
  cases hs : l.stage with
  | reading =>
    simp only [offer, unread, hs]
    exact Item.packets_prefix _ _
  | _ =>
    simp only [offer, unread, hs]
    exact List.nil_prefix

theorem unread_sever (l : Loopback) (reason : String) : (l.sever reason).unread = l.unread := by
  unfold sever
  split
  · rfl
  · exact unread_offer_other l rfl

theorem unread_close (l : Loopback) : l.close.unread = l.unread := by
  unfold close
  split
  · rfl
  · exact unread_offer_other l rfl

theorem stage_offer (l : Loopback) (i : Item) : (l.offer i).stage = l.stage := by
  unfold offer
  split <;> simp_all

theorem closed_offer (l : Loopback) (i : Item) : (l.offer i).closed = l.closed := by
  unfold offer
  split <;> rfl

theorem severed_offer (l : Loopback) (i : Item) : (l.offer i).severed = l.severed := by
  unfold offer
  split <;> rfl

theorem Bounded.offer (h : l.Bounded) (i : Item) : (l.offer i).Bounded := by
  intro hc hs
  rw [closed_offer] at hc
  rw [stage_offer] at hs
  obtain ⟨x, hx, hp⟩ := h hc hs
  refine ⟨x, ?_, hp⟩
  simp only [Loopback.offer, hs]
  exact List.mem_append_left _ hx

/-- Closing a link leaves a mark behind which nothing is taken up. -/
theorem Bounded.close (h : l.Bounded) : l.close.Bounded ∧ l.close.closed = true := by
  unfold Loopback.close
  split
  · next hc => exact ⟨h, hc⟩
  · refine ⟨fun _ hs => ⟨.closed, ?_, rfl⟩, rfl⟩
    have hs' : l.stage = .reading := (l.stage_offer _).symm.trans hs
    show Item.closed ∈ (l.offer .closed).inbound
    simp only [Loopback.offer, hs']
    exact List.mem_append_right _ List.mem_cons_self

theorem stage_close (l : Loopback) : l.close.stage = l.stage := by
  unfold close
  split
  · rfl
  · exact stage_offer l _

/-- The reader takes up a packet. -/
theorem of_read_packet {bs : Bytes} (h : l.read = (some (.packet bs), l')) (bounded : l.Bounded) :
    l.stage = .reading ∧ l'.stage = .reading ∧ l.unread = bs :: l'.unread ∧
      l'.closed = l.closed ∧ l'.Bounded := by
  unfold read at h
  split at h
  · next bs' rest hs hi =>
    cases h
    refine ⟨hs, hs, by simp only [unread, hs, hi, Item.packets], rfl, fun hc hr => ?_⟩
    obtain ⟨x, hx, hp⟩ := bounded hc hr
    rw [hi] at hx
    rcases List.mem_cons.mp hx with rfl | hx
    · cases hp
    · exact ⟨x, hx, hp⟩
  all_goals cases h

/-- The reader takes up something else, or nothing: it has no packet to take up, before or after. -/
theorem of_read_other {x : Option Event} (h : l.read = (x, l'))
    (other : ∀ bs, x ≠ some (.packet bs)) (bounded : l.Bounded) :
    l.unread = [] ∧ l'.unread = [] ∧ l'.closed = l.closed ∧ l'.Bounded ∧
      (l.stage = .ended → l'.stage = .ended) := by
  unfold read at h
  split at h
  · cases h
    exact absurd rfl (other _)
  · next hs hi =>
    cases h
    exact ⟨by simp only [unread, hs, hi, Item.packets], rfl, rfl, nofun, fun _ => rfl⟩
  · next hs hi =>
    cases h
    exact ⟨by simp only [unread, hs, hi, Item.packets], rfl, rfl, nofun, fun _ => rfl⟩
  · next hp hl hc =>
    cases h
    have : l.unread = [] := by
      unfold unread
      split
      · next hs =>
        cases hi : l.inbound with
        | nil => rfl
        | cons y rest =>
          cases y with
          | packet bs => exact absurd hi (hp bs rest hs)
          | _ => rfl
      · rfl
    exact ⟨this, this, rfl, bounded, id⟩

theorem reading_of_read {e : Event} (h : l.read = (some e, l')) : l.stage = .reading := by
  unfold read at h
  split at h
  case h_1 hs _ | h_2 hs _ => exact hs
  all_goals cases h

/-- The reader takes up that the link was cut, and comes to its end. -/
theorem stage_of_read_lost {reason : String} (h : l.read = (some (.lost reason), l')) :
    l'.stage = .ended := by
  unfold read at h
  split at h <;> cases h
  rfl

theorem of_peerSend {bs : Bytes} (h : l.peerSend bs = .ok l') : l' = l.offer (.packet bs) := by
  unfold peerSend at h
  split at h
  · cases h
  · split at h <;> cases h
    rfl

/-! ## Before the end -/

/-- Until a link is closed or cut, its reader reads, and nothing but packets waits for it. -/
def Clear (l : Loopback) : Prop :=
  l.closed = false → l.severed = false →
    l.stage = .reading ∧ ∀ i ∈ l.inbound, i.isPacket = true

namespace Clear

theorem offer {bs : Bytes} (h : l.Clear) : (l.offer (.packet bs)).Clear := by
  intro unclosed whole
  rw [closed_offer] at unclosed
  rw [severed_offer] at whole
  obtain ⟨reading, packets⟩ := h unclosed whole
  rw [stage_offer]
  refine ⟨reading, ?_⟩
  simp only [Loopback.offer, reading]
  exact List.forall_mem_append.mpr ⟨packets, by simp [Item.isPacket]⟩

theorem sever (h : l.Clear) (reason : String) : (l.sever reason).Clear := by
  unfold Loopback.sever
  split
  · exact h
  · exact nofun

theorem close (h : l.Clear) : l.close.Clear := by
  unfold Loopback.close
  split
  · exact h
  · exact nofun

theorem read {x : Option Event} (h : l.Clear) (next : l.read = (x, l')) : l'.Clear := by
  unfold Loopback.read at next
  split at next
  · next bs rest reading inbound =>
    cases next
    intro unclosed whole
    obtain ⟨-, packets⟩ := h unclosed whole
    rw [inbound] at packets
    exact ⟨reading, fun i hi => packets i (List.mem_cons_of_mem _ hi)⟩
  · next reason rest reading inbound =>
    cases next
    intro unclosed whole
    have := (h unclosed whole).2 (.lost reason) (by rw [inbound]; exact List.mem_cons_self)
    cases this
  · next rest reading inbound =>
    cases next
    intro unclosed whole
    have := (h unclosed whole).2 .closed (by rw [inbound]; exact List.mem_cons_self)
    cases this
  · cases next
    exact h

/-- A packet that the peer sends is taken up behind those that it has sent before. -/
theorem unread_peerSend {bs : Bytes} (h : l.Clear) (unclosed : l.closed = false)
    (sent : l.peerSend bs = .ok l') : l'.unread = l.unread ++ [bs] := by
  have whole : l.severed = false := by
    cases hs : l.severed with
    | false => rfl
    | true =>
      rw [peerSend, if_pos hs] at sent
      cases sent
  obtain ⟨reading, packets⟩ := h unclosed whole
  rw [of_peerSend sent]
  simp only [unread, Loopback.offer, reading]
  exact Item.packets_append_packet packets bs

end Clear

end Loopback

end Federate
