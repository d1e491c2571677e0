/-
Which packet has which number, and which call has which number. The packets of
a session are numbered in the order in which they are handed to the link, and a
call that has its turn has the number that its packet will get: nobody else
takes a number in between. A call that gives up its place before its packet is
made leaves its number to others, but no call ever uses it, since the session
is lost by then. So as long as there are fewer than 2^32 packets, a number
belongs to one call (`Settled.eq_of_handed`).
-/
import Mathlib.Tactic.ByContra
import Federate.Proofs.Session.Change
namespace Federate

open Function (update)

namespace Call.Stage

/-- Before the call is in the table. -/
def early : Call.Stage → Bool
  | .arriving | .entering => true
  | _ => false

/-- In the table, and the packet is not made. -/
def placed : Call.Stage → Bool
  | .entered _ | .ready _ => true
  | _ => false

def isReady : Call.Stage → Bool
  | .ready _ => true
  | _ => false

/-- The packet has been handed to the link, and the call has not ended. -/
def out : Call.Stage → Bool
  | .offered _ _ _ | .accepted _ | .waiting _ | .lapsed _ | .expired _ => true
  | _ => false

/-- The number of the call, until it has ended. -/
def number? : Call.Stage → Option UInt32
  | .entered n | .ready n | .offered _ n _ | .accepted n | .waiting n | .lapsed n | .expired n =>
    some n
  | .arriving | .entering | .ended _ => none

theorem holds_of_placed {s : Call.Stage} (h : s.placed = true) : s.holds = true := by
  cases s <;> first | rfl | cases h

theorem placed_of_isReady {s : Call.Stage} (h : s.isReady = true) : s.placed = true := by
  cases s <;> first | rfl | cases h

end Call.Stage

/-- The packet is that of a request, under its number. -/
def Handing.Carries (h : Handing) (e : Envelope) : Prop :=
  ∃ session last, h.packet = Packet.encode (.callRequest e) h.number session last

namespace Traffic

variable {t t' : Traffic} {calls : Nat → Option Call} {outgoing : Option Bytes} {next : UInt32}
  {handed : List Handing} {number : Nat → Option UInt32} {lost : Bool}

/-! ## The numbers of packets -/

/-- The numbers of packets, and the one that comes next. -/
structure Numbering (calls : Nat → Option Call) (outgoing : Option Bytes) (next : UInt32)
    (handed : List Handing) : Prop where
  count : next.toNat = (handed.length + 1) % UInt32.size
  numbers : ∀ (k : Nat) h, handed[k]? = some h → h.number.toNat = (k + 1) % UInt32.size
  /-- One call at a time has its turn. -/
  turn : ∀ i j c d, calls i = some c → calls j = some d → c.stage.holds = true →
    d.stage.holds = true → i = j
  /-- No call has its turn while another sender has its own. -/
  others : outgoing ≠ none → ∀ i c, calls i = some c → c.stage.holds = false
  upcoming : ∀ i c, calls i = some c → c.stage.placed = true → c.stage.number? = some next

namespace Numbering

/-- A call that begins, or is done with the link. -/
theorem quiet {i : Nat} {c : Call} (h : Numbering calls outgoing next handed)
    (quiet : c.stage.holds = false) :
    Numbering (update calls i (some c)) outgoing next handed where
  count := h.count
  numbers := h.numbers
  turn j k d e hd he hdh heh := by
    rcases of_update hd with ⟨rfl, rfl⟩ | ⟨-, hd⟩
    · simp [quiet] at hdh
    rcases of_update he with ⟨rfl, rfl⟩ | ⟨-, he⟩
    · simp [quiet] at heh
    · exact h.turn _ _ _ _ hd he hdh heh
  others ho j d hd := by
    rcases of_update hd with ⟨rfl, rfl⟩ | ⟨-, hd⟩
    · exact quiet
    · exact h.others ho _ _ hd
  upcoming j d hd hp := by
    rcases of_update hd with ⟨rfl, rfl⟩ | ⟨-, hd⟩
    · simp [Call.Stage.holds_of_placed hp] at quiet
    · exact h.upcoming _ _ hd hp

/-- While a call has its turn, it is the only one. -/
theorem alone {i : Nat} {c c' : Call} (h : Numbering calls outgoing next handed)
    (known : calls i = some c) (holds : c.stage.holds = true) (j k : Nat) (d e : Call)
    (hd : update calls i (some c') j = some d) (he : update calls i (some c') k = some e)
    (hdh : d.stage.holds = true) (heh : e.stage.holds = true) : j = k := by
  have only : ∀ {j d}, update calls i (some c') j = some d → d.stage.holds = true → j = i := by
    intro j d hd hdh
    rcases of_update hd with ⟨rfl, -⟩ | ⟨-, hd⟩
    · rfl
    · exact h.turn _ _ _ _ hd known hdh holds
  rw [only hd hdh, only he heh]

theorem no_others {i : Nat} {c : Call} (h : Numbering calls outgoing next handed)
    (known : calls i = some c) (holds : c.stage.holds = true) : outgoing = none := by
  by_contra ho
  simp [h.others ho _ _ known] at holds

/-- One more packet, under the next number. -/
theorem append (h : Numbering calls outgoing next handed) {g : Handing} (hg : g.number = next) :
    (next + 1).toNat = ((handed ++ [g]).length + 1) % UInt32.size ∧
      ∀ (k : Nat) x, (handed ++ [g])[k]? = some x → x.number.toNat = (k + 1) % UInt32.size := by
  constructor
  · rw [UInt32.toNat_add, h.count, List.length_append]
    simp
  · intro k x hx
    rw [List.getElem?_append] at hx
    split at hx
    · exact h.numbers k x hx
    · next hk =>
      obtain ⟨hlt, hx⟩ := List.getElem?_eq_some_iff.mp hx
      have hlen : k - handed.length < 1 := hlt
      obtain rfl : k = handed.length := by omega
      simp only [Nat.sub_self, List.getElem_cons_zero] at hx
      rw [← hx, hg, h.count]

theorem change (h : Numbering t.calls t.outgoing t.next t.handed) (hc : Change t t') :
    Numbering t'.calls t'.outgoing t'.next t'.handed := by
  cases hc with
  | callBegins | castBegins | turnedAway | looks | givesUp | goesOut | refused | waits | leaves
  | collects | lapses | withdraws | expires => exact h.quiet rfl
  | enters known stage free =>
    exact {
      count := h.count
      numbers := h.numbers
      turn := fun j k d e hd he hdh heh => by
        rcases of_update hd with ⟨rfl, -⟩ | ⟨-, hd⟩
        · rcases of_update he with ⟨rfl, -⟩ | ⟨-, he⟩
          · rfl
          · simp [free.2 _ _ he] at heh
        · simp [free.2 _ _ hd] at hdh
      others := fun ho => absurd free.1 ho
      upcoming := fun j d hd hp => by
        rcases of_update hd with ⟨rfl, rfl⟩ | ⟨-, hd⟩
        · rfl
        · exact h.upcoming _ _ hd hp }
  | @looksAgain i c n known stage lost =>
    have holds : c.stage.holds = true := by rw [stage]; rfl
    exact {
      count := h.count
      numbers := h.numbers
      turn := h.alone known holds
      others := fun ho => absurd (h.no_others known holds) ho
      upcoming := fun j d hd hp => by
        rcases of_update hd with ⟨rfl, rfl⟩ | ⟨-, hd⟩
        · have hnext := h.upcoming _ _ known (by rw [stage]; rfl)
          rw [stage] at hnext
          exact hnext
        · exact h.upcoming _ _ hd hp }
  | @hands i c n known stage =>
    have holds : c.stage.holds = true := by rw [stage]; rfl
    obtain ⟨hnext, hnumbers⟩ := h.append (g := ⟨some i, t.next, t.packetOf c⟩) rfl
    exact {
      count := hnext
      numbers := hnumbers
      turn := h.alone known holds
      others := fun ho => absurd (h.no_others known holds) ho
      upcoming := fun j d hd hp => by
        rcases of_update hd with ⟨rfl, rfl⟩ | ⟨hj, hd⟩
        · cases hp
        · exact absurd (h.turn _ _ _ _ hd known (Call.Stage.holds_of_placed hp) holds) hj }
  | sends m free =>
    obtain ⟨hnext, hnumbers⟩ := h.append (g := ⟨none, t.next, (t.session.offer m).1⟩) rfl
    exact {
      count := hnext
      numbers := hnumbers
      turn := h.turn
      others := fun _ => free.2
      upcoming := fun j d hd hp => by
        have := free.2 _ _ hd
        simp [Call.Stage.holds_of_placed hp] at this }
  | spoken => exact { h with others := fun ho => absurd rfl ho }
  | aside p agrees | received p agrees | answered p agrees | counts p agrees | notes p agrees
  | tears p agrees =>
    show Numbering _ _ p.session.nextSequence _
    rw [agrees.next]
    exact h
  | _ => exact h

/-! ## Few enough packets -/

/-- No two packets have the same number. -/
theorem numbers_apart (h : Numbering calls outgoing next handed)
    (few : handed.length < UInt32.size) : handed.Pairwise fun g g' => g.number ≠ g'.number := by
  rw [List.pairwise_iff_getElem]
  intro k l hk hl hkl hn
  have hk' := h.numbers k _ (List.getElem?_eq_getElem hk)
  have hl' := h.numbers l _ (List.getElem?_eq_getElem hl)
  unfold UInt32.size at few
  rw [hn, hl'] at hk'
  unfold UInt32.size at hk'
  omega

theorem eq_of_number (h : Numbering calls outgoing next handed)
    (few : handed.length < UInt32.size) {g g' : Handing} (hg : g ∈ handed) (hg' : g' ∈ handed)
    (hn : g.number = g'.number) : g = g' := by
  have apart : handed.Pairwise fun g g' => g.number = g'.number → g = g' :=
    (h.numbers_apart few).imp fun hne heq => absurd heq hne
  have flip : handed.Pairwise fun g g' => g'.number = g.number → g' = g :=
    (h.numbers_apart few).imp fun hne heq => absurd heq.symm hne
  exact apart.forall_of_forall_of_flip (fun _ _ _ => rfl) flip hg hg' hn

/-- The next number is new. -/
theorem number_ne_next (h : Numbering calls outgoing next handed)
    (few : handed.length < UInt32.size) {g : Handing} (hg : g ∈ handed) : g.number ≠ next := by
  intro hn
  obtain ⟨k, hk⟩ := List.mem_iff_getElem?.mp hg
  have hk' := h.numbers k g hk
  have hkl := (List.getElem?_eq_some_iff.mp hk).1
  have hnext := h.count
  unfold UInt32.size at few
  rw [hn, hnext] at hk'
  unfold UInt32.size at hk'
  omega

end Numbering

/-! ## The numbers of calls -/

/-- The call has handed its packet to the link under the number. -/
def Handed (handed : List Handing) (i : Nat) (n : UInt32) : Prop :=
  ∃ h ∈ handed, h.caller = some i ∧ h.number = n

/-- What the numbers of calls have to do with their packets. -/
structure Bearing (calls : Nat → Option Call) (number : Nat → Option UInt32)
    (handed : List Handing) : Prop where
  known : ∀ i c n, calls i = some c → c.stage.number? = some n → number i = some n
  caller : ∀ i n, number i = some n → ∃ c, calls i = some c ∧ c.stage.early = false
  offered : ∀ i c m n p, calls i = some c → c.stage = .offered m n p →
    m = n ∧ ⟨some i, n, p⟩ ∈ handed
  out : ∀ i c n, calls i = some c → c.stage.out = true → c.stage.number? = some n →
    Handed handed i n
  own : ∀ i h, h ∈ handed → h.caller = some i → ∃ c, calls i = some c ∧
    c.stage.early = false ∧ c.stage.placed = false ∧ number i = some h.number ∧
    h.Carries c.envelope
  once : handed.Pairwise fun g h => ∀ i, g.caller = some i → h.caller ≠ some i

namespace Bearing

/-- A call has no number before it is in the table. -/
theorem unnumbered (h : Bearing calls number handed) {i : Nat}
    (early : ∀ c, calls i = some c → c.stage.early = true) : number i = none := by
  cases hi : number i with
  | none => rfl
  | some n =>
    obtain ⟨c, hc, he⟩ := h.caller i n hi
    rw [early c hc] at he
    cases he

/-- A call that begins. -/
theorem begins {i : Nat} {c : Call} (h : Bearing calls number handed)
    (new : calls i = none) (stage : c.stage = .arriving) :
    Bearing (update calls i (some c)) number handed where
  known j d n hd hn := by
    rcases of_update hd with ⟨rfl, rfl⟩ | ⟨-, hd⟩
    · rw [stage] at hn; cases hn
    · exact h.known _ _ _ hd hn
  caller j n hn := by
    obtain ⟨d, hd, he⟩ := h.caller j n hn
    exact ⟨d, update_of_new new hd, he⟩
  offered j d m n p hd hs := by
    rcases of_update hd with ⟨rfl, rfl⟩ | ⟨-, hd⟩
    · rw [stage] at hs; cases hs
    · exact h.offered _ _ _ _ _ hd hs
  out j d n hd ho hn := by
    rcases of_update hd with ⟨rfl, rfl⟩ | ⟨-, hd⟩
    · rw [stage] at hn; cases hn
    · exact h.out _ _ _ hd ho hn
  own j g hg hc := by
    obtain ⟨d, hd, hrest⟩ := h.own j g hg hc
    exact ⟨d, update_of_new new hd, hrest⟩
  once := h.once

/-- A step of a call on its way, after which it has the number it had, or none. -/
theorem goes {i : Nat} {c : Call} {s : Call.Stage} (h : Bearing calls number handed)
    (known : calls i = some c)
    (bears : ∀ n, s.number? = some n → c.stage.number? = some n)
    (early : c.stage.early = false → s.early = false)
    (offered : ∀ m n p, s ≠ .offered m n p)
    (out : s.out = true → c.stage.out = true)
    (placed : s.placed = true → c.stage.placed = true) :
    Bearing (update calls i (some (c.goTo s))) number handed where
  known j d n hd hn := by
    rcases of_update hd with ⟨rfl, rfl⟩ | ⟨-, hd⟩
    · exact h.known _ _ _ known (bears n hn)
    · exact h.known _ _ _ hd hn
  caller j n hn :=
    row_of_update (P := fun _ d => d.stage.early = false) known early (h.caller j n hn)
  offered j d m n p hd hs := by
    rcases of_update hd with ⟨rfl, rfl⟩ | ⟨-, hd⟩
    · exact absurd hs (offered m n p)
    · exact h.offered _ _ _ _ _ hd hs
  out j d n hd ho hn := by
    rcases of_update hd with ⟨rfl, rfl⟩ | ⟨-, hd⟩
    · exact h.out _ _ _ known (out ho) (bears n hn)
    · exact h.out _ _ _ hd ho hn
  own j g hg hc := by
    refine row_of_update (P := fun j d => d.stage.early = false ∧ d.stage.placed = false ∧
      number j = some g.number ∧ g.Carries d.envelope) known ?_ (h.own j g hg hc)
    intro hx
    obtain ⟨he, hp, hrest⟩ := hx
    refine ⟨early he, ?_, hrest⟩
    cases hs : s.placed with
    | true => rw [placed hs] at hp; cases hp
    | false => exact hs
  once := h.once

theorem handed_append {g : Handing} {i : Nat} {n : UInt32} :
    Handed (handed ++ [g]) i n ↔ Handed handed i n ∨ g.caller = some i ∧ g.number = n := by
  simp [Handed, or_and_right, exists_or]

/-- A call enters the table under the next number. -/
theorem enters {i : Nat} {c : Call} (h : Bearing calls number handed)
    (known : calls i = some c) (early : c.stage.early = true) (n : UInt32) :
    Bearing (update calls i (some (c.goTo (.entered n)))) (update number i (some n)) handed where
  known j d m hd hm := by
    rcases of_update hd with ⟨rfl, rfl⟩ | ⟨hj, hd⟩
    · cases hm
      exact Function.update_self ..
    · rw [Function.update_of_ne hj]
      exact h.known _ _ _ hd hm
  caller j m hm := by
    rcases of_update hm with ⟨rfl, rfl⟩ | ⟨hj, hm⟩
    · exact ⟨_, Function.update_self .., rfl⟩
    · rw [Function.update_of_ne hj]
      exact h.caller j m hm
  offered j d k m p hd hs := by
    rcases of_update hd with ⟨rfl, rfl⟩ | ⟨-, hd⟩
    · cases hs
    · exact h.offered _ _ _ _ _ hd hs
  out j d m hd ho hm := by
    rcases of_update hd with ⟨rfl, rfl⟩ | ⟨-, hd⟩
    · cases ho
    · exact h.out _ _ _ hd ho hm
  own j g hg hc := by
    obtain ⟨d, hd, he, hrest⟩ := h.own j g hg hc
    have hj : j ≠ i := by
      intro heq
      subst heq
      rw [known] at hd
      cases hd
      rw [early] at he
      cases he
    rw [Function.update_of_ne hj, Function.update_of_ne hj]
    exact ⟨d, hd, he, hrest⟩
  once := h.once

/-- A call hands its packet to the link. -/
theorem hands {i : Nat} {c : Call} {g : Handing} (h : Bearing calls number handed)
    (known : calls i = some c) (stage : c.stage = .ready g.number) (caller : g.caller = some i)
    (carries : g.Carries c.envelope) :
    Bearing (update calls i (some (c.goTo (.offered g.number g.number g.packet)))) number
      (handed ++ [g]) where
  known j d m hd hm := by
    rcases of_update hd with ⟨rfl, rfl⟩ | ⟨hj, hd⟩
    · cases hm
      exact h.known _ _ _ known (by rw [stage]; rfl)
    · exact h.known _ _ _ hd hm
  caller j m hm :=
    row_of_update (P := fun _ d => d.stage.early = false) known (fun _ => rfl) (h.caller j m hm)
  offered j d k m p hd hs := by
    rcases of_update hd with ⟨rfl, rfl⟩ | ⟨-, hd⟩
    · cases hs
      refine ⟨rfl, List.mem_append_right _ ?_⟩
      rw [← caller]
      exact List.mem_singleton_self _
    · obtain ⟨hkm, hmem⟩ := h.offered _ _ _ _ _ hd hs
      exact ⟨hkm, List.mem_append_left _ hmem⟩
  out j d m hd ho hm := by
    rcases of_update hd with ⟨rfl, rfl⟩ | ⟨-, hd⟩
    · cases hm
      exact handed_append.mpr (.inr ⟨caller, rfl⟩)
    · exact handed_append.mpr (.inl (h.out _ _ _ hd ho hm))
  own j g' hg hc := by
    rcases List.mem_append.mp hg with hg | hg
    · obtain ⟨d, hd, he, hp, hrest⟩ := h.own j g' hg hc
      have hj : j ≠ i := by
        intro heq
        subst heq
        rw [known] at hd
        cases hd
        rw [stage] at hp
        cases hp
      rw [Function.update_of_ne hj]
      exact ⟨d, hd, he, hp, hrest⟩
    · obtain rfl := List.mem_singleton.mp hg
      rw [caller] at hc
      cases hc
      exact ⟨_, Function.update_self .., rfl, rfl, h.known _ _ _ known (by rw [stage]; rfl),
        carries⟩
  once := by
    refine List.pairwise_append.mpr
      ⟨h.once, List.pairwise_singleton .., fun g' hg' g'' hg'' j hj => ?_⟩
    rw [List.mem_singleton.mp hg'', caller]
    intro heq
    cases heq
    obtain ⟨d, hd, -, hp, -⟩ := h.own i g' hg' hj
    rw [known] at hd
    cases hd
    rw [stage] at hp
    cases hp

theorem handed_append_sender {g : Handing} (caller : g.caller = none) (i : Nat) (n : UInt32) :
    Handed (handed ++ [g]) i n ↔ Handed handed i n := by
  simp [handed_append, caller]

/-- Another sender hands a packet to the link. -/
theorem sends {g : Handing} (h : Bearing calls number handed) (caller : g.caller = none) :
    Bearing calls number (handed ++ [g]) := by
  have old : ∀ i g', g' ∈ handed ++ [g] → g'.caller = some i → g' ∈ handed := by
    intro i g' hg' hi
    rcases List.mem_append.mp hg' with hg' | hg'
    · exact hg'
    · rw [List.mem_singleton.mp hg', caller] at hi
      cases hi
  exact {
    known := h.known
    caller := h.caller
    offered := fun i c m n p hc hs =>
      ⟨(h.offered i c m n p hc hs).1, List.mem_append_left _ (h.offered i c m n p hc hs).2⟩
    out := fun i c n hc ho hn => (handed_append_sender caller i n).mpr (h.out i c n hc ho hn)
    own := fun i g' hg' hi => h.own i g' (old i g' hg' hi) hi
    once := by
      refine List.pairwise_append.mpr
        ⟨h.once, List.pairwise_singleton .., fun g' _ g'' hg'' j _ => ?_⟩
      rw [List.mem_singleton.mp hg'', caller]
      simp }

theorem change (h : Bearing t.calls t.number t.handed)
    (hn : Numbering t.calls t.outgoing t.next t.handed) (hc : Change t t') :
    Bearing t'.calls t'.number t'.handed := by
  cases hc with
  | callBegins envelope new | castBegins envelope new => exact h.begins new rfl
  | turnedAway known stage | looks known stage | goesOut known stage | refused known stage
  | waits known stage | leaves known stage | collects known stage | lapses known stage
  | withdraws known stage | expires known stage | looksAgain known stage | givesUp known stage =>
    exact h.goes known (by simp [stage, Call.Stage.number?]) (by simp [stage, Call.Stage.early])
      (by simp) (by simp [stage, Call.Stage.out]) (by simp [stage, Call.Stage.placed])
  | @enters i c known stage free => exact h.enters known (by rw [stage]; rfl) _
  | @hands i c n known stage =>
    have hnext := hn.upcoming i c known (by rw [stage]; rfl)
    rw [stage] at hnext
    cases hnext
    exact h.hands (g := ⟨some i, t.next, t.packetOf c⟩) known stage rfl ⟨_, _, rfl⟩
  | sends m free => exact h.sends rfl
  | _ => exact h

end Bearing

/-! ## A number for each call -/

/-- No call will ever use the number: none has, and since the session is lost, none that has yet to
make its packet will. -/
def Stale (calls : Nat → Option Call) (handed : List Handing) (lost : Bool) (n : UInt32) : Prop :=
  lost = true ∧ (∀ i c, calls i = some c → c.stage.isReady = false) ∧ ∀ i, ¬ Handed handed i n

/-- A call that has a number has handed its packet over, is about to do so, or never will. -/
def Settled (calls : Nat → Option Call) (number : Nat → Option UInt32) (handed : List Handing)
    (lost : Bool) : Prop :=
  ∀ i n, number i = some n →
    Handed handed i n ∨ (∃ c, calls i = some c ∧ c.stage.placed = true) ∨
      Stale calls handed lost n

namespace Settled

/-- A number belongs to the one call that hands a packet over under it. -/
theorem eq_of_handed (h : Settled calls number handed lost) (hb : Bearing calls number handed)
    (hn : Numbering calls outgoing next handed) (few : handed.length < UInt32.size) {i j : Nat}
    {n : UInt32} (hi : number i = some n) (hj : Handed handed j n) : i = j := by
  obtain ⟨g, hg, hgj, hgn⟩ := hj
  rcases h i n hi with ⟨g', hg', hgi, hgn'⟩ | ⟨c, hc, hp⟩ | ⟨-, -, hnone⟩
  · obtain rfl := hn.eq_of_number few hg hg' (hgn.trans hgn'.symm)
    rw [hgi] at hgj
    exact Option.some.inj hgj
  · have hnext := hb.known i c _ hc (hn.upcoming i c hc hp)
    rw [hi] at hnext
    cases hnext
    exact absurd hgn (hn.number_ne_next few hg)
  · exact absurd ⟨g, hg, hgj, hgn⟩ (hnone j)

/-- A call that begins. -/
theorem begins {i : Nat} {c : Call} (h : Settled calls number handed lost) (new : calls i = none)
    (stage : c.stage = .arriving) : Settled (update calls i (some c)) number handed lost := by
  intro j n hn
  rcases h j n hn with hh | ⟨d, hd, hp⟩ | ⟨hlost, hready, hnone⟩
  · exact .inl hh
  · exact .inr (.inl ⟨d, update_of_new new hd, hp⟩)
  · refine .inr (.inr ⟨hlost, fun k e he => ?_, hnone⟩)
    rcases of_update he with ⟨rfl, rfl⟩ | ⟨-, he⟩
    · rw [stage]; rfl
    · exact hready _ _ he

/-- A step of a call that keeps its number, or never had one to use. -/
theorem goes {i : Nat} {c : Call} {s : Call.Stage} (h : Settled calls number handed lost)
    (known : calls i = some c) (ready : s.isReady = true → lost = false)
    (settled : ∀ n, number i = some n → c.stage.placed = true →
      s.placed = true ∨ Stale (update calls i (some (c.goTo s))) handed lost n) :
    Settled (update calls i (some (c.goTo s))) number handed lost := by
  intro j n hn
  rcases h j n hn with hh | ⟨d, hd, hp⟩ | ⟨hlost, hready, hnone⟩
  · exact .inl hh
  · by_cases hj : j = i
    · subst hj
      rw [known] at hd
      cases hd
      rcases settled n hn hp with hp' | hstale
      · exact .inr (.inl ⟨c.goTo s, Function.update_self .., hp'⟩)
      · exact .inr (.inr hstale)
    · exact .inr (.inl ⟨d, by rw [Function.update_of_ne hj, hd], hp⟩)
  · refine .inr (.inr ⟨hlost, fun k e he => ?_, hnone⟩)
    rcases of_update he with ⟨rfl, rfl⟩ | ⟨-, he⟩
    · cases hs : s.isReady with
      | true => rw [ready hs] at hlost; cases hlost
      | false => exact hs
    · exact hready _ _ he

/-- A call enters the table. -/
theorem enters {i : Nat} {c : Call} (h : Settled calls number handed lost) (n : UInt32) :
    Settled (update calls i (some (c.goTo (.entered n)))) (update number i (some n)) handed
      lost := by
  intro j m hm
  rcases of_update hm with ⟨rfl, rfl⟩ | ⟨hj, hm⟩
  · exact .inr (.inl ⟨_, Function.update_self .., rfl⟩)
  · rcases h j m hm with hh | ⟨d, hd, hp⟩ | ⟨hlost, hready, hnone⟩
    · exact .inl hh
    · exact .inr (.inl ⟨d, by rw [Function.update_of_ne hj, hd], hp⟩)
    · refine .inr (.inr ⟨hlost, fun k e he => ?_, hnone⟩)
      rcases of_update he with ⟨rfl, rfl⟩ | ⟨-, he⟩
      · rfl
      · exact hready _ _ he

/-- A call hands its packet to the link. -/
theorem hands {i : Nat} {c : Call} {s : Call.Stage} {g : Handing}
    (h : Settled calls number handed lost) (known : calls i = some c)
    (stage : c.stage = .ready g.number) (hi : number i = some g.number)
    (caller : g.caller = some i) :
    Settled (update calls i (some (c.goTo s))) number (handed ++ [g]) lost := by
  intro j m hm
  by_cases hj : j = i
  · subst hj
    rw [hm] at hi
    cases hi
    exact .inl (Bearing.handed_append.mpr (.inr ⟨caller, rfl⟩))
  · rcases h j m hm with hh | ⟨d, hd, hp⟩ | ⟨-, hready, -⟩
    · exact .inl (Bearing.handed_append.mpr (.inl hh))
    · exact .inr (.inl ⟨d, by rw [Function.update_of_ne hj, hd], hp⟩)
    · have := hready _ _ known
      rw [stage] at this
      cases this

/-- Another sender hands a packet to the link. -/
theorem sends {g : Handing} (h : Settled calls number handed lost) (caller : g.caller = none) :
    Settled calls number (handed ++ [g]) lost := by
  intro i n hi
  have same : ∀ j m, Handed (handed ++ [g]) j m ↔ Handed handed j m :=
    Bearing.handed_append_sender caller
  rcases h i n hi with hh | hp | ⟨hlost, hready, hnone⟩
  · exact .inl ((same i n).mpr hh)
  · exact .inr (.inl hp)
  · exact .inr (.inr ⟨hlost, hready, fun j hj => hnone j ((same j n).mp hj)⟩)

/-- While the numbers last, a call that gives up leaves a number that no call has used. -/
theorem change (h : Settled t.calls t.number t.handed t.session.lost)
    (hb : Bearing t.calls t.number t.handed) (hn : Numbering t.calls t.outgoing t.next t.handed)
    (few : t.handed.length < UInt32.size) (hc : Change t t') :
    Settled t'.calls t'.number t'.handed t'.session.lost := by
  cases hc with
  | callBegins envelope new | castBegins envelope new => exact h.begins new rfl
  | turnedAway known stage | looks known stage | goesOut known stage | refused known stage
  | waits known stage | leaves known stage | collects known stage | lapses known stage
  | withdraws known stage | expires known stage =>
    exact h.goes known (by simp [Call.Stage.isReady]) (by simp [stage, Call.Stage.placed])
  | looksAgain known stage unlost => exact h.goes known (fun _ => unlost) fun _ _ _ => .inl rfl
  | @givesUp i c n known stage lost =>
    have hp : c.stage.placed = true := by rw [stage]; rfl
    -- Nobody else has the turn, so nobody is left who could use the number.
    refine h.goes known (by simp [Call.Stage.isReady]) fun m hm _ =>
      .inr ⟨lost, fun j d hd => ?_, fun j ⟨g, hg, _, hgm⟩ => ?_⟩
    · rcases of_update hd with ⟨rfl, rfl⟩ | ⟨hj, hd⟩
      · rfl
      · cases hr : d.stage.isReady with
        | false => rfl
        | true =>
          have holds := Call.Stage.holds_of_placed (Call.Stage.placed_of_isReady hr)
          exact absurd (hn.turn _ _ _ _ hd known holds (Call.Stage.holds_of_placed hp)) hj
    · have hnext := hb.known i c _ known (hn.upcoming i c known hp)
      rw [hm] at hnext
      cases hnext
      exact hn.number_ne_next few hg hgm
  | enters known stage free => exact h.enters _
  | @hands i c n known stage =>
    have hnext := hn.upcoming i c known (by rw [stage]; rfl)
    have hi := hb.known i c _ known hnext
    rw [stage] at hnext
    cases hnext
    exact h.hands (g := ⟨some i, t.next, t.packetOf c⟩) known stage hi rfl
  | sends m free => exact h.sends rfl
  | strikes known stage unlost =>
    intro i n hi
    rcases h i n hi with hh | hp | ⟨lost, -⟩
    · exact .inl hh
    · exact .inr (.inl hp)
    · rw [unlost] at lost; cases lost
  | aside p agrees | received p agrees | answered p agrees | counts p agrees | notes p agrees
  | tears p agrees =>
    show Settled _ _ _ p.session.lost
    rw [agrees.lost]
    exact h
  | _ => exact h

end Settled

end Traffic

end Federate
