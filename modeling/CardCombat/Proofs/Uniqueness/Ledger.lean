import CardCombat.Proofs.Resolution.Step
import CardCombat.Proofs.Uniqueness.Circulation

/-!
# The ledger of cards

A ledger says how the copies of every card have changed between two scenes: by revivals, by losses,
and by a birth if the card is new. Whoever gives a number to a card gives a number that no card has
had, so no card is born twice. The entries of a ledger for two parts make up the entry for the
whole.

## Main definitions

* `Ledger` -- how copies have changed, with the deeds that explain it.

## Main results

* `Ledger.trans` -- ledgers add up.
* `Step.keeps`, `Blow.keeps` -- every step keeps the ledger.
-/

namespace CardCombat

namespace Combat

/-- Every card that is somewhere has got its number already. -/
def Bounded (combat : Combat) : Prop := ∀ u, combat.Holds u → u.number < combat.nextCardUid

/-- All that a combat says of cards. -/
def table (combat : Combat) : Piles × List ActiveCard × Nat × Option Selection :=
  (combat.piles, combat.inPlay, combat.nextCardUid, combat.pending)

end Combat

/-- If the cards of a selection are new they have numbers of their own, and are nowhere yet. -/
def Selection.IsFresh (selection : Selection) (s t : Scene) : Prop :=
  ∀ pile, selection.kind = .discover pile → (selection.candidates.map (·.uid)).Nodup ∧
    ∀ card ∈ selection.candidates, s.combat.nextCardUid ≤ card.uid.number ∧
      card.uid.number < t.combat.nextCardUid ∧ (s.combat.Bounded → ¬t.combat.Holds card.uid)

/-- How the copies of a card have changed between two scenes. -/
def Entry (s t : Scene) (deeds : List Deed) (u : CardUid) (born : Nat) : Prop :=
  born ≤ 1 ∧ (born = 1 → s.combat.nextCardUid ≤ u.number ∧ u.number < t.combat.nextCardUid) ∧
    (t.combat.Holds u → s.combat.Holds u ∨ born = 1) ∧
      t.combat.copies u + deeds.countP (·.loses u) =
        s.combat.copies u + deeds.countP (·.revives u) + born

/-- Entries add up, since numbers only go up and so no card is born twice. -/
theorem Entry.trans {s t v : Scene} {deeds deeds' : List Deed} {u : CardUid} {born born' : Nat}
    (hnext : s.combat.nextCardUid ≤ t.combat.nextCardUid)
    (hnext' : t.combat.nextCardUid ≤ v.combat.nextCardUid) (h : Entry s t deeds u born)
    (h' : Entry t v deeds' u born') : Entry s v (deeds ++ deeds') u (born + born') := by
  obtain ⟨hle, hborn, hholds, hcopies⟩ := h
  obtain ⟨hle', hborn', hholds', hcopies'⟩ := h'
  have honce : born + born' ≤ 1 := by
    by_contra hmore
    have hrange := hborn (by omega)
    have hrange' := hborn' (by omega)
    omega
  refine ⟨honce, fun hone => ?_, fun hv => ?_, ?_⟩
  · by_cases hb : born = 1
    · have hrange := hborn hb
      omega
    · have hrange := hborn' (by omega)
      omega
  · rcases hholds' hv with ht | hb
    · rcases hholds ht with hs | hb
      · exact .inl hs
      · exact .inr (by omega)
    · exact .inr (by omega)
  · rw [List.countP_append, List.countP_append]
    omega

/-- How the copies of all cards have changed between two scenes, with the deeds that explain it. -/
structure Ledger (s t : Scene) (deeds : List Deed) : Prop where
  next : s.combat.nextCardUid ≤ t.combat.nextCardUid
  chronicle : t.chronicle.toList = s.chronicle.toList ++ deeds
  entry : ∀ u, ∃ born, Entry s t deeds u born
  offer : ∀ selection, t.combat.pending = some selection →
    s.combat.pending = some selection ∨ selection.IsFresh s t

namespace Ledger

variable {s t v : Scene} {deeds deeds' : List Deed} {u : CardUid}

theorem bounded (h : Ledger s t deeds) (hs : s.combat.Bounded) : t.combat.Bounded := by
  intro u hu
  have hnext := h.next
  obtain ⟨born, -, hborn, hholds, -⟩ := h.entry u
  rcases hholds hu with hu | hu
  · have := hs u hu
    omega
  · exact (hborn hu).2

/-- A card that has its number and is nowhere stays away. -/
theorem not_holds (h : Ledger s t deeds) (hlt : u.number < s.combat.nextCardUid)
    (hu : ¬s.combat.Holds u) : ¬t.combat.Holds u := by
  intro hholds
  obtain ⟨born, -, hborn, hheld, -⟩ := h.entry u
  rcases hheld hholds with hheld | hborn'
  · exact hu hheld
  · have := (hborn hborn').1
    omega

/-- **Ledgers add up.** -/
theorem trans (h : Ledger s t deeds) (h' : Ledger t v deeds') : Ledger s v (deeds ++ deeds') where
  next := Nat.le_trans h.next h'.next
  chronicle := by rw [h'.chronicle, h.chronicle, List.append_assoc]
  entry u := by
    obtain ⟨born, hentry⟩ := h.entry u
    obtain ⟨born', hentry'⟩ := h'.entry u
    exact ⟨born + born', Entry.trans h.next h'.next hentry hentry'⟩
  offer selection hv := by
    have hnext := h.next
    have hnext' := h'.next
    rcases h'.offer selection hv with ht | hfresh
    · rcases h.offer selection ht with hs | hfresh
      · exact .inl hs
      · right
        intro pile hkind
        refine ⟨(hfresh pile hkind).1, fun card hmem => ?_⟩
        obtain ⟨hlow, hhigh, hnot⟩ := (hfresh pile hkind).2 card hmem
        exact ⟨hlow, by omega, fun hs => h'.not_holds hhigh (hnot hs)⟩
    · right
      intro pile hkind
      refine ⟨(hfresh pile hkind).1, fun card hmem => ?_⟩
      obtain ⟨hlow, hhigh, hnot⟩ := (hfresh pile hkind).2 card hmem
      exact ⟨by omega, hhigh, fun hs => hnot (h.bounded hs)⟩

/-! ## Steps without births -/

/-- Copies change as the deeds say, and no card is born. -/
theorem of_copies (hnext : s.combat.nextCardUid ≤ t.combat.nextCardUid)
    (hchronicle : t.chronicle.toList = s.chronicle.toList ++ deeds)
    (hholds : ∀ u, t.combat.Holds u → s.combat.Holds u)
    (hcopies : ∀ u, t.combat.copies u + deeds.countP (·.loses u) =
      s.combat.copies u + deeds.countP (·.revives u))
    (hoffer : t.combat.pending = s.combat.pending) : Ledger s t deeds where
  next := hnext
  chronicle := hchronicle
  entry u := by
    refine ⟨0, Nat.zero_le 1, fun h => absurd h (by decide), fun h => .inl (hholds u h), ?_⟩
    rw [Nat.add_zero]
    exact hcopies u
  offer selection h := .inl (hoffer ▸ h)

/-- Deeds that do not move cards. -/
def Idle (deeds : List Deed) : Prop := ∀ u, ∀ deed ∈ deeds, ¬deed.loses u ∧ ¬deed.revives u

theorem Idle.countP_eq (h : Idle deeds) (u : CardUid) :
    deeds.countP (·.loses u) = 0 ∧ deeds.countP (·.revives u) = 0 :=
  ⟨List.countP_eq_zero.mpr fun deed hmem => (h u deed hmem).1,
    List.countP_eq_zero.mpr fun deed hmem => (h u deed hmem).2⟩

theorem idle_nil : Idle [] := fun _ _ hmem => absurd hmem List.not_mem_nil

theorem Idle.append (h : Idle deeds) (h' : Idle deeds') : Idle (deeds ++ deeds') :=
  fun u deed hmem => (List.mem_append.mp hmem).elim (h u deed) (h' u deed)

/-- Where cards were put says nothing about their copies. -/
theorem idle_landed (uid : CardUid) (pile : Pile) : Idle [.landed uid pile] := by
  intro u deed hmem
  obtain rfl := List.mem_singleton.mp hmem
  exact ⟨Bool.false_ne_true, Bool.false_ne_true⟩

/-- What has nothing to do with cards. -/
theorem of_table (h : t.combat.table = s.combat.table)
    (hchronicle : t.chronicle.toList = s.chronicle.toList ++ deeds) (hidle : Idle deeds) :
    Ledger s t deeds := by
  obtain ⟨hpiles, h⟩ := Prod.mk.inj h
  obtain ⟨hplay, h⟩ := Prod.mk.inj h
  obtain ⟨hnext, hpending⟩ := Prod.mk.inj h
  refine of_copies (by omega) hchronicle (fun u => ?_) (fun u => ?_) hpending
  · unfold Combat.Holds Combat.playing
    rw [hpiles, hplay]
    exact id
  · rw [(hidle.countP_eq u).1, (hidle.countP_eq u).2]
    unfold Combat.copies
    rw [hpiles, hplay]

theorem refl (s : Scene) : Ledger s s [] := of_table rfl (List.append_nil _).symm idle_nil

/-- Cards change their places among the piles. -/
theorem of_piles {piles : Piles} {rng : Rng}
    (h : ∀ u, piles.count u = s.combat.piles.count u) :
    Ledger s { s.withPiles piles with rng } [] := by
  refine of_copies (Nat.le_refl _) (List.append_nil _).symm (fun u => ?_) (fun u => ?_) rfl
  · unfold Combat.Holds
    show 0 < piles.count u ∨ _ → _
    rw [h]
    exact id
  · show piles.count u + _ + _ = _
    rw [h]
    rfl

end Ledger

/-! ## What keeps the ledger -/

/-- What happens has nothing to do with cards, and is not written down. -/
def Aside (s t : Scene) : Prop :=
  t.combat.table = s.combat.table ∧ t.chronicle = s.chronicle

theorem Aside.flow : Resolution.Flow Aside where
  refl _ := ⟨rfl, rfl⟩
  trans h h' := ⟨h'.1.trans h.1, h'.2.trans h.2⟩

/-- The ledger is kept and the same cards are in play. -/
def Keeps (s t : Scene) : Prop := (∃ deeds, Ledger s t deeds) ∧ t.combat.playing = s.combat.playing

variable {s t : Scene} {u uid : CardUid} {card : Card} {pile : Pile} {placement : Placement}
  {entry : ActiveCard} {rules : Rules}

theorem Scene.table_tell (events : List Event) : (s.tell events).combat.table = s.combat.table := by
  rw [tell_eq]
  rfl

theorem Scene.chronicle_tell (events : List Event) : (s.tell events).chronicle = s.chronicle := by
  rw [tell_eq]

namespace Keeps

theorem of_table {deeds : List Deed} (h : t.combat.table = s.combat.table)
    (hchronicle : t.chronicle.toList = s.chronicle.toList ++ deeds) (hidle : Ledger.Idle deeds) :
    Keeps s t := by
  refine ⟨⟨deeds, .of_table h hchronicle hidle⟩, ?_⟩
  obtain ⟨-, h⟩ := Prod.mk.inj h
  rw [Combat.playing, (Prod.mk.inj h).1, Combat.playing]

theorem of_aside (h : Aside s t) : Keeps s t :=
  of_table h.1 (by rw [h.2, List.append_nil]) Ledger.idle_nil

theorem of_piles {piles : Piles} {rng : Rng} (h : ∀ u, piles.count u = s.combat.piles.count u) :
    Keeps s { s.withPiles piles with rng } := ⟨⟨[], .of_piles h⟩, rfl⟩

theorem flow : Resolution.Flow Keeps where
  refl s := ⟨⟨[], .refl s⟩, rfl⟩
  trans h h' := by
    obtain ⟨⟨deeds, h⟩, hplay⟩ := h
    obtain ⟨⟨deeds', h'⟩, hplay'⟩ := h'
    exact ⟨⟨_, h.trans h'⟩, hplay'.trans hplay⟩

theorem report {event : Event} (h : Keeps s t) : Keeps s (t.report event) :=
  flow.trans h (of_aside ⟨rfl, rfl⟩)

theorem tell {events : List Event} (h : Keeps s t) : Keeps s (t.tell events) :=
  flow.trans h (of_aside ⟨Scene.table_tell events, Scene.chronicle_tell events⟩)

theorem of_record {deed : Deed} (h : ∀ u, ¬deed.loses u ∧ ¬deed.revives u) :
    Keeps s (s.record deed) := by
  apply @of_table s (s.record deed) [deed] rfl (by simp [Scene.record])
  intro u other hmem
  obtain rfl := List.mem_singleton.mp hmem
  exact h u

/-- What is written down of a change does not change the ledger. -/
theorem record {deed : Deed} (h : Keeps s t) (hdeed : ∀ u, ¬deed.loses u ∧ ¬deed.revives u) :
    Keeps s (t.record deed) :=
  flow.trans h (of_record hdeed)

/-- Combatants have no cards. -/
theorem of_setCombatant (id : CombatantId) (combatant : Combatant) :
    Keeps s (s.setCombatant id combatant) := by
  have hput : Keeps s (s.putCombatant id combatant) := by
    refine of_aside ⟨?_, rfl⟩
    unfold Scene.putCombatant Combat.setCombatant
    split <;> rfl
  unfold Scene.setCombatant
  split
  · exact flow.trans hput (of_record fun u => ⟨Bool.false_ne_true, Bool.false_ne_true⟩)
  · exact hput

/-- The dead have no cards either. -/
theorem of_bury : Keeps s s.bury := by
  refine @of_table s s.bury (s.combat.reap.1.map .buried) rfl (by simp [Scene.bury])
    fun u deed hmem => ?_
  obtain ⟨id, -, rfl⟩ := List.mem_map.mp hmem
  exact ⟨Bool.false_ne_true, Bool.false_ne_true⟩

theorem of_damages {source target : CombatantId} {outcome : DamageReport}
    (h : Damages source target outcome s t) : Keeps s t := by
  cases h with
  | mk hc h hs => exact flow.trans (of_setCombatant _ _).report (of_aside ⟨rfl, rfl⟩)

end Keeps

/-! ## Cards that come and go -/

/-- A card that has come into a pile is there. -/
theorem copies_arrive : (s.arrive card pile placement).combat.copies u =
    s.combat.copies u + if card.uid = u then 1 else 0 := by
  unfold Combat.copies
  show ((s.combat.piles.put pile card placement).run s.rng).1.count u +
    s.combat.inPlay.countP _ = _
  rw [Piles.count_put]
  omega

theorem chronicle_arrive : (s.arrive card pile placement).chronicle.toList =
    s.chronicle.toList ++ [.landed card.uid pile] := by
  show (s.chronicle.push (.landed card.uid pile)).toList = _
  rw [Array.toList_push]

theorem holds_arrive (h : (s.arrive card pile placement).combat.Holds u) :
    s.combat.Holds u ∨ card.uid = u := by
  rcases h with h | h
  · change 0 < ((s.combat.piles.put pile card placement).run s.rng).1.count u at h
    rw [Piles.count_put] at h
    by_cases hu : card.uid = u
    · exact .inr hu
    · rw [if_neg hu] at h
      exact .inl (.inl h)
  · exact .inl (.inr h)

theorem mem_playing_of_findInPlay? {combat : Combat} (h : combat.findInPlay? uid = some entry) :
    uid ∈ combat.playing := by
  have hid : entry.card.uid = uid := by simpa using List.find?_some h
  exact List.mem_map.mpr ⟨entry, List.mem_reverse.mp (List.mem_of_find?_eq_some h), hid⟩

theorem playing_route (before : Option Route) (after : Route) :
    (s.route uid before after).combat.playing = s.combat.playing :=
  Combat.playing_modifyInPlay fun _ => id

theorem holds_route {before : Option Route} {after : Route}
    (h : (s.route uid before after).combat.Holds u) : s.combat.Holds u := by
  rcases h with h | h
  · exact .inl h
  · rw [playing_route] at h
    exact .inr h

theorem chronicle_route (before : Option Route) (after : Route) :
    (s.route uid before after).chronicle.toList =
      s.chronicle.toList ++ [.routed uid before after] := by
  simp [Scene.route, Scene.record]

/-- A card in play is sent somewhere. -/
theorem sent_keeps (h : s.combat.findInPlay? uid = some entry) {after : Route}
    (ha : after ≠ .elsewhere) : Keeps s (s.route uid entry.route after) := by
  refine ⟨⟨_, .of_copies (Nat.le_refl _) (chronicle_route _ _) (fun u => holds_route)
    (fun u => ?_) rfl⟩, playing_route _ _⟩
  have hroute := @Combat.copies_route s.combat uid u entry h after
  rw [if_neg fun h => ha h.1, Nat.add_zero] at hroute
  exact hroute

/-- A card in play has come into a pile. -/
theorem recalled_keeps (h : s.combat.findInPlay? uid = some entry) :
    Keeps s ((s.route uid entry.route .elsewhere).arrive entry.card pile placement) := by
  have hid : entry.card.uid = uid := by simpa using List.find?_some h
  have hdeeds : ((s.route uid entry.route .elsewhere).arrive entry.card pile
      placement).chronicle.toList = s.chronicle.toList ++
        [.routed uid entry.route .elsewhere, .landed entry.card.uid pile] := by
    rw [chronicle_arrive, chronicle_route, List.append_assoc]
    rfl
  refine ⟨⟨_, .of_copies (Nat.le_refl _) hdeeds (fun u hu => ?_) (fun u => ?_) rfl⟩,
    playing_route entry.route .elsewhere⟩
  · rcases holds_arrive hu with hu | rfl
    · exact holds_route hu
    · rw [hid]
      exact .inr (mem_playing_of_findInPlay? h)
  · have hroute := @Combat.copies_route s.combat uid u entry h .elsewhere
    rw [copies_arrive, hid]
    have hidle := Ledger.idle_landed uid pile
    rw [← List.singleton_append, List.countP_append, List.countP_append, (hidle.countP_eq u).1,
      (hidle.countP_eq u).2]
    show (s.combat.modifyInPlay uid _).copies u + _ + _ = _
    simp only [true_and] at hroute
    omega

/-- A card is brought from one pile to another. -/
theorem brought_keeps {source : Pile} {piles : Piles}
    (h : s.combat.piles.take? uid = some (source, card, piles)) :
    Keeps s ((s.withPiles piles).arrive card pile placement) := by
  have hcount (u : CardUid) := @Piles.count_of_take? _ _ _ _ u _ h
  refine .record (.of_piles fun u => Piles.count_put.trans ?_)
    fun u => ⟨Bool.false_ne_true, Bool.false_ne_true⟩
  rw [(hcount u).1]
  exact (hcount u).2.symm

/-- A card is taken out of its pile for good. -/
theorem removed_keeps {source : Pile} {piles : Piles}
    (h : s.combat.piles.take? uid = some (source, card, piles)) :
    Keeps s ((s.withPiles piles).record (.removed uid)) := by
  have hcount (u : CardUid) : s.combat.piles.count u = piles.count u + if uid = u then 1 else 0 :=
    (Piles.count_of_take? h).2
  refine ⟨⟨[.removed uid], .of_copies (Nat.le_refl _) (by simp [Scene.record, Scene.withPiles])
    (fun u hu => ?_) (fun u => ?_) rfl⟩, rfl⟩
  · apply hu.imp_left
    intro hu
    change 0 < piles.count u at hu
    rw [hcount]
    omega
  · unfold Combat.copies
    rw [hcount, List.countP_singleton, List.countP_singleton]
    show piles.count u + s.combat.inPlay.countP _ + _ = _
    by_cases hu : uid = u
    · subst hu
      simp [Deed.loses, Deed.revives]
      omega
    · simp [Deed.loses, Deed.revives, hu]

/-- A card is changed that stays the same card. -/
theorem changed_keeps {found : Card} (hu : card.uid = found.uid) :
    Keeps s { s with combat := s.combat.modifyCard found.uid fun _ => card } := by
  unfold Combat.modifyCard
  split
  case isTrue hplay =>
    obtain ⟨entry, hentry⟩ := Option.isSome_iff_exists.mp hplay
    have hplaying : (s.combat.modifyInPlay found.uid fun entry => { entry with card }).playing =
        s.combat.playing := Combat.playing_modifyInPlay fun _ _ => hu
    refine ⟨⟨[], .of_copies (Nat.le_refl _) (List.append_nil _).symm (fun u hholds => ?_)
      (fun u => ?_) rfl⟩, hplaying⟩
    · apply hholds.imp_right
      intro hmem
      rw [← hplaying]
      exact hmem
    · obtain ⟨hid, hcount⟩ := @Combat.copies_modifyInPlay s.combat found.uid u entry
        (fun entry => { entry with card }) hentry
      have hsame : ({ entry with card } : ActiveCard).returns u = entry.returns u := by
        unfold ActiveCard.returns
        rw [hid, ← hu]
      rw [hsame] at hcount
      exact Nat.add_right_cancel hcount
  case isFalse hplay =>
    exact .of_piles fun u => Piles.count_modify fun _ _ => hu

/-- Numbers are given out. -/
theorem issued_ledger (count : Nat) : Ledger s (s.issue count) [] :=
  .of_copies (Nat.le_add_right _ _) (List.append_nil _).symm (fun _ => id) (fun _ => rfl) rfl

/-- A card is born. -/
theorem created_keeps (hu : card.uid = ⟨s.combat.nextCardUid⟩) :
    Keeps s ((s.issue 1).arrive card pile placement) := by
  refine ⟨⟨[.landed card.uid pile], ?_, chronicle_arrive, fun u => ?_, fun _ => .inl⟩, rfl⟩
  · exact Nat.le_succ _
  · refine ⟨if card.uid = u then 1 else 0, ?_, fun hone => ?_, fun h => ?_, ?_⟩
    · split <;> omega
    · split at hone
      case isTrue heq =>
        rw [← heq, hu]
        exact ⟨Nat.le_refl _, Nat.lt_succ_self _⟩
      case isFalse => exact absurd hone (by decide)
    · rcases holds_arrive h with h | h
      · exact .inl h
      · exact .inr (if_pos h)
    · rw [copies_arrive]
      rfl

/-- New cards are offered. -/
theorem offered_keeps {candidates : List Card} {kind : SelectionKind} {min max : Nat}
    (hu : candidates.map (·.uid.number) =
      List.range' s.combat.nextCardUid candidates.length) :
    Keeps s ((s.issue candidates.length).ask (.ofBounds kind candidates min max)) := by
  have hissued : Ledger s (s.issue candidates.length) [] := issued_ledger _
  refine ⟨⟨[], hissued.next, hissued.chronicle, hissued.entry, fun selection h => .inr ?_⟩, rfl⟩
  obtain rfl : _ = selection := Option.some.inj h
  intro pile _
  refine ⟨?_, fun card hmem => ?_⟩
  · apply List.Nodup.of_map CardUid.number
    rw [List.map_map]
    show (candidates.map (·.uid.number)).Nodup
    rw [hu]
    exact List.nodup_range'
  · have hrange : card.uid.number ∈ candidates.map (·.uid.number) :=
      List.mem_map.mpr ⟨card, hmem, rfl⟩
    rw [hu, List.mem_range'_1] at hrange
    refine ⟨hrange.1, hrange.2, fun hbounded hholds => ?_⟩
    have := hbounded card.uid hholds
    omega

/-! ## The steps -/

/-- **Every plain step keeps the ledger.** -/
theorem Step.keeps {may : Effect → Prop} (h : Step rules may s t) : Keeps s t := by
  cases h with
  | drew => exact .of_aside ⟨rfl, rfl⟩
  | told => exact .of_aside ⟨rfl, rfl⟩
  | acted => exact .of_record fun u => ⟨Bool.false_ne_true, Bool.false_ne_true⟩
  | altered => exact (Keeps.of_setCombatant _ _).tell
  | damaged h => exact .of_damages h
  | energy => exact .tell (.of_aside ⟨rfl, rfl⟩)
  | energyNextTurn => exact .of_aside ⟨rfl, rfl⟩
  | gold => exact .tell (.of_aside ⟨rfl, rfl⟩)
  | shuffled h => exact .of_piles fun u => Piles.count_of_shuffle h
  | reshuffled h =>
      exact .record (.of_piles fun u => Piles.count_of_reshuffle h)
        fun u => ⟨Bool.false_ne_true, Bool.false_ne_true⟩
  | @drawn card piles hroom h =>
      refine .of_piles fun u => ?_
      have hput : (piles.set .hand (piles.hand ++ [card])).count u = _ :=
        @Piles.count_add piles .hand card u
      exact hput.trans (Piles.count_of_popDraw? h).symm
  | @milled card piles event h he =>
      refine .report (.of_piles fun u => ?_)
      have hput : (piles.set .discardPile (piles.discardPile ++ [card])).count u = _ :=
        @Piles.count_add piles .discardPile card u
      exact hput.trans (Piles.count_of_popDraw? h).symm
  | moved h =>
      exact .report (.record (.of_piles fun u => Piles.count_of_move h)
        fun u => ⟨Bool.false_ne_true, Bool.false_ne_true⟩)
  | brought h => exact (brought_keeps h).report
  | removed h => exact (removed_keeps h).report
  | sent h he =>
      refine (sent_keeps h ?_).report
      rcases he with ⟨rfl, -⟩ | ⟨rfl, -⟩ | ⟨rfl, -⟩ <;> decide
  | recalled h => exact (recalled_keeps h).report
  | changed hf hu =>
      refine .report (.record (changed_keeps hu) fun u => ?_)
      exact ⟨Bool.false_ne_true, Bool.false_ne_true⟩
  | issued count => exact ⟨⟨[], issued_ledger count⟩, rfl⟩
  | created hu => exact (created_keeps hu).report
  | @asked kind candidates min max hk =>
      have hledger : Ledger s s [] := .refl s
      refine ⟨⟨[], hledger.next, hledger.chronicle, hledger.entry, fun selection h => .inr ?_⟩, rfl⟩
      obtain rfl : _ = selection := Option.some.inj h
      exact fun pile hkind => absurd hkind (hk pile)
  | offered hc hp hu => exact offered_keeps hu

/-- **Every blow keeps the ledger.** -/
theorem Blow.keeps (h : Blow rules s t) : Keeps s t := by
  cases h with
  | damaged h => exact .of_damages h
  | setHealth => exact (Keeps.of_setCombatant _ _).report
  | executed => exact (Keeps.of_setCombatant _ _).report
  | died id =>
      have hreport : Keeps s (s.report (.death id)) := .of_aside ⟨rfl, rfl⟩
      exact Keeps.flow.trans hreport
        (.of_record fun u => ⟨Bool.false_ne_true, Bool.false_ne_true⟩)
  | counted => exact .of_aside ⟨rfl, rfl⟩
  | acted => exact .of_record fun u => ⟨Bool.false_ne_true, Bool.false_ne_true⟩
  | buried => exact .of_bury

end CardCombat
