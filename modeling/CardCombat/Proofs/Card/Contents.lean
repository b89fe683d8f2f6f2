import CardCombat.Proofs.Card.Changes
import CardCombat.Proofs.Card.Piles

/-!
# Which cards there are

The piles hold cards, and a combat shows them: those in the piles and in play, the one that was
played last, and the candidates of a selection that waits. Cards that are taken, put, moved or
rearranged were there before, and a card that is changed takes the place of the one it was.

## Main definitions

* `Piles.Has`, `Combat.Shows` -- the cards that there are.

## Main results

* `Piles.has_put_iff`, `Piles.has_of_take?`, `Piles.has_modify` and the like -- one operation each.
* `Combat.shows_modifyCard` -- a card is changed.
-/

namespace CardCombat

namespace Piles

variable {piles piles' : Piles} {pile : Pile} {card other : Card} {uid : CardUid} {rng rng' : Rng}

/-- The card lies in some pile. -/
def Has (piles : Piles) (card : Card) : Prop := ∃ pile, card ∈ piles.get pile

theorem has_iff : piles.Has card ↔ card ∈ piles.cards := by
  unfold Has cards
  simp only [List.mem_append]
  constructor
  · rintro ⟨pile, hmem⟩
    cases pile with
    | hand => exact .inl (.inl (.inl hmem))
    | drawPile => exact .inl (.inl (.inr hmem))
    | discardPile => exact .inl (.inr hmem)
    | exhaustPile => exact .inr hmem
  · rintro (((hmem | hmem) | hmem) | hmem)
    · exact ⟨.hand, hmem⟩
    · exact ⟨.drawPile, hmem⟩
    · exact ⟨.discardPile, hmem⟩
    · exact ⟨.exhaustPile, hmem⟩

theorem has_set {cards : List Card} (h : (piles.set pile cards).Has other) :
    other ∈ cards ∨ piles.Has other := by
  have hmem := List.mem_append_left (piles.get pile) (has_iff.mp h)
  exact (List.mem_append.mp ((perm_set cards).mem_iff.mp hmem)).symm.imp_right has_iff.mpr

/-- What was there, up to order, besides a card that was taken. -/
theorem has_of_perm_cons (h : piles.cards.Perm (card :: piles'.cards)) :
    piles.Has card ∧ ∀ other, piles'.Has other → piles.Has other := by
  refine ⟨has_iff.mpr (h.mem_iff.mpr List.mem_cons_self), fun other hother => ?_⟩
  exact has_iff.mpr (h.mem_iff.mpr (List.mem_cons_of_mem _ (has_iff.mp hother)))

theorem has_of_perm (h : piles'.cards.Perm piles.cards) (hother : piles'.Has other) :
    piles.Has other :=
  has_iff.mpr (h.mem_iff.mp (has_iff.mp hother))

/-- In the piles after a card was put there are that card and what was there before. -/
theorem has_put_iff {placement : Placement} :
    ((piles.put pile card placement).run rng).1.Has other ↔ other = card ∨ piles.Has other := by
  rw [has_iff, has_iff, perm_put.mem_iff, List.mem_cons]

/-- A card that is taken was there, and so was what is left. -/
theorem has_of_takeFrom? (h : piles.takeFrom? pile uid = some (card, piles')) :
    piles.Has card ∧ ∀ other, piles'.Has other → piles.Has other :=
  has_of_perm_cons (perm_of_takeFrom? h).2

theorem has_of_take? {source : Pile} (h : piles.take? uid = some (source, card, piles')) :
    piles.Has card ∧ ∀ other, piles'.Has other → piles.Has other :=
  has_of_perm_cons (perm_of_take? h).2

theorem has_of_popDraw? (h : piles.popDraw? = some (card, piles')) :
    piles.Has card ∧ ∀ other, piles'.Has other → piles.Has other :=
  has_of_perm_cons (perm_of_popDraw? h)

/-- Moving a card brings none into the piles. -/
theorem has_of_move {placement : Placement} {source : Option Pile}
    (h : (piles.move uid pile placement).run rng = ((source, piles'), rng')) :
    piles'.Has other → piles.Has other :=
  has_of_perm (perm_of_move h)

theorem has_of_shuffle (h : (piles.shuffle pile).run rng = (piles', rng')) :
    piles'.Has other → piles.Has other :=
  has_of_perm (perm_of_shuffle h)

theorem has_of_reshuffle {moved : Nat}
    (h : piles.reshuffle.run rng = ((moved, piles'), rng')) :
    piles'.Has other → piles.Has other :=
  has_of_perm (perm_of_reshuffle h)

theorem has_of_find? (h : piles.find? uid = some card) : piles.Has card := by
  obtain ⟨pile, -, hfind⟩ := Option.bind_eq_some_iff.mp h
  exact ⟨pile, List.mem_of_find?_eq_some hfind⟩

/-- A card that is changed takes the place of the one it was. -/
theorem has_modify {change : Card → Card} (h : (piles.modify uid change).Has other) :
    piles.Has other ∨ ∃ found, piles.find? uid = some found ∧ other = change found := by
  cases hfind : piles.find? uid with
  | none => exact .inl (modify_eq_self hfind ▸ h)
  | some found =>
      obtain ⟨others, hbefore, hafter⟩ := @perm_modify piles uid change found hfind
      rcases List.mem_cons.mp (hafter.mem_iff.mp (has_iff.mp h)) with heq | hmem
      · exact .inr ⟨found, rfl, heq⟩
      · exact .inl (has_iff.mpr (hbefore.mem_iff.mpr (List.mem_cons_of_mem _ hmem)))

end Piles

namespace Combat

variable {combat : Combat} {card other : Card} {uid : CardUid}

/-- The cards that a combat shows: those in the piles and in play, the one that was played last, and
the candidates of a selection that waits. -/
inductive Shows (combat : Combat) (card : Card) : Prop
  | pile (h : combat.piles.Has card)
  | inPlay {entry} (h : entry ∈ combat.inPlay) (hc : entry.card = card)
  | lastPlayed (h : combat.lastPlayed = some card)
  | candidate {selection} (h : combat.pending = some selection) (hc : card ∈ selection.candidates)

/-- The combat has no more to show if there is no more in its parts. -/
theorem Shows.of_parts {after : Combat} (h : after.Shows card)
    (hpile : after.piles.Has card → combat.Shows card)
    (hplay : ∀ entry ∈ after.inPlay, entry.card = card → combat.Shows card)
    (hlast : after.lastPlayed = combat.lastPlayed) (hpending : after.pending = combat.pending) :
    combat.Shows card := by
  cases h with
  | pile h => exact hpile h
  | inPlay h hc => exact hplay _ h hc
  | lastPlayed h => exact .lastPlayed (hlast ▸ h)
  | candidate h hc => exact .candidate (hpending ▸ h) hc

/-- Only the piles have changed. -/
theorem shows_piles {piles : Piles} (hpiles : piles.Has card → combat.Shows card)
    (h : ({ combat with piles } : Combat).Shows card) : combat.Shows card :=
  h.of_parts hpiles (fun _ hmem hc => .inPlay hmem hc) rfl rfl

theorem shows_of_findInPlay? {entry : ActiveCard} (h : combat.findInPlay? uid = some entry) :
    combat.Shows entry.card :=
  .inPlay (List.mem_reverse.mp (List.mem_of_find?_eq_some h)) rfl

theorem shows_of_card? (h : combat.card? uid = some card) : combat.Shows card := by
  unfold card? at h
  cases hplay : combat.findInPlay? uid with
  | some entry =>
      rw [hplay] at h
      exact Option.some.inj h ▸ shows_of_findInPlay? hplay
  | none =>
      rw [hplay] at h
      exact .pile (Piles.has_of_find? h)

theorem mem_modifyFirstInPlay {change : ActiveCard → ActiveCard} {entries : List ActiveCard}
    {entry : ActiveCard} (h : entry ∈ modifyFirstInPlay uid change entries) :
    entry ∈ entries ∨
      ∃ found, entries.find? (·.card.uid == uid) = some found ∧ entry = change found := by
  induction entries with
  | nil => exact .inl h
  | cons first entries ih =>
      unfold modifyFirstInPlay at h
      split at h
      case isTrue hid =>
        rcases List.mem_cons.mp h with heq | hmem
        · exact .inr ⟨first, List.find?_cons_of_pos hid, heq⟩
        · exact .inl (List.mem_cons_of_mem _ hmem)
      case isFalse hid =>
        rcases List.mem_cons.mp h with rfl | hmem
        · exact .inl List.mem_cons_self
        · rcases ih hmem with hmem | ⟨found, hfind, heq⟩
          · exact .inl (List.mem_cons_of_mem _ hmem)
          · exact .inr ⟨found, by rw [List.find?_cons_of_neg (by exact hid), hfind], heq⟩

theorem mem_modifyInPlay {change : ActiveCard → ActiveCard} {entry : ActiveCard}
    (h : entry ∈ (combat.modifyInPlay uid change).inPlay) :
    entry ∈ combat.inPlay ∨
      ∃ found, combat.findInPlay? uid = some found ∧ entry = change found :=
  (mem_modifyFirstInPlay (List.mem_reverse.mp h)).imp_left List.mem_reverse.mp

/-- Where a card in play goes is nothing that is shown. -/
theorem shows_route {route : Option Route}
    (h : (combat.modifyInPlay uid fun entry => { entry with route }).Shows card) :
    combat.Shows card := by
  refine h.of_parts (fun hhas => .pile hhas) (fun entry hmem hc => ?_) rfl rfl
  rcases mem_modifyInPlay hmem with hmem | ⟨found, hfound, rfl⟩
  · exact .inPlay hmem hc
  · have hshown := shows_of_findInPlay? hfound
    exact hc ▸ hshown

/-- A card that is changed is shown as it is now, and all others as they were. -/
theorem shows_modifyCard (h : (combat.modifyCard uid fun _ => card).Shows other) :
    other = card ∨ combat.Shows other := by
  unfold modifyCard at h
  split at h
  · by_cases heq : other = card
    · exact .inl heq
    · refine .inr (h.of_parts (fun hhas => .pile hhas) (fun entry hmem hc => ?_) rfl rfl)
      rcases mem_modifyInPlay hmem with hmem | ⟨found, -, rfl⟩
      · exact .inPlay hmem hc
      · exact absurd hc.symm heq
  · by_cases heq : other = card
    · exact .inl heq
    · refine .inr (shows_piles (fun hhas => ?_) h)
      rcases Piles.has_modify hhas with hhas | ⟨found, -, rfl⟩
      · exact .pile hhas
      · exact absurd rfl heq

end Combat

end CardCombat
