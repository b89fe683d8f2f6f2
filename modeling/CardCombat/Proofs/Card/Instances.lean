import CardCombat.Proofs.Card.Contents
import CardCombat.Proofs.Uniqueness.Circulation
import Mathlib.Data.List.Perm.Subperm

/-!
# The instances of a card

While a card is played there is an instance of it in play, and if it is brought into a pile
meanwhile there is another one there. Of these the copies are those that are in a pile or are to
come into one. A card that lies in a pile is looked at here as one in play that nobody has sent
anywhere: it stays where it is when the call is over. So all cards of a combat are entries of one
list, and what happens to a card happens to one of its entries.

## Main definitions

* `Combat.entries` -- all cards, with where they are to go.
* `Combat.IsInstance`, `Combat.copiesOf` -- the entries of one card.

## Main results

* `Combat.entries_pushInPlay`, `Combat.entries_of_takeInPlay?` -- a card comes into play and leaves
  it.
* `Combat.entries_modifyCard` -- a card is changed.
-/

namespace CardCombat

/-- A card that lies in a pile, as one that nobody has sent anywhere. -/
def ActiveCard.lying (card : Card) : ActiveCard := { card }

theorem ActiveCard.returns_lying (card : Card) (u : CardUid) :
    (lying card).returns u = (card.uid == u) := Bool.and_true _

namespace Combat

variable {combat combat' : Combat} {uid u : CardUid} {card found : Card}
  {entry entry' : ActiveCard} {others : List ActiveCard}

/-- All cards, those in the piles and those in play. -/
def entries (combat : Combat) : List ActiveCard :=
  combat.piles.cards.map .lying ++ combat.inPlay

/-- The card is an instance of the one with a number, wherever it is and wherever it is to go. -/
def IsInstance (combat : Combat) (u : CardUid) (card : Card) : Prop :=
  card.uid = u ∧ ∃ entry ∈ combat.entries, entry.card = card

/-- The copies of a card, which are in a pile or are to come into one. -/
def copiesOf (combat : Combat) (u : CardUid) : List Card :=
  (combat.entries.filter (·.returns u)).map (·.card)

/-- What lies in the piles is a copy. -/
theorem mem_copiesOf_of_has (h : combat.piles.Has card) : card ∈ combat.copiesOf card.uid := by
  have hmem : .lying card ∈ combat.entries :=
    List.mem_append_left _ (List.mem_map_of_mem (Piles.has_iff.mp h))
  have hreturns : (ActiveCard.lying card).returns card.uid = true := by
    rw [ActiveCard.returns_lying, beq_self_eq_true]
  exact List.mem_map.mpr ⟨_, List.mem_filter.mpr ⟨hmem, hreturns⟩, rfl⟩

/-- Between two calls the instances are what lies in the piles. -/
theorem isInstance_iff_of_inPlay (h : combat.inPlay = []) :
    combat.IsInstance u card ↔ card.uid = u ∧ combat.piles.Has card := by
  unfold IsInstance entries
  rw [h, List.append_nil, Piles.has_iff]
  refine and_congr_right fun _ => ⟨?_, fun hmem => ⟨.lying card, List.mem_map_of_mem hmem, rfl⟩⟩
  rintro ⟨entry, hentry, rfl⟩
  obtain ⟨card, hmem, rfl⟩ := List.mem_map.mp hentry
  exact hmem

/-- A copy is an instance. -/
theorem isInstance_of_mem_copiesOf (h : card ∈ combat.copiesOf u) : combat.IsInstance u card := by
  obtain ⟨entry, hmem, rfl⟩ := List.mem_map.mp h
  obtain ⟨hmem, hreturns⟩ := List.mem_filter.mp hmem
  exact ⟨eq_of_beq (Bool.and_eq_true_iff.mp hreturns).1, entry, hmem, rfl⟩

/-- Between two calls the copies are what lies in the piles. -/
theorem copiesOf_of_inPlay (h : combat.inPlay = []) :
    combat.copiesOf u = combat.piles.cards.filter (·.uid == u) := by
  have hlies : (fun entry => entry.returns u) ∘ ActiveCard.lying = fun card => card.uid == u :=
    funext fun card => ActiveCard.returns_lying card u
  unfold copiesOf entries
  rw [h, List.append_nil, List.filter_map, hlies, List.map_map]
  exact List.map_id _

/-! ## Entries that are replaced -/

/-- Where there are fewer entries there are no more copies. -/
theorem copiesOf_subperm (h : combat'.entries.Subperm combat.entries) (u : CardUid) :
    (combat'.copiesOf u).Subperm (combat.copiesOf u) := by
  obtain ⟨part, hperm, hsub⟩ := h.filter (·.returns u)
  exact ⟨part.map (·.card), hperm.map _, hsub.map _⟩

/-- An entry with another number is no copy. -/
theorem copiesOf_of_cons_ne (h : combat.entries.Perm (entry :: others))
    (hu : entry.returns u = false) :
    (combat.copiesOf u).Perm ((others.filter (·.returns u)).map (·.card)) := by
  have hfilter := (h.filter (·.returns u)).map (·.card)
  rwa [List.filter_cons_of_neg (by simp [hu])] at hfilter

theorem copiesOf_of_cons (h : combat.entries.Perm (entry :: others))
    (hu : entry.returns u = true) :
    (combat.copiesOf u).Perm (entry.card :: (others.filter (·.returns u)).map (·.card)) := by
  have hfilter := (h.filter (·.returns u)).map (·.card)
  rwa [List.filter_cons_of_pos hu] at hfilter

/-- An entry that holds the same card afterwards is no other copy. -/
theorem copiesOf_subperm_of_replaced (hbefore : combat.entries.Perm (entry :: others))
    (hafter : combat'.entries.Perm (entry' :: others)) (hcard : entry'.card = entry.card)
    (hreturns : entry'.returns u = true → entry.returns u = true) :
    (combat'.copiesOf u).Subperm (combat.copiesOf u) := by
  cases hafterwards : entry'.returns u with
  | true =>
      have hperm := (copiesOf_of_cons hafter hafterwards).trans
        (hcard ▸ (copiesOf_of_cons hbefore (hreturns hafterwards)).symm)
      exact hperm.subperm
  | false =>
      refine (copiesOf_of_cons_ne hafter hafterwards).subperm.trans ?_
      have hsub := ((List.sublist_cons_self entry others).filter (·.returns u)).map (·.card)
      exact hsub.subperm.trans ((hbefore.filter _).map _).symm.subperm

/-! ## Piles -/

theorem entries_withPiles {piles : Piles} (h : piles.cards.Perm combat.piles.cards) :
    ({ combat with piles } : Combat).entries.Perm combat.entries :=
  (h.map _).append_right _

theorem entries_withPiles_cons {piles : Piles}
    (h : piles.cards.Perm (card :: combat.piles.cards)) :
    ({ combat with piles } : Combat).entries.Perm (.lying card :: combat.entries) :=
  (h.map _).append_right _

theorem entries_of_withPiles_cons {piles : Piles}
    (h : combat.piles.cards.Perm (card :: piles.cards)) :
    combat.entries.Perm (.lying card :: ({ combat with piles } : Combat).entries) :=
  (h.map _).append_right _

/-! ## Cards in play -/

theorem entries_pushInPlay :
    (combat.pushInPlay card).entries.Perm (.lying card :: combat.entries) := by
  unfold entries pushInPlay
  rw [← List.append_assoc]
  exact List.perm_append_singleton _ _

theorem entries_of_takeInPlay? (h : combat.takeInPlay? uid = some (entry, combat')) :
    combat.entries.Perm (entry :: combat'.entries) := by
  have hplay := (perm_of_takeInPlay? h).2
  unfold entries
  rw [(takeInPlay?_aside h).1]
  exact (hplay.append_left _).trans List.perm_middle

/-- The entry of a card in play is changed. -/
theorem entries_modifyInPlay {change : ActiveCard → ActiveCard}
    (hf : combat.findInPlay? uid = some entry) :
    ∃ others, combat.entries.Perm (entry :: others) ∧
      (combat.modifyInPlay uid change).entries.Perm (change entry :: others) := by
  obtain ⟨-, others, hbefore, hafter⟩ := @perm_modifyInPlay combat uid entry change hf
  refine ⟨combat.piles.cards.map .lying ++ others, ?_, ?_⟩
  · exact (hbefore.append_left _).trans List.perm_middle
  · exact (hafter.append_left _).trans List.perm_middle

/-! ## Cards anywhere -/

/-- **A card that is changed** takes the place of the one that its number has meant, and all others
stay. -/
theorem entries_modifyCard {change : Card → Card} (hf : combat.card? uid = some found) :
    ∃ entry others, entry.card = found ∧
      (combat.findInPlay? uid).bind (·.route) = entry.route ∧
        combat.entries.Perm (entry :: others) ∧
          (combat.modifyCard uid change).entries.Perm
            ({ entry with card := change found } :: others) := by
  unfold card? at hf
  unfold modifyCard
  cases hplay : combat.findInPlay? uid with
  | some entry =>
      rw [hplay] at hf
      obtain rfl : entry.card = found := Option.some.inj hf
      obtain ⟨others, hbefore, hafter⟩ := @entries_modifyInPlay combat uid entry
        (fun entry => { entry with card := change entry.card }) hplay
      exact ⟨entry, others, rfl, rfl, hbefore, hafter⟩
  | none =>
      rw [hplay] at hf
      obtain ⟨others, hbefore, hafter⟩ := @Piles.perm_modify combat.piles uid change found hf
      refine ⟨.lying found, others.map .lying ++ combat.inPlay, rfl, rfl, ?_, ?_⟩
      · exact (hbefore.map _).append_right _
      · exact (hafter.map _).append_right _

end Combat

end CardCombat
