import CardCombat.Combat.Chronicle
import CardCombat.Proofs.Card.Piles

/-!
# Cards in circulation

While a card is being played it lies in no pile, but when its play is over it comes into one, unless
it was banished or was put somewhere already. So the copies of a card are those that lie in the
piles and those plays of it that still lead into a pile. There is one copy of a card, and everything
that an effect does to the card is meant to keep it at that.

What an effect says about a card in play counts for the play, even when the card has already come
into a pile from there. Saying once more where such a card goes brings a second copy of it about: it
is a revival. A card that is banished or taken out of its pile is lost.

## Main definitions

* `Combat.copies` -- the copies of a card.
* `Deed.revives`, `Deed.loses` -- the deeds by which copies come about and are lost.

## Main results

* `Combat.copies_route` -- what the route of a card in play means for its copies.
-/

namespace CardCombat

/-- Whether a play with this route brings its card into a pile when it is over. -/
def Route.leadsToPile : Option Route → Bool
  | some .banished | some .elsewhere => false
  | none | some .discard | some .exhaust => true

namespace Deed

/-- A card that had left its play already is moved once more. -/
def revives (u : CardUid) : Deed → Bool
  | .routed card before after =>
    card == u && !Route.leadsToPile before && decide (after ≠ .banished)
  | _ => false

/-- A card is banished that was to come into a pile, or lay in one. -/
def loses (u : CardUid) : Deed → Bool
  | .routed card before after =>
    card == u && Route.leadsToPile before && decide (after = .banished)
  | .removed card => card == u
  | _ => false

end Deed

namespace ActiveCard

/-- Whether this is a play of a card that brings it into a pile. -/
def returns (u : CardUid) (entry : ActiveCard) : Bool :=
  entry.card.uid == u && Route.leadsToPile entry.route

end ActiveCard

namespace Combat

variable {combat combat' : Combat} {uid u : CardUid} {entry : ActiveCard} {card : Card}

/-- The numbers of the cards in play, the one played last behind the others. -/
def playing (combat : Combat) : List CardUid := combat.inPlay.map (·.card.uid)

/-- The copies of a card. -/
def copies (combat : Combat) (u : CardUid) : Nat :=
  combat.piles.count u + combat.inPlay.countP (·.returns u)

/-- The card is somewhere, in a pile or in play. -/
def Holds (combat : Combat) (u : CardUid) : Prop := 0 < combat.piles.count u ∨ u ∈ combat.playing

/-! ## Changing what is in play -/

theorem perm_modifyFirstInPlay {entries : List ActiveCard} {change : ActiveCard → ActiveCard}
    (hf : entries.find? (·.card.uid == uid) = some entry) :
    (modifyFirstInPlay uid change entries).Perm
      (change entry :: entries.eraseP (·.card.uid == uid)) := by
  induction entries with
  | nil => exact absurd hf nofun
  | cons first entries ih =>
      unfold modifyFirstInPlay
      split
      case isTrue h =>
        rw [List.find?_cons_of_pos (by exact h)] at hf
        rw [List.eraseP_cons_of_pos (by exact h), Option.some.inj hf]
      case isFalse h =>
        rw [List.find?_cons_of_neg (by exact h)] at hf
        rw [List.eraseP_cons_of_neg (by exact h)]
        exact ((ih hf).cons first).trans (List.Perm.swap _ _ _)

/-- An entry that is changed takes the place of the one it was, and all others stay. -/
theorem perm_modifyInPlay {change : ActiveCard → ActiveCard}
    (hf : combat.findInPlay? uid = some entry) :
    entry.card.uid = uid ∧ ∃ others, combat.inPlay.Perm (entry :: others) ∧
      (combat.modifyInPlay uid change).inPlay.Perm (change entry :: others) := by
  obtain ⟨hid, hperm⟩ := Piles.perm_eraseP hf
  refine ⟨eq_of_beq hid, combat.inPlay.reverse.eraseP (·.card.uid == uid), ?_, ?_⟩
  · exact (List.reverse_perm _).symm.trans hperm
  · exact (List.reverse_perm _).trans (perm_modifyFirstInPlay hf)

/-- The entry of a play that is taken out makes up what was in play together with the others. -/
theorem perm_of_takeInPlay? (h : combat.takeInPlay? uid = some (entry, combat')) :
    entry.card.uid = uid ∧ combat.inPlay.Perm (entry :: combat'.inPlay) := by
  obtain ⟨found, hf, h⟩ := Option.bind_eq_some_iff.mp h
  obtain ⟨rfl, rfl⟩ := Prod.mk.inj (Option.some.inj h)
  obtain ⟨hfound, hperm⟩ := Piles.perm_eraseP hf
  refine ⟨eq_of_beq hfound, ?_⟩
  exact (List.reverse_perm _).symm.trans (hperm.trans ((List.reverse_perm _).symm.cons found))

theorem map_uid_modifyFirstInPlay {change : ActiveCard → ActiveCard}
    (hc : ∀ entry, entry.card.uid = uid → (change entry).card.uid = uid)
    (entries : List ActiveCard) :
    (modifyFirstInPlay uid change entries).map (·.card.uid) = entries.map (·.card.uid) := by
  induction entries with
  | nil => rfl
  | cons entry entries ih =>
      unfold modifyFirstInPlay
      split
      case isTrue h =>
        have hid : entry.card.uid = uid := eq_of_beq h
        rw [List.map_cons, List.map_cons, hc entry hid, hid]
      case isFalse h => rw [List.map_cons, List.map_cons, ih]

/-- The cards in play stay the same ones. -/
theorem playing_modifyInPlay {change : ActiveCard → ActiveCard}
    (hc : ∀ entry, entry.card.uid = uid → (change entry).card.uid = uid) :
    (combat.modifyInPlay uid change).playing = combat.playing := by
  unfold playing modifyInPlay
  rw [List.map_reverse, map_uid_modifyFirstInPlay hc, ← List.map_reverse, List.reverse_reverse]

/-- The play of a card is changed; the copies change as that play does. -/
theorem copies_modifyInPlay {change : ActiveCard → ActiveCard}
    (hf : combat.findInPlay? uid = some entry) :
    entry.card.uid = uid ∧
      (combat.modifyInPlay uid change).copies u + (entry.returns u).toNat =
        combat.copies u + ((change entry).returns u).toNat := by
  obtain ⟨hid, others, hbefore, hafter⟩ := @perm_modifyInPlay combat uid entry change hf
  refine ⟨hid, ?_⟩
  unfold copies
  rw [hbefore.countP_eq, hafter.countP_eq, List.countP_cons, List.countP_cons]
  show combat.piles.count u + _ + _ = _
  cases entry.returns u <;> cases (change entry).returns u <;> simp <;> omega

/-- **What the route of a card in play means for its copies**: one comes about by a revival, unless
it goes elsewhere, and one is lost when it is banished. -/
theorem copies_route (hf : combat.findInPlay? uid = some entry) (after : Route) :
    (combat.modifyInPlay uid fun entry => { entry with route := some after }).copies u +
        [Deed.routed uid entry.route after].countP (·.loses u) +
          (if after = .elsewhere ∧ uid = u then 1 else 0) =
      combat.copies u + [Deed.routed uid entry.route after].countP (·.revives u) := by
  obtain ⟨hid, hcount⟩ := @copies_modifyInPlay combat uid u entry
    (fun entry => { entry with route := some after }) hf
  unfold ActiveCard.returns at hcount
  simp only [hid] at hcount
  rw [List.countP_singleton, List.countP_singleton]
  unfold Deed.loses Deed.revives
  by_cases hu : uid = u
  · subst hu
    simp only [beq_self_eq_true, Bool.true_and, and_true] at hcount ⊢
    generalize entry.route = before at hcount ⊢
    rcases before with _ | before
    · cases after <;> simp [Route.leadsToPile] at hcount ⊢ <;> omega
    · cases before <;> cases after <;> simp [Route.leadsToPile] at hcount ⊢ <;> omega
  · have hne : (uid == u) = false := beq_eq_false_iff_ne.mpr hu
    simp only [hne, hu, Bool.false_and, and_false, if_false, Bool.toNat_false,
      Bool.false_eq_true] at hcount ⊢
    omega

/-! ## Opening and closing plays -/

/-- A play that has begun leads into a pile. -/
theorem copies_pushInPlay :
    (combat.pushInPlay card).copies u = combat.copies u + if card.uid = u then 1 else 0 := by
  unfold copies pushInPlay
  rw [List.countP_append, ← Nat.add_assoc]
  congr 1
  by_cases h : card.uid = u <;> simp [ActiveCard.returns, Route.leadsToPile, h]

theorem takeInPlay?_aside (h : combat.takeInPlay? uid = some (entry, combat')) :
    combat'.piles = combat.piles ∧ combat'.nextCardUid = combat.nextCardUid ∧
      combat'.pending = combat.pending := by
  unfold takeInPlay? at h
  obtain ⟨found, -, h⟩ := Option.bind_eq_some_iff.mp h
  obtain ⟨-, rfl⟩ := Prod.mk.inj (Option.some.inj h)
  exact ⟨rfl, rfl, rfl⟩

/-- A play that is over is taken out. -/
theorem copies_takeInPlay? (htake : combat.takeInPlay? uid = some (entry, combat')) :
    entry.card.uid = uid ∧ combat.copies u = combat'.copies u + (entry.returns u).toNat := by
  obtain ⟨hid, hperm⟩ := perm_of_takeInPlay? htake
  refine ⟨hid, ?_⟩
  unfold copies
  rw [(takeInPlay?_aside htake).1, hperm.countP_eq, List.countP_cons, Nat.add_assoc]
  cases entry.returns u <;> rfl

/-- The play that is over is the one that has begun last. -/
theorem playing_takeInPlay? {others : List CardUid} (hp : combat.playing = others ++ [uid])
    (h : combat.takeInPlay? uid = some (entry, combat')) : combat'.playing = others := by
  unfold takeInPlay? at h
  obtain ⟨found, hf, h⟩ := Option.bind_eq_some_iff.mp h
  obtain ⟨rfl, rfl⟩ := Prod.mk.inj (Option.some.inj h)
  obtain ⟨front, last, hsplit⟩ : ∃ front last, combat.inPlay = front ++ [last] := by
    rcases List.eq_nil_or_concat combat.inPlay with hnil | ⟨front, last, hlast⟩
    · rw [playing, hnil] at hp
      exact absurd hp.symm (by simp)
    · exact ⟨front, last, by simpa using hlast⟩
  unfold playing at hp ⊢
  rw [hsplit, List.map_append] at hp
  obtain ⟨hfront, hlast⟩ := List.append_inj' hp rfl
  have hid : last.card.uid = uid := (List.cons.inj hlast).1
  dsimp only
  rw [hsplit, List.reverse_append, List.reverse_singleton, List.singleton_append,
    List.eraseP_cons_of_pos (by simp [hid]), List.reverse_reverse]
  exact hfront

/-- Taking a play out brings no card into play. -/
theorem mem_playing_of_takeInPlay? (h : combat.takeInPlay? uid = some (entry, combat'))
    (hu : u ∈ combat'.playing) : u ∈ combat.playing := by
  obtain ⟨other, hmem, rfl⟩ := List.mem_map.mp hu
  have hbefore : other ∈ combat.inPlay :=
    (perm_of_takeInPlay? h).2.mem_iff.mpr (List.mem_cons_of_mem _ hmem)
  exact List.mem_map.mpr ⟨other, hbefore, rfl⟩

/-- There is a play to be taken out if the card is in play. -/
theorem takeInPlay?_isSome (h : uid ∈ combat.playing) : (combat.takeInPlay? uid).isSome := by
  obtain ⟨entry, hmem, hid⟩ := List.mem_map.mp h
  unfold takeInPlay? findInPlay?
  cases hf : combat.inPlay.reverse.find? (·.card.uid == uid) with
  | none =>
      have := List.find?_eq_none.mp hf entry (List.mem_reverse.mpr hmem)
      exact absurd (beq_iff_eq.mpr hid) this
  | some found => rfl

end Combat

end CardCombat
