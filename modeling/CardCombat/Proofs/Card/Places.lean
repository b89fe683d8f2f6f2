import CardCombat.Proofs.Card.Piles

/-!
# Where a card lies

How often a card lies in each single pile, and how that changes when a card is taken out of a pile
and put under another one. A card that lies in the piles at most once lies where it is found.

## Main results

* `Piles.countIn_of_takeFrom?`, `Piles.countIn_add` -- a card is taken, and put under a pile.
* `Piles.locate?_eq_some_iff` -- where a card is found.
-/

namespace CardCombat.Piles

variable {piles piles' rest : Piles} {pile source other : Pile} {card : Card} {uid u : CardUid}

/-! ## Finding -/

theorem contains_iff : piles.contains pile u ↔ 0 < countIn u (piles.get pile) := by
  unfold contains countIn
  rw [List.count_pos_iff, List.any_eq_true, List.mem_map]
  simp only [beq_iff_eq]

theorem countIn_get_le_count (pile : Pile) : countIn u (piles.get pile) ≤ piles.count u := by
  rw [count_eq]
  cases pile <;> unfold get <;> dsimp only <;> omega

/-- A card that lies in two piles lies there more than once. -/
theorem eq_of_countIn_pos (hone : piles.count u ≤ 1) (h : 0 < countIn u (piles.get pile))
    (h' : 0 < countIn u (piles.get other)) : pile = other := by
  rw [count_eq] at hone
  cases pile <;> cases other <;> first | rfl | (unfold get at h h'; dsimp only at h h'; omega)

theorem contains_of_locate? (h : piles.locate? u = some pile) : piles.contains pile u = true :=
  @List.find?_some _ (piles.contains · u) pile _ h

theorem countIn_pos_of_locate? (h : piles.locate? u = some pile) :
    0 < countIn u (piles.get pile) :=
  contains_iff.mp (contains_of_locate? h)

theorem locate?_eq_none_iff : piles.locate? u = none ↔ piles.count u = 0 := by
  constructor
  · intro h
    have hnone (pile : Pile) : countIn u (piles.get pile) = 0 := by
      have hcontains := List.find?_eq_none.mp h pile (by cases pile <;> decide)
      rw [contains_iff] at hcontains
      omega
    have hhand := hnone .hand
    have hdraw := hnone .drawPile
    have hdiscard := hnone .discardPile
    have hexhaust := hnone .exhaustPile
    unfold get at hhand hdraw hdiscard hexhaust
    dsimp only at hhand hdraw hdiscard hexhaust
    rw [count_eq]
    omega
  · intro h
    refine List.find?_eq_none.mpr fun pile _ => ?_
    have hle := @countIn_get_le_count piles u pile
    rw [contains_iff]
    omega

/-- **A card that lies in the piles at most once** is found in the pile in which it lies. -/
theorem locate?_eq_some_iff (hone : piles.count u ≤ 1) :
    piles.locate? u = some pile ↔ 0 < countIn u (piles.get pile) := by
  refine ⟨countIn_pos_of_locate?, fun h => ?_⟩
  cases hlocate : piles.locate? u with
  | none =>
      have hle := @countIn_get_le_count piles u pile
      have hzero := locate?_eq_none_iff.mp hlocate
      omega
  | some found => rw [eq_of_countIn_pos hone (countIn_pos_of_locate? hlocate) h]

/-- Where a card is found depends on nothing but how often it lies in each pile. -/
theorem locate?_congr (h : ∀ pile, countIn u (piles'.get pile) = countIn u (piles.get pile)) :
    piles'.locate? u = piles.locate? u := by
  have hcontains (pile : Pile) : piles'.contains pile u = piles.contains pile u := by
    rw [Bool.eq_iff_iff, contains_iff, contains_iff, h]
  unfold locate?
  simp only [hcontains]

/-! ## Taking -/

theorem locate?_of_take? (h : piles.take? uid = some (source, card, rest)) :
    piles.locate? uid = some source := by
  obtain ⟨found, hfound, h⟩ := Option.bind_eq_some_iff.mp h
  obtain ⟨taken, -, h⟩ := Option.bind_eq_some_iff.mp h
  rw [hfound, (Prod.mk.inj (Option.some.inj h)).1]

theorem takeFrom?_of_take? (h : piles.take? uid = some (source, card, rest)) :
    piles.takeFrom? source uid = some (card, rest) := by
  obtain ⟨found, -, h⟩ := Option.bind_eq_some_iff.mp h
  obtain ⟨⟨taken, others⟩, htake, h⟩ := Option.bind_eq_some_iff.mp h
  obtain ⟨rfl, heq⟩ := Prod.mk.inj (Option.some.inj h)
  obtain ⟨rfl, rfl⟩ := Prod.mk.inj heq
  exact htake

theorem take?_eq_none_iff : piles.take? uid = none ↔ piles.locate? uid = none := by
  refine ⟨fun h => ?_, fun h => by rw [take?, h]; rfl⟩
  cases hlocate : piles.locate? uid with
  | none => rfl
  | some pile =>
      obtain ⟨card, hfind⟩ := Option.isSome_iff_exists.mp
        (List.find?_isSome.mpr (List.any_eq_true.mp (contains_of_locate? hlocate)))
      rw [take?, hlocate, Option.bind_eq_bind, Option.bind_some, takeFrom?, hfind] at h
      exact absurd h nofun

/-- What was taken out of a pile was there once more, and nothing else has changed. -/
theorem countIn_of_takeFrom? (h : piles.takeFrom? source uid = some (card, rest)) (pile : Pile) :
    countIn u (piles.get pile) =
      countIn u (rest.get pile) + if pile = source ∧ uid = u then 1 else 0 := by
  obtain ⟨found, hf, h⟩ := Option.bind_eq_some_iff.mp h
  obtain ⟨rfl, rfl⟩ := Prod.mk.inj (Option.some.inj h)
  by_cases hpile : pile = source
  · subst hpile
    obtain ⟨hfound, hperm⟩ := perm_eraseP hf
    have hid : found.uid = uid := eq_of_beq hfound
    rw [countIn_perm hperm, countIn_cons, hid, get_set_self]
    simp only [true_and]
  · rw [get_set_ne _ _ hpile, if_neg fun h => hpile h.1, Nat.add_zero]

theorem size_of_takeFrom? (h : piles.takeFrom? source uid = some (card, rest)) (pile : Pile) :
    piles.size pile = rest.size pile + if pile = source then 1 else 0 := by
  obtain ⟨found, hf, h⟩ := Option.bind_eq_some_iff.mp h
  obtain ⟨rfl, rfl⟩ := Prod.mk.inj (Option.some.inj h)
  unfold size
  by_cases hpile : pile = source
  · subst hpile
    rw [get_set_self, if_pos rfl, (perm_eraseP hf).2.length_eq, List.length_cons]
  · rw [get_set_ne _ _ hpile, if_neg hpile, Nat.add_zero]

/-! ## Putting -/

/-- What was put under a pile is there once more, and nothing else has changed. -/
theorem countIn_add (other : Pile) :
    countIn u ((piles.set pile (piles.get pile ++ [card])).get other) =
      countIn u (piles.get other) + if other = pile ∧ card.uid = u then 1 else 0 := by
  by_cases hpile : other = pile
  · subst hpile
    rw [get_set_self, countIn_append, countIn_singleton]
    simp only [true_and]
  · rw [get_set_ne _ _ hpile, if_neg fun h => hpile h.1, Nat.add_zero]

theorem size_add (other : Pile) : (piles.set pile (piles.get pile ++ [card])).size other =
    piles.size other + if other = pile then 1 else 0 := by
  unfold size
  by_cases hpile : other = pile
  · subst hpile
    rw [get_set_self, List.length_append, List.length_singleton, if_pos rfl]
  · rw [get_set_ne _ _ hpile, if_neg hpile, Nat.add_zero]

/-- What was put into a pile is there once more, wherever in the pile, and nothing else has
changed. -/
theorem countIn_put {placement : Placement} {rng : Rng} (other : Pile) :
    countIn u (((piles.put pile card placement).run rng).1.get other) =
      countIn u (piles.get other) + if other = pile ∧ card.uid = u then 1 else 0 := by
  have key {cards : List Card} (hc : cards.Perm (card :: piles.get pile)) :
      countIn u ((piles.set pile cards).get other) =
        countIn u (piles.get other) + if other = pile ∧ card.uid = u then 1 else 0 := by
    by_cases hpile : other = pile
    · subst hpile
      rw [get_set_self, countIn_perm hc, countIn_cons]
      simp only [true_and]
    · rw [get_set_ne _ _ hpile, if_neg fun h => hpile h.1, Nat.add_zero]
  cases placement with
  | top => exact key (List.Perm.refl _)
  | bottom => exact key (List.perm_append_singleton card _)
  | random =>
      apply key
      have hlt := @Draw.index_getD_lt rng (piles.size pile + 1) (Nat.succ_pos _)
      exact List.perm_insertIdx _ _ (Nat.le_of_lt_succ hlt)

/-- What was put into a pile adds to that pile alone. -/
theorem size_put {placement : Placement} {rng : Rng} (other : Pile) :
    ((piles.put pile card placement).run rng).1.size other =
      piles.size other + if other = pile then 1 else 0 := by
  have key {cards : List Card} (hc : cards.length = (piles.get pile).length + 1) :
      (piles.set pile cards).size other = piles.size other + if other = pile then 1 else 0 := by
    unfold size
    by_cases hpile : other = pile
    · subst hpile
      rw [get_set_self, if_pos rfl, hc]
    · rw [get_set_ne _ _ hpile, if_neg hpile, Nat.add_zero]
  cases placement with
  | top => exact key List.length_cons
  | bottom => exact key (by rw [List.length_append, List.length_singleton])
  | random =>
      apply key
      have hlt := @Draw.index_getD_lt rng (piles.size pile + 1) (Nat.succ_pos _)
      exact (List.perm_insertIdx _ _ (Nat.le_of_lt_succ hlt)).length_eq.trans List.length_cons

/-- A card that is moved under a pile is taken and put there. -/
theorem move_bottom_eq {rng rng' : Rng}
    (h : (piles.move uid pile .bottom).run rng = ((some source, piles'), rng')) :
    ∃ card rest, piles.take? uid = some (source, card, rest) ∧
      rest.set pile (rest.get pile ++ [card]) = piles' := by
  unfold move at h
  cases htake : piles.take? uid with
  | none =>
      rw [htake] at h
      exact absurd (Prod.mk.inj (Prod.mk.inj h).1).1 nofun
  | some taken =>
      obtain ⟨found, card, rest⟩ := taken
      rw [htake] at h
      obtain ⟨heq, -⟩ := Prod.mk.inj h
      obtain ⟨hsource, hpiles⟩ := Prod.mk.inj heq
      obtain rfl := Option.some.inj hsource
      exact ⟨card, rest, rfl, hpiles⟩

/-! ## Rearranging and changing -/

theorem popDraw?_eq_some_iff : piles.popDraw? = some (card, piles') ↔
    ∃ rest, piles.drawPile = card :: rest ∧ { piles with drawPile := rest } = piles' := by
  unfold popDraw?
  cases hdraw : piles.drawPile with
  | nil => exact ⟨nofun, fun ⟨_, h, _⟩ => absurd h nofun⟩
  | cons top rest =>
      constructor
      · intro h
        obtain ⟨rfl, hpiles⟩ := Prod.mk.inj (Option.some.inj h)
        exact ⟨rest, rfl, hpiles⟩
      · rintro ⟨_, h, rfl⟩
        obtain ⟨rfl, rfl⟩ := List.cons.inj h
        rfl

/-- Only the draw pile is touched when its top card is taken. -/
theorem get_of_popDraw? (h : piles.popDraw? = some (card, piles')) (pile : Pile)
    (hpile : pile ≠ .drawPile) : piles'.get pile = piles.get pile := by
  obtain ⟨rest, -, rfl⟩ := popDraw?_eq_some_iff.mp h
  exact get_set_ne piles rest hpile

theorem hand_of_popDraw? (h : piles.popDraw? = some (card, piles')) : piles'.hand = piles.hand :=
  get_of_popDraw? h .hand (by decide)

/-- Only the pile is touched that is rearranged. -/
theorem get_of_shuffle {rng rng' : Rng} (h : (piles.shuffle pile).run rng = (piles', rng'))
    (other : Pile) (hother : other ≠ pile) : piles'.get other = piles.get other := by
  obtain rfl : ((piles.shuffle pile).run rng).1 = piles' := congrArg Prod.fst h
  exact get_set_ne piles _ hother

/-- Only the draw pile and the discard pile are touched when they are put together. -/
theorem get_of_reshuffle {moved : Nat} {rng rng' : Rng}
    (h : piles.reshuffle.run rng = ((moved, piles'), rng')) (pile : Pile)
    (hdraw : pile ≠ .drawPile) (hdiscard : pile ≠ .discardPile) :
    piles'.get pile = piles.get pile := by
  unfold reshuffle at h
  split at h
  · obtain ⟨heq, -⟩ := Prod.mk.inj h
    rw [(Prod.mk.inj heq).2]
  · obtain ⟨heq, -⟩ := Prod.mk.inj h
    obtain ⟨-, rfl⟩ := Prod.mk.inj heq
    refine (get_of_shuffle rfl pile hdraw).trans ?_
    cases pile with
    | hand | exhaustPile => rfl
    | drawPile => exact absurd rfl hdraw
    | discardPile => exact absurd rfl hdiscard

theorem hand_of_reshuffle {moved : Nat} {rng rng' : Rng}
    (h : piles.reshuffle.run rng = ((moved, piles'), rng')) : piles'.hand = piles.hand :=
  get_of_reshuffle h .hand (by decide) (by decide)

/-- A card that is changed, and keeps its number, stays in its pile. -/
theorem countIn_modify {change : Card → Card}
    (hc : ∀ card, card.uid = uid → (change card).uid = uid) (other : Pile) :
    countIn u ((piles.modify uid change).get other) = countIn u (piles.get other) := by
  unfold modify
  split
  case h_1 pile _ =>
    by_cases hpile : other = pile
    · subst hpile
      rw [get_set_self, countIn, map_uid_modifyFirst hc, countIn]
    · rw [get_set_ne _ _ hpile]
  case h_2 => rfl

theorem length_modifyFirst {change : Card → Card} (cards : List Card) :
    (modifyFirst uid change cards).length = cards.length := by
  induction cards with
  | nil => rfl
  | cons card cards ih =>
      unfold modifyFirst
      split
      · rfl
      · rw [List.length_cons, List.length_cons, ih]

theorem size_modify {change : Card → Card} (other : Pile) :
    (piles.modify uid change).size other = piles.size other := by
  unfold modify
  split
  case h_1 pile _ =>
    unfold size
    by_cases hpile : other = pile
    · subst hpile
      rw [get_set_self, length_modifyFirst]
    · rw [get_set_ne _ _ hpile]
  case h_2 => rfl

end CardCombat.Piles
