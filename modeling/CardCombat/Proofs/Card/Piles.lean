import CardCombat.Card.Pile
import CardCombat.Proofs.Random.Draws

/-!
# Which cards lie in the piles, and how often

The cards of the four piles together, up to their order, and the number of times that a card is
among them: what is put somewhere is there once more, what is taken is there once less, and
rearranging changes nothing. A card that is changed takes the place of the one it was.

## Main results

* `Piles.perm_set`, `Piles.perm_set_set` -- a pile is replaced.
* `Piles.perm_put`, `Piles.perm_of_take?`, `Piles.perm_of_move` -- cards come and go.
* `Piles.perm_modify` -- a card is changed.
* `Piles.count_put`, `Piles.count_of_take?`, `Piles.count_of_move` -- how often a card is there.
-/

namespace CardCombat.Piles

variable {piles piles' : Piles} {pile : Pile} {card : Card} {uid u : CardUid} {rng rng' : Rng}

/-- All cards in the piles. -/
def cards (piles : Piles) : List Card :=
  piles.hand ++ piles.drawPile ++ piles.discardPile ++ piles.exhaustPile

/-- The numbers of all cards in the piles. -/
def uids (piles : Piles) : List CardUid :=
  (piles.hand ++ piles.drawPile ++ piles.discardPile ++ piles.exhaustPile).map (·.uid)

/-- How often a number occurs among cards. -/
def countIn (u : CardUid) (cards : List Card) : Nat := (cards.map (·.uid)).count u

/-- How often a number occurs in the piles. -/
def count (piles : Piles) (u : CardUid) : Nat := piles.uids.count u

/-! ## Counting -/

theorem countIn_nil : countIn u [] = 0 := rfl

theorem countIn_cons (cards : List Card) :
    countIn u (card :: cards) = countIn u cards + if card.uid = u then 1 else 0 := by
  unfold countIn
  rw [List.map_cons, List.count_cons]
  congr 1
  simp

theorem countIn_append (xs ys : List Card) :
    countIn u (xs ++ ys) = countIn u xs + countIn u ys := by
  rw [countIn, List.map_append, List.count_append]
  rfl

theorem countIn_singleton : countIn u [card] = if card.uid = u then 1 else 0 := by
  rw [countIn_cons, countIn_nil, Nat.zero_add]

theorem countIn_perm {xs ys : List Card} (h : xs.Perm ys) : countIn u xs = countIn u ys :=
  (h.map _).count_eq u

theorem count_eq : piles.count u = countIn u piles.hand + countIn u piles.drawPile +
    countIn u piles.discardPile + countIn u piles.exhaustPile := by
  rw [count, uids]
  exact ((countIn_append _ _).trans (congrArg (· + _) ((countIn_append _ _).trans
    (congrArg (· + _) (countIn_append _ _)))))

/-- A card that lies once in the piles is the only one with its number. -/
theorem filter_uid_eq (hmem : card ∈ piles.cards) (hone : piles.count card.uid = 1) :
    piles.cards.filter (·.uid == card.uid) = [card] := by
  have hlength : (piles.cards.filter (·.uid == card.uid)).length = 1 := by
    rw [← List.countP_eq_length_filter, ← hone, count, List.count, uids, List.countP_map]
    rfl
  obtain ⟨only, honly⟩ := List.length_eq_one_iff.mp hlength
  have hthere : card ∈ piles.cards.filter (·.uid == card.uid) :=
    List.mem_filter.mpr ⟨hmem, beq_self_eq_true _⟩
  rw [honly] at hthere ⊢
  rw [List.mem_singleton.mp hthere]

theorem count_pos_iff : 0 < piles.count u ↔ u ∈ piles.uids := List.count_pos_iff

/-! ## The cards of the piles

Which cards there are in the piles, without regard to their order. -/

/-- One pile is replaced. -/
theorem perm_set (cards : List Card) :
    ((piles.set pile cards).cards ++ piles.get pile).Perm (piles.cards ++ cards) := by
  refine List.perm_iff_count.mpr fun other => ?_
  unfold Piles.cards
  cases pile <;> simp only [set, get, List.count_append] <;> omega

/-- A pile is replaced by one that holds one more card. -/
theorem perm_set_cons {cards : List Card} (hperm : cards.Perm (card :: piles.get pile)) :
    (piles.set pile cards).cards.Perm (card :: piles.cards) := by
  have hcards : ((piles.set pile cards).cards ++ piles.get pile).Perm
      (card :: piles.cards ++ piles.get pile) :=
    (perm_set cards).trans ((hperm.append_left _).trans List.perm_middle)
  exact (List.perm_append_right_iff _).mp hcards

theorem set_get (piles : Piles) (pile : Pile) : piles.set pile (piles.get pile) = piles := by
  cases pile <;> rfl

/-- A pile is replaced by one of two that differ by a card. -/
theorem perm_set_set {cards rest : List Card} (hperm : cards.Perm (card :: rest)) :
    (piles.set pile cards).cards.Perm (card :: (piles.set pile rest).cards) := by
  have hset : (piles.set pile rest).set pile cards = piles.set pile cards := by
    cases pile <;> rfl
  have hback := @perm_set_cons (piles.set pile rest) pile card cards (by rwa [get_set_self])
  rwa [hset] at hback

/-- What was put into a pile is there, wherever in the pile, besides all that was there. -/
theorem perm_put {placement : Placement} :
    ((piles.put pile card placement).run rng).1.cards.Perm (card :: piles.cards) := by
  cases placement with
  | top => exact perm_set_cons (.refl _)
  | bottom => exact perm_set_cons (List.perm_append_singleton _ _)
  | random =>
      have hlt := @Draw.index_getD_lt rng (piles.size pile + 1) (Nat.succ_pos _)
      exact perm_set_cons (List.perm_insertIdx card (piles.get pile) (Nat.le_of_lt_succ hlt))

/-- What is taken out of a list makes up the list together with the rest. -/
theorem perm_eraseP {α : Type} {p : α → Bool} {xs : List α} {x : α} (hf : xs.find? p = some x) :
    p x = true ∧ xs.Perm (x :: xs.eraseP p) := by
  obtain ⟨hx, front, back, rfl, hfront⟩ := List.find?_eq_some_iff_append.mp hf
  have hskip : ∀ y ∈ front, ¬p y = true := by
    intro y hy
    simpa using hfront y hy
  rw [List.eraseP_append_right _ hskip, List.eraseP_cons_of_pos hx]
  exact ⟨hx, List.perm_middle⟩

/-- What was taken from a pile and what is left are what was there. -/
theorem perm_of_takeFrom? (h : piles.takeFrom? pile uid = some (card, piles')) :
    card.uid = uid ∧ piles.cards.Perm (card :: piles'.cards) := by
  obtain ⟨found, hf, h⟩ := Option.bind_eq_some_iff.mp h
  obtain ⟨rfl, rfl⟩ := Prod.mk.inj (Option.some.inj h)
  obtain ⟨hfound, hperm⟩ := perm_eraseP hf
  have hback := @perm_set_set piles pile found _ _ hperm
  rw [set_get] at hback
  exact ⟨eq_of_beq hfound, hback⟩

theorem perm_of_take? {source : Pile} (h : piles.take? uid = some (source, card, piles')) :
    card.uid = uid ∧ piles.cards.Perm (card :: piles'.cards) := by
  obtain ⟨found, -, h⟩ := Option.bind_eq_some_iff.mp h
  obtain ⟨⟨taken, rest⟩, htake, h⟩ := Option.bind_eq_some_iff.mp h
  obtain ⟨-, heq⟩ := Prod.mk.inj (Option.some.inj h)
  obtain ⟨rfl, rfl⟩ := Prod.mk.inj heq
  exact perm_of_takeFrom? htake

theorem perm_of_popDraw? (h : piles.popDraw? = some (card, piles')) :
    piles.cards.Perm (card :: piles'.cards) := by
  unfold popDraw? at h
  split at h
  case h_1 => exact absurd h nofun
  case h_2 first rest hd =>
    obtain ⟨rfl, rfl⟩ := Prod.mk.inj (Option.some.inj h)
    have hback := @perm_set_cons { piles with drawPile := rest } .drawPile first
      (first :: rest) (.refl _)
    rwa [← hd] at hback

/-- A card that is moved stays in the piles. -/
theorem perm_of_move {placement : Placement} {source : Option Pile}
    (h : (piles.move uid pile placement).run rng = ((source, piles'), rng')) :
    piles'.cards.Perm piles.cards := by
  unfold move at h
  cases htake : piles.take? uid with
  | none =>
      rw [htake] at h
      obtain ⟨heq, -⟩ := Prod.mk.inj h
      rw [(Prod.mk.inj heq).2]
  | some taken =>
      obtain ⟨source, card, rest⟩ := taken
      rw [htake] at h
      obtain ⟨heq, -⟩ := Prod.mk.inj h
      obtain ⟨-, rfl⟩ := Prod.mk.inj heq
      exact perm_put.trans (perm_of_take? htake).2.symm

theorem perm_of_shuffle (h : (piles.shuffle pile).run rng = (piles', rng')) :
    piles'.cards.Perm piles.cards := by
  obtain rfl : ((piles.shuffle pile).run rng).1 = piles' := congrArg Prod.fst h
  have hset := @perm_set piles pile ((Draw.shuffle (piles.get pile)).run rng).1
  exact (List.perm_append_right_iff _).mp
    (hset.trans ((Draw.shuffle_perm (piles.get pile)).append_left _))

theorem perm_of_reshuffle {moved : Nat}
    (h : piles.reshuffle.run rng = ((moved, piles'), rng')) : piles'.cards.Perm piles.cards := by
  unfold reshuffle at h
  split at h
  · obtain ⟨heq, -⟩ := Prod.mk.inj h
    rw [(Prod.mk.inj heq).2]
  · obtain ⟨heq, -⟩ := Prod.mk.inj h
    obtain ⟨-, rfl⟩ := Prod.mk.inj heq
    refine (perm_of_shuffle rfl).trans (List.Perm.of_eq ?_)
    unfold cards
    simp only [List.append_assoc, List.append_nil]

/-! ## How often a card lies in the piles -/

/-- A card was put under a pile. -/
theorem count_add : (piles.set pile (piles.get pile ++ [card])).count u =
    piles.count u + if card.uid = u then 1 else 0 :=
  (countIn_perm (perm_set_cons (List.perm_append_singleton _ _))).trans (countIn_cons _)

/-- What was put into a pile is there once more. -/
theorem count_put {placement : Placement} : ((piles.put pile card placement).run rng).1.count u =
    piles.count u + if card.uid = u then 1 else 0 :=
  (countIn_perm perm_put).trans (countIn_cons _)

/-- What was taken from a pile was there once more. -/
theorem count_of_takeFrom? (h : piles.takeFrom? pile uid = some (card, piles')) :
    card.uid = uid ∧ piles.count u = piles'.count u + if uid = u then 1 else 0 := by
  obtain ⟨rfl, hperm⟩ := perm_of_takeFrom? h
  exact ⟨rfl, (countIn_perm hperm).trans (countIn_cons _)⟩

theorem count_of_take? {source : Pile} (h : piles.take? uid = some (source, card, piles')) :
    card.uid = uid ∧ piles.count u = piles'.count u + if uid = u then 1 else 0 := by
  obtain ⟨rfl, hperm⟩ := perm_of_take? h
  exact ⟨rfl, (countIn_perm hperm).trans (countIn_cons _)⟩

theorem count_of_popDraw? (h : piles.popDraw? = some (card, piles')) :
    piles.count u = piles'.count u + if card.uid = u then 1 else 0 :=
  (countIn_perm (perm_of_popDraw? h)).trans (countIn_cons _)

theorem count_of_move {placement : Placement} {source : Option Pile}
    (h : (piles.move uid pile placement).run rng = ((source, piles'), rng')) :
    piles'.count u = piles.count u :=
  countIn_perm (perm_of_move h)

theorem count_of_shuffle (h : (piles.shuffle pile).run rng = (piles', rng')) :
    piles'.count u = piles.count u :=
  countIn_perm (perm_of_shuffle h)

theorem count_of_reshuffle {moved : Nat}
    (h : piles.reshuffle.run rng = ((moved, piles'), rng')) : piles'.count u = piles.count u :=
  countIn_perm (perm_of_reshuffle h)

/-! ## Changing -/

theorem map_uid_modifyFirst {change : Card → Card}
    (hc : ∀ card, card.uid = uid → (change card).uid = uid)
    (cards : List Card) : (modifyFirst uid change cards).map (·.uid) = cards.map (·.uid) := by
  induction cards with
  | nil => rfl
  | cons card cards ih =>
      unfold modifyFirst
      split
      case isTrue h =>
        have hid : card.uid = uid := eq_of_beq h
        rw [List.map_cons, List.map_cons, hc card hid, hid]
      case isFalse h => rw [List.map_cons, List.map_cons, ih]

theorem perm_modifyFirst {change : Card → Card} {found : Card} {cards : List Card}
    (hf : cards.find? (·.uid == uid) = some found) :
    (modifyFirst uid change cards).Perm (change found :: cards.eraseP (·.uid == uid)) := by
  induction cards with
  | nil => exact absurd hf nofun
  | cons card cards ih =>
      unfold modifyFirst
      split
      case isTrue h =>
        rw [List.find?_cons_of_pos (by exact h)] at hf
        rw [List.eraseP_cons_of_pos (by exact h), Option.some.inj hf]
      case isFalse h =>
        rw [List.find?_cons_of_neg (by exact h)] at hf
        rw [List.eraseP_cons_of_neg (by exact h)]
        exact ((ih hf).cons card).trans (List.Perm.swap _ _ _)

/-- A card that is changed takes the place of the one it was, and all others stay. -/
theorem perm_modify {change : Card → Card} {found : Card} (hf : piles.find? uid = some found) :
    ∃ others, piles.cards.Perm (found :: others) ∧
      (piles.modify uid change).cards.Perm (change found :: others) := by
  obtain ⟨pile, hlocate, hfind⟩ := Option.bind_eq_some_iff.mp hf
  refine ⟨(piles.set pile ((piles.get pile).eraseP (·.uid == uid))).cards, ?_, ?_⟩
  · have hback := @perm_set_set piles pile found _ _ (perm_eraseP hfind).2
    rwa [set_get] at hback
  · unfold modify
    rw [hlocate]
    exact perm_set_set (perm_modifyFirst hfind)

/-- Nothing is changed if there is no such card. -/
theorem modify_eq_self {change : Card → Card} (hf : piles.find? uid = none) :
    piles.modify uid change = piles := by
  unfold modify
  cases hlocate : piles.locate? uid with
  | none => rfl
  | some pile =>
      have hnone : (piles.get pile).find? (·.uid == uid) = none := by
        rw [find?, hlocate] at hf
        exact hf
      have hthere : (piles.get pile).any (·.uid == uid) = true :=
        @List.find?_some _ (piles.contains · uid) pile _ hlocate
      obtain ⟨card, hmem, hid⟩ := List.any_eq_true.mp hthere
      exact absurd hid (List.find?_eq_none.mp hnone card hmem)

/-- A card that is changed keeps its place. -/
theorem count_modify {change : Card → Card}
    (hc : ∀ card, card.uid = uid → (change card).uid = uid) :
    (piles.modify uid change).count u = piles.count u := by
  cases hfind : piles.find? uid with
  | none => rw [modify_eq_self hfind]
  | some found =>
      obtain ⟨others, hbefore, hafter⟩ := @perm_modify piles uid change found hfind
      obtain ⟨pile, -, hfound⟩ := Option.bind_eq_some_iff.mp hfind
      have huid : found.uid = uid := by simpa using List.find?_some hfound
      calc (piles.modify uid change).count u = countIn u (change found :: others) :=
            countIn_perm hafter
        _ = countIn u (found :: others) := by rw [countIn_cons, countIn_cons, hc found huid, huid]
        _ = piles.count u := (countIn_perm hbefore).symm

end CardCombat.Piles
