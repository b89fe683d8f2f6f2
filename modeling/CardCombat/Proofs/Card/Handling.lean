import CardCombat.Proofs.Card.Contents
import CardCombat.Proofs.Success

/-!
# Handling the piles

Whatever is done with the piles, in whatever order -- cards are put, taken out, moved, drawn,
shuffled and reshuffled -- no card comes to lie in them twice if no card is put that lies in them
already. So every card that lies in them is found in the one pile in which it lies, and taking it
out takes away nothing else: what is left are the cards of other numbers, pile by pile and in their
order. All cards together are those of the start and those that were put, without those that were
taken out.

A random place in a pile is drawn among all its gaps, and the gap that is drawn is one of them.

## Main definitions

* `Handling` -- something that is done with the piles.
* `Piles.handle`, `Piles.handleAll` -- it is done, once and again and again.
* `Piles.without` -- the piles without the cards of a number.
* `Placement.Puts` -- where in a pile a card is put.
* `Handling.Does` -- what a handling does.
* `Piles.InOrder` -- no card lies twice in the piles, and each is found where it lies.

## Main results

* `Piles.take?_eq_some_iff`, `Piles.takeFrom?_eq_some_iff` -- taking a card out.
* `Piles.does_handle`, `Piles.perm_handle`, `Piles.nodup_handle` -- one handling.
* `Piles.handleAll_inOrder` -- any sequence of them.
-/

namespace CardCombat

/-- Something that is done with the piles. -/
inductive Handling where
  | put (pile : Pile) (card : Card) (placement : Placement)
  | take (uid : CardUid)
  | takeFrom (pile : Pile) (uid : CardUid)
  | move (uid : CardUid) (pile : Pile) (placement : Placement)
  | popDraw
  | shuffle (pile : Pile)
  | reshuffle

namespace Piles

/-- The card that was taken out and the other cards, or no card and all of them. -/
def afterTaking (piles : Piles) : Option (Card × Piles) → Option Card × Piles
  | some (card, rest) => (some card, rest)
  | none => (none, piles)

/-- Something is done with the piles; the card that is taken out, if one is. -/
def handle (piles : Piles) : Handling → Draw (Option Card × Piles)
  | .put pile card placement => return (none, ← piles.put pile card placement)
  | .take uid => return piles.afterTaking ((piles.take? uid).map (·.2))
  | .takeFrom pile uid => return piles.afterTaking (piles.takeFrom? pile uid)
  | .move uid pile placement => return (none, (← piles.move uid pile placement).2)
  | .popDraw => return piles.afterTaking piles.popDraw?
  | .shuffle pile => return (none, ← piles.shuffle pile)
  | .reshuffle => return (none, (← piles.reshuffle).2)

/-- One thing after another is done with the piles; the cards that are taken out. -/
def handleAll (piles : Piles) : List Handling → Draw (List Card × Piles)
  | [] => return ([], piles)
  | handling :: handlings => do
      let (taken, after) ← piles.handle handling
      let (others, final) ← after.handleAll handlings
      return (taken.toList ++ others, final)

/-- `P` holds of every one of the handlings, with the piles and the generator that it finds, the
card that it takes out, and the piles that it leaves. -/
def EachStep (P : Handling → Piles → Rng → Option Card → Piles → Prop) :
    Piles → Rng → List Handling → Prop
  | _, _, [] => True
  | before, rng, handling :: handlings =>
      let result := (before.handle handling).run rng
      P handling before rng result.1.1 result.1.2 ∧ EachStep P result.1.2 result.2 handlings

instance decidableEachStep {P : Handling → Piles → Rng → Option Card → Piles → Prop}
    [∀ handling before rng taken after, Decidable (P handling before rng taken after)] :
    (piles : Piles) → (rng : Rng) → (handlings : List Handling) →
      Decidable (piles.EachStep P rng handlings)
  | _, _, [] => .isTrue trivial
  | piles, rng, handling :: handlings =>
      have := decidableEachStep (P := P) ((piles.handle handling).run rng).1.2
        ((piles.handle handling).run rng).2 handlings
      inferInstanceAs (Decidable (_ ∧ _))

/-- The piles without the cards of a number; all others keep their order. -/
def without (piles : Piles) (uid : CardUid) : Piles where
  hand := piles.hand.filter (·.uid != uid)
  drawPile := piles.drawPile.filter (·.uid != uid)
  discardPile := piles.discardPile.filter (·.uid != uid)
  exhaustPile := piles.exhaustPile.filter (·.uid != uid)

/-- No card lies twice in the piles, and each is found in the one pile in which it lies. -/
structure InOrder (piles : Piles) : Prop where
  distinct : piles.uids.Nodup
  found : ∀ uid pile, piles.locate? uid = some pile ↔ ∃ card ∈ piles.get pile, card.uid = uid
  missed : ∀ uid, piles.locate? uid = none ↔ ∀ card, piles.Has card → card.uid ≠ uid

end Piles

/-- Where a card is put: over the others, under them, or in a gap between them, which is drawn and
is one that there is. -/
def Placement.Puts (rng : Rng) (card : Card) (before after : List Card) : Placement → Prop
  | .top => after = card :: before
  | .bottom => after = before ++ [card]
  | .random => ∃ slot, ((Draw.index (before.length + 1)).run rng).1 = some slot ∧
      slot ≤ before.length ∧ after = before.take slot ++ card :: before.drop slot

namespace Handling

/-- The card that is put into the piles. -/
def brought : Handling → List Card
  | put _ card _ => [card]
  | _ => []

/-- No card is put that lies in the piles already. -/
def IsNew (before : Piles) : Handling → Prop
  | put _ card _ => card.uid ∉ before.uids
  | _ => True

instance (before : Piles) : (handling : Handling) → Decidable (handling.IsNew before)
  | put _ card _ => inferInstanceAs (Decidable (card.uid ∉ before.uids))
  | take _ | takeFrom _ _ | move _ _ _ | popDraw | shuffle _ | reshuffle => .isTrue trivial

/-- What a handling does to the piles that it finds, and which card it takes out. -/
def Does (before : Piles) (rng : Rng) (taken : Option Card) (after : Piles) : Handling → Prop
  | put pile card placement =>
      taken = none ∧ ∃ cards, placement.Puts rng card (before.get pile) cards ∧
        after = before.set pile cards
  | take uid =>
      (∀ card, taken = some card ↔ before.Has card ∧ card.uid = uid) ∧ after = before.without uid
  | takeFrom pile uid =>
      (∀ card, taken = some card ↔ card ∈ before.get pile ∧ card.uid = uid) ∧
        after = before.set pile ((before.get pile).filter (·.uid != uid))
  | move uid pile placement =>
      taken = none ∧ after.without uid = before.without uid ∧
        ((∀ card, before.Has card → card.uid ≠ uid) → after = before) ∧
          ∀ card, before.Has card → card.uid = uid → ∃ cards,
            placement.Puts rng card ((before.without uid).get pile) cards ∧
              after = (before.without uid).set pile cards
  | popDraw =>
      taken = before.drawPile.head? ∧ after = { before with drawPile := before.drawPile.tail }
  | shuffle pile =>
      taken = none ∧ ∃ cards, cards.Perm (before.get pile) ∧ after = before.set pile cards
  | reshuffle =>
      taken = none ∧ ∃ cards, cards.Perm (before.drawPile ++ before.discardPile) ∧
        after = { before with drawPile := cards, discardPile := [] }

end Handling

/-! ## Cards of different numbers -/

namespace Piles

variable {piles piles' before rest : Piles} {pile source : Pile} {card : Card}
  {uid : CardUid} {rng : Rng} {handling : Handling}

theorem ext_get (h : ∀ pile, piles.get pile = piles'.get pile) : piles = piles' := by
  cases piles
  cases piles'
  simp only [mk.injEq]
  exact ⟨h .hand, h .drawPile, h .discardPile, h .exhaustPile⟩

theorem get_without (piles : Piles) (uid : CardUid) (pile : Pile) :
    (piles.without uid).get pile = (piles.get pile).filter (·.uid != uid) := by
  cases pile <;> rfl

theorem nodup_get (h : piles.uids.Nodup) (pile : Pile) :
    ((piles.get pile).map (·.uid)).Nodup := by
  rw [List.nodup_iff_count_le_one] at h ⊢
  intro u
  exact Nat.le_trans (countIn_get_le_count pile) (h u)

theorem mem_uids_iff : uid ∈ piles.uids ↔ ∃ card, piles.Has card ∧ card.uid = uid := by
  have huids : piles.uids = piles.cards.map (·.uid) := rfl
  simp only [huids, List.mem_map, has_iff]

theorem locate?_eq_none_iff_absent :
    piles.locate? uid = none ↔ ∀ card, piles.Has card → card.uid ≠ uid := by
  have hnone : piles.count uid = 0 ↔ uid ∉ piles.uids := List.count_eq_zero
  rw [locate?_eq_none_iff, hnone, mem_uids_iff]
  simp

/-- Piles in which no card lies twice are in order. -/
theorem inOrder_of_nodup (h : piles.uids.Nodup) : piles.InOrder where
  distinct := h
  found uid pile := by
    rw [locate?_eq_some_iff (List.nodup_iff_count_le_one.mp h uid), ← contains_iff]
    simp [contains]
  missed _ := locate?_eq_none_iff_absent

/-! ## Taking a card out -/

/-- What is taken out of a pile is the card of that number, and what is left there are those of
other numbers. -/
theorem takeFrom?_eq_some_iff (h : piles.uids.Nodup) :
    piles.takeFrom? pile uid = some (card, rest) ↔ card ∈ piles.get pile ∧ card.uid = uid ∧
      rest = piles.set pile ((piles.get pile).filter (·.uid != uid)) := by
  have hpile := nodup_get h pile
  unfold takeFrom?
  rw [eraseP_key_eq_filter hpile, ← and_assoc, ← find?_key_eq_some_iff hpile]
  cases (piles.get pile).find? (·.uid == uid) with
  | none => simp
  | some found => simp [eq_comm]

/-- A number that lies in no pile can be left out. -/
theorem without_of_absent (h : ∀ card, piles.Has card → card.uid ≠ uid) :
    piles.without uid = piles := by
  apply ext_get
  intro pile
  rw [get_without, List.filter_eq_self]
  intro card hmem
  rw [bne_iff_ne]
  exact h card ⟨pile, hmem⟩

/-- Only the pile changes in which the cards of a number lie. -/
theorem without_of_locate? (h : piles.uids.Nodup) (hlocate : piles.locate? uid = some source) :
    piles.without uid = piles.set source ((piles.get source).filter (·.uid != uid)) := by
  apply ext_get
  intro pile
  rw [get_without]
  by_cases hpile : pile = source
  · rw [hpile, get_set_self]
  · rw [get_set_ne _ _ hpile, List.filter_eq_self]
    intro card hmem
    rw [bne_iff_ne]
    intro huid
    have hhere := ((inOrder_of_nodup h).found uid pile).mpr ⟨card, hmem, huid⟩
    exact hpile (Option.some.inj (hhere.symm.trans hlocate))

/-- **A card that is taken out** is the one of that number, out of the pile in which it lies, and
what is left are the cards of other numbers. -/
theorem take?_eq_some_iff (h : piles.uids.Nodup) :
    piles.take? uid = some (source, card, rest) ↔
      card ∈ piles.get source ∧ card.uid = uid ∧ rest = piles.without uid := by
  constructor
  · intro htake
    have hlocate := locate?_of_take? htake
    rw [without_of_locate? h hlocate]
    exact (takeFrom?_eq_some_iff h).mp (takeFrom?_of_take? htake)
  · rintro ⟨hmem, huid, rfl⟩
    have hlocate := ((inOrder_of_nodup h).found uid source).mpr ⟨card, hmem, huid⟩
    have htake : piles.takeFrom? source uid = some (card, piles.without uid) := by
      rw [takeFrom?_eq_some_iff h, without_of_locate? h hlocate]
      exact ⟨hmem, huid, rfl⟩
    simp [take?, hlocate, htake]

/-! ## Putting a card -/

theorem insertIdx_eq {α : Type} {xs : List α} {slot : Nat} (h : slot ≤ xs.length) (x : α) :
    xs.insertIdx slot x = xs.take slot ++ x :: xs.drop slot := by
  induction xs generalizing slot with
  | nil =>
      obtain rfl : slot = 0 := by simpa using h
      rfl
  | cons first xs ih =>
      cases slot with
      | zero => rfl
      | succ slot => simpa using ih (Nat.le_of_succ_le_succ h)

/-- **A card that is put** goes where it should, and no other pile changes. -/
theorem puts_put (piles : Piles) (pile : Pile) (card : Card) (placement : Placement) (rng : Rng) :
    ∃ cards, placement.Puts rng card (piles.get pile) cards ∧
      ((piles.put pile card placement).run rng).1 = piles.set pile cards := by
  cases placement with
  | top => exact ⟨_, rfl, rfl⟩
  | bottom => exact ⟨_, rfl, rfl⟩
  | random =>
      obtain ⟨slot, hslot, hlt⟩ := @Draw.exists_index rng _ (Nat.succ_pos (piles.get pile).length)
      have hle : slot ≤ (piles.get pile).length := Nat.le_of_lt_succ hlt
      refine ⟨_, ⟨slot, hslot, hle, rfl⟩, ?_⟩
      have hrun : ((piles.put pile card .random).run rng).1 = piles.set pile
          ((piles.get pile).insertIdx
            (((Draw.index (piles.size pile + 1)).run rng).1.getD 0) card) := rfl
      have hsize : piles.size pile = (piles.get pile).length := rfl
      rw [hrun, hsize, hslot, Option.getD_some, insertIdx_eq hle]

/-- Wherever a card of the number is put that is left out, the others are as they were. -/
theorem without_set_of_puts {placement : Placement} {cards : List Card}
    (hputs : placement.Puts rng card ((piles.without card.uid).get pile) cards) :
    ((piles.without card.uid).set pile cards).without card.uid = piles.without card.uid := by
  have hfilter : cards.filter (·.uid != card.uid) = (piles.without card.uid).get pile := by
    have hall : ((piles.without card.uid).get pile).filter (·.uid != card.uid) =
        (piles.without card.uid).get pile := by
      simp [get_without]
    cases placement with
    | top =>
        obtain rfl := hputs
        simpa using hall
    | bottom =>
        obtain rfl := hputs
        simpa using hall
    | random =>
        obtain ⟨slot, -, -, rfl⟩ := hputs
        rw [List.filter_append, List.filter_cons_of_neg (by simp), ← List.filter_append,
          List.take_append_drop]
        exact hall
  apply ext_get
  intro other
  rw [get_without]
  by_cases hother : other = pile
  · rw [hother, get_set_self, hfilter]
  · rw [get_set_ne _ _ hother, get_without, List.filter_filter]
    simp

/-! ## One handling -/

/-- A card that is moved is taken out and put, and the others are as they were; if there is no such
card nothing happens. -/
theorem does_move (h : before.uids.Nodup) (uid : CardUid) (pile : Pile) (placement : Placement)
    (rng : Rng) : (Handling.move uid pile placement).Does before rng none
      ((before.move uid pile placement).run rng).1.2 := by
  cases htake : before.take? uid with
  | none =>
      have habsent := locate?_eq_none_iff_absent.mp (take?_eq_none_iff.mp htake)
      have hmove : ((before.move uid pile placement).run rng).1.2 = before := by
        unfold move
        rw [htake]
        rfl
      rw [hmove]
      refine ⟨rfl, rfl, fun _ => rfl, ?_⟩
      intro card hhas huid
      exact absurd huid (habsent card hhas)
  | some taken =>
      obtain ⟨source, card, rest⟩ := taken
      obtain ⟨hmem, rfl, rfl⟩ := (take?_eq_some_iff h).mp htake
      obtain ⟨cards, hputs, hput⟩ := puts_put (before.without card.uid) pile card placement rng
      have hmove : ((before.move card.uid pile placement).run rng).1.2 =
          (before.without card.uid).set pile cards := by
        unfold move
        rw [htake, ← hput]
        rfl
      rw [hmove]
      refine ⟨rfl, without_set_of_puts hputs, ?_, ?_⟩
      · intro habsent
        exact absurd rfl (habsent card ⟨source, hmem⟩)
      · intro other hhas huid
        obtain ⟨place, hother⟩ := hhas
        have hsame : before.take? card.uid = some (place, other, before.without card.uid) :=
          (take?_eq_some_iff h).mpr ⟨hother, huid, rfl⟩
        obtain ⟨-, rfl, -⟩ : source = place ∧ card = other ∧ True := by
          simpa using htake.symm.trans hsame
        exact ⟨cards, hputs, rfl⟩

/-- The discard pile goes into the draw pile, in whatever order. -/
theorem exists_perm_reshuffle (piles : Piles) (rng : Rng) :
    ∃ cards, cards.Perm (piles.drawPile ++ piles.discardPile) ∧
      (piles.reshuffle.run rng).1.2 = { piles with drawPile := cards, discardPile := [] } := by
  unfold reshuffle
  by_cases hempty : piles.discardPile.isEmpty = true
  · have hnil : piles.discardPile = [] := List.isEmpty_iff.mp hempty
    rw [if_pos hempty]
    refine ⟨piles.drawPile, by simp [hnil], ?_⟩
    rw [← hnil]
    rfl
  · rw [if_neg hempty]
    exact ⟨_, Draw.shuffle_perm _, rfl⟩

/-- A card of which is known which one can be taken out, and what is left then. -/
theorem afterTaking_spec {result : Option (Card × Piles)} {IsTaken : Card → Prop} {others : Piles}
    (hsome : ∀ card rest, result = some (card, rest) ↔ IsTaken card ∧ rest = others)
    (hnone : (∀ card, ¬IsTaken card) → others = piles) :
    (∀ card, (piles.afterTaking result).1 = some card ↔ IsTaken card) ∧
      (piles.afterTaking result).2 = others := by
  cases result with
  | none =>
      have hno : ∀ card, ¬IsTaken card := by
        intro card hcard
        exact absurd ((hsome card others).mpr ⟨hcard, rfl⟩) nofun
      exact ⟨fun card => iff_of_false nofun (hno card), (hnone hno).symm⟩
  | some taken =>
      obtain ⟨found, rest⟩ := taken
      obtain ⟨hfound, rfl⟩ := (hsome found rest).mp rfl
      refine ⟨?_, rfl⟩
      intro card
      constructor
      · intro hsame
        rwa [← Option.some.inj hsame]
      · intro hcard
        have hsame := (hsome card rest).mpr ⟨hcard, rfl⟩
        rw [← (Prod.mk.inj (Option.some.inj hsame)).1]
        rfl

/-- **What is done with the piles**, if no card lies in them twice. -/
theorem does_handle (h : before.uids.Nodup) (handling : Handling) (rng : Rng) :
    handling.Does before rng ((before.handle handling).run rng).1.1
      ((before.handle handling).run rng).1.2 := by
  cases handling with
  | put pile card placement => exact ⟨rfl, puts_put before pile card placement rng⟩
  | take uid =>
      refine afterTaking_spec (fun card rest => ?_) fun hnone => ?_
      · rw [Option.map_eq_some_iff]
        constructor
        · rintro ⟨⟨source, found, left⟩, htake, hfound⟩
          obtain ⟨rfl, rfl⟩ := Prod.mk.inj hfound
          obtain ⟨hmem, huid, hleft⟩ := (take?_eq_some_iff h).mp htake
          exact ⟨⟨⟨source, hmem⟩, huid⟩, hleft⟩
        · rintro ⟨⟨⟨source, hmem⟩, huid⟩, hrest⟩
          exact ⟨_, (take?_eq_some_iff h).mpr ⟨hmem, huid, hrest⟩, rfl⟩
      · exact without_of_absent fun card hhas huid => hnone card ⟨hhas, huid⟩
  | takeFrom pile uid =>
      refine afterTaking_spec (fun card rest => ?_) fun hnone => ?_
      · rw [takeFrom?_eq_some_iff h, and_assoc]
      · have hall : (before.get pile).filter (·.uid != uid) = before.get pile := by
          rw [List.filter_eq_self]
          intro card hmem
          rw [bne_iff_ne]
          exact fun huid => hnone card ⟨hmem, huid⟩
        rw [hall, set_get]
  | move uid pile placement => exact does_move h uid pile placement rng
  | popDraw =>
      obtain ⟨hand, drawPile, discardPile, exhaustPile⟩ := before
      cases drawPile with
      | nil => exact ⟨rfl, rfl⟩
      | cons top rest => exact ⟨rfl, rfl⟩
  | shuffle pile => exact ⟨rfl, _, Draw.shuffle_perm (before.get pile), rfl⟩
  | reshuffle => exact ⟨rfl, exists_perm_reshuffle before rng⟩

/-- **The cards change** by the one that is put in and the one that is taken out. -/
theorem perm_handle (before : Piles) (handling : Handling) (rng : Rng) :
    (((before.handle handling).run rng).1.2.cards ++
      ((before.handle handling).run rng).1.1.toList).Perm (before.cards ++ handling.brought) := by
  have hleft {result : Option (Card × Piles)}
      (hperm : ∀ card rest, result = some (card, rest) → before.cards.Perm (card :: rest.cards)) :
      ((before.afterTaking result).2.cards ++ (before.afterTaking result).1.toList).Perm
        (before.cards ++ []) := by
    rw [List.append_nil]
    cases result with
    | none => simp [afterTaking]
    | some taken =>
        exact (List.perm_append_singleton _ _).trans (hperm taken.1 taken.2 rfl).symm
  have hsame {after : Piles} (hperm : after.cards.Perm before.cards) :
      (after.cards ++ []).Perm (before.cards ++ []) := hperm.append_right []
  cases handling with
  | put pile card placement =>
      show (_ ++ []).Perm (before.cards ++ [card])
      rw [List.append_nil]
      exact perm_put.trans (List.perm_append_singleton _ _).symm
  | take uid =>
      apply hleft
      intro card rest h
      obtain ⟨⟨source, found, left⟩, htake, heq⟩ := Option.map_eq_some_iff.mp h
      obtain ⟨rfl, rfl⟩ := Prod.mk.inj heq
      exact (perm_of_take? htake).2
  | takeFrom pile uid =>
      apply hleft
      intro card rest h
      exact (perm_of_takeFrom? h).2
  | popDraw =>
      apply hleft
      intro card rest h
      exact perm_of_popDraw? h
  | move uid pile placement => exact hsame (perm_of_move rfl)
  | shuffle pile => exact hsame (perm_of_shuffle rfl)
  | reshuffle => exact hsame (perm_of_reshuffle rfl)

/-- **No card lies twice in the piles** if none did and none is put that lies there already. -/
theorem nodup_handle (h : before.uids.Nodup) (hnew : handling.IsNew before) (rng : Rng) :
    ((before.handle handling).run rng).1.2.uids.Nodup := by
  have huids : before.cards.map (·.uid) = before.uids := rfl
  have hall : ((before.cards ++ handling.brought).map (·.uid)).Nodup := by
    cases handling with
    | put pile card placement =>
        have hnone : ∀ other ∈ before.uids, other ≠ card.uid := by
          rintro other hmem rfl
          exact hnew hmem
        simpa [Handling.brought, huids, List.nodup_append, h] using hnone
    | _ => simpa [Handling.brought, huids] using h
  have hperm := (perm_handle before handling rng).map (·.uid)
  rw [List.map_append] at hperm
  exact (List.nodup_append.mp (hperm.nodup_iff.mpr hall)).1

/-! ## Sequences -/

theorem run_handleAll_cons (piles : Piles) (handling : Handling) (handlings : List Handling)
    (rng : Rng) :
    (piles.handleAll (handling :: handlings)).run rng =
      let first := (piles.handle handling).run rng
      let others := (first.1.2.handleAll handlings).run first.2
      ((first.1.1.toList ++ others.1.1, others.1.2), others.2) := by
  rw [handleAll, Draw.run_bind, Draw.run_bind]
  rfl

theorem perm_append_right_comm {α : Type} (xs ys zs : List α) :
    (xs ++ ys ++ zs).Perm (xs ++ zs ++ ys) := by
  rw [List.append_assoc, List.append_assoc]
  exact List.perm_append_comm.append_left xs

/-- The cards change by those that are put in and those that are taken out. -/
theorem perm_handleAll (piles : Piles) (handlings : List Handling) (rng : Rng) :
    (((piles.handleAll handlings).run rng).1.2.cards ++
      ((piles.handleAll handlings).run rng).1.1).Perm
        (piles.cards ++ handlings.flatMap Handling.brought) := by
  induction handlings generalizing piles rng with
  | nil => exact List.Perm.refl _
  | cons handling handlings ih =>
      have hfirst := perm_handle piles handling rng
      have hothers := ih ((piles.handle handling).run rng).1.2 ((piles.handle handling).run rng).2
      rw [run_handleAll_cons]
      dsimp only
      generalize (piles.handle handling).run rng = first at hfirst hothers ⊢
      generalize (first.1.2.handleAll handlings).run first.2 = others at hothers ⊢
      calc List.Perm (others.1.2.cards ++ (first.1.1.toList ++ others.1.1))
              (others.1.2.cards ++ others.1.1 ++ first.1.1.toList) := by
            rw [← List.append_assoc]
            exact perm_append_right_comm _ _ _
        List.Perm _ (first.1.2.cards ++ handlings.flatMap Handling.brought ++ first.1.1.toList) :=
          hothers.append_right _
        List.Perm _ (first.1.2.cards ++ first.1.1.toList ++ handlings.flatMap Handling.brought) :=
          perm_append_right_comm _ _ _
        List.Perm _ (piles.cards ++ handling.brought ++ handlings.flatMap Handling.brought) :=
          hfirst.append_right _
        List.Perm _ (piles.cards ++ (handling :: handlings).flatMap Handling.brought) := by
          rw [List.flatMap_cons, List.append_assoc]

variable {handlings : List Handling}

/-- If no card lies in the piles twice and none is put that lies in them when it is put, each
handling does what it does, and no card lies in the piles twice at any time. -/
theorem does_handleAll (hdistinct : piles.uids.Nodup)
    (hnew : piles.EachStep (fun handling before _ _ _ => handling.IsNew before) rng handlings) :
    piles.EachStep (fun handling before rng taken after =>
        handling.Does before rng taken after ∧ after.InOrder) rng handlings ∧
      ((piles.handleAll handlings).run rng).1.2.uids.Nodup := by
  induction handlings generalizing piles rng with
  | nil => exact ⟨trivial, hdistinct⟩
  | cons handling handlings ih =>
      obtain ⟨hfirst, hothers⟩ := hnew
      have hdoes := does_handle hdistinct handling rng
      have hnodup := nodup_handle hdistinct hfirst rng
      obtain ⟨hsteps, hfinal⟩ := ih hnodup hothers
      rw [run_handleAll_cons]
      exact ⟨⟨⟨hdoes, inOrder_of_nodup hnodup⟩, hsteps⟩, hfinal⟩

/-- **Whatever is done with the piles**, one thing after another, if no card lies in them twice and
none is put that lies in them when it is put: each handling does what it does and leaves the piles
in order; and in the end they are in order, and the cards in them and those that were taken out are
the cards that were in them and those that were put. -/
theorem handleAll_inOrder {piles : Piles} {rng : Rng} {handlings : List Handling}
    (hdistinct : piles.uids.Nodup)
    (hnew : piles.EachStep (fun handling before _ _ _ => handling.IsNew before) rng handlings) :
    piles.EachStep (fun handling before rng taken after =>
        handling.Does before rng taken after ∧ after.InOrder) rng handlings ∧
      ∃ taken final rng', (piles.handleAll handlings).run rng = ((taken, final), rng') ∧
        final.InOrder ∧
          (final.cards ++ taken).Perm (piles.cards ++ handlings.flatMap Handling.brought) := by
  obtain ⟨hsteps, hfinal⟩ := does_handleAll hdistinct hnew
  exact ⟨hsteps, _, _, _, rfl, inOrder_of_nodup hfinal, perm_handleAll piles handlings rng⟩

/-- Five cards in three of the piles. -/
def fiveCards : Piles where
  hand := [{ uid := ⟨1⟩, definition := "" }]
  drawPile := [{ uid := ⟨2⟩, definition := "" }, { uid := ⟨3⟩, definition := "" }]
  discardPile := [{ uid := ⟨4⟩, definition := "" }, { uid := ⟨5⟩, definition := "" }]

/-- A sixth card comes to the others, and one that was drawn is put back elsewhere. -/
def fiveHandlings : List Handling :=
  [.put .drawPile { uid := ⟨6⟩, definition := "" } .random, .move ⟨1⟩ .discardPile .random,
    .reshuffle, .popDraw, .takeFrom .exhaustPile ⟨2⟩, .take ⟨5⟩,
    .put .exhaustPile { uid := ⟨3⟩, definition := "" } .top, .move ⟨6⟩ .hand .bottom,
    .shuffle .drawPile]

/-- Two cards are taken out, of which the one that was drawn first is put back. -/
theorem handleAll_inOrder_fiveCards :
    fiveCards.EachStep (fun handling before rng taken after =>
        handling.Does before rng taken after ∧ after.InOrder) (.ofSeed 0) fiveHandlings ∧
      ∃ taken final rng',
        (fiveCards.handleAll fiveHandlings).run (.ofSeed 0) = ((taken, final), rng') ∧
          taken.map (·.uid.number) = [3, 5] ∧ final.exhaustPile.map (·.uid.number) = [3] ∧
            final.InOrder ∧
              (final.cards ++ taken).Perm
                (fiveCards.cards ++ fiveHandlings.flatMap Handling.brought) := by
  have hdistinct : fiveCards.uids.Nodup := by decide
  have hnew : fiveCards.EachStep (fun handling before _ _ _ => handling.IsNew before) (.ofSeed 0)
      fiveHandlings := by decide +kernel
  have htaken : ((fiveCards.handleAll fiveHandlings).run (.ofSeed 0)).1.1.map (·.uid.number) =
      [3, 5] := by decide +kernel
  have hexhaust : ((fiveCards.handleAll fiveHandlings).run (.ofSeed 0)).1.2.exhaustPile.map
      (·.uid.number) = [3] := by decide +kernel
  obtain ⟨hsteps, taken, final, rng', hrun, horder, hperm⟩ := handleAll_inOrder hdistinct hnew
  rw [hrun] at htaken hexhaust
  exact ⟨hsteps, taken, final, rng', hrun, htaken, hexhaust, horder, hperm⟩

end Piles

end CardCombat
