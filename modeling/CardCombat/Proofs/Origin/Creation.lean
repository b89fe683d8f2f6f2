import CardCombat.Proofs.Content.Registration
import CardCombat.Proofs.Origin.Effects

/-!
# How cards are made

The effects that make cards give them the numbers from the next one on, one after the other. Most of
them put each card into a pile as soon as it is made. A discovery makes all of its cards first: a
single one comes into a pile, several are offered in a selection, and if another selection waits
they are passed over. Even then their numbers are given out for good.

What is made at random, and what a card is transformed into, is one of the definitions that are
generated for the theme.

## Main definitions

* `Makes` -- cards were made, and came into the piles.
* `Creates` -- cards were made, and came into the piles, or were offered or passed over.
* `Transforms` -- cards became other cards.

## Main results

* `Resolution.making_of_addCards` and the like, `Resolution.creates_of_discover` -- the effects that
  make cards.
* `Resolution.transforms_of_transform` -- what cards are transformed into.
-/

namespace CardCombat

open Resolution

variable {rules : Rules} {s t : Scene} {card : Card} {made made' : List Card} {P : Card → Prop}

namespace Combat

/-! ## Cards that were made -/

variable {before after later : Combat}

/-- What a combat shows besides the cards in the piles. -/
def aside (combat : Combat) : List ActiveCard × Option Card × Option Selection :=
  (combat.inPlay, combat.lastPlayed, combat.pending)

/-- The cards were given the numbers that were next, one after the other. -/
structure GivesOut (made : List Card) (before after : Combat) : Prop where
  numbers : made.map (·.uid.number) = List.range' before.nextCardUid made.length
  next : after.nextCardUid = before.nextCardUid + made.length

/-- The cards were made and have come into the piles; all other cards are where they were. -/
structure Makes (made : List Card) (before after : Combat) : Prop
    extends GivesOut made before after where
  piles : ∀ card, after.piles.Has card ↔ card ∈ made ∨ before.piles.Has card
  aside : after.aside = before.aside

/-- The cards were made, and one of three things has become of them: they have come into the piles,
they are offered in a selection, or they were passed over because another selection waits. -/
inductive Creates (made : List Card) (before after : Combat) : Prop
  | delivered (h : Makes made before after)
  | offered {selection} (hn : GivesOut made before after) (hp : before.pending = none)
      (hc : selection.candidates = made) (hs : after.piles = before.piles)
      (ha : after.aside = (before.inPlay, before.lastPlayed, some selection))
  | passedOver (hn : GivesOut made before after) (hp : before.pending ≠ none)
      (hs : after.piles = before.piles) (ha : after.aside = before.aside)

namespace Makes

theorem none (hnext : after.nextCardUid = before.nextCardUid) (hpiles : after.piles = before.piles)
    (haside : after.aside = before.aside) : Makes [] before after :=
  ⟨⟨rfl, hnext⟩, fun card => by rw [hpiles]; simp, haside⟩

theorem trans (h : Makes made before after) (h' : Makes made' after later) :
    Makes (made ++ made') before later where
  numbers := by
    rw [List.map_append, h.numbers, h'.numbers, h.next, List.length_append,
      List.range'_append_1]
  next := by rw [h'.next, h.next, List.length_append, Nat.add_assoc]
  piles card := by rw [h'.piles, h.piles, List.mem_append, or_left_comm, or_assoc]
  aside := h'.aside.trans h.aside

end Makes

namespace Creates

theorem givesOut (h : Creates made before after) : GivesOut made before after := by
  cases h with
  | delivered h => exact h.toGivesOut
  | offered hn | passedOver hn => exact hn

/-- What is shown afterwards was shown before, or it was made. -/
theorem shows (h : Creates made before after) (hshown : after.Shows card) :
    before.Shows card ∨ card ∈ made := by
  have ofAside (haside : after.aside = before.aside)
      (hpiles : after.piles.Has card → before.Shows card) : before.Shows card := by
    obtain ⟨hplay, haside⟩ := Prod.mk.inj haside
    obtain ⟨hlast, hpending⟩ := Prod.mk.inj haside
    exact hshown.of_parts hpiles (fun entry hmem hc => .inPlay (hplay ▸ hmem) hc) hlast hpending
  cases h with
  | delivered h =>
      by_cases hmade : card ∈ made
      · exact .inr hmade
      · exact .inl (ofAside h.aside fun hhas =>
          .pile (((h.piles card).mp hhas).resolve_left hmade))
  | offered _ _ hc hs ha =>
      obtain ⟨hplay, haside⟩ := Prod.mk.inj ha
      obtain ⟨hlast, hpending⟩ := Prod.mk.inj haside
      cases hshown with
      | pile hhas => exact .inl (.pile (hs ▸ hhas))
      | inPlay hmem hcard => exact .inl (.inPlay (hplay ▸ hmem) hcard)
      | lastPlayed h => exact .inl (.lastPlayed (hlast ▸ h))
      | candidate h hmem =>
          obtain rfl := Option.some.inj (hpending.symm.trans h)
          exact .inr (hc ▸ hmem)
  | passedOver _ _ hs ha => exact .inl (ofAside ha fun hhas => .pile (hs ▸ hhas))

end Creates

end Combat

/-- Cards of a kind were made and have come into the piles. -/
def Making (P : Card → Prop) (s t : Scene) : Prop :=
  ∃ made, Combat.Makes made s.combat t.combat ∧ ∀ card ∈ made, P card

namespace Making

/-- No cards were made. -/
theorem of_none (h : Combat.Makes [] s.combat t.combat) : Making P s t :=
  ⟨[], h, fun _ hmem => absurd hmem List.not_mem_nil⟩

theorem flow : Flow (Making P) where
  refl s := of_none (.none rfl rfl rfl)
  trans := by
    rintro s t u ⟨made, h, hP⟩ ⟨made', h', hP'⟩
    exact ⟨made ++ made', h.trans h', fun card hmem =>
      (List.mem_append.mp hmem).elim (hP card) (hP' card)⟩

theorem of_draw {α : Type} {x : Draw α} : Ensures (Making P) (draw x) := by
  refine ⟨fun h => ?_⟩
  obtain ⟨-, rfl⟩ := run_draw_iff.mp h
  exact of_none (.none rfl rfl rfl)

end Making

namespace Resolution

variable {ctx : Context} {definition : CardId} {pile destination : Pile} {placement : Placement}

/-! ## Making known cards -/

/-- A card that was just made has come into a pile. -/
theorem makes_of_placeNew {a : Unit} (hu : card.uid = ⟨s.combat.nextCardUid⟩)
    (h : (placeNew rules card pile placement).run (s.issue 1) = .ok (a, t)) :
    Combat.Makes [card] s.combat t.combat := by
  unfold placeNew at h
  simp only [run_bind_iff, run_place_iff, run_report_iff] at h
  obtain ⟨_, _, ⟨rfl, rfl⟩, rfl⟩ := h
  refine ⟨⟨?_, rfl⟩, fun other => ?_, rfl⟩
  · rw [List.map_singleton, hu]
    rfl
  · exact Piles.has_put_iff.trans (or_congr_left List.mem_singleton.symm)

theorem making_of_placeNew {a : Unit} (hu : card.uid = ⟨s.combat.nextCardUid⟩) (hP : P card)
    (h : (placeNew rules card pile placement).run (s.issue 1) = .ok (a, t)) : Making P s t :=
  ⟨[card], makes_of_placeNew hu h, fun _ hmem => List.mem_singleton.mp hmem ▸ hP⟩

/-- **Cards of a known definition** are made only if it is registered. -/
theorem making_of_addCards (number : Value) (upgraded : Bool) :
    Ensures (Making fun card => card.definition = definition ∧
        rules.content.cards.contains definition)
      (addCards rules definition destination number upgraded placement ctx) := by
  unfold addCards
  split
  case isTrue hknown =>
    refine Ensures.count Making.flow fun count => Ensures.times Making.flow ?_ count
    refine ⟨fun {s a t} h => ?_⟩
    obtain ⟨card, _, hcard, h⟩ := run_bind_iff.mp h
    obtain ⟨rfl, rfl⟩ := run_makeCard hcard
    exact making_of_placeNew rfl ⟨rfl, hknown⟩ h
  case isFalse => exact Ensures.pure Making.flow ()

/-- **Copies** have the definitions of cards that were known. -/
theorem making_of_copyCards {target : CardAim} {number : Value} {a : Unit}
    (h : (copyCards rules target destination number ctx).run s = .ok (a, t)) :
    Making (fun card => ∃ found, s.Knows ctx.Cites found ∧
      card = found.withUid card.uid) s t := by
  obtain ⟨copies, _, hcount, h⟩ := run_bind_iff.mp h
  obtain ⟨-, rfl⟩ := run_count_iff.mp hcount
  obtain ⟨found, _, hfound, h⟩ := run_bind_iff.mp h
  obtain ⟨rng, rfl, hknown⟩ := knows_of_cards hfound
  refine Making.flow.trans (Making.of_none (t := { s with rng }) (.none rfl rfl rfl)) ?_
  refine (Ensures.forM Making.flow fun card hmem => Ensures.times Making.flow ?_ copies).rel h
  refine ⟨fun {v b w} h => ?_⟩
  obtain ⟨uid, _, huid, h⟩ := run_bind_iff.mp h
  obtain ⟨rfl, rfl⟩ := run_newUid huid
  exact making_of_placeNew rfl ⟨card, hknown card hmem, rfl⟩ h

/-! ## Making cards at random -/

theorem making_of_createFrom {pool : List CardId} {free upgraded : Bool} :
    Ensures (Making (·.definition ∈ pool))
      (createFrom rules pool destination free upgraded) := by
  refine ⟨fun {s created t} h => ?_⟩
  obtain ⟨chosen, v, hchosen, h⟩ := run_bind_iff.mp h
  refine Making.flow.trans (Making.of_draw.rel hchosen) ?_
  cases chosen with
  | none =>
      obtain ⟨-, rfl⟩ := run_pure_iff.mp h
      exact Making.flow.refl v
  | some definition =>
      have hpool : definition ∈ pool := Draw.mem_of_choose (run_draw_iff.mp hchosen).1
      obtain ⟨made, w, hmade, h⟩ := run_bind_iff.mp h
      obtain ⟨rfl, rfl⟩ := run_makeCard hmade
      dsimp only at h
      have placed {card : Card} (hu : card.uid = ⟨v.combat.nextCardUid⟩)
          (hP : card.definition ∈ pool) (h : (do
            placeNew rules card destination .bottom
            return true).run (v.issue 1) = .ok (created, t)) :
          Making (·.definition ∈ pool) v t := by
        obtain ⟨_, x, hplace, h⟩ := run_bind_iff.mp h
        obtain ⟨-, rfl⟩ := run_pure_iff.mp h
        exact making_of_placeNew hu hP hplace
      split at h
      · obtain ⟨card, x, hfree, h⟩ := run_bind_iff.mp h
        obtain ⟨hok, rfl⟩ := run_lift_iff.mp hfree
        rw [madeFree_spec hok] at h
        exact placed (by rfl) (by exact hpool) h
      · obtain ⟨card, x, hcard, h⟩ := run_bind_iff.mp h
        obtain ⟨rfl, rfl⟩ := run_pure_iff.mp hcard
        exact placed rfl hpool h

/-- **Cards that are made at random** are generated for the theme. -/
theorem making_of_createRandomCards {theme : Option Theme} {number : Value}
    {free upgraded : Bool} :
    Ensures (Making (·.definition ∈ rules.content.cards.generated theme))
      (createRandomCards rules theme destination number free upgraded ctx) :=
  Ensures.count Making.flow fun count => Ensures.discard
    (Ensures.upTo Making.flow making_of_createFrom count)

/-! ## Discoveries -/

/-- Cards that were just made are offered to the player, or passed over. -/
theorem creates_of_ask {a : Unit}
    (hnumbers : made.map (·.uid.number) = List.range' s.combat.nextCardUid made.length)
    (h : (ask (.discover pile) made 1 1).run (s.issue made.length) = .ok (a, t)) :
    Combat.Creates made s.combat t.combat := by
  obtain ⟨_, _, hcombat, h⟩ := run_bind_iff.mp h
  obtain ⟨rfl, rfl⟩ := run_combat_iff.mp hcombat
  split at h
  case isTrue hask =>
    simp only [run_bind_iff, run_modifyCombat_iff, run_report_iff] at h
    obtain ⟨_, _, rfl, rfl⟩ := h
    obtain ⟨-, hp⟩ := Bool.and_eq_true_iff.mp hask
    exact .offered ⟨hnumbers, rfl⟩ (Option.isNone_iff_eq_none.mp hp) rfl rfl rfl
  case isFalse hask =>
    obtain ⟨-, rfl⟩ := run_pure_iff.mp h
    by_cases hp : s.combat.pending = none
    · have hmade : made = [] := by
        by_contra hsome
        have hpending : (s.issue made.length).combat.pending = none := hp
        exact hask (by simp [hsome, hpending])
      subst hmade
      exact .delivered (.none rfl rfl rfl)
    · exact .passedOver ⟨hnumbers, rfl⟩ hp rfl rfl

/-- **A discovery** makes different cards, generated for the theme: as many as the player may choose
from, or as there are. -/
theorem creates_of_discover {theme : Option Theme} {choices : Option Nat} {upgraded : Bool}
    {a : Unit} (h : (discover rules theme choices destination upgraded).run s = .ok (a, t)) :
    ∃ made, Combat.Creates made s.combat t.combat ∧
      (∀ card ∈ made, card.definition ∈ rules.content.cards.generated theme) ∧
      made.length = min (choices.getD rules.config.discoverChoices)
        (rules.content.cards.generated theme).length ∧
      ((rules.content.cards.generated theme).Nodup → (made.map (·.definition)).Nodup) := by
  obtain ⟨picks, v, hpicks, h⟩ := run_bind_iff.mp h
  obtain ⟨made, w, hmade, h⟩ := run_bind_iff.mp h
  obtain ⟨hnumbers, hdefinitions, rfl⟩ := run_makeCards hmade
  obtain ⟨hpicked, hv⟩ := run_draw_iff.mp hpicks
  have hsame : v.combat = s.combat := by rw [← hv]
  obtain ⟨hlength, hnodup⟩ := @Draw.sample_spec _ s.rng
    (rules.content.cards.generated theme) (choices.getD rules.config.discoverChoices)
  rw [hpicked, ← hdefinitions] at hlength hnodup
  refine ⟨made, ?_, fun card hmem => ?_, ?_, hnodup⟩
  · rw [← hsame]
    split at h
    case h_1 card =>
      have hu : card.uid.number = v.combat.nextCardUid := List.head_eq_of_cons_eq hnumbers
      exact .delivered (makes_of_placeNew (congrArg CardUid.mk hu) h)
    case h_2 => exact creates_of_ask hnumbers h
  · have hpick : card.definition ∈ picks := hdefinitions ▸ List.mem_map_of_mem hmem
    exact Draw.mem_of_sample (hpicked ▸ hpick)
  · rw [← hlength, List.length_map]

end Resolution

/-! ## Transformations -/

/-- Cards became other cards: every event tells of one, and every card that is shown was shown
before, with the same definition or with another one of a kind now. -/
structure Transforms (Q : CardId → Prop) (s t : Scene) : Prop where
  told : ∃ told : List Event, t.combat.events = s.combat.events ++ told.toArray ∧
    ∀ event ∈ told, ∃ uid definition, Q definition ∧ event = .transform uid definition
  shown : ∀ card, t.combat.Shows card → ∃ found, s.combat.Shows found ∧ card.uid = found.uid ∧
    (card.definition = found.definition ∨ Q card.definition)

namespace Transforms

variable {Q : CardId → Prop}

theorem of_same (hcombat : t.combat = s.combat) : Transforms Q s t := by
  refine ⟨⟨[], by rw [hcombat]; simp, by simp⟩, fun card hshown => ?_⟩
  exact ⟨card, hcombat ▸ hshown, rfl, .inl rfl⟩

theorem flow : Flow (Transforms Q) where
  refl _ := of_same rfl
  trans h h' := by
    obtain ⟨told, hevents, htold⟩ := h.told
    obtain ⟨told', hevents', htold'⟩ := h'.told
    refine ⟨⟨told ++ told', ?_, fun event hmem => ?_⟩, fun card hshown => ?_⟩
    · simp [hevents', hevents]
    · exact (List.mem_append.mp hmem).elim (htold event) (htold' event)
    · obtain ⟨found, hfound, hu, hd⟩ := h'.shown card hshown
      obtain ⟨first, hfirst, hu', hd'⟩ := h.shown found hfound
      refine ⟨first, hfirst, hu.trans hu', ?_⟩
      rcases hd with hd | hd
      · exact hd ▸ hd'
      · exact .inr hd

/-- One card became another one. -/
theorem of_change {found : Card} {definition : CardId}
    (hfound : s.combat.card? found.uid = some found) (hu : card.uid = found.uid)
    (hd : card.definition = definition) (hQ : Q definition) :
    Transforms Q s ((s.alter found.uid card).report (.transform found.uid definition)) := by
  refine ⟨⟨[.transform found.uid definition], ?_, fun event hmem => ?_⟩, fun other hshown => ?_⟩
  · show (s.combat.modifyCard _ _).events.push _ = _
    rw [Combat.same_modifyCard Combat.events fun _ _ => rfl]
    rfl
  · exact ⟨found.uid, definition, hQ, List.mem_singleton.mp hmem⟩
  · have hchanged : (s.combat.modifyCard found.uid fun _ => card).Shows other :=
      hshown.of_parts (fun hhas => .pile hhas) (fun _ hmem hc => .inPlay hmem hc) rfl rfl
    rcases Combat.shows_modifyCard hchanged with rfl | hshown
    · exact ⟨found, Combat.shows_of_card? hfound, hu, .inr (hd ▸ hQ)⟩
    · exact ⟨other, hshown, rfl, .inl rfl⟩

end Transforms

/-- **A transformation** makes cards into others that are generated for the theme. -/
theorem Resolution.transforms_of_transform {target : CardAim} {theme : Option Theme}
    {ctx : Context} :
    Ensures (Transforms (· ∈ rules.content.cards.generated theme))
      (transform rules target theme ctx) := by
  refine Ensures.bind Transforms.flow ⟨fun h => ?_⟩ fun found =>
    Ensures.forM Transforms.flow fun card _ => ⟨fun {s a t} h => ?_⟩
  · obtain ⟨rng, -, rfl⟩ := run_cards_iff.mp h
    exact .of_same rfl
  · obtain ⟨chosen, v, hchosen, h⟩ := run_bind_iff.mp h
    obtain ⟨hdrawn, hv⟩ := run_draw_iff.mp hchosen
    refine Transforms.flow.trans (.of_same (t := v) (by rw [← hv])) ?_
    cases chosen with
    | none =>
        obtain ⟨-, rfl⟩ := run_pure_iff.mp h
        exact Transforms.flow.refl v
    | some definition =>
        have hpool := List.mem_of_mem_filter (Draw.mem_of_choose hdrawn)
        obtain ⟨_, _, hcombat, h⟩ := run_bind_iff.mp h
        obtain ⟨rfl, rfl⟩ := run_combat_iff.mp hcombat
        split at h
        case h_1 =>
          obtain ⟨-, rfl⟩ := run_pure_iff.mp h
          exact Transforms.flow.refl v
        case h_2 found hcard =>
          simp only [run_bind_iff, run_putChanged_iff, run_report_iff] at h
          obtain ⟨_, _, rfl, rfl⟩ := h
          have hsame : found.uid = card.uid := uid_of_card? hcard
          rw [← hsame] at hcard ⊢
          exact .of_change hcard rfl rfl hpool

end CardCombat
