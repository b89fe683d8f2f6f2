import CardCombat.Proofs.Content.Acceptance

/-!
# What merging a pack leaves behind

A pack is merged into content card by card, then power by power and so on, and at the end all
references are checked. Nothing is taken back when that fails. A card whose name is taken stops the
merge, and the cards before it stay; a reference that leads nowhere is found when everything is
there, and everything stays.

What such content shows is described by `Content.Joined`, with the whole pack in it or with a part
of its cards only: a card never takes the place of another, so the cards come behind those that were
there, while the other definitions replace those of their names.

## Main definitions

* `Content.Joined` -- the lookups, the order and what is generated, once a pack has joined content.
* `Content.Merging` -- how a merge can end.

## Main results

* `Content.merging_extend` -- every merge ends in one of these ways.
* `Content.extend_keeps_first_twin` -- so a failed merge may have changed the content.
-/

namespace CardCombat

namespace Catalog

variable {α : Type} {name : α → String}

/-- Definitions that come behind others are found where no other has their name. -/
theorem find?_behind (catalog : Catalog α) (xs : List α) (key : String) :
    (⟨catalog.entries ++ xs.map fun x => (name x, x)⟩ : Catalog α).find? key =
      (catalog.find? key).or (xs.find? (name · == key)) := by
  have hxs : (xs.map fun x => (name x, x)).lookup key = xs.find? (name · == key) := by
    induction xs with
    | nil => rfl
    | cons x xs ih =>
        rw [List.map_cons, List.lookup_cons, List.find?_cons, ih, BEq.comm]
  unfold find?
  rw [List.lookup_append, hxs]

end Catalog

namespace Content

/-! ## Content that a pack has joined -/

/-- `after` is `content` with a pack in it. The cards of the pack are new and stand behind the
others; of the other definitions the last one of each name counts, before any that was there. -/
structure Joined (content : Content) (pack : Pack) (after : Content) : Prop where
  fresh : ∀ card ∈ pack.cards, ¬content.cards.contains card.id
  distinct : (pack.cards.map (·.id)).Nodup
  card : ∀ id, after.cards.find? id =
    (content.cards.find? id).or (pack.cards.find? (·.id == id))
  order : after.cards.names = content.cards.names ++ pack.cards.map (·.id)
  generated : ∀ theme, after.cards.generated theme =
    content.cards.generated theme ++ (pack.cards.filter (·.isGenerated theme)).map (·.id)
  power : ∀ id, after.powers.find? id =
    (pack.powers.reverse.find? (·.id == id)).or (content.powers.find? id)
  enemy : ∀ id, after.enemies.find? id =
    (pack.enemies.reverse.find? (·.id == id)).or (content.enemies.find? id)
  hero : ∀ id, after.heroes.find? id =
    (pack.heroes.reverse.find? (·.id == id)).or (content.heroes.find? id)
  relic : ∀ id, after.relics.find? id =
    (pack.relics.reverse.find? (·.id == id)).or (content.relics.find? id)

/-- How merging a pack ends: what the content is afterwards, and what was wrong. -/
inductive Merging (content : Content) (pack : Pack) : Content → Option ContentError → Prop
  /-- A card has a name that is taken. The cards of the pack before it are there, nothing else. -/
  | taken {added card rest after} (hcards : pack.cards = added ++ card :: rest)
      (h : content.Joined { cards := added } after) (htaken : after.cards.contains card.id) :
      Merging content pack after (some (.duplicateCard card.id))
  /-- All of the pack is there, and some reference leads nowhere. -/
  | dangling {after error} (h : content.Joined pack after)
      (hvalid : after.validate = .error error) : Merging content pack after (some error)
  /-- All of the pack is there, and all references lead somewhere. -/
  | done {after} (h : content.Joined pack after) (hvalid : after.validate = .ok ()) :
      Merging content pack after none

variable {content : Content} {pack : Pack}

/-- The cards that are there once a part of a pack was added. -/
theorem joined_withCards {cards : List CardDefinition}
    (hfresh : ∀ card ∈ cards, ¬content.cards.contains card.id)
    (hdistinct : (cards.map (·.id)).Nodup) :
    content.Joined { cards } (content.withCards cards) where
  fresh := hfresh
  distinct := hdistinct
  card id := Catalog.find?_behind content.cards cards id
  order := by simp [withCards, Catalog.names]
  generated theme := by
    have hcards : (cards.map fun card => (card.id, card)).map (·.2) = cards := by
      rw [List.map_map]
      exact List.map_id _
    unfold withCards Catalog.generated Catalog.values
    rw [List.map_append, hcards, List.filter_append, List.map_append]
  power _ := rfl
  enemy _ := rfl
  hero _ := rfl
  relic _ := rfl

/-- The other definitions of a pack behind its cards. -/
theorem joined_addRest {before : Content} (h : content.Joined { cards := pack.cards } before) :
    content.Joined pack (before.addRest pack) := by
  rw [addRest_eq]
  exact {
    fresh := h.fresh
    distinct := h.distinct
    card := h.card
    order := h.order
    generated := h.generated
    power := fun id => (Catalog.find?_putAll _ _ id).trans (by rw [h.power]; rfl)
    enemy := fun id => (Catalog.find?_putAll _ _ id).trans (by rw [h.enemy]; rfl)
    hero := fun id => (Catalog.find?_putAll _ _ id).trans (by rw [h.hero]; rfl)
    relic := fun id => (Catalog.find?_putAll _ _ id).trans (by rw [h.relic]; rfl) }

/-! ## Cards up to the first that is there -/

/-- Cards are added up to the first whose name is taken, by the content or by a card before it. -/
theorem addCards_eq_some {cards : List CardDefinition} {after : Content} {error : ContentError}
    (h : content.addCards cards = (after, some error)) :
    ∃ added card rest, cards = added ++ card :: rest ∧
      content.addCards added = (after, none) ∧ after.cards.contains card.id ∧
        error = .duplicateCard card.id := by
  induction cards generalizing content with
  | nil => exact absurd h (by simp [addCards])
  | cons card cards ih =>
      unfold addCards at h
      split at h
      case h_1 next hnext =>
        obtain ⟨added, found, rest, rfl, hadded, hfound⟩ := ih h
        exact ⟨card :: added, found, rest, rfl, by rw [addCards, hnext]; exact hadded, hfound⟩
      case h_2 refused hrefused =>
        obtain ⟨rfl, hrefused'⟩ := Prod.mk.inj h
        obtain rfl := Option.some.inj hrefused'
        unfold addCard Catalog.register? at hrefused
        by_cases hcard : content.cards.contains card.id
        · simp only [hcard, if_true, Except.error.injEq] at hrefused
          exact ⟨[], card, cards, rfl, rfl, hcard, hrefused.symm⟩
        · simp [hcard] at hrefused

/-! ## Merging -/

/-- **A merge is not undone.** If a card is refused, the cards of the pack before it are there and
nothing else has changed; if a reference leads nowhere, the whole pack is there; and if all is well,
the whole pack is there and validation passes. -/
theorem merging_extend (content : Content) (pack : Pack) :
    content.Merging pack (content.extend pack).1 (content.extend pack).2 := by
  have hjoined {cards : List CardDefinition} {before : Content}
      (h : content.addCards cards = (before, none)) : content.Joined { cards } before := by
    obtain ⟨hfresh, hdistinct, rfl⟩ := addCards_eq_none.mp h
    exact joined_withCards hfresh hdistinct
  unfold extend
  rcases hcards : content.addCards pack.cards with ⟨before, _ | error⟩
  · have hrest := joined_addRest (hjoined hcards)
    dsimp only
    cases hvalid : (before.addRest pack).validate with
    | ok => exact .done hrest hvalid
    | error error => exact .dangling hrest hvalid
  · obtain ⟨added, card, rest, hsplit, hadded, htaken, rfl⟩ := addCards_eq_some hcards
    exact .taken hsplit (hjoined hadded) htaken

/-- Two cards of one name. -/
def twinPack : Pack where
  cards :=
    [{ id := "twin", name := "Castor", theme := .skill, cost := .fixed 0 },
     { id := "twin", name := "Pollux", theme := .skill, cost := .fixed 0 }]

/-- A failed merge changes what is looked up, the order of the cards and what is generated. -/
theorem extend_keeps_first_twin :
    (({} : Content).extend twinPack).2 = some (.duplicateCard "twin") ∧
      (({} : Content).extend twinPack).1.cards.find? "twin" ≠ ({} : Content).cards.find? "twin" ∧
      (({} : Content).extend twinPack).1.cards.names ≠ ({} : Content).cards.names ∧
      (({} : Content).extend twinPack).1.cards.generated none ≠
        ({} : Content).cards.generated none := by
  refine ⟨by decide, ?_, by decide, by decide⟩
  exact fun h => absurd (congrArg Option.isSome h) (by decide)

end Content

end CardCombat
