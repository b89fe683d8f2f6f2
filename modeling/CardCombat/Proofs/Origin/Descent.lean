import CardCombat.Proofs.Card.Contents
import CardCombat.Proofs.Resolution.Prevails

/-!
# Where cards come from

Every card that a combat shows has an origin. It was known before, though it may have been changed
since: a change leaves a card its number, and if it gives it another definition then one of which
cards can be made. Or it was made meanwhile: then its number was given out meanwhile, so no card
that was ever there has had it, and its definition is one of which cards can be made, or that of a
card that it is a copy of.

An effect may make something of a card as it looked when it was found: a copy, or the candidate of a
selection. So what counts as known is not only what is shown, but also what is cited.

## Main definitions

* `Origin` -- where a card comes from.
* `Descends` -- every card that is shown has an origin in an earlier scene.

## Main results

* `Descends.flow`, `Descends.close` -- origins add up, and what was cited may have been shown.
* `descends_prevails` -- steps that cite no cards.
-/

namespace CardCombat

open Resolution

variable {rules : Rules} {may : Effect → Prop} {cited cited' : Card → Prop} {s t : Scene}
  {card : Card}

/-- The card is shown, or it is among those that are cited. -/
def Scene.Knows (cited : Card → Prop) (s : Scene) (card : Card) : Prop :=
  s.combat.Shows card ∨ cited card

/-- Where a card comes from that is there now: it was known in an earlier scene, with the same
number and, unless it became another card, the same definition; or it was made since, as numbers up
to `next` were given out. -/
inductive Origin (rules : Rules) (cited : Card → Prop) (s : Scene) (next : Nat) (card : Card) : Prop
  | known {found} (h : s.Knows cited found) (hu : card.uid = found.uid)
      (hd : card.definition = found.definition ∨ rules.Supplies card.definition)
  | made (hlow : s.combat.nextCardUid ≤ card.uid.number) (hhigh : card.uid.number < next)
      (hd : rules.Supplies card.definition ∨
        ∃ found, s.Knows cited found ∧ card.definition = found.definition)

/-- Every card that is shown has an origin in an earlier scene, or among the cited cards. -/
structure Descends (rules : Rules) (cited : Card → Prop) (s t : Scene) : Prop where
  next : s.combat.nextCardUid ≤ t.combat.nextCardUid
  origin : ∀ card, t.combat.Shows card → Origin rules cited s t.combat.nextCardUid card

namespace Origin

variable {next next' : Nat}

/-- A card that is known comes from where it is. -/
theorem of_knows (h : s.Knows cited card) : Origin rules cited s next card :=
  .known h rfl (.inl rfl)

theorem mono (h : Origin rules cited s next card) (hn : next ≤ next') :
    Origin rules cited s next' card := by
  cases h with
  | known h hu hd => exact .known h hu hd
  | made hlow hhigh hd => exact .made hlow (Nat.lt_of_lt_of_le hhigh hn) hd

/-- The definition of a card is one of which cards can be made, or that of a card that was known. -/
theorem definition (h : Origin rules cited s next card) : rules.Supplies card.definition ∨
    ∃ found, s.Knows cited found ∧ card.definition = found.definition := by
  cases h with
  | known h _ hd => exact hd.symm.imp_right fun hd => ⟨_, h, hd⟩
  | made _ _ hd => exact hd

/-- What became of a card comes from where that card came from. -/
theorem became {found : Card} (h : Origin rules cited s next found) (hu : card.uid = found.uid)
    (hd : card.definition = found.definition ∨ rules.Supplies card.definition) :
    Origin rules cited s next card := by
  rcases hd with hd | hd
  · cases h with
    | known h hu' hd' => exact .known h (hu.trans hu') (hd ▸ hd')
    | made hlow hhigh hd' => exact .made (hu ▸ hlow) (hu ▸ hhigh) (hd ▸ hd')
  · cases h with
    | known h hu' => exact .known h (hu.trans hu') (.inr hd)
    | made hlow hhigh => exact .made (hu ▸ hlow) (hu ▸ hhigh) (.inl hd)

end Origin

namespace Descends

/-- What is known later comes from somewhere. -/
theorem origin_of_knows (h : Descends rules cited s t) (hk : t.Knows cited card) :
    Origin rules cited s t.combat.nextCardUid card :=
  hk.elim (h.origin card) fun hcited => .of_knows (.inr hcited)

theorem flow : Flow (Descends rules cited) where
  refl _ := ⟨Nat.le_refl _, fun _ h => .of_knows (.inl h)⟩
  trans {s t u} h h' := by
    refine ⟨Nat.le_trans h.next h'.next, fun card hshown => ?_⟩
    cases h'.origin card hshown with
    | known hk hu hd => exact ((h.origin_of_knows hk).mono h'.next).became hu hd
    | made hlow hhigh hd =>
        refine .made (Nat.le_trans h.next hlow) hhigh ?_
        rcases hd with hd | ⟨found, hk, hd⟩
        · exact .inl hd
        · exact hd ▸ (h.origin_of_knows hk).definition

/-- **What was cited may be left out** if it was shown in the first place. -/
theorem close (h : Descends rules cited' s t) (hc : ∀ card, cited' card → s.Knows cited card) :
    Descends rules cited s t := by
  have hknows {card : Card} (hk : s.Knows cited' card) : s.Knows cited card :=
    hk.elim .inl (hc card)
  refine ⟨h.next, fun card hshown => ?_⟩
  cases h.origin card hshown with
  | known hk hu hd => exact .known (hknows hk) hu hd
  | made hlow hhigh hd => exact .made hlow hhigh (hd.imp_right fun ⟨found, hk, hd⟩ =>
      ⟨found, hknows hk, hd⟩)

theorem mono (h : Descends rules cited' s t) (hc : ∀ card, cited' card → cited card) :
    Descends rules cited s t := h.close fun card hcited => .inr (hc card hcited)

/-! ## What is shown afterwards -/

/-- No number was given out, and every card that is shown has an origin. -/
theorem of_origin (hn : t.combat.nextCardUid = s.combat.nextCardUid)
    (h : ∀ card, t.combat.Shows card → Origin rules cited s s.combat.nextCardUid card) :
    Descends rules cited s t := ⟨Nat.le_of_eq hn.symm, fun card hshown => hn ▸ h card hshown⟩

/-- Nothing has changed but what the piles and the play hold, and that was shown before. -/
theorem of_parts (hn : t.combat.nextCardUid = s.combat.nextCardUid)
    (hpile : ∀ card, t.combat.piles.Has card → s.combat.Shows card)
    (hplay : ∀ entry ∈ t.combat.inPlay, s.combat.Shows entry.card)
    (hlast : t.combat.lastPlayed = s.combat.lastPlayed)
    (hpending : t.combat.pending = s.combat.pending) : Descends rules cited s t :=
  of_origin hn fun _ hshown => .of_knows (.inl (hshown.of_parts (hpile _)
    (fun entry hmem hc => hc ▸ hplay entry hmem) hlast hpending))

/-- Nothing has changed that holds cards. -/
theorem of_same (hn : t.combat.nextCardUid = s.combat.nextCardUid)
    (hpiles : t.combat.piles = s.combat.piles) (hplay : t.combat.inPlay = s.combat.inPlay)
    (hlast : t.combat.lastPlayed = s.combat.lastPlayed)
    (hpending : t.combat.pending = s.combat.pending) : Descends rules cited s t :=
  of_parts hn (fun _ hhas => .pile (hpiles ▸ hhas))
    (fun _ hmem => .inPlay (hplay ▸ hmem) rfl) hlast hpending

/-- Only the piles have changed, and they hold nothing that was not shown. -/
theorem of_piles {piles : Piles} (rng : Rng)
    (h : ∀ card, piles.Has card → s.combat.Shows card) :
    Descends rules cited s { s.withPiles piles with rng } :=
  of_parts rfl h (fun _ hmem => .inPlay hmem rfl) rfl rfl

theorem report (h : Descends rules cited s t) (event : Event) :
    Descends rules cited s (t.report event) := flow.trans h (of_same rfl rfl rfl rfl rfl)

theorem record (h : Descends rules cited s t) (deed : Deed) :
    Descends rules cited s (t.record deed) := flow.trans h (of_same rfl rfl rfl rfl rfl)

theorem tell (h : Descends rules cited s t) (events : List Event) :
    Descends rules cited s (t.tell events) := by
  rw [Scene.tell_eq]
  exact flow.trans h (of_same rfl rfl rfl rfl rfl)

theorem of_setCombatant (id : CombatantId) (combatant : Combatant) :
    Descends rules cited s (s.setCombatant id combatant) := by
  obtain ⟨player, enemies, hcombat⟩ := s.combat_setCombatant id combatant
  exact of_same (by rw [hcombat]) (by rw [hcombat]) (by rw [hcombat]) (by rw [hcombat])
    (by rw [hcombat])

theorem of_damages {source target : CombatantId} {outcome : DamageReport}
    (h : Damages source target outcome s t) : Descends rules cited s t := by
  cases h with
  | mk => exact flow.trans (of_setCombatant _ _) (of_same rfl rfl rfl rfl rfl)

/-- A card has come into a pile that has an origin. -/
theorem arrive (h : Descends rules cited s t)
    (hcard : Origin rules cited s t.combat.nextCardUid card) (pile : Pile)
    (placement : Placement) : Descends rules cited s (t.arrive card pile placement) := by
  refine ⟨h.next, fun other hshown => ?_⟩
  by_cases heq : other = card
  · exact heq ▸ hcard
  · refine h.origin other (hshown.of_parts (fun hhas => ?_) (fun _ hmem hc => .inPlay hmem hc)
      rfl rfl)
    exact .pile ((Piles.has_put_iff.mp hhas).resolve_left heq)

/-- Numbers have been given out. -/
theorem issue (h : Descends rules cited s t) (count : Nat) :
    Descends rules cited s (t.issue count) := by
  refine ⟨Nat.le_trans h.next (Nat.le_add_right _ _), fun card hshown => ?_⟩
  have hbefore : t.combat.Shows card := hshown.of_parts (fun hhas => .pile hhas)
    (fun _ hmem hc => .inPlay hmem hc) rfl rfl
  exact (h.origin card hbefore).mono (Nat.le_add_right _ _)

/-- The player was asked to choose among cards that have origins. -/
theorem ask {selection : Selection} (h : Descends rules cited s t)
    (hc : ∀ card ∈ selection.candidates, Origin rules cited s t.combat.nextCardUid card) :
    Descends rules cited s (t.ask selection) := by
  refine ⟨h.next, fun card hshown => ?_⟩
  cases hshown with
  | pile hhas => exact h.origin card (.pile hhas)
  | inPlay hmem hcard => exact h.origin card (.inPlay hmem hcard)
  | lastPlayed hlast => exact h.origin card (.lastPlayed hlast)
  | candidate hpending hmem => exact hc card (Option.some.inj hpending ▸ hmem)

/-- A card has come into a pile that was just made. -/
theorem created (hu : card.uid = ⟨s.combat.nextCardUid⟩)
    (hd : rules.Supplies card.definition ∨
      ∃ found, s.Knows cited found ∧ card.definition = found.definition) (pile : Pile)
    (placement : Placement) : Descends rules cited s ((s.issue 1).arrive card pile placement) := by
  refine ((flow.refl s).issue 1).arrive (.made ?_ ?_ hd) pile placement
  · exact hu ▸ Nat.le_refl _
  · exact hu ▸ Nat.lt_succ_self _

/-! ## Steps -/

/-- A card is put under a pile that was shown. -/
theorem has_add {piles : Piles} {other : Card} (pile : Pile) (hcard : s.combat.Shows card)
    (hpiles : ∀ card, piles.Has card → s.combat.Shows card)
    (h : (piles.set pile (piles.get pile ++ [card])).Has other) : s.combat.Shows other := by
  rcases Piles.has_set h with hmem | hhas
  · rcases List.mem_append.mp hmem with hmem | hmem
    · exact hpiles other ⟨pile, hmem⟩
    · exact List.mem_singleton.mp hmem ▸ hcard
  · exact hpiles other hhas

theorem of_route (uid : CardUid) (before : Option Route) (after : Route) :
    Descends rules cited s (s.route uid before after) :=
  of_origin rfl fun _ hshown => .of_knows (.inl (Combat.shows_route hshown))

/-- **Every plain step** of effects that cite no cards. -/
theorem of_step (hquiet : ∀ effect, may effect → effect.shows = false) (h : Step rules may s t) :
    Descends rules cited s t := by
  have hno : ¬∃ effect, may effect ∧ effect.shows = true :=
    fun ⟨effect, hmay, hshows⟩ => absurd ((hquiet effect hmay).symm.trans hshows) nofun
  cases h with
  | altered => exact (of_setCombatant _ _).tell _
  | damaged h => exact of_damages h
  | energy | gold =>
      refine tell ?_ _
      exact of_same rfl rfl rfl rfl rfl
  | shuffled h => exact of_piles _ fun _ hhas => .pile (Piles.has_of_shuffle h hhas)
  | reshuffled h => exact (of_piles _ fun _ hhas => .pile (Piles.has_of_reshuffle h hhas)).record _
  | drawn _ h =>
      obtain ⟨hcard, hrest⟩ := Piles.has_of_popDraw? h
      refine of_piles _ fun card hhas => ?_
      exact has_add .hand (.pile hcard) (fun other hhas => .pile (hrest other hhas)) hhas
  | milled h =>
      obtain ⟨hcard, hrest⟩ := Piles.has_of_popDraw? h
      refine report (of_piles s.rng fun card hhas => ?_) _
      exact has_add .discardPile (.pile hcard) (fun other hhas => .pile (hrest other hhas)) hhas
  | moved h =>
      exact ((of_piles _ fun _ hhas => .pile (Piles.has_of_move h hhas)).record _).report _
  | @brought uid source card piles pile placement event h =>
      obtain ⟨hcard, hrest⟩ := Piles.has_of_take? h
      have htaken : Descends rules cited s (s.withPiles piles) :=
        of_piles s.rng fun other hhas => .pile (hrest other hhas)
      exact (htaken.arrive (.of_knows (.inl (.pile hcard))) _ _).report _
  | @removed uid source card piles h =>
      obtain ⟨-, hrest⟩ := Piles.has_of_take? h
      have htaken : Descends rules cited s (s.withPiles piles) :=
        of_piles s.rng fun other hhas => .pile (hrest other hhas)
      exact flow.trans htaken (of_same rfl rfl rfl rfl rfl)
  | sent => exact (of_route _ _ _).report _
  | recalled h =>
      have hshown := Combat.shows_of_findInPlay? h
      exact ((of_route _ _ _).arrive (.of_knows (.inl hshown)) _ _).report _
  | changed hf hu _ hd =>
      refine report (of_origin (Combat.same_modifyCard Combat.nextCardUid fun _ _ => rfl)
        fun other hshown => ?_) _
      rcases Combat.shows_modifyCard hshown with rfl | hshown
      · exact .known (.inl (Combat.shows_of_card? hf)) hu hd
      · exact .of_knows (.inl hshown)
  | issued count => exact (flow.refl s).issue count
  | created hu hd => exact (created hu (.inl (hd.resolve_right hno)) _ _).report _
  | asked _ _ _ _ _ hs =>
      refine (flow.refl s).ask fun card hmem => .of_knows (.inl (.pile ?_))
      exact hs.resolve_right hno card hmem
  | @offered _ candidates _ _ hu hd =>
      refine ((flow.refl s).issue _).ask fun card hmem => ?_
      have hnumber : card.uid.number ∈ candidates.map (·.uid.number) := List.mem_map_of_mem hmem
      rw [hu] at hnumber
      obtain ⟨hlow, hhigh⟩ := List.mem_range'_1.mp hnumber
      exact .made hlow hhigh (.inl (hd card hmem))
  | drew | told | acted | energyNextTurn => exact of_same rfl rfl rfl rfl rfl

theorem of_blow (h : Blow rules s t) : Descends rules cited s t := by
  cases h with
  | damaged h => exact of_damages h
  | setHealth | executed => exact (of_setCombatant _ _).report _
  | died | counted | acted | buried => exact of_same rfl rfl rfl rfl rfl

theorem of_opens (h : Opens card s t) : Descends rules cited s t := by
  cases h with
  | mk h =>
      obtain ⟨hcard, hrest⟩ := Piles.has_of_popDraw? h
      refine of_parts rfl (fun other hhas => .pile (hrest other hhas)) (fun entry hmem => ?_)
        rfl rfl
      rcases List.mem_append.mp hmem with hmem | hmem
      · exact .inPlay hmem rfl
      · exact List.mem_singleton.mp hmem ▸ .pile hcard

theorem of_closes {uid : CardUid} (h : Closes rules uid s t) : Descends rules cited s t := by
  cases h with
  | nothing => exact flow.refl s
  | @mk played combat h =>
      obtain ⟨entry, hfind, h⟩ := Option.bind_eq_some_iff.mp h
      obtain ⟨rfl, rfl⟩ := Prod.mk.inj (Option.some.inj h)
      have hcard := Combat.shows_of_findInPlay? hfind
      have hplay (other : ActiveCard)
          (hmem : other ∈ (s.combat.inPlay.reverse.eraseP (·.card.uid == uid)).reverse) :
          s.combat.Shows other.card :=
        .inPlay (List.mem_reverse.mp (List.mem_of_mem_eraseP (List.mem_reverse.mp hmem))) rfl
      generalize Resolution.routeOf rules entry = route
      cases route with
      | discard =>
          exact of_parts rfl (fun _ hhas => has_add .discardPile hcard
            (fun _ => .pile) hhas) hplay rfl rfl
      | exhaust =>
          exact of_parts rfl (fun _ hhas => has_add .exhaustPile hcard
            (fun _ => .pile) hhas) hplay rfl rfl
      | banished | elsewhere => exact of_parts rfl (fun _ hhas => .pile hhas) hplay rfl rfl

end Descends

/-- **Every step of effects that cite no cards** shows only cards that have an origin. -/
theorem descends_prevails (hquiet : ∀ effect, may effect → effect.shows = false) :
    Prevails rules may (Descends rules cited) :=
  ⟨Descends.flow, Descends.of_step hquiet, Descends.of_blow, Descends.of_opens, Descends.of_closes⟩

end CardCombat
