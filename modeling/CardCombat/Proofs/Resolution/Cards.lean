import CardCombat.Proofs.Random.Draws
import CardCombat.Proofs.Resolution.Fighters
import CardCombat.Resolve.CardEffect
import CardCombat.Resolve.Deck

/-!
# Effects on cards

The effects that draw, move, change and make cards are courses of plain steps. A step never takes a
card away from one place without saying what becomes of it, so these steps are coarser than the
primitives of which the effects are written: taking a card and putting it somewhere is one step.
Most of them tell of what they change; drawing and shuffling do so only as a whole, when they are
done.

## Main results

* `Resolution.bring_course`, `Resolution.sendAway_course` -- a card is moved from wherever it is.
* `Resolution.drawCards_course` and the like -- the effects.
-/

namespace CardCombat.Resolution

variable {rules : Rules} {may : Effect → Prop} {s t : Scene} {ctx : Context}

/-! ## Every card that is aimed at -/

theorem forCards_course {target : CardAim} {limit : Option Nat} {act : Card → Resolution Unit}
    (hact : ∀ card, Ensures (Telling rules may) (act card)) :
    Ensures (Telling rules may) (forCards rules target limit ctx act) := by
  refine Ensures.bind Telling.flow ⟨fun h => ?_⟩ fun found =>
    Ensures.forM Telling.flow fun card _ => hact card
  obtain ⟨rng, -, rfl⟩ := run_cards_iff.mp h
  exact .drew rng

theorem draw_course {α : Type} {x : Draw α} : Ensures (Telling rules may) (draw x) := by
  refine ⟨fun h => ?_⟩
  obtain ⟨-, rfl⟩ := run_draw_iff.mp h
  exact .drew _

theorem cards_course {target : CardAim} {limit : Option Nat} :
    Ensures (Telling rules may) (cards rules target limit ctx) := by
  refine ⟨fun h => ?_⟩
  obtain ⟨rng, -, rfl⟩ := run_cards_iff.mp h
  exact .drew rng

/-! ## Arriving and leaving -/

theorem run_place_iff {card : Card} {pile landed : Pile} {placement : Placement} :
    (place rules card pile placement).run s = .ok (landed, t) ↔
      s.landing rules pile = landed ∧ s.arrive card landed placement = t := by
  unfold place
  simp only [run_bind_iff, run_combat_iff, run_draw_iff, run_setPiles_iff, run_record_iff,
    run_pure_iff]
  constructor
  · rintro ⟨_, _, ⟨rfl, rfl⟩, _, _, ⟨rfl, rfl⟩, _, _, rfl, _, _, rfl, rfl, rfl⟩
    exact ⟨rfl, rfl⟩
  · rintro ⟨rfl, rfl⟩
    exact ⟨_, _, ⟨rfl, rfl⟩, _, _, ⟨rfl, rfl⟩, (), _, rfl, (), _, rfl, rfl, rfl⟩

theorem run_newUid {uid : CardUid} (h : newUid.run s = .ok (uid, t)) :
    uid = ⟨s.combat.nextCardUid⟩ ∧ t = s.issue 1 := by
  unfold newUid Combat.issueCardUid at h
  simp only [run_bind_iff, run_combat_iff, run_lift_iff, run_modifyCombat_iff, run_pure_iff] at h
  obtain ⟨_, _, ⟨rfl, rfl⟩, ⟨uid', combat⟩, _, ⟨hissue, rfl⟩, _, _, rfl, rfl, rfl⟩ := h
  obtain ⟨next, hnext, hissue⟩ := bind_eq_ok.mp hissue
  obtain ⟨-, rfl⟩ := Unsigned.add_eq_ok_iff.mp hnext
  obtain ⟨rfl, rfl⟩ := Prod.mk.inj (Except.ok.inj hissue)
  exact ⟨rfl, rfl⟩

theorem run_makeCard {definition : CardId} {upgraded : Bool} {card : Card}
    (h : (makeCard definition upgraded).run s = .ok (card, t)) :
    card = { uid := ⟨s.combat.nextCardUid⟩, definition, upgraded } ∧ t = s.issue 1 := by
  obtain ⟨uid, _, huid, h⟩ := run_bind_iff.mp h
  obtain ⟨rfl, rfl⟩ := run_newUid huid
  obtain ⟨rfl, rfl⟩ := run_pure_iff.mp h
  exact ⟨rfl, rfl⟩

/-- A card that was just made comes into a pile. -/
theorem placeNew_course {card : Card} {pile : Pile} {placement : Placement} {u : Unit}
    (hu : card.uid = ⟨s.combat.nextCardUid⟩)
    (hd : rules.Supplies card.definition ∨ ∃ effect, may effect ∧ effect.shows)
    (h : (placeNew rules card pile placement).run (s.issue 1) = .ok (u, t)) :
    Telling rules may s t := by
  unfold placeNew at h
  simp only [run_bind_iff, run_place_iff, run_report_iff] at h
  obtain ⟨_, _, ⟨rfl, rfl⟩, rfl⟩ := h
  exact .of_report (.created hu hd) (Nat.le_refl _)

theorem run_setRoute_none {uid : CardUid} {route : Route}
    (h : (setRoute uid route).run s = .ok (none, t)) : s.combat.findInPlay? uid = none ∧ s = t := by
  unfold setRoute at h
  simp only [run_bind_iff, run_combat_iff] at h
  obtain ⟨_, _, ⟨rfl, rfl⟩, h⟩ := h
  split at h
  · exact ⟨‹_›, (run_pure_iff.mp h).2⟩
  · simp only [run_bind_iff, run_modifyCombat_iff, run_record_iff, run_pure_iff] at h
    obtain ⟨_, _, _, _, _, _, h, _⟩ := h
    exact absurd h (by simp)

theorem run_setRoute_some {uid : CardUid} {route : Route} {card : Card}
    (h : (setRoute uid route).run s = .ok (some card, t)) :
    ∃ entry, s.combat.findInPlay? uid = some entry ∧ entry.card = card ∧
      s.route uid entry.route route = t := by
  unfold setRoute at h
  simp only [run_bind_iff, run_combat_iff] at h
  obtain ⟨_, _, ⟨rfl, rfl⟩, h⟩ := h
  split at h
  · exact absurd (run_pure_iff.mp h).1 (by simp)
  · rename_i entry hentry
    simp only [run_bind_iff, run_modifyCombat_iff, run_record_iff, run_pure_iff] at h
    obtain ⟨_, _, rfl, _, _, rfl, hcard, rfl⟩ := h
    exact ⟨entry, hentry, Option.some.inj hcard, rfl⟩

/-- A card is brought into a pile from wherever it is, and an event tells of it. -/
theorem bring_course {uid : CardUid} {pile : Pile} {placement : Placement} {landed : Option Pile}
    {event : Pile → Event} {v : Scene} {u : Unit}
    (he : (∀ landed, event landed = .putOnDeck uid) ∧ pile = .drawPile ∨
      ∃ definition, ∀ landed, event landed = .addCard uid definition landed)
    (h : (bring rules uid pile placement).run s = .ok (landed, v))
    (ht : (match landed with
      | some landed => report (event landed)
      | none => return).run v = .ok (u, t)) : Telling rules may s t := by
  have hevent (landed : Pile) : event landed = .putOnDeck uid ∨
      ∃ definition, event landed = .addCard uid definition landed :=
    he.imp (·.1 landed) fun ⟨definition, h⟩ => ⟨definition, h landed⟩
  have hpile (landed : Pile) (hput : event landed = .putOnDeck uid) : pile = .drawPile := by
    rcases he with ⟨-, hpile⟩ | ⟨definition, hadd⟩
    · exact hpile
    · exact absurd ((hadd landed).symm.trans hput) (by simp)
  unfold bring at h
  obtain ⟨found, w, hfound, h⟩ := run_bind_iff.mp h
  cases found with
  | some card =>
      obtain ⟨entry, hentry, rfl, rfl⟩ := run_setRoute_some hfound
      simp only [run_bind_iff, run_place_iff, run_pure_iff] at h
      obtain ⟨_, _, ⟨rfl, rfl⟩, rfl, rfl⟩ := h
      obtain rfl := run_report_iff.mp ht
      exact .of_report (.recalled hentry (hevent _) (hpile _)) (Nat.le_refl _)
  | none =>
      obtain ⟨-, rfl⟩ := run_setRoute_none hfound
      simp only [run_bind_iff, run_combat_iff] at h
      obtain ⟨_, _, ⟨rfl, rfl⟩, h⟩ := h
      split at h
      case h_1 =>
        obtain ⟨rfl, rfl⟩ := run_pure_iff.mp h
        obtain ⟨-, rfl⟩ := run_pure_iff.mp ht
        exact .refl
      case h_2 source card piles htake =>
        simp only [run_bind_iff, run_setPiles_iff, run_place_iff, run_pure_iff] at h
        obtain ⟨_, _, rfl, _, _, ⟨rfl, rfl⟩, rfl, rfl⟩ := h
        obtain rfl := run_report_iff.mp ht
        exact .of_report (.brought htake (hevent _) (hpile _)) (Nat.le_refl _)

theorem run_moveTo {uid : CardUid} {pile : Pile} {source : Option Pile}
    (h : (moveTo uid pile).run s = .ok (source, t)) :
    ∃ piles rng, (s.combat.piles.move uid pile .bottom).run s.rng = ((source, piles), rng) ∧
      (source.isSome = true ∧
          ({ s.withPiles piles with rng } : Scene).record (.landed uid pile) = t ∨
        source.isSome = false ∧ { s.withPiles piles with rng } = t) := by
  unfold moveTo at h
  simp only [run_bind_iff, run_combat_iff, run_draw_iff, run_setPiles_iff, run_onlyIf_iff,
    run_record_iff, run_pure_iff] at h
  obtain ⟨_, _, ⟨rfl, rfl⟩, ⟨source, piles⟩, _, ⟨hmove, rfl⟩, _, _, rfl, _, _, hlanded, rfl,
    rfl⟩ := h
  exact ⟨piles, _, Prod.ext hmove rfl, hlanded⟩

theorem run_moveTo_none {uid : CardUid} {pile : Pile}
    (h : (moveTo uid pile).run s = .ok (none, t)) :
    s.combat.piles.take? uid = none ∧ s = t := by
  obtain ⟨piles, rng, hmove, ⟨habsurd, -⟩ | ⟨-, rfl⟩⟩ := run_moveTo h
  · exact absurd habsurd nofun
  unfold Piles.move at hmove
  cases htake : s.combat.piles.take? uid with
  | none =>
      rw [htake] at hmove
      obtain ⟨hsame, rfl⟩ := Prod.mk.inj hmove
      obtain ⟨-, rfl⟩ := Prod.mk.inj hsame
      exact ⟨rfl, rfl⟩
  | some taken =>
      rw [htake] at hmove
      exact absurd (Prod.mk.inj (Prod.mk.inj hmove).1).1 nofun

theorem run_moveTo_some {uid : CardUid} {pile source : Pile}
    (h : (moveTo uid pile).run s = .ok (some source, t)) :
    ∃ piles rng, (s.combat.piles.move uid pile .bottom).run s.rng = ((some source, piles), rng) ∧
      ({ s.withPiles piles with rng } : Scene).record (.landed uid pile) = t := by
  obtain ⟨piles, rng, hmove, ⟨-, rfl⟩ | ⟨habsurd, -⟩⟩ := run_moveTo h
  · exact ⟨piles, rng, hmove, rfl⟩
  · exact absurd habsurd nofun

/-- A card in a pile is moved to another one, and an event tells of it. -/
theorem moveTo_course {uid : CardUid} {pile : Pile} {event : Event}
    (he : pile = .discardPile ∧ event = .discard uid ∨
      pile = .exhaustPile ∧ event = .exhaust uid) :
    Ensures (Telling rules may) (do if (← moveTo uid pile).isSome then report event) := by
  refine ⟨fun {s u t} h => ?_⟩
  obtain ⟨source, v, hmove, h⟩ := run_bind_iff.mp h
  cases source with
  | none =>
      obtain ⟨-, rfl⟩ := run_moveTo_none hmove
      obtain ⟨-, rfl⟩ := run_pure_iff.mp h
      exact .refl
  | some source =>
      obtain ⟨piles, rng, hrun, rfl⟩ := run_moveTo_some hmove
      obtain rfl := run_report_iff.mp h
      exact .of_report (.moved hrun he) (Nat.le_refl _)

/-- A card is sent away: one in play by its route, and one that lies elsewhere by `ofPile`. -/
theorem sendAway_course {uid : CardUid} {route : Route} {event : Event}
    {ofPile : Resolution Bool}
    (hroute : route = .discard ∧ event = .discard uid ∨ route = .exhaust ∧ event = .exhaust uid ∨
      route = .banished ∧ event = .banish uid)
    (hpile : Ensures (Telling rules may) (do if ← ofPile then report event)) :
    Ensures (Telling rules may) (do if ← sendAway uid route ofPile then report event) := by
  refine ⟨fun {s u t} h => ?_⟩
  obtain ⟨sent, v, hsent, h⟩ := run_bind_iff.mp h
  obtain ⟨found, w, hfound, hsent⟩ := run_bind_iff.mp hsent
  cases found with
  | some card =>
      obtain ⟨entry, hentry, -, rfl⟩ := run_setRoute_some hfound
      obtain ⟨rfl, rfl⟩ := run_pure_iff.mp hsent
      obtain rfl := run_report_iff.mp h
      exact .of_report (.sent hentry hroute) (Nat.le_refl _)
  | none =>
      obtain ⟨-, rfl⟩ := run_setRoute_none hfound
      exact hpile (run_bind_iff.mpr ⟨sent, v, hsent, h⟩)

theorem retireTo_course {uid : CardUid} {pile : Pile} {event : Event}
    (he : pile = .discardPile ∧ event = .discard uid ∨
      pile = .exhaustPile ∧ event = .exhaust uid) :
    Ensures (Telling rules may) (do if ← retireTo uid pile then report event) := by
  refine ⟨fun {s u t} h => ?_⟩
  obtain ⟨retired, v, hretired, h⟩ := run_bind_iff.mp h
  unfold retireTo at hretired
  obtain ⟨_, _, hcombat, hretired⟩ := run_bind_iff.mp hretired
  obtain ⟨rfl, rfl⟩ := run_combat_iff.mp hcombat
  split at hretired
  · obtain ⟨rfl, rfl⟩ := run_pure_iff.mp hretired
    obtain ⟨-, rfl⟩ := run_pure_iff.mp h
    exact .refl
  · obtain ⟨source, w, hmove, hretired⟩ := run_bind_iff.mp hretired
    obtain ⟨rfl, rfl⟩ := run_pure_iff.mp hretired
    exact moveTo_course he (run_bind_iff.mpr ⟨source, w, hmove, h⟩)

theorem remove_course {uid : CardUid} :
    Ensures (Telling rules may) (do if ← remove uid then report (.banish uid)) := by
  refine ⟨fun {s u t} h => ?_⟩
  obtain ⟨removed, v, hremoved, h⟩ := run_bind_iff.mp h
  unfold remove at hremoved
  obtain ⟨_, _, hcombat, hremoved⟩ := run_bind_iff.mp hremoved
  obtain ⟨rfl, rfl⟩ := run_combat_iff.mp hcombat
  split at hremoved
  case h_1 =>
    obtain ⟨rfl, rfl⟩ := run_pure_iff.mp hremoved
    obtain ⟨-, rfl⟩ := run_pure_iff.mp h
    exact .refl
  case h_2 source card piles htake =>
    simp only [run_bind_iff, run_setPiles_iff, run_record_iff, run_pure_iff] at hremoved
    obtain ⟨_, _, rfl, _, _, rfl, rfl, rfl⟩ := hremoved
    obtain rfl := run_report_iff.mp h
    exact .of_report (.removed htake) (Nat.le_refl _)

theorem discardCard_course (uid : CardUid) : Ensures (Telling rules may) (discardCard uid) :=
  sendAway_course (.inl ⟨rfl, rfl⟩) (retireTo_course (.inl ⟨rfl, rfl⟩))

theorem exhaustCard_course (uid : CardUid) : Ensures (Telling rules may) (exhaustCard uid) :=
  sendAway_course (.inr (.inl ⟨rfl, rfl⟩)) (retireTo_course (.inr ⟨rfl, rfl⟩))

theorem banishCard_course (uid : CardUid) : Ensures (Telling rules may) (banishCard uid) :=
  sendAway_course (.inr (.inr ⟨rfl, rfl⟩)) remove_course

/-- The player is asked, or there is nothing to ask. -/
theorem telling_of_ask {kind : SelectionKind} {candidates : List Card} {min max : Nat} {u : Unit}
    (hk : ∀ pile, kind ≠ .discover pile) (hm : candidates ≠ [] → 1 ≤ max)
    (ht : ∀ pile, kind = .tutor pile → max = 1)
    (hs : (∀ card ∈ candidates, ∃ pile, card ∈ s.combat.piles.get pile) ∨
      ∃ effect, may effect ∧ effect.shows)
    (h : (ask kind candidates min max).run s = .ok (u, t)) : Telling rules may s t := by
  obtain ⟨_, _, hcombat, h⟩ := run_bind_iff.mp h
  obtain ⟨rfl, rfl⟩ := run_combat_iff.mp hcombat
  split at h
  case isTrue hask =>
    simp only [run_bind_iff, run_modifyCombat_iff, run_report_iff] at h
    obtain ⟨_, _, rfl, rfl⟩ := h
    obtain ⟨hc, hp⟩ := Bool.and_eq_true_iff.mp hask
    have hsome : candidates ≠ [] := by simpa using hc
    exact .of_report (.asked hk hsome (by simpa using hp) (hm hsome) ht hs) (Nat.le_refl _)
  case isFalse =>
    obtain ⟨-, rfl⟩ := run_pure_iff.mp h
    exact .refl

theorem fetch_course (card : Card) (pile : Pile) :
    Ensures (Telling rules may) (fetch rules card pile) := by
  refine ⟨fun {s u t} h => ?_⟩
  obtain ⟨landed, v, hbring, h⟩ := run_bind_iff.mp h
  exact bring_course (.inr ⟨card.definition, fun _ => rfl⟩) hbring h

/-! ## Moving -/

theorem discardCards_course (amount : Value) (target : CardAim) (playerChoice : Bool) :
    Ensures (Telling rules may) (discardCards rules amount target playerChoice ctx) := by
  apply Ensures.count Telling.flow
  intro count
  split
  case isTrue hcount =>
    split
    · refine ⟨fun {s u t} h => ?_⟩
      obtain ⟨_, _, hcombat, h⟩ := run_bind_iff.mp h
      obtain ⟨rfl, rfl⟩ := run_combat_iff.mp hcombat
      refine telling_of_ask (by simp) (fun _ => ?_) (by simp) (.inl fun card hmem => ?_) h
      · exact Nat.one_le_iff_ne_zero.mpr (bne_iff_ne.mp hcount)
      · exact ⟨.hand, hmem⟩
    · exact forCards_course fun card => discardCard_course card.uid
  case isFalse => exact Ensures.pure Telling.flow ()

theorem exhaustCards_course (amount : Value) (target : CardAim) :
    Ensures (Telling rules may) (exhaustCards rules amount target ctx) := by
  apply Ensures.count Telling.flow
  intro count
  split
  · exact forCards_course fun card => exhaustCard_course card.uid
  · exact Ensures.pure Telling.flow ()

theorem banishCards_course {amount : Value} {target : CardAim} {playerChoice : Bool}
    (hmay : may (.banish amount target playerChoice)) :
    Ensures (Telling rules may) (banishCards rules amount target playerChoice ctx) := by
  apply Ensures.count Telling.flow
  intro count
  split
  case isTrue hcount =>
    split
    · refine Ensures.bind Telling.flow cards_course fun found => ⟨fun h =>
        telling_of_ask (by simp) (fun _ => ?_) (by simp) (.inr ⟨_, hmay, rfl⟩) h⟩
      exact Nat.one_le_iff_ne_zero.mpr (bne_iff_ne.mp hcount)
    · exact forCards_course fun card => banishCard_course card.uid
  case isFalse => exact Ensures.pure Telling.flow ()

theorem putOnDeck_course (target : CardAim) (placement : Placement) :
    Ensures (Telling rules may) (putOnDeck rules target placement ctx) := by
  apply forCards_course
  intro card
  refine ⟨fun {s u t} h => ?_⟩
  obtain ⟨landed, v, hbring, h⟩ := run_bind_iff.mp h
  exact bring_course (.inl ⟨fun _ => rfl, rfl⟩) hbring h

theorem tutor_course {filter : Option CardFilter} {destination : Pile} {playerChoice : Bool}
    (hmay : may (.tutor filter destination playerChoice)) :
    Ensures (Telling rules may) (tutor rules filter destination playerChoice ctx) := by
  apply Ensures.bind Telling.flow cards_course
  intro found
  cases found with
  | nil => exact Ensures.pure Telling.flow ()
  | cons card others =>
      dsimp only
      split
      · exact ⟨fun h => telling_of_ask (by simp) (fun _ => Nat.le_refl 1) (fun _ _ => rfl)
          (.inr ⟨_, hmay, rfl⟩) h⟩
      · exact fetch_course card destination

/-! ## Drawing -/

theorem run_reshuffle {moved : Nat} (h : reshuffle.run s = .ok (moved, t)) :
    ∃ piles rng, s.combat.piles.reshuffle.run s.rng = ((moved, piles), rng) ∧
      ({ s.withPiles piles with rng } : Scene).record (.merged moved) = t := by
  unfold reshuffle at h
  simp only [run_bind_iff, run_combat_iff, run_draw_iff, run_setPiles_iff, run_record_iff,
    run_pure_iff] at h
  obtain ⟨_, _, ⟨rfl, rfl⟩, ⟨moved, piles⟩, _, ⟨hrun, rfl⟩, _, _, rfl, _, _, rfl, rfl, rfl⟩ := h
  exact ⟨piles, _, Prod.ext hrun rfl, rfl⟩

theorem hand_of_reshuffle {moved : Nat} (h : reshuffle.run s = .ok (moved, t)) :
    t.combat.piles.hand = s.combat.piles.hand := by
  obtain ⟨piles, rng, hrun, rfl⟩ := run_reshuffle h
  unfold Piles.reshuffle at hrun
  split at hrun
  · obtain ⟨-, rfl⟩ := Prod.mk.inj (Prod.mk.inj hrun).1
    rfl
  · obtain ⟨-, rfl⟩ := Prod.mk.inj (Prod.mk.inj hrun).1
    rfl

theorem reshuffle_course : Ensures (Course rules may) reshuffle := by
  refine ⟨fun {s moved t} h => ?_⟩
  obtain ⟨piles, rng, hrun, rfl⟩ := run_reshuffle h
  exact .of_step (.reshuffled hrun)

theorem report_course {event : Event} (h : event.IsNotice) :
    Ensures (Telling rules may) (report event) := by
  refine ⟨fun hrun => ?_⟩
  obtain rfl := run_report_iff.mp hrun
  exact .of_report (.told h) (Nat.le_refl _)

theorem refill_course : Ensures (Course rules may) refill := by
  refine Ensures.combat Course.flow fun combat => Ensures.onlyIf Course.flow ?_
  refine Ensures.bind Course.flow reshuffle_course fun moved => Ensures.onlyIf Course.flow ?_
  exact Ensures.course (report_course (by exact trivial))

/-- Filling the draw pile leaves the hand as it is. -/
theorem hand_of_refill {u : Unit} (h : refill.run s = .ok (u, t)) :
    t.combat.piles.hand = s.combat.piles.hand := by
  obtain ⟨_, _, hcombat, h⟩ := run_bind_iff.mp h
  obtain ⟨rfl, rfl⟩ := run_combat_iff.mp hcombat
  rcases run_onlyIf_iff.mp h with ⟨-, h⟩ | ⟨-, rfl⟩
  · obtain ⟨moved, v, hmoved, h⟩ := run_bind_iff.mp h
    have hv := hand_of_reshuffle hmoved
    rcases run_onlyIf_iff.mp h with ⟨-, h⟩ | ⟨-, rfl⟩
    · obtain rfl := run_report_iff.mp h
      exact hv
    · exact hv
  · rfl

theorem run_popDraw?_none (h : popDraw?.run s = .ok (none, t)) :
    s.combat.piles.drawPile = [] ∧ s = t := by
  obtain ⟨_, _, hcombat, h⟩ := run_bind_iff.mp h
  obtain ⟨rfl, rfl⟩ := run_combat_iff.mp hcombat
  split at h
  case h_1 hnone =>
    unfold Piles.popDraw? at hnone
    split at hnone
    · exact ⟨‹_›, (run_pure_iff.mp h).2⟩
    · exact absurd hnone nofun
  case h_2 =>
    obtain ⟨_, _, _, h⟩ := run_bind_iff.mp h
    exact absurd (run_pure_iff.mp h).1 (by simp)

theorem run_popDraw?_some {card : Card} (h : popDraw?.run s = .ok (some card, t)) :
    ∃ piles, s.combat.piles.popDraw? = some (card, piles) ∧ s.withPiles piles = t := by
  obtain ⟨_, _, hcombat, h⟩ := run_bind_iff.mp h
  obtain ⟨rfl, rfl⟩ := run_combat_iff.mp hcombat
  split at h
  · exact absurd (run_pure_iff.mp h).1 (by simp)
  · simp only [run_bind_iff, run_setPiles_iff, run_pure_iff] at h
    obtain ⟨_, _, rfl, hcard, rfl⟩ := h
    obtain rfl := Option.some.inj hcard
    exact ⟨_, ‹_›, rfl⟩

theorem run_intoHand_iff {card : Card} {u : Unit} :
    (intoHand card).run s = .ok (u, t) ↔
      s.withPiles { s.combat.piles with hand := s.combat.piles.hand ++ [card] } = t := by
  unfold intoHand
  simp only [run_bind_iff, run_combat_iff, run_setPiles_iff]
  exact ⟨fun ⟨_, _, ⟨hc, hs⟩, h⟩ => by subst hc hs; exact h, fun h => ⟨_, _, ⟨rfl, rfl⟩, h⟩⟩

theorem run_ontoDiscard_iff {card : Card} {u : Unit} :
    (ontoDiscard card).run s = .ok (u, t) ↔
      s.withPiles { s.combat.piles with discardPile := s.combat.piles.discardPile ++ [card] } =
        t := by
  unfold ontoDiscard
  simp only [run_bind_iff, run_combat_iff, run_setPiles_iff]
  exact ⟨fun ⟨_, _, ⟨hc, hs⟩, h⟩ => by subst hc hs; exact h, fun h => ⟨_, _, ⟨rfl, rfl⟩, h⟩⟩

theorem drawCard_course : Ensures (Course rules may) (drawCard rules) := by
  refine ⟨fun {s drawn t} h => ?_⟩
  obtain ⟨_, _, hcombat, h⟩ := run_bind_iff.mp h
  obtain ⟨rfl, rfl⟩ := run_combat_iff.mp hcombat
  split at h
  case isTrue =>
    obtain ⟨-, rfl⟩ := run_pure_iff.mp h
    exact .refl
  case isFalse hroom =>
    obtain ⟨_, v, hrefill, h⟩ := run_bind_iff.mp h
    apply (refill_course hrefill).trans
    obtain ⟨found, w, hfound, h⟩ := run_bind_iff.mp h
    cases found with
    | none =>
        obtain ⟨-, rfl⟩ := run_popDraw?_none hfound
        obtain ⟨-, rfl⟩ := run_pure_iff.mp h
        exact .refl
    | some card =>
        obtain ⟨piles, hpop, rfl⟩ := run_popDraw?_some hfound
        simp only [run_bind_iff, run_intoHand_iff, run_pure_iff] at h
        obtain ⟨_, _, rfl, -, rfl⟩ := h
        have hsize : v.combat.piles.size .hand < rules.config.handLimit := by
          unfold Piles.size Piles.get at hroom ⊢
          rw [hand_of_refill hrefill]
          exact Nat.not_le.mp hroom
        exact Course.of_step (.drawn hsize hpop)

theorem drawCards_course (count : Nat) : Ensures (Course rules may) (drawCards rules count) := by
  apply Ensures.bind Course.flow (Ensures.upTo Course.flow drawCard_course count)
  intro drawn
  split
  · exact Ensures.course (report_course (by exact trivial))
  · exact Ensures.pure Course.flow ()

theorem millCard_course : Ensures (Telling rules may) millCard := by
  refine ⟨fun {s milled t} h => ?_⟩
  obtain ⟨found, v, hfound, h⟩ := run_bind_iff.mp h
  cases found with
  | none =>
      obtain ⟨-, rfl⟩ := run_popDraw?_none hfound
      obtain ⟨-, rfl⟩ := run_pure_iff.mp h
      exact .refl
  | some card =>
      obtain ⟨piles, hpop, rfl⟩ := run_popDraw?_some hfound
      simp only [run_bind_iff, run_ontoDiscard_iff, run_report_iff, run_pure_iff] at h
      obtain ⟨_, _, rfl, _, _, rfl, -, rfl⟩ := h
      exact .of_report (.milled hpop (.inl rfl)) (Nat.le_refl _)

theorem mill_course (amount : Value) : Ensures (Telling rules may) (mill amount ctx) :=
  Ensures.count Telling.flow fun count =>
    Ensures.discard (Ensures.upTo Telling.flow millCard_course count)

theorem shuffle_course (includeDiscard : Bool) :
    Ensures (Course rules may) (shuffle includeDiscard) := by
  refine Ensures.bind Course.flow ?_ fun _ => Ensures.combat Course.flow fun combat =>
    Ensures.onlyIf Course.flow (Ensures.course (report_course (by exact trivial)))
  unfold rearrange
  split
  · exact Ensures.discard reshuffle_course
  · refine ⟨fun {s u t} h => ?_⟩
    simp only [run_bind_iff, run_combat_iff, run_draw_iff, run_setPiles_iff] at h
    obtain ⟨_, _, ⟨rfl, rfl⟩, piles, _, ⟨hrun, rfl⟩, rfl⟩ := h
    exact .of_step (.shuffled (Prod.ext hrun rfl))

theorem scry_course (amount : Value) : Ensures (Telling rules may) (scry amount ctx) := by
  refine ⟨fun {s u t} h => ?_⟩
  obtain ⟨_, _, hcombat, h⟩ := run_bind_iff.mp h
  obtain ⟨rfl, rfl⟩ := run_combat_iff.mp hcombat
  obtain ⟨count, _, hcount, h⟩ := run_bind_iff.mp h
  obtain ⟨-, rfl⟩ := run_count_iff.mp hcount
  exact telling_of_ask (by simp) List.length_pos_iff.mpr (by simp)
    (.inl fun card hmem => ⟨.drawPile, List.mem_of_mem_take hmem⟩) h

/-! ## Changing -/

/-- The card that is found under a number has that number. -/
theorem uid_of_card? {combat : Combat} {uid : CardUid} {card : Card}
    (h : combat.card? uid = some card) : card.uid = uid := by
  unfold Combat.card? at h
  cases hp : combat.findInPlay? uid with
  | some entry =>
      have hcard : entry.card = card := by simpa [hp] using h
      rw [← hcard]
      simpa using List.find?_some hp
  | none =>
      have hfind : combat.piles.find? uid = some card := by simpa [hp] using h
      obtain ⟨pile, -, hpile⟩ := Option.bind_eq_some_iff.mp hfind
      simpa using List.find?_some hpile

theorem run_putChanged_iff {uid : CardUid} {card : Card} {a : Unit} :
    (putChanged uid card).run s = .ok (a, t) ↔ s.alter uid card = t := by
  unfold putChanged
  simp only [run_bind_iff, run_combat_iff, run_modifyCombat_iff, run_record_iff]
  constructor
  · rintro ⟨_, _, ⟨rfl, rfl⟩, _, _, rfl, rfl⟩
    rfl
  · rintro rfl
    exact ⟨_, _, ⟨rfl, rfl⟩, (), _, rfl, rfl⟩

theorem changeCards_course {target : CardAim} {needed : Card → Bool}
    {change : Card → Except Fault Card} {event : CardUid → Event}
    (hchange : ∀ card changed, change card = .ok changed →
      changed.uid = card.uid ∧ changed.definition = card.definition ∧
        ∀ uid, changed = (event uid).overlay card)
    (he : ∀ uid, event uid = .retain uid ∨ event uid = .upgrade uid ∨
      (∃ delta, event uid = .costChange uid delta) ∨
        ∃ flag value, event uid = .cardFlag uid flag value) :
    Ensures (Telling rules may) (changeCards rules target ctx needed change event) := by
  apply forCards_course
  intro card
  refine ⟨fun {s u t} h => ?_⟩
  obtain ⟨_, _, hcombat, h⟩ := run_bind_iff.mp h
  obtain ⟨rfl, rfl⟩ := run_combat_iff.mp hcombat
  split at h
  case h_1 =>
    obtain ⟨-, rfl⟩ := run_pure_iff.mp h
    exact .refl
  case h_2 found hfound =>
    obtain ⟨hcard, -⟩ := Option.filter_eq_some_iff.mp hfound
    simp only [run_bind_iff, run_lift_iff, run_putChanged_iff, run_report_iff] at h
    obtain ⟨changed, _, ⟨hchanged, rfl⟩, _, _, rfl, rfl⟩ := h
    have hsame : found.uid = card.uid := uid_of_card? hcard
    rw [← hsame] at hcard ⊢
    obtain ⟨hu, hd, ho⟩ := hchange found changed hchanged
    refine Telling.changed (.changed hcard hu ?_ (.inl hd) (ho _))
    rcases he found.uid with h | h | h | h
    · exact .inl h
    · exact .inr (.inl h)
    · exact .inr (.inr (.inl h))
    · exact .inr (.inr (.inr (.inl h)))

theorem retain_course (target : CardAim) : Ensures (Telling rules may) (retain rules target ctx) :=
  changeCards_course (fun _ _ h => by obtain rfl := Except.ok.inj h; exact ⟨rfl, rfl, fun _ => rfl⟩)
    fun _ => .inl rfl

theorem upgrade_course (target : CardAim) :
    Ensures (Telling rules may) (upgrade rules target ctx) :=
  changeCards_course (fun _ _ h => by obtain rfl := Except.ok.inj h; exact ⟨rfl, rfl, fun _ => rfl⟩)
    fun _ => .inr (.inl rfl)

theorem setCardFlag_course (target : CardAim) (flag : CardFlag) (value : Bool) :
    Ensures (Telling rules may) (setCardFlag rules target flag value ctx) := by
  refine changeCards_course (fun card changed h => ?_) fun _ => .inr (.inr (.inr ⟨_, _, rfl⟩))
  obtain rfl := Except.ok.inj h
  refine ⟨?_, ?_, fun uid => (Event.overlay_cardFlag card uid flag value).symm⟩
  all_goals cases flag <;> rfl

theorem modifyCost_course (amount : Value) (target : CardAim) :
    Ensures (Telling rules may) (modifyCost rules amount target ctx) := by
  apply Ensures.amount Telling.flow
  intro delta
  split
  · refine changeCards_course (fun card changed h => ?_) fun _ => .inr (.inr (.inl ⟨_, rfl⟩))
    obtain ⟨sum, hsum, h⟩ := bind_eq_ok.mp h
    obtain rfl := Except.ok.inj h
    obtain ⟨-, rfl⟩ := Signed.add_eq_ok_iff.mp hsum
    exact ⟨rfl, rfl, fun _ => rfl⟩
  · exact Ensures.pure Telling.flow ()

theorem transform_course (target : CardAim) (theme : Option Theme) :
    Ensures (Telling rules may) (transform rules target theme ctx) := by
  apply forCards_course
  intro card
  refine ⟨fun {s u t} h => ?_⟩
  obtain ⟨chosen, v, hchosen, h⟩ := run_bind_iff.mp h
  apply (draw_course hchosen).trans
  cases chosen with
  | none =>
      obtain ⟨-, rfl⟩ := run_pure_iff.mp h
      exact .refl
  | some definition =>
      have hpool := Draw.mem_of_choose (run_draw_iff.mp hchosen).1
      obtain ⟨_, _, hcombat, h⟩ := run_bind_iff.mp h
      obtain ⟨rfl, rfl⟩ := run_combat_iff.mp hcombat
      split at h
      case h_1 =>
        obtain ⟨-, rfl⟩ := run_pure_iff.mp h
        exact .refl
      case h_2 found hcard =>
        simp only [run_bind_iff, run_putChanged_iff, run_report_iff] at h
        obtain ⟨_, _, rfl, rfl⟩ := h
        have hsame : found.uid = card.uid := uid_of_card? hcard
        rw [← hsame] at hcard ⊢
        exact Telling.changed (.changed hcard rfl (.inr (.inr (.inr (.inr rfl))))
          (.inr (.inr ⟨theme, List.mem_of_mem_filter hpool⟩)) rfl)

/-! ## Making -/

theorem addCards_course (definition : CardId) (destination : Pile) (number : Value)
    (upgraded : Bool) (placement : Placement) :
    Ensures (Telling rules may)
      (addCards rules definition destination number upgraded placement ctx) := by
  unfold addCards
  split
  case isTrue hknown =>
    refine Ensures.count Telling.flow fun count => Ensures.times Telling.flow ?_ count
    refine ⟨fun {s u t} h => ?_⟩
    obtain ⟨card, v, hcard, h⟩ := run_bind_iff.mp h
    obtain ⟨rfl, rfl⟩ := run_makeCard hcard
    exact placeNew_course rfl (.inl (.inl hknown)) h
  case isFalse => exact Ensures.pure Telling.flow ()

theorem copyCards_course {target : CardAim} {destination : Pile} {number : Value}
    (hmay : may (.copyCard target destination number)) :
    Ensures (Telling rules may) (copyCards rules target destination number ctx) := by
  refine Ensures.count Telling.flow fun copies => forCards_course fun card =>
    Ensures.times Telling.flow ?_ copies
  refine ⟨fun {s u t} h => ?_⟩
  obtain ⟨uid, v, huid, h⟩ := run_bind_iff.mp h
  obtain ⟨rfl, rfl⟩ := run_newUid huid
  exact placeNew_course rfl (.inr ⟨_, hmay, rfl⟩) h

/-- Only the cost of a card that is made free may change. -/
theorem madeFree_spec {card free : Card} (h : madeFree rules card = .ok free) :
    free = { card with costModifier := free.costModifier } := by
  unfold madeFree at h
  split at h
  · exact Except.ok.inj h ▸ rfl
  · split at h
    · obtain ⟨cost, -, h⟩ := bind_eq_ok.mp h
      obtain rfl := Except.ok.inj h
      rfl
    · exact Except.ok.inj h ▸ rfl

theorem createFrom_course {pool : List CardId}
    (hpool : ∀ definition ∈ pool, rules.Supplies definition) (destination : Pile)
    (free upgraded : Bool) :
    Ensures (Telling rules may) (createFrom rules pool destination free upgraded) := by
  refine ⟨fun {s created t} h => ?_⟩
  obtain ⟨chosen, v, hchosen, h⟩ := run_bind_iff.mp h
  apply (draw_course hchosen).trans
  cases chosen with
  | none =>
      obtain ⟨-, rfl⟩ := run_pure_iff.mp h
      exact .refl
  | some definition =>
      have hsupplied := hpool definition (Draw.mem_of_choose (run_draw_iff.mp hchosen).1)
      obtain ⟨card, w, hcard, h⟩ := run_bind_iff.mp h
      obtain ⟨rfl, rfl⟩ := run_makeCard hcard
      have key {card : Card} {w : Scene} (hu : card.uid = ⟨w.combat.nextCardUid⟩)
          (hd : rules.Supplies card.definition) (h : (do
            placeNew rules card destination .bottom
            return true).run (w.issue 1) = .ok (created, t)) : Telling rules may w t := by
        obtain ⟨_, x, hplace, h⟩ := run_bind_iff.mp h
        obtain ⟨-, rfl⟩ := run_pure_iff.mp h
        exact placeNew_course hu (.inl hd) hplace
      dsimp only at h
      split at h
      · obtain ⟨card, x, hfree, h⟩ := run_bind_iff.mp h
        obtain ⟨hmade, rfl⟩ := run_lift_iff.mp hfree
        rw [madeFree_spec hmade] at h
        exact key (by rfl) (by exact hsupplied) h
      · obtain ⟨card, x, hcard, h⟩ := run_bind_iff.mp h
        obtain ⟨rfl, rfl⟩ := run_pure_iff.mp hcard
        exact key rfl hsupplied h

theorem createRandomCards_course (theme : Option Theme) (destination : Pile) (number : Value)
    (free upgraded : Bool) :
    Ensures (Telling rules may)
      (createRandomCards rules theme destination number free upgraded ctx) :=
  Ensures.count Telling.flow fun count => Ensures.discard (Ensures.upTo Telling.flow
    (createFrom_course (fun _ hmem => .inr ⟨theme, hmem⟩) destination free upgraded) count)

/-- Cards that are made one after the other have the next numbers. -/
theorem run_makeCards {definitions : List CardId} {upgraded : Bool} {made : List Card}
    (h : (definitions.mapM (makeCard · upgraded)).run s = .ok (made, t)) :
    made.map (·.uid.number) = List.range' s.combat.nextCardUid made.length ∧
      made.map (·.definition) = definitions ∧ t = s.issue made.length := by
  induction definitions generalizing s made with
  | nil =>
      rw [List.mapM_nil] at h
      obtain ⟨rfl, rfl⟩ := run_pure_iff.mp h
      exact ⟨rfl, rfl, rfl⟩
  | cons definition definitions ih =>
      rw [List.mapM_cons] at h
      obtain ⟨card, v, hcard, h⟩ := run_bind_iff.mp h
      obtain ⟨rest, w, hrest, h⟩ := run_bind_iff.mp h
      obtain ⟨rfl, rfl⟩ := run_pure_iff.mp h
      obtain ⟨rfl, rfl⟩ := run_makeCard hcard
      obtain ⟨huids, hdefinitions, rfl⟩ := ih hrest
      refine ⟨?_, by rw [List.map_cons, hdefinitions], ?_⟩
      · rw [List.map_cons, huids, List.length_cons, List.range'_succ]
        rfl
      · unfold Scene.issue
        simp only [List.length_cons]
        rw [Nat.add_assoc, Nat.add_comm 1]

theorem discover_course (theme : Option Theme) (choices : Option Nat) (destination : Pile)
    (upgraded : Bool) :
    Ensures (Telling rules may) (discover rules theme choices destination upgraded) := by
  refine ⟨fun {s u t} h => ?_⟩
  obtain ⟨picks, v, hpicks, h⟩ := run_bind_iff.mp h
  apply (draw_course hpicks).trans
  obtain ⟨made, w, hmade, h⟩ := run_bind_iff.mp h
  obtain ⟨huids, hdefinitions, rfl⟩ := run_makeCards hmade
  have hsupplied (card : Card) (hmem : card ∈ made) : rules.Supplies card.definition := by
    have hpick : card.definition ∈ picks := hdefinitions ▸ List.mem_map_of_mem hmem
    rw [← (run_draw_iff.mp hpicks).1] at hpick
    exact .inr ⟨theme, Draw.mem_of_sample hpick⟩
  split at h
  case h_1 card =>
    refine placeNew_course ?_ (.inl (hsupplied card (List.mem_singleton_self card))) h
    have huid : card.uid.number = _ := List.head_eq_of_cons_eq huids
    exact congrArg CardUid.mk huid
  case h_2 =>
    obtain ⟨_, _, hcombat, h⟩ := run_bind_iff.mp h
    obtain ⟨rfl, rfl⟩ := run_combat_iff.mp hcombat
    split at h
    case isTrue hask =>
      simp only [run_bind_iff, run_modifyCombat_iff, run_report_iff] at h
      obtain ⟨_, _, rfl, rfl⟩ := h
      obtain ⟨hc, hp⟩ := Bool.and_eq_true_iff.mp hask
      have hpending : v.combat.pending = none := Option.isNone_iff_eq_none.mp hp
      exact Telling.of_report (.offered (by simpa using hc) hpending huids hsupplied)
        (Nat.le_refl _)
    case isFalse =>
      obtain ⟨-, rfl⟩ := run_pure_iff.mp h
      exact Telling.of_step (.issued _) (.of_unmoved ⟨_, _, _, rfl⟩)

end CardCombat.Resolution
