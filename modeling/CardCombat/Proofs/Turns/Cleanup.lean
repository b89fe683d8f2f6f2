import CardCombat.Proofs.Resolution.Cards
import CardCombat.Proofs.Resolution.Total
import CardCombat.Proofs.Turns.Calm

/-!
# The hand at the end of a turn

When the player's turn ends every card that lies in the hand then is looked at once, from left to
right. It stays, and is free to leave the next time, or it goes under the exhaust pile or the
discard pile, and an event tells of it. The cards are found by their numbers, and the hand changes
while they are gone through; if no number occurs in it twice then every card finds itself, so that
in the end the hand is divided without a card being lost, doubled, or overtaken by another one.

## Main definitions

* `Rules.pileOf?` -- where a card goes at the end of a turn, if it does not stay.
* `Scene.PutAway` -- some cards were put away, whatever has become of the hand.
* `Scene.Tidied` -- all that has changed when the player's turn has ended.

## Main results

* `Resolution.putAway_of_hand`, `Resolution.putAway_all` -- one card, and all cards of a hand.
* `Resolution.closeTurn_tidies` -- the end of a turn on which nothing is triggered.
-/

namespace CardCombat

open Resolution

variable {rules : Rules} {s t u : Scene} {card : Card} {cards kept rest : List Card}

/-! ## Where a card goes -/

namespace Rules

/-- Where a card goes at the end of a turn: nowhere if it stays in the hand. -/
def pileOf? (rules : Rules) (card : Card) : Option Pile :=
  if staysInHand rules card then none
  else if isEthereal rules card then some .exhaustPile
  else some .discardPile

/-- The cards that go to a pile. -/
def goingTo (rules : Rules) (pile : Pile) (cards : List Card) : List Card :=
  cards.filter (rules.pileOf? · == some pile)

/-- What is told of a card at the end of a turn. -/
def farewell? (rules : Rules) (card : Card) : Option Event :=
  (rules.pileOf? card).map fun pile =>
    if pile = .exhaustPile then .exhaust card.uid else .discard card.uid

/-- A card stays for this once, or as all of its kind. -/
theorem staysInHand_iff : staysInHand rules card = true ↔ card.retained = true ∨
    ∃ definition, rules.content.cards.find? card.definition = some definition ∧
      definition.keywords.retain = true := by
  unfold staysInHand Card.staysInHand
  cases rules.content.cards.find? card.definition with
  | none => simp
  | some definition => simp

/-- A card is ethereal by itself, or as all of its kind. One of which nothing is known is not. -/
theorem isEthereal_iff : isEthereal rules card = true ↔
    ∃ definition, rules.content.cards.find? card.definition = some definition ∧
      (card.ethereal = true ∨ definition.keywords.ethereal = true) := by
  unfold isEthereal Card.isEthereal
  cases rules.content.cards.find? card.definition with
  | none => simp
  | some definition => simp

end Rules

/-- The card is not held back in the hand any longer. -/
def Card.released (card : Card) : Card := { card with retained := false }

/-! ## Finding a card in the hand -/

namespace Piles

variable {piles : Piles}

theorem modifyFirst_append (hnew : card.uid ∉ kept.map (·.uid)) (change : Card → Card) :
    modifyFirst card.uid change (kept ++ card :: rest) = kept ++ change card :: rest := by
  induction kept with
  | nil => simp [modifyFirst]
  | cons first kept ih =>
      simp only [List.map_cons, List.mem_cons, not_or] at hnew
      have hother : (first.uid == card.uid) = false := by simpa using Ne.symm hnew.1
      simp [modifyFirst, hother, ih hnew.2]

theorem find?_append (hnew : card.uid ∉ kept.map (·.uid)) :
    (kept ++ card :: rest).find? (·.uid == card.uid) = some card := by
  have hnone : kept.find? (·.uid == card.uid) = none := by
    rw [List.find?_eq_none]
    intro other hmem hsame
    exact hnew (List.mem_map.mpr ⟨other, hmem, eq_of_beq hsame⟩)
  simp [List.find?_append, hnone]

theorem eraseP_append (hnew : card.uid ∉ kept.map (·.uid)) :
    (kept ++ card :: rest).eraseP (·.uid == card.uid) = kept ++ rest := by
  have hothers : ∀ other ∈ kept, ¬(other.uid == card.uid) = true := by
    intro other hmem hsame
    exact hnew (List.mem_map.mpr ⟨other, hmem, eq_of_beq hsame⟩)
  simp [List.eraseP_append_right _ hothers]

/-- The hand is searched first. -/
theorem locate?_of_hand (hhand : piles.hand = kept ++ card :: rest) :
    piles.locate? card.uid = some .hand := by
  unfold locate? Pile.all
  simp [contains, get, hhand]

/-- A card of the hand is changed where it lies. -/
theorem modify_of_hand (hhand : piles.hand = kept ++ card :: rest)
    (hnew : card.uid ∉ kept.map (·.uid)) (change : Card → Card) :
    piles.modify card.uid change = { piles with hand := kept ++ change card :: rest } := by
  have hget : piles.get .hand = kept ++ card :: rest := hhand
  unfold modify
  rw [locate?_of_hand hhand]
  dsimp only
  rw [hget, modifyFirst_append hnew]
  rfl

/-- A card of the hand is moved under another pile. -/
theorem move_of_hand {pile : Pile} {rng : Rng} (hhand : piles.hand = kept ++ card :: rest)
    (hnew : card.uid ∉ kept.map (·.uid)) (hpile : pile ≠ .hand) :
    (piles.move card.uid pile .bottom).run rng =
      ((some .hand, { piles with hand := kept ++ rest }.set pile (piles.get pile ++ [card])),
        rng) := by
  have hget : piles.get .hand = kept ++ card :: rest := hhand
  have htake : piles.take? card.uid = some (.hand, card, { piles with hand := kept ++ rest }) := by
    unfold take? takeFrom?
    simp [locate?_of_hand hhand, hget, find?_append hnew, eraseP_append hnew, set]
  have hother : { piles with hand := kept ++ rest }.get pile = piles.get pile :=
    get_set_ne piles _ hpile
  unfold move
  rw [htake]
  show ((some Pile.hand, { piles with hand := kept ++ rest }.set pile
    ({ piles with hand := kept ++ rest }.get pile ++ [card])), rng) = _
  rw [hother]

end Piles

/-! ## One card -/

/-- Some cards were put away, whatever has become of the hand. -/
structure Scene.PutAway (rules : Rules) (cards : List Card) (s t : Scene) : Prop where
  drawPile : t.combat.piles.drawPile = s.combat.piles.drawPile
  exhaustPile : t.combat.piles.exhaustPile =
    s.combat.piles.exhaustPile ++ rules.goingTo .exhaustPile cards
  discardPile : t.combat.piles.discardPile =
    s.combat.piles.discardPile ++ rules.goingTo .discardPile cards
  rng : t.rng = s.rng
  events : t.combat.events =
    s.combat.events ++ (cards.filterMap rules.farewell?).toArray
  others : t.combat = { s.combat with piles := t.combat.piles, events := t.combat.events } ∧
    t.gold = s.gold ∧ t.stats = s.stats ∧ t.relics = s.relics

/-- What is left of cards of the hand. -/
def Rules.staying (rules : Rules) (cards : List Card) : List Card :=
  (cards.filter (rules.pileOf? · == none)).map (·.released)

/-- No card stays that was not there. -/
theorem Rules.staying_uids_sublist :
    ((rules.staying cards).map (·.uid)).Sublist (cards.map (·.uid)) := by
  unfold staying
  rw [List.map_map]
  exact List.filter_sublist.map _

theorem Rules.staying_append (cards more : List Card) :
    rules.staying (cards ++ more) = rules.staying cards ++ rules.staying more := by
  simp [staying]

namespace Scene.PutAway

theorem trans {more : List Card} (h : PutAway rules cards s t) (h' : PutAway rules more t u) :
    PutAway rules (cards ++ more) s u where
  drawPile := h'.drawPile.trans h.drawPile
  exhaustPile := by simp [h'.exhaustPile, h.exhaustPile, Rules.goingTo]
  discardPile := by simp [h'.discardPile, h.discardPile, Rules.goingTo]
  rng := h'.rng.trans h.rng
  events := by simp [h'.events, h.events]
  others := by
    obtain ⟨hcombat, hgold, hstats, hrelics⟩ := h.others
    obtain ⟨hcombat', hgold', hstats', hrelics'⟩ := h'.others
    refine ⟨?_, hgold'.trans hgold, hstats'.trans hstats, hrelics'.trans hrelics⟩
    rw [hcombat', hcombat]

end Scene.PutAway

/-- The scene after a card has left the hand for another pile, which was told. -/
def Scene.sendOff (scene : Scene) (hand : List Card) (card : Card) (pile : Pile) (event : Event) :
    Scene :=
  ((scene.withPiles ({ scene.combat.piles with hand }.set pile
    (scene.combat.piles.get pile ++ [card]))).record (.landed card.uid pile)).report event

namespace Resolution

/-- A card of the hand is found and moved. -/
theorem run_sendOff {pile : Pile} (hhand : s.combat.piles.hand = kept ++ card :: rest)
    (hnew : card.uid ∉ kept.map (·.uid)) (hpile : pile ≠ .hand) (event : Event) :
    (do if (← moveTo card.uid pile).isSome then report event : Resolution Unit).run s =
      .ok ((), s.sendOff (kept ++ rest) card pile event) := by
  obtain ⟨source, moved, hrun⟩ := moveTo_total card.uid pile s
  obtain ⟨piles, rng, hmove, hmoved⟩ := run_moveTo hrun
  rw [Piles.move_of_hand hhand hnew hpile] at hmove
  obtain ⟨hsource, rfl⟩ := Prod.mk.inj hmove
  obtain ⟨rfl, rfl⟩ := Prod.mk.inj hsource
  rcases hmoved with ⟨-, rfl⟩ | ⟨habsurd, -⟩
  · exact run_bind_iff.mpr ⟨_, _, hrun, run_report_iff.mpr rfl⟩
  · exact absurd habsurd nofun

/-- A card that has left the hand was put away. -/
theorem sendOff_putAway {pile : Pile} {event : Event} (hgoes : rules.pileOf? card = some pile)
    (hpile : pile = .exhaustPile ∧ event = .exhaust card.uid ∨
      pile = .discardPile ∧ event = .discard card.uid) :
    s.PutAway rules [card] (s.sendOff (kept ++ rest) card pile event) ∧
      (s.sendOff (kept ++ rest) card pile event).combat.piles.hand =
        kept ++ rules.staying [card] ++ rest := by
  rcases hpile with ⟨rfl, rfl⟩ | ⟨rfl, rfl⟩
  all_goals
    constructor
    · constructor <;>
        simp [Scene.sendOff, Scene.withPiles, Scene.record, Scene.report, Combat.report,
          Piles.set, Piles.get, Rules.goingTo, Rules.farewell?, hgoes]
    · simp [Scene.sendOff, Scene.withPiles, Scene.record, Scene.report, Combat.report, Piles.set,
        Rules.staying, hgoes]

/-- **A card of the hand is put away** or stays where it lies. -/
theorem putAway_of_hand (hhand : s.combat.piles.hand = kept ++ card :: rest)
    (hnew : card.uid ∉ kept.map (·.uid)) :
    ∃ t, (putAway rules card).run s = .ok ((), t) ∧ s.PutAway rules [card] t ∧
      t.combat.piles.hand = kept ++ rules.staying [card] ++ rest := by
  unfold putAway
  dsimp only
  split
  case isTrue hstays =>
    have hpile : rules.pileOf? card = none := if_pos hstays
    refine ⟨_, run_bind_iff.mpr ⟨_, _, run_combat_iff.mpr ⟨rfl, rfl⟩, run_setPiles_iff.mpr rfl⟩,
      ?_, ?_⟩
    · rw [Piles.modify_of_hand hhand hnew]
      constructor <;> simp [Scene.withPiles, Rules.goingTo, Rules.farewell?, hpile]
    · rw [Piles.modify_of_hand hhand hnew]
      simp [Scene.withPiles, Rules.staying, hpile, Card.released]
  case isFalse hleaves =>
    split
    case isTrue hethereal =>
      have hpile : rules.pileOf? card = some .exhaustPile :=
        (if_neg hleaves).trans (if_pos hethereal)
      exact ⟨_, run_sendOff hhand hnew (by decide) _, sendOff_putAway hpile (.inl ⟨rfl, rfl⟩)⟩
    case isFalse hlasting =>
      have hpile : rules.pileOf? card = some .discardPile :=
        (if_neg hleaves).trans (if_neg hlasting)
      exact ⟨_, run_sendOff hhand hnew (by decide) _, sendOff_putAway hpile (.inr ⟨rfl, rfl⟩)⟩

/-- **Every card of the hand is put away** or stays, and none overtakes another one. -/
theorem putAway_all (hhand : s.combat.piles.hand = kept ++ cards)
    (hdistinct : ((kept ++ cards).map (·.uid)).Nodup) :
    ∃ t, (cards.forM (putAway rules)).run s = .ok ((), t) ∧ s.PutAway rules cards t ∧
      t.combat.piles.hand = kept ++ rules.staying cards := by
  induction cards generalizing s kept with
  | nil =>
      refine ⟨s, run_pure_iff.mpr ⟨rfl, rfl⟩, ?_, by simpa [Rules.staying] using hhand⟩
      constructor <;> simp [Rules.goingTo]
  | cons card cards ih =>
      rw [List.map_append] at hdistinct
      have hnew : card.uid ∉ kept.map (·.uid) := fun hmem =>
        (List.nodup_append.mp hdistinct).2.2 _ hmem _ List.mem_cons_self rfl
      obtain ⟨u, hone, hput, hhand⟩ := @putAway_of_hand rules _ _ _ _ hhand hnew
      have hkept : ((kept ++ rules.staying [card] ++ cards).map (·.uid)).Nodup := by
        refine hdistinct.sublist ?_
        rw [List.append_assoc, List.map_append, List.map_append]
        exact (List.Sublist.refl _).append (rules.staying_uids_sublist.append (.refl _))
      obtain ⟨t, hrest, hputs, hhand⟩ := ih hhand hkept
      refine ⟨t, run_bind_iff.mpr ⟨(), u, hone, hrest⟩, hput.trans hputs, ?_⟩
      rw [hhand, List.append_assoc, ← Rules.staying_append]
      rfl

end Resolution

/-! ## The end of a turn -/

/-- All that changes when the player's turn ends: powers of the player decay, a turn of silence
passes for them, and the hand is put away. -/
structure Scene.Tidied (rules : Rules) (decayed : List Decayed × Combatant) (s t : Scene) :
    Prop where
  hand : t.combat.piles.hand = rules.staying s.combat.piles.hand
  drawPile : t.combat.piles.drawPile = s.combat.piles.drawPile
  exhaustPile : t.combat.piles.exhaustPile =
    s.combat.piles.exhaustPile ++ rules.goingTo .exhaustPile s.combat.piles.hand
  discardPile : t.combat.piles.discardPile =
    s.combat.piles.discardPile ++ rules.goingTo .discardPile s.combat.piles.hand
  rng : t.rng = s.rng
  events : t.combat.events = s.combat.events ++ (expirations decayed.1).toArray ++
    (s.combat.piles.hand.filterMap rules.farewell?).toArray
  others : t.combat = { s.combat with
      piles := t.combat.piles
      events := t.combat.events
      player := { decayed.2 with powers := decayed.2.powers.passSilence } } ∧
    t.gold = s.gold ∧ t.stats = s.stats ∧ t.relics = s.relics

/-- The scene before the hand is put away. -/
def Scene.waned (scene : Scene) (decayed : List Decayed × Combatant) : Scene :=
  { scene with combat := { scene.combat with
      player := { decayed.2 with powers := decayed.2.powers.passSilence }
      events := scene.combat.events ++ (expirations decayed.1).toArray } }

/-- **The player's turn ends** without anything that is triggered: the hand is tidied up, unless a
power that decays leaves its range. -/
theorem Resolution.closeTurn_tidies (hcalm : s.Calm rules .turnEnd)
    (hdistinct : (s.combat.piles.hand.map (·.uid)).Nodup) :
    (∃ cause, s.combat.player.decay rules.content.powers .turnEnd = .error cause ∧
        (closeTurn rules).run s = .error cause) ∨
      ∃ decayed t, s.combat.player.decay rules.content.powers .turnEnd = .ok decayed ∧
        (closeTurn rules).run s = .ok ((), t) ∧ s.Tidied rules decayed t := by
  unfold closeTurn
  rw [run_bind_of_ok (run_happen_of_calm hcalm _ _)]
  cases hdecay : s.combat.player.decay rules.content.powers .turnEnd with
  | error cause =>
      refine .inl ⟨cause, rfl, ?_⟩
      rw [StateT.run_bind, run_decay_player, hdecay]
      rfl
  | ok decayed =>
      have hdecayed : (decay rules .player .turnEnd).run s =
          .ok ((), (s.withPlayer decayed.2).tell (expirations decayed.1)) := by
        rw [run_decay_player, hdecay]
        rfl
      have hwaned : (passSilence .player).run
          ((s.withPlayer decayed.2).tell (expirations decayed.1)) = .ok ((), s.waned decayed) := by
        rw [run_passSilence_player, Scene.tell_eq]
        rfl
      rw [run_bind_of_ok hdecayed, run_bind_of_ok hwaned]
      obtain ⟨t, hrun, hput, hhand⟩ :=
        @putAway_all rules (s.waned decayed) s.combat.piles.hand [] rfl hdistinct
      obtain ⟨hdraw, hexhaust, hdiscard, hrng, hevents, hcombat, hothers⟩ := hput
      exact .inr ⟨decayed, t, rfl, hrun,
        ⟨hhand, hdraw, hexhaust, hdiscard, hrng, hevents, hcombat, hothers⟩⟩

/-! ## A hand of five -/

/-- A card that stays in the hand, one that fades, and one that does neither. -/
def duskRules : Rules where
  content :=
    (Content.ofPack
      { cards :=
          [{ id := "keep", name := "Keep", theme := .skill, cost := .fixed 0, effects := []
             keywords := { retain := true } },
           { id := "wisp", name := "Wisp", theme := .skill, cost := .fixed 0, effects := []
             keywords := { ethereal := true } },
           { id := "ward", name := "Ward", theme := .skill, cost := .fixed 0, effects := [] }]
      }).toOption.getD {}

/-- A hand with all of them, one that stays for this once, and one of which nothing is known. -/
def duskScene : Scene where
  combat :=
    { player := .ofPlayer "" 10 10, resources := { maxEnergy := 3 }, nextCardUid := 6
      piles :=
        { hand :=
            [{ uid := ⟨1⟩, definition := "ward" }, { uid := ⟨2⟩, definition := "keep" },
             { uid := ⟨3⟩, definition := "wisp" },
             { uid := ⟨4⟩, definition := "lost", ethereal := true },
             { uid := ⟨5⟩, definition := "wisp", retained := true }] } }
  gold := 0
  stats := {}
  relics := []
  rng := .ofSeed 0

/-- Two cards stay, one fades, and two are discarded. -/
theorem closeTurn_tidies_dusk :
    ∃ t, (closeTurn duskRules).run duskScene = .ok ((), t) ∧
      t.combat.piles.hand =
        [{ uid := ⟨2⟩, definition := "keep" }, { uid := ⟨5⟩, definition := "wisp" }] ∧
      t.combat.piles.exhaustPile = [{ uid := ⟨3⟩, definition := "wisp" }] ∧
      t.combat.piles.discardPile =
        [{ uid := ⟨1⟩, definition := "ward" },
         { uid := ⟨4⟩, definition := "lost", ethereal := true }] ∧
      t.combat.events = #[.discard ⟨1⟩, .exhaust ⟨3⟩, .discard ⟨4⟩] := by
  have hcalm : duskScene.Calm duskRules .turnEnd := ⟨rfl, rfl⟩
  rcases Resolution.closeTurn_tidies hcalm (by decide) with
    ⟨cause, hdecay, -⟩ | ⟨decayed, t, hdecay, hrun, htidied⟩
  · exact absurd hdecay nofun
  · obtain rfl := Except.ok.inj hdecay
    exact ⟨t, hrun, htidied.hand, htidied.exhaustPile, htidied.discardPile, htidied.events⟩

end CardCombat
