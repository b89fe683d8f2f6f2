import CardCombat.Proofs.Action.Calls
import CardCombat.Proofs.Card.Places
import CardCombat.Proofs.Uniqueness.Rest

/-!
# The hand and the cards in play

A card comes into the hand only while there is room for it: one that is drawn is drawn only then,
and one that is put there comes into the discard pile instead if the hand is full. So a hand never
holds more cards than it may. And the cards that were in play before a call are in play after it,
none for a run in which a combat has just started.

## Main definitions

* `Piles.landing` -- the pile into which a card comes.
* `Combat.HandFits` -- the hand holds no more cards than it may.
* `SamePlaying` -- the same cards are in play.

## Main results

* `Rules.handFits_of_reaches` -- what every accepted call does for the hand, a run does.
* `Rules.hand_length_le_of_reaches` -- the hand never holds more cards than it may.
* `Rules.inPlay_of_reaches` -- between calls nothing is in play.
-/

namespace CardCombat

open Resolution

variable {rules : Rules} {s t v : Scene} {uid : CardUid} {card : Card}

/-! ## Coming into a pile -/

namespace Piles

variable {piles piles' : Piles} {pile : Pile}

/-- The pile into which a card comes that is to come into a pile: a full hand takes none. -/
def landing (rules : Rules) (piles : Piles) (pile : Pile) : Pile :=
  if pile == .hand && decide (rules.config.handLimit ≤ piles.size .hand) then .discardPile else pile

theorem landing_of_ne (h : pile ≠ .hand) : piles.landing rules pile = pile := by
  cases pile <;> first | rfl | exact absurd rfl h

theorem landing_of_lt (h : piles.size .hand < rules.config.handLimit) :
    piles.landing rules pile = pile := by
  unfold landing
  rw [decide_eq_false (Nat.not_le.mpr h), Bool.and_false]
  rfl

theorem landing_congr (h : piles'.size .hand = piles.size .hand) :
    piles'.landing rules pile = piles.landing rules pile := by
  unfold landing
  rw [h]

theorem size_lt_of_landing (h : piles.landing rules pile = .hand) :
    piles.size .hand < rules.config.handLimit := by
  unfold landing at h
  split at h
  case isTrue => exact absurd h nofun
  case isFalse hroom =>
    rw [h, beq_self_eq_true, Bool.true_and, decide_eq_true_iff] at hroom
    omega

end Piles

/-! ## The hand -/

/-- The hand holds no more cards than it may. -/
def Combat.HandFits (rules : Rules) (combat : Combat) : Prop :=
  combat.piles.size .hand ≤ rules.config.handLimit

/-- A hand that held no more cards than it may still does. -/
def Fitting (rules : Rules) (s t : Scene) : Prop :=
  s.combat.HandFits rules → t.combat.HandFits rules

/-- A card that comes into a pile comes into the hand only if there is room. -/
theorem fitting_arrive (pile : Pile) (placement : Placement) :
    Fitting rules s (s.arrive card (s.landing rules pile) placement) := by
  intro hs
  show ((s.combat.piles.put _ card placement).run s.rng).1.size .hand ≤ _
  rw [Piles.size_put]
  split
  case isFalse => exact hs
  case isTrue hhand =>
    have hlanding : s.combat.piles.landing rules pile = .hand := hhand.symm
    exact Piles.size_lt_of_landing hlanding

namespace Fitting

theorem flow : Flow (Fitting rules) := ⟨fun _ h => h, fun h h' hs => h' (h hs)⟩

/-- The hand holds as many cards as before, or fewer. -/
theorem of_le (h : t.combat.piles.size .hand ≤ s.combat.piles.size .hand) : Fitting rules s t :=
  fun hs => Nat.le_trans h hs

theorem of_hand (h : t.combat.piles.hand = s.combat.piles.hand) : Fitting rules s t := by
  refine of_le (Nat.le_of_eq ?_)
  exact congrArg List.length h

theorem of_setCombatant (id : CombatantId) (combatant : Combatant) :
    Fitting rules s (s.setCombatant id combatant) := by
  obtain ⟨player, enemies, hcombat⟩ := s.combat_setCombatant id combatant
  exact of_hand (by rw [hcombat])

theorem tell (h : Fitting rules s t) (events : List Event) : Fitting rules s (t.tell events) := by
  rw [Scene.tell_eq]
  exact h

theorem of_takeFrom? {source : Pile} {piles : Piles}
    (h : s.combat.piles.takeFrom? source uid = some (card, piles)) :
    Fitting rules s (s.withPiles piles) := by
  refine of_le ?_
  rw [Piles.size_of_takeFrom? h]
  exact Nat.le_add_right _ _

theorem of_take? {source : Pile} {piles : Piles}
    (h : s.combat.piles.take? uid = some (source, card, piles)) :
    Fitting rules s (s.withPiles piles) := of_takeFrom? (Piles.takeFrom?_of_take? h)

theorem of_damages {source target : CombatantId} {outcome : DamageReport}
    (h : Damages source target outcome s t) : Fitting rules s t := by
  cases h with
  | mk => exact of_setCombatant _ _

theorem of_step (h : Step rules Effect.Any s t) : Fitting rules s t := by
  cases h with
  | drew | told | acted | energyNextTurn | issued | asked | offered | sent => exact of_hand rfl
  | altered => exact (of_setCombatant _ _).tell _
  | damaged h => exact of_damages h
  | energy | gold =>
      refine tell ?_ _
      exact of_hand rfl
  | shuffled h =>
      obtain ⟨rfl, rfl⟩ := Prod.mk.inj h
      exact of_hand rfl
  | reshuffled h => exact of_hand (Piles.hand_of_reshuffle h)
  | @drawn card piles hroom h =>
      intro _
      show (piles.hand ++ [card]).length ≤ _
      rw [Piles.hand_of_popDraw? h, List.length_append]
      exact hroom
  | @milled card piles event h =>
      refine of_hand ?_
      show piles.hand = _
      exact Piles.hand_of_popDraw? h
  | @moved uid source pile piles rng event h he =>
      obtain ⟨card, rest, htake, rfl⟩ := Piles.move_bottom_eq h
      refine of_le ?_
      show (rest.set pile (rest.get pile ++ [card])).size .hand ≤ _
      have hpile : Pile.hand ≠ pile := by rcases he with ⟨rfl, -⟩ | ⟨rfl, -⟩ <;> decide
      rw [Piles.size_add, if_neg hpile, Piles.size_of_takeFrom? (Piles.takeFrom?_of_take? htake)]
      omega
  | brought h => exact flow.trans (of_take? h) (fitting_arrive _ _)
  | removed h => exact of_take? h
  | recalled => exact fitting_arrive _ _
  | changed =>
      refine of_le (Nat.le_of_eq ?_)
      show (Combat.modifyCard _ _ _).piles.size .hand = _
      unfold Combat.modifyCard
      split
      · rfl
      · exact Piles.size_modify .hand
  | created => exact fitting_arrive _ _

theorem of_blow (h : Blow rules s t) : Fitting rules s t := by
  cases h with
  | damaged h => exact of_damages h
  | setHealth | executed => exact of_setCombatant _ _
  | died | counted | acted | buried => exact of_hand rfl

theorem of_opens (h : Opens card s t) : Fitting rules s t := by
  cases h with
  | mk h =>
      refine of_hand ?_
      exact Piles.hand_of_popDraw? h

theorem of_closes (h : Closes rules uid s t) : Fitting rules s t := by
  obtain ⟨inPlay, discardPile, exhaustPile, events, hcombat⟩ := h.combat_eq
  exact of_hand (by rw [hcombat])

theorem of_upkeep (h : Upkeep rules s t) : Fitting rules s t := by
  cases h with
  | decayed | eased | bared | moved => exact of_setCombatant _ _
  | @declared id before enemy template chosen rng hc =>
      have hdrawn : Fitting rules s { s with rng } := of_hand rfl
      exact flow.trans hdrawn (of_setCombatant _ _)
  | released => exact of_le (Nat.le_of_eq (Piles.size_modify .hand))
  | told | turned | charged | discharged => exact of_hand rfl

theorem of_deal (pile : Pile) : Fitting rules s (s.deal rules card pile) := by
  refine tell ?_ [_]
  exact fitting_arrive _ _

theorem of_enters {cost : Int} (h : Enters card cost s t) : Fitting rules s t := by
  cases h with
  | mk h hp =>
      refine flow.trans (of_takeFrom? h) ?_
      cases hp with
      | nothing | energy => exact of_hand rfl

/-- **Effects put no card into a hand that is full**, at any depth. -/
theorem prevails : Prevails rules Effect.Any (Fitting rules) :=
  ⟨flow, of_step, of_blow, of_opens, of_closes⟩

/-- **Turns and plays put no card into a hand that is full.** -/
theorem governs : Governs rules Effect.Any (Fitting rules) := by
  refine prevails.governs rules.content.permits_any of_upkeep of_enters
    (fun _ _ => of_hand rfl) fun {s id combatant intent ctx a t} _ _ hrun => ?_
  have htold : Fitting rules s (s.report (.intent id intent.name)) := of_hand rfl
  exact flow.trans htold
    ((prevails.carryOut rules.content.permits_any (fun _ _ => trivial) ctx).rel hrun)

end Fitting

/-- An accepted call leaves a hand that holds no more cards than it may, if it found one, and so
does the start of a combat in any case. -/
theorem Rules.handFits_of_accepted {run run' : Run} {call : Call}
    (hbefore : (∀ enemies, call ≠ .start enemies) → run.InCombat (Combat.HandFits rules))
    (hcall : rules.perform run call = .ok (none, run')) :
    run'.InCombat (Combat.HandFits rules) :=
  Fitting.governs.inCombat_of_accepted rules.content.permits_any (fun _ => .of_hand rfl)
    (fun _ => .of_hand rfl) (fun _ => .of_hand rfl) (fun _ _ _ => .of_deal _)
    (fun h hs => h hs) (fun _ h => h) (fun _ _ => Nat.zero_le _) hbefore hcall

/-- The hand fits from the start of a combat on. -/
theorem Rules.handFits_of_reaches {run started run' : Run} {enemies : List String}
    (hstart : rules.perform run (.start enemies) = .ok (none, started))
    (h : rules.Reaches started run') : run'.InCombat (Combat.HandFits rules) :=
  inCombat_of_reaches handFits_of_accepted (fun _ _ hs => hs) hstart h

/-- **The hand never holds more cards than it may**, from the start of a combat on and through calls
of every kind, whatever the content says and however cards come into the hand. -/
theorem Rules.hand_length_le_of_reaches {run started run' : Run} {enemies : List String}
    (hstart : rules.perform run (.start enemies) = .ok (none, started))
    (h : rules.Reaches started run') {combat : Combat} (hc : run'.combat = some combat) :
    combat.piles.hand.length ≤ rules.config.handLimit :=
  handFits_of_reaches hstart h combat hc

/-- A card that brings three more of its kind and draws one, for a hand of no more than two. -/
def flockRules : Rules where
  config := { handLimit := 2, drawPerTurn := 2 }
  content :=
    { cards := Catalog.empty.put "starling"
        { id := "starling", name := "Starling", theme := .skill, cost := .fixed 0
          effects := [.addCard "starling" .hand (.fixed 3) false .bottom, .draw (.fixed 1)] }
      powers := .empty
      enemies := Catalog.empty.put "dummy"
        { id := "dummy", name := "Dummy", maxHealth := 20, moves := [] } }

/-- A run with three of that card. -/
def flockRun : Run where
  hero := ""
  health := 10
  maxHealth := 10
  deck := [⟨1⟩, ⟨2⟩, ⟨3⟩].map fun uid => { uid, definition := "starling" }
  rng := .ofSeed 0

/-- The run after a combat has begun. -/
def flockStarted : Run := flockRules.after flockRun (.start ["dummy"])

theorem flock_starts :
    flockRules.perform flockRun (.start ["dummy"]) = .ok (none, flockStarted) :=
  Rules.perform_eq_of_answer (by decide +kernel)

theorem flock_played :
    flockRules.perform flockStarted (.play ⟨1⟩ none) =
      .ok (none, flockRules.after flockStarted (.play ⟨1⟩ none)) :=
  Rules.perform_eq_of_answer (by decide +kernel)

/-- One of the three new cards comes into the hand, which is full then: the others come into the
discard pile and nothing is drawn. -/
theorem Rules.hand_length_le_of_flock :
    ∃ combat, (flockRules.after flockStarted (.play ⟨1⟩ none)).combat = some combat ∧
      combat.piles.hand.map (·.uid) = [⟨2⟩, ⟨4⟩] ∧
      combat.piles.discardPile.map (·.uid) = [⟨5⟩, ⟨6⟩, ⟨1⟩] ∧
      combat.piles.hand.length ≤ flockRules.config.handLimit := by
  have hpiles : (flockRules.after flockStarted (.play ⟨1⟩ none)).combat.map
      (fun combat => (combat.piles.hand.map (·.uid), combat.piles.discardPile.map (·.uid))) =
        some ([⟨2⟩, ⟨4⟩], [⟨5⟩, ⟨6⟩, ⟨1⟩]) := by decide +kernel
  obtain ⟨combat, hcombat, huids⟩ := Option.map_eq_some_iff.mp hpiles
  obtain ⟨hhand, hdiscard⟩ := Prod.mk.inj huids
  exact ⟨combat, hcombat, hhand, hdiscard,
    hand_length_le_of_reaches flock_starts (.call .refl flock_played) hcombat⟩

/-! ## The cards in play -/

/-- The same cards are in play. -/
def SamePlaying (s t : Scene) : Prop := t.combat.playing = s.combat.playing

/-- **Turns and plays leave the same cards in play.** -/
theorem samePlaying_governs : Governs rules Effect.Any SamePlaying where
  flow := ⟨fun _ => rfl, fun h h' => h'.trans h⟩
  step h := (keeps_governs.step h).2
  upkeep h := h.keeps.2
  buried s := ((@keeps_governs rules).buried s).2
  carryOut {_} _ {ctx} _ := (carryOut_keeps _ ctx).mono fun _ _ h => h.2
  happen _ _ _ _ := happen_keeps.mono fun _ _ h => h.2
  act hctx hc hi h := (keeps_governs.act hctx hc hi h).2
  played henter hin hclose := (hclose.ledger (hin.trans henter.ledger.2)).2

/-- An accepted call leaves nothing in play that found nothing in play, and so does the start of a
combat in any case. -/
theorem Rules.inPlay_of_accepted {run run' : Run} {call : Call}
    (hbefore : (∀ enemies, call ≠ .start enemies) → run.InCombat (·.inPlay = []))
    (hcall : rules.perform run call = .ok (none, run')) : run'.InCombat (·.inPlay = []) := by
  refine samePlaying_governs.inCombat_of_accepted rules.content.permits_any (fun _ => rfl)
    (fun _ => rfl) (fun _ => rfl) (fun _ _ _ => rfl) Combat.inPlay_of_playing (fun _ h => h)
    (fun hgathered _ => ?_) hbefore hcall
  obtain ⟨enemies, nextEnemyId, rfl, -⟩ := hgathered
  rfl

/-- **Between calls nothing is in play**, from the start of a combat on. -/
theorem Rules.inPlay_of_reaches {run started run' : Run} {enemies : List String}
    (hstart : rules.perform run (.start enemies) = .ok (none, started))
    (h : rules.Reaches started run') : run'.InCombat (·.inPlay = []) :=
  inCombat_of_reaches inPlay_of_accepted (fun _ _ hs => hs) hstart h

end CardCombat
