import CardCombat.Combat.State

/-!
# The chronicle of a resolution

The events of a combat tell a player what there is to see. What has to be told apart beyond that is
written down in a chronicle: when a combatant falls and when its death is dealt with, which triggers
have acted, what became of the cards that were told to leave, where a card was when it was changed,
which cards were put where, and when the discard pile became part of the draw pile. No rule ever
reads it.
-/

namespace CardCombat

/-- Something that was done in a resolution. -/
inductive Deed where
  /-- The health of a combatant has come down to zero; the combatant as it is then. -/
  | fell (id : CombatantId) (combatant : Combatant)
  /-- The death of a combatant is dealt with from now on. -/
  | died (id : CombatantId)
  /-- A dead enemy was taken away. -/
  | buried (id : CombatantId)
  /-- The effects of a trigger are carried out next, by `owner`. -/
  | acted (owner : CombatantId) (occasion : Occasion) (effects : List Effect)
  /-- A card in play that was to go to `before` goes to `after`. -/
  | routed (card : CardUid) (before : Option Route) (after : Route)
  /-- A card was changed that is to go to `route` if it is in play. -/
  | changed (card : CardUid) (route : Option Route)
  /-- A card was taken out of its pile for good. -/
  | removed (card : CardUid)
  /-- A card was put into a pile: a new one, one that was moved, or one that was played. -/
  | landed (card : CardUid) (pile : Pile)
  /-- The cards of the discard pile, so many, were put into the draw pile. -/
  | merged (count : Nat)

end CardCombat
