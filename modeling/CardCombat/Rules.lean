import CardCombat.Config
import CardCombat.Content.Validation

/-!
# Rules

What a game is played by: its content and its numbers. Nothing in the rules changes while a game
goes on.
-/

namespace CardCombat

structure Rules where
  content : Content
  config : Config := {}

end CardCombat
