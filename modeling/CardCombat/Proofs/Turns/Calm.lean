import CardCombat.Proofs.Vitality.Touches

/-!
# Occasions on which nothing happens

An occasion comes to the player, and neither a power nor a relic is triggered by it: then the scene
stays as it is. What is left of the boundary of a turn is the decay of powers and the passing of
silence, which change nothing but the player.

## Main definitions

* `Scene.Calm` -- nothing is triggered by an occasion that comes to the player.
* `Scene.withPlayer` -- the scene with another player.

## Main results

* `Resolution.run_happen_of_calm` -- the occasion passes.
* `Resolution.run_decay_player`, `Resolution.run_passSilence_player` -- the player's powers at the
  boundary of a turn.
-/

namespace CardCombat

open Resolution

variable {rules : Rules} {s t : Scene} {player : Combatant} {occasion : Occasion}
  {boundary : Boundary} {ticks : List Decayed}

namespace Scene

/-- Nothing is triggered by an occasion that comes to the player. -/
structure Calm (rules : Rules) (occasion : Occasion) (scene : Scene) : Prop where
  powers : scene.combat.player.triggersOn rules.content.powers occasion = []
  relics : relicTriggers rules scene.relics occasion = []

/-- The scene with another player. -/
def withPlayer (scene : Scene) (player : Combatant) : Scene :=
  { scene with combat := { scene.combat with player } }

/-- Nobody falls if the player is as alive as before. -/
theorem setCombatant_player_of_isAlive (h : player.isAlive = s.combat.player.isAlive) :
    s.setCombatant .player player = s.withPlayer player := by
  have hstands : (s.combat.isAlive .player && !player.isAlive) = false := by
    rw [h]
    exact Bool.and_not_self _
  unfold setCombatant
  rw [hstands]
  rfl

end Scene

/-- What is told of powers of the player that have decayed: those with nothing left are gone. -/
def expirations (ticks : List Decayed) : List Event :=
  (ticks.filter (·.remaining.isNone)).map fun tick => .powerRemoved .player tick.power

namespace Resolution

variable {α β : Type} {x : Resolution α} {f : α → Resolution β} {a : α}

theorem run_bind_of_ok (h : x.run s = .ok (a, t)) : (x >>= f).run s = (f a).run t := by
  rw [StateT.run_bind, h]
  rfl

/-- **The occasion passes.** -/
theorem run_happen_of_calm (h : s.Calm rules occasion) (cause : Option CombatantId)
    (ctx : Context) : (happen rules .player occasion cause ctx).run s = .ok ((), s) := by
  have hplayer : s.combat.combatant? .player = some s.combat.player := rfl
  have hisPlayer : CombatantId.player.isPlayer = true := rfl
  unfold happen react
  refine run_bind_iff.mpr ⟨s, s, run_get_iff.mpr ⟨rfl, rfl⟩, ?_⟩
  rw [hplayer]
  dsimp only
  rw [h.powers, if_pos hisPlayer, h.relics]
  rfl

/-- **Powers of the player decay.** -/
theorem run_decay_player (rules : Rules) (boundary : Boundary) (s : Scene) :
    (decay rules .player boundary).run s =
      (s.combat.player.decay rules.content.powers boundary).map fun decayed =>
        ((), (s.withPlayer decayed.2).tell (expirations decayed.1)) := by
  have hplayer : s.combat.combatant? .player = some s.combat.player := rfl
  unfold decay
  rw [run_bind_of_ok (run_combatant?_iff.mpr ⟨hplayer, rfl⟩)]
  dsimp only
  cases hdecay : s.combat.player.decay rules.content.powers boundary with
  | error cause => rfl
  | ok decayed =>
      have hsame := Combatant.decay_sameButPowers hdecay
      have hset := Scene.setCombatant_player_of_isAlive hsame.isAlive
      refine run_bind_iff.mpr ⟨_, _, run_lift_iff.mpr ⟨rfl, rfl⟩, ?_⟩
      refine run_bind_iff.mpr ⟨(), _, run_setCombatant_iff.mpr hset, ?_⟩
      exact run_forM_report_iff.mpr rfl

/-- A turn of silence passes for the player. -/
theorem run_passSilence_player (s : Scene) : (passSilence .player).run s =
    .ok ((), s.withPlayer
      { s.combat.player with powers := s.combat.player.powers.passSilence }) := by
  have hplayer : s.combat.combatant? .player = some s.combat.player := rfl
  refine run_bind_iff.mpr ⟨_, _, run_combatant?_iff.mpr ⟨hplayer, rfl⟩, ?_⟩
  exact run_setCombatant_iff.mpr (Scene.setCombatant_player_of_isAlive rfl)

end Resolution

end CardCombat
