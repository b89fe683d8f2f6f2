import CardCombat.Proofs.Action.Calls
import CardCombat.Proofs.Form.Runs
import CardCombat.Proofs.Json.Exact
import CardCombat.Proofs.Saving.Requests

/-!
# Loading a run that was saved

A run is saved without its generator, of which the state is kept apart. What is loaded is the run
as it was, with the generator of seed zero; given the generator of the run, it cannot be told apart
from the run.

The text of a run is read back if it is not nested too deeply and if the decimal forms of its
numbers that are not whole stand for these numbers.

## Main definitions

* `Rules.Indistinguishable` -- two runs that no requests tell apart.

## Main results

* `Run.roundTrips_without_rng` -- the run that is loaded.
* `Rules.reload_resumes` -- what is loaded goes on as the run, with the generator of the run.
* `Rules.reload_redraws` -- without it, other cards are drawn.
-/

namespace CardCombat

/-! ## Loading -/

namespace Run

variable {run : Run}

/-- **The run that is loaded** is the run that was saved, with the generator of seed zero. -/
theorem roundTrips_without_rng (h : run.Fits) :
    Json.RoundTrips ofJson? run.toJson { run with rng := default, chronicle := #[] } :=
  .of_denotes fun wide hkept => Run.denotes_without_rng wide h hkept

theorem load?_save (h : run.Fits) (hdepth : run.toJson.depth ≤ Json.maxDepth)
    (hexact : run.toJson.Exact) :
    load? run.save = some { run with rng := default, chronicle := #[] } :=
  (roundTrips_without_rng h).text hdepth hexact

end Run

theorem Rng.seek_ofSeed {rng : Rng} (h : rng.position < Keystream.period) :
    (Rng.ofSeed rng.seed).seek rng.position = rng := by
  rw [seek, Nat.mod_eq_of_lt h]
  rfl

namespace Rules

variable (rules : Rules)

/-- No requests tell two runs apart: they get the same replies, or come to the same fault, and the
runs after them are the same, but for what the last resolution has written down. -/
def Indistinguishable (run run' : Run) : Prop :=
  ∀ requests, (rules.serveAll run requests).map (Prod.map id Run.unwritten) =
    (rules.serveAll run' requests).map (Prod.map id Run.unwritten)

theorem indistinguishable_of_unwritten {run run' : Run} (h : run.unwritten = run'.unwritten) :
    rules.Indistinguishable run run' := by
  intro requests
  rw [← serveAll_unwritten, h, serveAll_unwritten]

/-- **What is loaded goes on as the run that was saved**, with the generator of the run, which is
read back from its state. Left with the generator that it has, it goes on as the run would with
that one. -/
theorem reload_resumes {run : Run} (h : run.Fits) :
    ∃ loaded, Run.ofJson? run.toJson = some loaded ∧
      (run.toJson.depth ≤ Json.maxDepth → run.toJson.Exact → Run.load? run.save = some loaded) ∧
      loaded.unwritten = { run with rng := default }.unwritten ∧
      Rng.ofJson? run.rng.toJson = some run.rng ∧
      (Rng.ofSeed run.rng.seed).seek run.rng.position = run.rng ∧
      rules.Indistinguishable { loaded with rng := run.rng } run ∧
      rules.Indistinguishable loaded { run with rng := default } :=
  ⟨_, (Run.roundTrips_without_rng h).direct, Run.load?_save h, rfl, Rng.read_toJson h.rng,
    Rng.seek_ofSeed h.rng, rules.indistinguishable_of_unwritten rfl,
    rules.indistinguishable_of_unwritten rfl⟩

end Rules

/-! ## A fight that is saved -/

/-- A hero with two cards, and an enemy that does nothing. -/
def coinPack : Pack where
  cards :=
    [{ id := "heads", name := "Heads", theme := .skill, cost := .fixed 0, effects := [] },
      { id := "tails", name := "Tails", theme := .skill, cost := .fixed 0, effects := [] }]
  enemies := [{ id := "dummy", name := "Dummy", maxHealth := 10, moves := [] }]
  heroes := [{ id := "flipper", name := "Flipper", maxHealth := 10
               startingDeck := ["heads", "tails"] }]

def coinRules : Rules where
  content := (Content.ofPack coinPack).toOption.getD {}

/-- A run of that hero. -/
def coinRun : Run :=
  { Run.ofHero "flipper" 10 2 with
    deck := [{ uid := ⟨1⟩, definition := "heads" }, { uid := ⟨2⟩, definition := "tails" }] }

/-- The enemy, about to make a move. -/
def coinDummy : Combatant :=
  { id := .firstEnemy, name := "Dummy", health := 10, maxHealth := 10
    enemy := some {
      template := "dummy", vulnerabilities := [], resistances := [], lastMove := some 0
      intent := some { moveIndex := 0, name := "Brace", kind := .defend, weakened := 0
                       effects := [.block (.fixed 3) .self] } } }

/-- The second turn of a combat, with an event that was not fetched. -/
def coinCombat : Combat :=
  { turn := 2
    player := { id := .player, name := "Flipper", health := 7, maxHealth := 10
                powers := [{ id := "strength", amount := 2 }] }
    resources := { energy := 3, maxEnergy := 3 }
    enemies := [coinDummy]
    piles := { hand := [{ uid := ⟨2⟩, definition := "tails" }]
               discardPile := [{ uid := ⟨1⟩, definition := "heads", retained := true }] }
    events := #[.turnStart 2]
    nextEnemyId := 2, nextCardUid := 3 }

/-- A fight in the middle of a run. -/
def coinFight : Run := { coinRun with rng := ⟨2, 5⟩, combat := some coinCombat }

theorem coinRun_fits : coinRun.Fits where
  health := by decide
  maxHealth := by decide
  gold := by decide
  deck := by decide
  floor := by decide
  stats := ⟨by decide, by decide, by decide, by decide, by decide, by decide⟩
  combat := by rintro _ ⟨⟩
  rng := by decide

theorem coinMove_fits : (Effect.block (.fixed 3) .self).Fits :=
  .mk (by decide : Signed.Fits 3) nofun

theorem coinDummy_fits : coinDummy.Fits where
  id := by decide
  health := by decide
  maxHealth := by decide
  block := by decide
  barrier := by decide
  powers := List.forall_mem_nil _
  enemy := by
    rintro _ ⟨⟩
    refine ⟨?_, by decide⟩
    rintro _ ⟨⟩
    exact ⟨by decide, List.forall_mem_singleton.mpr coinMove_fits, by decide⟩

theorem coinCombat_fits : coinCombat.Fits where
  turn := by decide
  player :=
    have hpowers : ∀ power ∈ coinCombat.player.powers, power.Fits :=
      List.forall_mem_singleton.mpr ⟨by decide, by decide, by decide⟩
    ⟨by decide, by decide, by decide, by decide, by decide, hpowers, nofun⟩
  resources := ⟨by decide, by decide, by decide, by decide, by decide⟩
  enemies := List.forall_mem_singleton.mpr coinDummy_fits
  piles := ⟨by decide, by decide, by decide, by decide⟩
  cardsPlayedThisTurn := by decide
  lastPlayed := nofun
  inPlay := List.forall_mem_nil _
  pending := nofun
  events := List.forall_mem_singleton.mpr (by decide : Unsigned.Fits 32 2)
  nextEnemyId := by decide
  nextCardUid := by decide

theorem coinFight_fits : coinFight.Fits :=
  { coinRun_fits with
    combat := fun _ h => Option.some.inj h ▸ coinCombat_fits
    rng := by decide }

namespace Rules

/-- The fight goes on as if it had not been saved. -/
theorem reload_resumes_coin : coinFight.Fits ∧
    ∃ loaded, Run.load? coinFight.save = some loaded ∧
      coinRules.Indistinguishable { loaded with rng := coinFight.rng } coinFight := by
  obtain ⟨loaded, -, hload, -, -, -, hsame, -⟩ := coinRules.reload_resumes coinFight_fits
  exact ⟨coinFight_fits, loaded, hload (by decide +kernel) (.of_whole (by decide +kernel)), hsame⟩

/-- **What is loaded does not go on as the run** if it is left with the generator that it has: the
cards of the next combat come in another order. -/
theorem reload_redraws :
    ¬∀ pack config content hero seed run run', Content.ofPack pack = .ok content →
      Rules.newRun { content, config } hero seed = .ok run →
        Rules.Reaches { content, config } run run' →
          ∃ loaded, Run.load? run'.save = some loaded ∧
            Rules.Indistinguishable { content, config } loaded run' := by
  intro hclaim
  obtain ⟨loaded, hload, hsame⟩ := hclaim coinPack {} coinRules.content "flipper" 2 coinRun coinRun
    rfl rfl .refl
  rw [Run.load?_save coinRun_fits (by decide +kernel) (.of_whole (by decide +kernel))] at hload
  obtain rfl := Option.some.inj hload
  let hand (answer : Except Fault (List Reply × Run)) : Option (List Card) :=
    answer.toOption.bind fun after => after.2.combat.map (·.piles.hand)
  have hhand := congrArg hand (hsame [.call (.start ["dummy"])])
  revert hhand
  decide +kernel

end Rules

end CardCombat
