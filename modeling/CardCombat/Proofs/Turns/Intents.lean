import CardCombat.Proofs.Random.Weights
import CardCombat.Proofs.Turns.Moves

/-!
# The intents of enemies

When a turn of the player begins every living enemy declares what it will do: one of the moves that
its template offers, and not its last one if the template offers another. Then the player draws
cards and the triggers of the turn's start go off, which can weaken what was declared but can
neither exchange it nor take it back.

## Main definitions

* `Declares` -- what an enemy is when it has declared its next move.
* `Declared` -- what has become of everybody when some enemies have declared their moves.
* `Resolution.greet` -- what the beginning of the player's turn does after that.

## Main results

* `Resolution.forM_chooseIntent_declared` -- the declarations of all enemies.
* `Resolution.openTurn_of_run` -- a turn of the player begins.
-/

namespace CardCombat

open Resolution

variable {rules : Rules} {s t u : Scene} {id other : CombatantId} {before after : Combatant}
  {ids : List CombatantId} {told : List Event} {a : Unit}

/-! ## One declaration -/

/-- An enemy has declared its next move, with which it follows its last one. What is no enemy, or
comes from no known template, declares nothing and keeps what it had declared. -/
inductive Declares (rules : Rules) (before : Combatant) : Combatant → Prop
  | nothing (h : ∀ enemy, before.enemy = some enemy →
      rules.content.enemies.find? enemy.template = none) : Declares rules before before
  | fresh {enemy template chosen} (he : before.enemy = some enemy)
      (ht : rules.content.enemies.find? enemy.template = some template)
      (hc : template.Follows enemy.lastMove chosen) :
      Declares rules before
        { before with enemy := some { enemy with intent := chosen.bind template.intent? } }

/-- Whoever declares a move is the same combatant, as alive as before. -/
theorem Declares.same (h : Declares rules before after) :
    after.id = before.id ∧ after.isAlive = before.isAlive := by
  cases h <;> exact ⟨rfl, rfl⟩

/-- What is reported when an enemy declares a move, if it does. -/
def Intent.declaration (id : CombatantId) (declared : Option Intent) : List Event :=
  (declared.map fun intent => .intent id intent.name).toList

namespace Resolution

/-- **A declaration** changes one enemy, which has declared its next move, and what it has declared
is reported. -/
theorem chooseIntent_of_run (h : (chooseIntent rules id).run s = .ok (a, t)) :
    (s = t ∧ ∀ before, s.combat.combatant? id = some before → Declares rules before before) ∨
      ∃ before after rng, ∃ declared : Option Intent, s.combat.combatant? id = some before ∧
        Declares rules before after ∧
          t = (({ s with rng } : Scene).setCombatant id after).tell
            (Intent.declaration id declared) := by
  obtain ⟨found, _, hfound, h⟩ := run_bind_iff.mp h
  obtain ⟨hc, rfl⟩ := run_combatant?_iff.mp hfound
  cases found with
  | none =>
      refine .inl ⟨(run_pure_iff.mp h).2, fun before hbefore => ?_⟩
      exact absurd (hc.symm.trans hbefore) nofun
  | some combatant =>
      rw [Option.bind_some] at h
      cases he : combatant.enemy with
      | none =>
          rw [he] at h
          refine .inl ⟨(run_pure_iff.mp h).2, fun before hbefore => .nothing fun enemy henemy => ?_⟩
          obtain rfl := Option.some.inj (hc.symm.trans hbefore)
          exact absurd (he.symm.trans henemy) nofun
      | some enemy =>
          rw [he, Option.map_some] at h
          dsimp only at h
          split at h
          case h_1 ht =>
            refine .inl ⟨(run_pure_iff.mp h).2, fun before hbefore => .nothing fun role hrole => ?_⟩
            obtain rfl := Option.some.inj (hc.symm.trans hbefore)
            exact Option.some.inj (he.symm.trans hrole) ▸ ht
          case h_2 template ht =>
            simp only [run_bind_iff, run_draw_iff, run_setCombatant_iff] at h
            obtain ⟨chosen, _, ⟨hchosen, rfl⟩, _, _, rfl, h⟩ := h
            have hfollows : template.Follows enemy.lastMove chosen :=
              hchosen ▸ template.follows_nextMove enemy.lastMove _
            refine .inr ⟨combatant, _, ((template.nextMove enemy.lastMove).run s.rng).2,
              chosen.bind template.intent?, hc, .fresh he ht hfollows, ?_⟩
            cases hdeclared : chosen.bind template.intent? with
            | none =>
                rw [hdeclared] at h
                exact (run_pure_iff.mp h).2.symm
            | some intent =>
                rw [hdeclared] at h
                exact (run_report_iff.mp h).symm

end Resolution

/-! ## All declarations -/

/-- The enemies with some numbers have declared their moves, which was reported; nothing else has
changed. -/
structure Declared (rules : Rules) (ids : List CombatantId) (told : List Event) (s t : Scene) :
    Prop where
  marks : Marks told s t
  tellers : ∀ event ∈ told, ∃ id name, event = .intent id name
  wanes : Wanes s t
  bookkeeping : t.bookkeeping = s.bookkeeping
  fate : ∀ id ≠ .player, ∀ after, t.combat.combatant? id = some after →
    ∃ before, s.combat.combatant? id = some before ∧
      if id ∈ ids then Declares rules before after else after = before

namespace Declared

theorem nobody (rules : Rules) (s : Scene) : Declared rules [] [] s s where
  marks := Marks.flow.refl s
  tellers _ hmem := absurd hmem List.not_mem_nil
  wanes := Wanes.flow.refl s
  bookkeeping := rfl
  fate id _ after hafter := ⟨after, hafter, by simp⟩

variable {told' : List Event}

/-- Declarations one after another, of different enemies. -/
theorem cons (h : Declared rules [id] told s t) (h' : Declared rules ids told' t u)
    (hid : id ∉ ids) : Declared rules (id :: ids) (told ++ told') s u where
  marks := h.marks.trans h'.marks
  tellers event hmem := (List.mem_append.mp hmem).elim (h.tellers event) (h'.tellers event)
  wanes := Wanes.flow.trans h.wanes h'.wanes
  bookkeeping := h'.bookkeeping.trans h.bookkeeping
  fate other ho after hafter := by
    obtain ⟨middle, hmiddle, hlater⟩ := h'.fate other ho after hafter
    obtain ⟨before, hbefore, hfirst⟩ := h.fate other ho middle hmiddle
    refine ⟨before, hbefore, ?_⟩
    by_cases heq : other = id
    · rw [heq, if_neg hid] at hlater
      rw [heq, if_pos (List.mem_singleton_self id)] at hfirst
      rw [heq, if_pos List.mem_cons_self, hlater]
      exact hfirst
    · rw [if_neg fun hmem => heq (List.mem_singleton.mp hmem)] at hfirst
      rw [hfirst] at hlater
      by_cases hmem : other ∈ ids
      · rw [if_pos hmem] at hlater
        rwa [if_pos (List.mem_cons_of_mem _ hmem)]
      · rw [if_neg hmem] at hlater
        rwa [if_neg fun h => (List.mem_cons.mp h).elim heq hmem]

end Declared

namespace Resolution

/-- An enemy has declared its next move. -/
theorem chooseIntent_declared (h : (chooseIntent rules id).run s = .ok (a, t)) :
    ∃ told, Declared rules [id] told s t := by
  rcases chooseIntent_of_run h with ⟨rfl, hnothing⟩ | ⟨before, after, rng, declared, hc, hnew, rfl⟩
  · refine ⟨[], (Declared.nobody rules s).marks, (Declared.nobody rules s).tellers,
      Wanes.flow.refl s, rfl, fun other _ after hafter => ⟨after, hafter, ?_⟩⟩
    by_cases heq : other = id
    · rw [heq, if_pos (List.mem_singleton_self id)]
      exact hnothing after (heq ▸ hafter)
    · rw [if_neg fun hmem => heq (List.mem_singleton.mp hmem)]
  · obtain ⟨hid, hlife⟩ := hnew.same
    have hdrawn : ({ s with rng } : Scene).combat.combatant? id = some before := hc
    refine ⟨Intent.declaration id declared, ?marks, fun event hmem => ?tellers, ?wanes,
      ?bookkeeping, fun other ho found hfound => ?fate⟩
    case marks =>
      have hset : Marks [] s (({ s with rng } : Scene).setCombatant id after) :=
        Marks.flow.trans (.of_same rfl) (Marks.of_setCombatant id after)
      cases declared with
      | none => exact hset
      | some intent => exact hset.trans (.mark _ rfl)
    case tellers =>
      obtain ⟨intent, -, rfl⟩ := Option.map_eq_some_iff.mp (Option.mem_toList.mp hmem)
      exact ⟨id, intent.name, rfl⟩
    case wanes =>
      have hset : Wanes s (({ s with rng } : Scene).setCombatant id after) :=
        Wanes.flow.trans (.of_same rfl rfl) (.of_setCombatant hdrawn hid hlife)
      rw [Scene.tell_eq]
      exact Wanes.flow.trans hset (.of_same rfl rfl)
    case bookkeeping =>
      rw [Scene.tell_eq]
      exact Scene.bookkeeping_setCombatant id after
    case fate =>
      rw [Scene.tell_eq] at hfound
      have hfound : (({ s with rng } : Scene).setCombatant id after).combat.combatant? other =
        some found := hfound
      rw [Scene.setCombatant_combat, Combat.combatant?_setCombatant hdrawn hid] at hfound
      by_cases heq : other = id
      · rw [if_pos heq] at hfound
        obtain rfl := Option.some.inj hfound
        refine ⟨before, heq ▸ hc, ?_⟩
        rwa [heq, if_pos (List.mem_singleton_self id)]
      · rw [if_neg heq] at hfound
        exact ⟨found, hfound, by rw [if_neg fun hmem => heq (List.mem_singleton.mp hmem)]⟩

/-- **The declarations of some enemies.** -/
theorem forM_chooseIntent_declared (hids : ids.Nodup)
    (h : (ids.forM (chooseIntent rules)).run s = .ok (a, t)) :
    ∃ told, Declared rules ids told s t := by
  induction ids generalizing s with
  | nil =>
      obtain ⟨-, rfl⟩ := run_pure_iff.mp h
      exact ⟨[], Declared.nobody rules s⟩
  | cons id ids ih =>
      obtain ⟨hfirst, hrest⟩ := List.nodup_cons.mp hids
      obtain ⟨_, u, hchoose, h⟩ := run_bind_iff.mp h
      obtain ⟨told, hdeclared⟩ := chooseIntent_declared hchoose
      obtain ⟨told', hothers⟩ := ih hrest h
      exact ⟨told ++ told', hdeclared.cons hothers hfirst⟩

end Resolution

/-! ## The beginning of a turn -/

/-- The next turn is counted, and the block of the last one is gone. -/
def Scene.turns (scene : Scene) (turn : Nat) : Scene :=
  { scene with combat :=
    { scene.combat with turn, player := { scene.combat.player with block := 0 } } }

/-- A turn of the player has begun, with so much energy, and it was reported. -/
def Scene.begins (scene : Scene) (energy : Int) : Scene :=
  (scene.playerBegins energy).report (.turnStart scene.combat.turn)

/-- Nobody comes back when a turn of the player begins. -/
theorem Scene.wanes_begins {turn : Nat} {energy : Int} :
    Wanes s ((s.turns turn).begins energy) := by
  have hbare : Wanes s (s.setCombatant .player { s.combat.player with block := 0 }) :=
    .of_setCombatant Combat.combatant?_player rfl rfl
  refine Wanes.flow.trans hbare (.of_same ?_ ?_) <;>
    rw [setCombatant_combat, Combat.setCombatant_player] <;> rfl

namespace Resolution

/-- What the beginning of the player's turn does when the enemies have declared their moves: cards
are drawn, the triggers of the turn's start go off, and powers decay. -/
def greet (rules : Rules) : Resolution Unit := do
  drawCards rules rules.config.drawPerTurn
  happen rules .player .turnStart none {}
  decay rules .player .turnStart

theorem greet_quiet : Ensures Quiet (greet rules) :=
  Ensures.bind Quiet.flow (course_quiet rules (drawCards_course _)) fun _ =>
    Ensures.bind Quiet.flow (happen_quiet _ (by decide) _ _) fun _ => decay_quiet _ _

/-- **A turn of the player begins**: the turn is counted if it is not the first, the energy is
refilled, the turn is reported, then the enemies declare their moves, and then the player is
greeted. -/
theorem openTurn_of_run {first : Bool} (h : (openTurn rules first).run s = .ok (a, t)) :
    ∃ opened energy u, (first = true ∧ opened = s ∨ ∃ turn, opened = s.turns turn) ∧
      (opened.combat.livingEnemyIds.forM (chooseIntent rules)).run (opened.begins energy) =
        .ok ((), u) ∧ (greet rules).run u = .ok ((), t) := by
  obtain ⟨_, opened, hnext, h⟩ := run_bind_iff.mp h
  have hopened : first = true ∧ opened = s ∨ ∃ turn, opened = s.turns turn := by
    unfold nextTurn at hnext
    simp only [run_onlyIf_iff, run_bind_iff, run_combat_iff, run_lift_iff,
      run_modifyCombat_iff] at hnext
    rcases hnext with ⟨-, _, _, ⟨rfl, rfl⟩, turn, _, ⟨-, rfl⟩, rfl⟩ | ⟨hfirst, rfl⟩
    · exact .inr ⟨turn, rfl⟩
    · exact .inl ⟨by simpa using hfirst, rfl⟩
  obtain ⟨_, v, hrefresh, h⟩ := run_bind_iff.mp h
  unfold refresh at hrefresh
  simp only [run_bind_iff, run_combat_iff, run_lift_iff, run_modifyCombat_iff] at hrefresh
  obtain ⟨_, _, ⟨rfl, rfl⟩, energy, _, ⟨-, rfl⟩, rfl⟩ := hrefresh
  obtain ⟨_, _, hcombat, h⟩ := run_bind_iff.mp h
  obtain ⟨rfl, rfl⟩ := run_combat_iff.mp hcombat
  obtain ⟨_, _, hreport, h⟩ := run_bind_iff.mp h
  obtain rfl := run_report_iff.mp hreport
  obtain ⟨_, _, hcombat, h⟩ := run_bind_iff.mp h
  obtain ⟨rfl, rfl⟩ := run_combat_iff.mp hcombat
  obtain ⟨_, u, hchoose, h⟩ := run_bind_iff.mp h
  exact ⟨opened, energy, u, hopened, hchoose, h⟩

end Resolution

end CardCombat
