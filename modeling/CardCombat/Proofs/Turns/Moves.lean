import CardCombat.Proofs.Turns.Quiet

/-!
# The moves of enemies

Every enemy that lives when its turn comes makes the move that it has declared, remembers it and
declares nothing more; effects may have weakened the move meanwhile, but it is still the same one.
While an enemy has its turn the others stay who they are, so after the turns of all of them every
survivor has acted once, and it was reported once.

## Main definitions

* `Combatant.acted` -- an enemy that has made its move.
* `MakesMove` -- what an enemy does when it is its turn to act.
* `Acted` -- what has become of the enemies that had their turns.

## Main results

* `Resolution.enemyTurn_of_run` -- a turn of an enemy is quiet but for its move.
* `MakesMove.own`, `.bystander` -- what a move makes of the enemy and of the others.
* `Resolution.enemiesTurn_acted` -- the turns of all enemies.
-/

namespace CardCombat

open Resolution

variable {rules : Rules} {s t u : Scene} {id other : CombatantId} {before after : Combatant}
  {marks : List Event}

/-! ## Enemies that have acted -/

/-- The enemy has made the move that it had declared, if any. -/
def EnemyRole.acted (enemy : EnemyRole) : EnemyRole :=
  match enemy.intent with
  | none => enemy
  | some intent => { enemy with lastMove := some intent.moveIndex, intent := none }

namespace Combatant

/-- The combatant has made the move that it had declared, if any. -/
def acted (combatant : Combatant) : Combatant :=
  { combatant with enemy := combatant.enemy.map (·.acted) }

/-- What is reported when the combatant makes its move. -/
def announcement (combatant : Combatant) : List Event :=
  (combatant.intent.map fun intent => .intent combatant.id intent.name).toList

end Combatant

theorem EnemyRole.acted_of_none {enemy : EnemyRole} (h : enemy.intent = none) :
    enemy.acted = enemy := by
  unfold acted
  rw [h]

theorem EnemyRole.acted_of_some {enemy : EnemyRole} {intent : Intent}
    (h : enemy.intent = some intent) :
    enemy.acted = { enemy with lastMove := some intent.moveIndex, intent := none } := by
  unfold acted
  rw [h]

/-- Whoever has acted has declared nothing more. -/
theorem EnemyRole.intent_acted (enemy : EnemyRole) : enemy.acted.intent = none := by
  cases h : enemy.intent with
  | none => rw [acted_of_none h, h]
  | some intent => rw [acted_of_some h]

/-- A declared move is the same one for an enemy that is the same one. -/
theorem EnemyRole.IsStill.acted {after before : EnemyRole} (h : after.IsStill before) :
    after.acted.IsStill before.acted := by
  have hintent := h.intent
  cases hb : before.intent with
  | none =>
      rw [hb] at hintent
      cases ha : after.intent with
      | none => rwa [acted_of_none ha, acted_of_none hb]
      | some intent =>
          rw [ha] at hintent
          exact absurd hintent nofun
  | some declared =>
      rw [hb] at hintent
      cases ha : after.intent with
      | none =>
          rw [ha] at hintent
          exact absurd hintent nofun
      | some intent =>
          rw [ha] at hintent
          cases hintent with
          | some hsame =>
              have hmove : intent.moveIndex = declared.moveIndex := by rw [hsame.2]
              rw [acted_of_some ha, acted_of_some hb, hmove]
              exact ⟨h.template, h.vulnerabilities, h.resistances, rfl, .none⟩

namespace Combatant.IsStill

theorem acted (h : after.IsStill before) : after.acted.IsStill before.acted := by
  refine ⟨h.id, h.name, ?_⟩
  have henemy := h.enemy
  unfold Combatant.acted
  revert henemy
  generalize after.enemy = now, before.enemy = old
  intro henemy
  cases henemy with
  | none => exact .none
  | some hrole => exact .some hrole.acted

/-- What was declared is still declared, though it may have been weakened. -/
theorem intent (h : after.IsStill before) :
    Option.Rel Intent.IsStill after.intent before.intent := by
  have henemy := h.enemy
  unfold Combatant.intent
  revert henemy
  generalize after.enemy = now, before.enemy = old
  intro henemy
  cases henemy with
  | none => exact .none
  | some hrole => exact hrole.intent

theorem announcement (h : after.IsStill before) : after.announcement = before.announcement := by
  have hintent := h.intent
  unfold Combatant.announcement
  rw [h.id]
  revert hintent
  generalize after.intent = now, before.intent = old
  intro hintent
  cases hintent with
  | none => rfl
  | some hsame =>
      rw [hsame.2]
      rfl

end Combatant.IsStill

/-! ## One turn -/

/-- An enemy has made a move and remembers it, if it is still there. -/
def Scene.remembers (scene : Scene) (id : CombatantId) (moveIndex : Nat) : Scene :=
  match scene.combat.combatant? id with
  | none => scene
  | some combatant =>
    scene.setCombatant id { combatant with enemy := combatant.enemy.map fun enemy =>
      { enemy with lastMove := some moveIndex, intent := none } }

/-- What an enemy does when it is its turn to act: nothing if it has declared nothing, or else it
reports its move, the effects of the move are carried out, and it remembers the move. -/
inductive MakesMove (id : CombatantId) (s : Scene) : Scene → Prop
  | nothing (h : (s.combat.combatant? id).bind (·.intent) = none) : MakesMove id s s
  | declared {before intent u} (hc : s.combat.combatant? id = some before)
      (hi : before.intent = some intent) (h : Quiet (s.report (.intent id intent.name)) u) :
      MakesMove id s (u.remembers id intent.moveIndex)

namespace Scene

variable {moveIndex : Nat}

/-- Nobody changes but the enemy that remembers its move. -/
theorem combatant?_remembers :
    (s.remembers id moveIndex).combat.combatant? other =
      if other = id then (s.combat.combatant? id).map fun combatant =>
        { combatant with enemy := combatant.enemy.map fun enemy =>
          { enemy with lastMove := some moveIndex, intent := none } }
      else s.combat.combatant? other := by
  unfold remembers
  cases hc : s.combat.combatant? id with
  | none =>
      by_cases ho : other = id
      · rw [if_pos ho, ho]
        exact hc
      · rw [if_neg ho]
  | some combatant =>
      show (s.setCombatant id _).combat.combatant? other = _
      rw [setCombatant_combat]
      exact Combat.combatant?_setCombatant hc rfl

theorem wanes_remembers : Wanes s (s.remembers id moveIndex) := by
  unfold remembers
  cases hc : s.combat.combatant? id with
  | none => exact Wanes.flow.refl s
  | some combatant => exact .of_setCombatant hc rfl rfl

theorem marks_remembers : Marks [] s (s.remembers id moveIndex) := by
  unfold remembers
  cases s.combat.combatant? id with
  | none => exact Marks.flow.refl s
  | some combatant => exact .of_setCombatant _ _

end Scene

namespace MakesMove

variable (h : MakesMove id s t)

include h

theorem wanes : Wanes s t := by
  cases h with
  | nothing => exact Wanes.flow.refl s
  | @declared before intent u hc hi h =>
      have htold : Wanes s (s.report (.intent id intent.name)) := .of_same rfl rfl
      exact Wanes.flow.trans htold (Wanes.flow.trans h.wanes Scene.wanes_remembers)

/-- The move that was declared is reported, and nothing else. -/
theorem announced (hid : id ≠ .player) (hc : s.combat.combatant? id = some before) :
    Marks before.announcement s t := by
  unfold Combatant.announcement
  cases h with
  | nothing h =>
      have hnone : before.intent = none := by rwa [hc] at h
      rw [hnone]
      exact Marks.flow.refl s
  | @declared found intent u hc' hi h =>
      obtain rfl := Option.some.inj (hc.symm.trans hc')
      rw [hi, Combat.id_of_combatant? hid hc]
      have htold : Marks [.intent id intent.name] s (s.report (.intent id intent.name)) :=
        .mark s rfl
      exact htold.trans (h.marks.trans Scene.marks_remembers)

/-- The enemy that makes its move has acted. -/
theorem own (hn : s.combat.Numbered) (hid : id ≠ .player)
    (hafter : t.combat.combatant? id = some after) :
    ∃ before, s.combat.combatant? id = some before ∧ after.IsStill before.acted := by
  cases h with
  | nothing h =>
      refine ⟨after, hafter, ?_⟩
      rw [hafter] at h
      have hnone : after.intent = none := h
      have hacted : after.acted = after := by
        unfold Combatant.acted
        cases henemy : after.enemy with
        | none => exact congrArg (fun enemy => { after with enemy }) henemy.symm
        | some enemy =>
            rw [Combatant.intent, henemy] at hnone
            rw [Option.map_some, EnemyRole.acted_of_none hnone, ← henemy]
      rw [hacted]
      exact Std.Refl.refl after
  | @declared before intent u hc hi h =>
      rw [Scene.combatant?_remembers, if_pos rfl] at hafter
      obtain ⟨moved, hmoved, rfl⟩ := Option.map_eq_some_iff.mp hafter
      obtain ⟨found, hfound, hstill⟩ := h.combatant? hn hid hmoved
      obtain rfl := Option.some.inj (hc.symm.trans hfound)
      refine ⟨before, hc, hstill.id, hstill.name, ?_⟩
      have henemy := hstill.enemy
      unfold Combatant.intent at hi
      unfold Combatant.acted
      revert henemy hi
      generalize moved.enemy = now, before.enemy = old
      intro hi henemy
      cases henemy with
      | none => exact .none
      | @some now old hrole =>
          show Option.Rel _ (some _) (some old.acted)
          rw [EnemyRole.acted_of_some hi]
          exact .some ⟨hrole.template, hrole.vulnerabilities, hrole.resistances, rfl, .none⟩

/-- The others are who they were. -/
theorem bystander (hn : s.combat.Numbered) (ho : other ≠ id) (hp : other ≠ .player)
    (hafter : t.combat.combatant? other = some after) :
    ∃ before, s.combat.combatant? other = some before ∧ after.IsStill before := by
  cases h with
  | nothing => exact ⟨after, hafter, Std.Refl.refl after⟩
  | @declared before intent u hc hi h =>
      rw [Scene.combatant?_remembers, if_neg ho] at hafter
      exact h.combatant? hn hp hafter

end MakesMove

namespace Resolution

variable {a : Unit}

theorem makesMove_of_run (h : (((s.combat.combatant? id).bind (·.intent)).forM
    (makeMove rules id)).run s = .ok (a, t)) : MakesMove id s t := by
  generalize hintent : (s.combat.combatant? id).bind (·.intent) = intent at h
  cases intent with
  | none =>
      obtain ⟨-, rfl⟩ := run_pure_iff.mp h
      exact .nothing hintent
  | some intent =>
      obtain ⟨before, hc, hi⟩ := Option.bind_eq_some_iff.mp hintent
      obtain ⟨_, _, hreport, h⟩ := run_bind_iff.mp h
      obtain rfl := run_report_iff.mp hreport
      obtain ⟨_, u, hcarry, h⟩ := run_bind_iff.mp h
      obtain ⟨found, _, hfound, h⟩ := run_bind_iff.mp h
      obtain ⟨rfl, rfl⟩ := run_combatant?_iff.mp hfound
      have hmoves := MakesMove.declared hc hi ((carryOut_quiet _ _).rel hcarry)
      have ht : t = u.remembers id intent.moveIndex := by
        unfold Scene.remembers
        cases hc : u.combat.combatant? id with
        | none =>
            rw [hc] at h
            exact (run_pure_iff.mp h).2.symm
        | some combatant =>
            rw [hc] at h
            exact (run_setCombatant_iff.mp h).symm
      exact ht ▸ hmoves

/-- **The turn of an enemy** is quiet but for its move, which it makes if it lives and the player
does. -/
theorem enemyTurn_of_run (h : (enemyTurn rules id).run s = .ok (a, t)) :
    ∃ u v, Quiet s u ∧ Quiet v t ∧
      if u.combat.isLivingEnemy id && u.combat.player.isAlive then MakesMove id u v else v = u := by
  have hbare : Ensures Quiet (do
      (← combatant? id).forM fun combatant => setCombatant id { combatant with block := 0 }) :=
    ensures_combatant? (Ensures.pure Quiet.flow ()) fun hc h =>
      run_setCombatant_iff.mp h ▸ .of_setCombatant hc (.of_same rfl rfl rfl) rfl
  have hlast : Ensures Quiet (do
      if (← combat).isLivingEnemy id then
        Resolution.happen rules id .turnEnd none { source := id }
        Resolution.decay rules id .turnEnd
        Resolution.passSilence id) := by
    refine Ensures.combat Quiet.flow fun combat => ?_
    split
    · exact Ensures.bind Quiet.flow (happen_quiet _ (by decide) _ _) fun _ =>
        Ensures.bind Quiet.flow (decay_quiet _ _) fun _ => passSilence_quiet id
    · exact Ensures.pure Quiet.flow ()
  unfold enemyTurn at h
  rw [← bind_assoc] at h
  obtain ⟨_, v₁, hstart, h⟩ := run_bind_iff.mp h
  obtain ⟨_, v₂, hhappen, h⟩ := run_bind_iff.mp h
  obtain ⟨_, u, hdecay, h⟩ := run_bind_iff.mp h
  have hquiet : Quiet s u := Quiet.flow.trans (hbare.rel hstart)
    (Quiet.flow.trans ((happen_quiet _ (by decide) _ _).rel hhappen) ((decay_quiet _ _).rel hdecay))
  obtain ⟨_, _, hcombat, h⟩ := run_bind_iff.mp h
  obtain ⟨rfl, rfl⟩ := run_combat_iff.mp hcombat
  split at h
  case isTrue hable =>
    obtain ⟨_, v, hmove, h⟩ := run_bind_iff.mp h
    refine ⟨u, v, hquiet, hlast.rel h, ?_⟩
    rw [if_pos hable]
    exact makesMove_of_run hmove
  case isFalse hunable =>
    obtain ⟨-, rfl⟩ := run_pure_iff.mp h
    refine ⟨u, u, hquiet, Quiet.flow.refl u, ?_⟩
    rw [if_neg hunable]

end Resolution

/-! ## All turns -/

namespace Event

/-- The moves of an enemy that were reported. -/
def movesOf (id : CombatantId) (told : List Event) : List Event :=
  told.filter fun
    | .intent enemy _ => enemy == id
    | _ => false

theorem movesOf_append (told told' : List Event) :
    movesOf id (told ++ told') = movesOf id told ++ movesOf id told' := List.filter_append _ _

/-- Moves of others are no moves of an enemy. -/
theorem movesOf_eq_nil {told : List Event}
    (h : ∀ event ∈ told, ∃ enemy name, enemy ≠ id ∧ event = .intent enemy name) :
    movesOf id told = [] := by
  refine List.filter_eq_nil_iff.mpr fun event hmem => ?_
  obtain ⟨enemy, name, hne, rfl⟩ := h event hmem
  simpa using hne

/-- What an enemy announces is its move. -/
theorem movesOf_announcement : movesOf before.id before.announcement = before.announcement := by
  unfold Combatant.announcement
  cases before.intent with
  | none => rfl
  | some intent => exact List.filter_cons_of_pos (beq_self_eq_true before.id)

end Event

theorem Combatant.eq_of_mem_announcement {event : Event} (hmem : event ∈ before.announcement) :
    ∃ name, event = .intent before.id name := by
  unfold announcement at hmem
  obtain ⟨intent, -, rfl⟩ := Option.map_eq_some_iff.mp (Option.mem_toList.mp hmem)
  exact ⟨intent.name, rfl⟩

/-- The enemies with some numbers have had their turns, as far as they live and the player does:
each of them has acted once, which was reported, and everybody else is who they were. -/
structure Acted (ids : List CombatantId) (moves : List Event) (s t : Scene) : Prop where
  marks : Marks moves s t
  movers : ∀ event ∈ moves, ∃ id ∈ ids, ∃ name, event = .intent id name
  wanes : Wanes s t
  fate : ∀ id ≠ .player, ∀ after, t.combat.combatant? id = some after → after.isAlive = true →
    t.combat.player.isAlive = true → ∃ before, s.combat.combatant? id = some before ∧
      after.IsStill (if id ∈ ids then before.acted else before) ∧
        Event.movesOf id moves = if id ∈ ids then before.announcement else []

variable {ids ids' : List CombatantId} {moves moves' : List Event}

/-- In a quiet part nobody acts. -/
theorem Quiet.acted (h : Quiet s t) (hn : s.combat.Numbered) : Acted [] [] s t where
  marks := h.marks
  movers _ hmem := absurd hmem List.not_mem_nil
  wanes := h.wanes
  fate id hid after hafter _ _ := by
    obtain ⟨before, hbefore, hstill⟩ := h.combatant? hn hid hafter
    exact ⟨before, hbefore, by simpa using hstill, by simp [Event.movesOf]⟩

/-- An enemy that does not live, or whose turn does not come since the player does not, has nothing
to do. -/
theorem acted_of_unable (h : ¬(s.combat.isLivingEnemy id && s.combat.player.isAlive) = true) :
    Acted [id] [] s s where
  marks := Marks.flow.refl s
  movers _ hmem := absurd hmem List.not_mem_nil
  wanes := Wanes.flow.refl s
  fate other ho after hafter halive hplayer := by
    have hne : other ∉ [id] := by
      intro hmem
      obtain rfl := List.mem_singleton.mp hmem
      refine h ?_
      unfold Combat.isLivingEnemy
      rw [Combat.isAlive_of_combatant? hafter, halive, hplayer]
      simpa [CombatantId.isPlayer] using ho
    refine ⟨after, hafter, ?_, ?_⟩
    · rw [if_neg hne]
      exact Std.Refl.refl after
    · rw [if_neg hne]
      rfl

theorem MakesMove.acted (h : MakesMove id s t) (hn : s.combat.Numbered) (hid : id ≠ .player) :
    ∃ moves, Acted [id] moves s t := by
  have hmarks : ∃ moves, Marks moves s t ∧ (∀ event ∈ moves, ∃ name, event = .intent id name) ∧
      ∀ before, s.combat.combatant? id = some before → moves = before.announcement := by
    cases hc : s.combat.combatant? id with
    | some before =>
        refine ⟨_, h.announced hid hc, fun event hmem => ?_, fun other hother => ?_⟩
        · exact Combat.id_of_combatant? hid hc ▸ Combatant.eq_of_mem_announcement hmem
        · rw [Option.some.inj hother]
    | none =>
        cases h with
        | nothing =>
            exact ⟨[], Marks.flow.refl s, fun _ hmem => absurd hmem List.not_mem_nil,
              fun _ hother => absurd hother nofun⟩
        | declared hc' => exact absurd (hc.symm.trans hc') nofun
  obtain ⟨moves, hmarks, hmovers, hannounced⟩ := hmarks
  refine ⟨moves, hmarks, fun event hmem => ⟨id, List.mem_singleton_self id, hmovers event hmem⟩,
    h.wanes, fun other ho after hafter _ _ => ?_⟩
  by_cases heq : other = id
  · subst heq
    have hmem : other ∈ [other] := List.mem_singleton_self other
    obtain ⟨before, hbefore, hstill⟩ := h.own hn ho hafter
    refine ⟨before, hbefore, by rwa [if_pos hmem], ?_⟩
    have hnumber : before.id = other := Combat.id_of_combatant? ho hbefore
    rw [if_pos hmem, hannounced before hbefore, ← hnumber]
    exact Event.movesOf_announcement
  · have hnot : other ∉ [id] := fun hmem => heq (List.mem_singleton.mp hmem)
    obtain ⟨before, hbefore, hstill⟩ := h.bystander hn heq ho hafter
    refine ⟨before, hbefore, by rwa [if_neg hnot], ?_⟩
    rw [if_neg hnot]
    refine Event.movesOf_eq_nil fun event hmem => ?_
    obtain ⟨name, rfl⟩ := hmovers event hmem
    exact ⟨id, name, fun h => heq h.symm, rfl⟩

namespace Acted

/-- **Turns one after another**, of different enemies. -/
theorem append (h : Acted ids moves s t) (h' : Acted ids' moves' t u) (hn : s.combat.Numbered)
    (hdistinct : ids.Disjoint ids') : Acted (ids ++ ids') (moves ++ moves') s u where
  marks := h.marks.trans h'.marks
  movers event hmem := by
    rcases List.mem_append.mp hmem with hmem | hmem
    · obtain ⟨id, hid, name, rfl⟩ := h.movers event hmem
      exact ⟨id, List.mem_append_left _ hid, name, rfl⟩
    · obtain ⟨id, hid, name, rfl⟩ := h'.movers event hmem
      exact ⟨id, List.mem_append_right _ hid, name, rfl⟩
  wanes := Wanes.flow.trans h.wanes h'.wanes
  fate id hid after hafter halive hplayer := by
    obtain ⟨middle, hmiddle, hstill', hmoves'⟩ := h'.fate id hid after hafter halive hplayer
    obtain ⟨hn', halive'⟩ := h.wanes hn
    obtain ⟨-, hback⟩ := h'.wanes hn'
    have hlives : middle.isAlive = true := by
      rw [← Combat.isAlive_of_combatant? hmiddle]
      exact hback id ((Combat.isAlive_of_combatant? hafter).trans halive)
    have hstands : t.combat.player.isAlive = true := by
      rw [← Combat.isAlive_of_combatant? Combat.combatant?_player]
      exact hback .player ((Combat.isAlive_of_combatant? Combat.combatant?_player).trans hplayer)
    obtain ⟨before, hbefore, hstill, hmoves⟩ := h.fate id hid middle hmiddle hlives hstands
    refine ⟨before, hbefore, ?_⟩
    rw [Event.movesOf_append, hmoves, hmoves']
    by_cases hfirst : id ∈ ids
    · have hnot : id ∉ ids' := fun hmem => hdistinct hfirst hmem
      rw [if_pos hfirst] at hstill ⊢
      rw [if_neg hnot] at hstill' ⊢
      rw [if_pos (List.mem_append_left _ hfirst), if_pos (List.mem_append_left _ hfirst)]
      exact ⟨IsTrans.trans _ _ _ hstill' hstill, List.append_nil _⟩
    · rw [if_neg hfirst] at hstill ⊢
      by_cases hsecond : id ∈ ids'
      · rw [if_pos hsecond] at hstill' ⊢
        rw [if_pos (List.mem_append_right _ hsecond), if_pos (List.mem_append_right _ hsecond)]
        exact ⟨IsTrans.trans _ _ _ hstill' hstill.acted, hstill.announcement⟩
      · have hnot : id ∉ ids ++ ids' := fun hmem => (List.mem_append.mp hmem).elim hfirst hsecond
        rw [if_neg hsecond] at hstill' ⊢
        rw [if_neg hnot, if_neg hnot]
        exact ⟨IsTrans.trans _ _ _ hstill' hstill, rfl⟩

theorem numbered (h : Acted ids moves s t) (hn : s.combat.Numbered) : t.combat.Numbered :=
  (h.wanes hn).1

end Acted

namespace Resolution

variable {a : Unit}

/-- **The turn of an enemy**: it has acted, and nobody else has. -/
theorem enemyTurn_acted (hn : s.combat.Numbered) (hid : id ≠ .player)
    (h : (enemyTurn rules id).run s = .ok (a, t)) : ∃ moves, Acted [id] moves s t := by
  obtain ⟨u, v, hbefore, hafter, hmove⟩ := enemyTurn_of_run h
  have hstart : Acted [] [] s u := hbefore.acted hn
  have hmoved : ∃ moves, Acted [id] moves u v := by
    split at hmove
    case isTrue => exact hmove.acted (hstart.numbered hn) hid
    case isFalse hunable =>
      subst hmove
      exact ⟨[], acted_of_unable hunable⟩
  obtain ⟨moves, hmoved⟩ := hmoved
  have hturn : Acted [id] moves s v := hstart.append hmoved hn (List.disjoint_nil_left _)
  have hend : Acted [] [] v t := hafter.acted (hturn.numbered hn)
  have hwhole := hturn.append hend hn (List.disjoint_nil_right _)
  rw [List.append_nil, List.append_nil] at hwhole
  exact ⟨moves, hwhole⟩

/-- The turns of some enemies, each of which has one if it lives and nothing is decided. -/
theorem forM_enemyTurn_acted (hn : s.combat.Numbered) (hids : ids.Nodup)
    (hplayer : .player ∉ ids) (h : (ids.forM fun id => do
      let combat ← combat
      if !combat.isDecided && combat.isLivingEnemy id then enemyTurn rules id).run s = .ok (a, t)) :
    ∃ moves, Acted ids moves s t := by
  induction ids generalizing s with
  | nil =>
      obtain ⟨-, rfl⟩ := run_pure_iff.mp h
      exact ⟨[], (Quiet.flow.refl s).acted hn⟩
  | cons id ids ih =>
      obtain ⟨hfirst, hrest⟩ := List.nodup_cons.mp hids
      have hid : id ≠ .player := fun heq => hplayer (heq ▸ List.mem_cons_self)
      obtain ⟨_, u, hturn, h⟩ := run_bind_iff.mp h
      obtain ⟨_, _, hcombat, hturn⟩ := run_bind_iff.mp hturn
      obtain ⟨rfl, rfl⟩ := run_combat_iff.mp hcombat
      have hacted : ∃ moves, Acted [id] moves s u := by
        split at hturn
        case isTrue => exact enemyTurn_acted hn hid hturn
        case isFalse hidle =>
          obtain ⟨-, rfl⟩ := run_pure_iff.mp hturn
          refine ⟨[], acted_of_unable fun hable => hidle ?_⟩
          obtain ⟨hliving, hstands⟩ := Bool.and_eq_true_iff.mp hable
          rw [Combat.isDecided_of_living hliving hstands, hliving]
          rfl
      obtain ⟨moves, hacted⟩ := hacted
      obtain ⟨moves', hothers⟩ := ih (hacted.numbered hn) hrest
        (fun hmem => hplayer (List.mem_cons_of_mem _ hmem)) h
      exact ⟨moves ++ moves', hacted.append hothers hn (List.disjoint_singleton.mpr hfirst).symm⟩

/-- **The turns of all enemies.** -/
theorem enemiesTurn_acted (hn : s.combat.Numbered) (h : (enemiesTurn rules).run s = .ok (a, t)) :
    ∃ moves, Acted s.combat.livingEnemyIds moves s t := by
  obtain ⟨_, _, hphase, h⟩ := run_bind_iff.mp h
  obtain rfl := run_modifyCombat_iff.mp hphase
  obtain ⟨_, _, hcombat, h⟩ := run_bind_iff.mp h
  obtain ⟨rfl, rfl⟩ := run_combat_iff.mp hcombat
  obtain ⟨_, u, hturns, h⟩ := run_bind_iff.mp h
  obtain rfl := run_bury_iff.mp h
  have hsublist : s.combat.livingEnemyIds.Sublist (s.combat.enemies.map (·.id)) :=
    List.filter_sublist.map _
  have hbegun : s.enemiesBegin.combat.Numbered := hn
  obtain ⟨moves, hacted⟩ := forM_enemyTurn_acted hbegun (hn.1.sublist hsublist)
    (fun hmem => hn.2 (hsublist.subset hmem)) hturns
  have hturned : Acted s.combat.livingEnemyIds moves s u :=
    ⟨hacted.marks, hacted.movers, hacted.wanes, hacted.fate⟩
  have hburied : Acted [] [] u u.bury := (Quiet.bury rules u).acted (hturned.numbered hn)
  have hwhole := hturned.append hburied hn (List.disjoint_nil_right _)
  rw [List.append_nil, List.append_nil] at hwhole
  exact ⟨moves, hwhole⟩

end Resolution

end CardCombat
