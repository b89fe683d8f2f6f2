import CardCombat.Proofs.Resolution.Fighters

/-!
# Those who are found

An aim finds everyone at most once, and whom it finds depends on nothing of the combatants but who
there is with how much health. So where something is done to one after the other of those who were
found, each of them is still as it was when its turn comes, and in the end each has been changed in
its own way and everyone else is as before.

## Main definitions

* `Scene.found`, `Scene.sought` -- whom an aim finds now, and the scene after that.
* `Scene.amended` -- the scene after a combatant was set.
* `Combat.roster` -- who there is, with how much health.

## Main results

* `Aim.nodup_find` -- everyone is found at most once.
* `Aim.candidates_congr` -- whom an aim finds depends on the roster only.
* `Resolution.exists_run_forM` -- something is done to one combatant after the other.
-/

namespace CardCombat

/-! ## The roster -/

namespace Combat

variable {combat before after : Combat} {id : CombatantId} {old new : Combatant}

/-- Who there is, with how much health. -/
def roster (combat : Combat) : Int × List (CombatantId × Int) :=
  (combat.player.health, combat.enemies.map fun enemy => (enemy.id, enemy.health))

theorem isAlive_eq_roster : combat.isAlive id =
    if id.isPlayer then decide (0 < combat.roster.1)
    else (combat.roster.2.find? (·.1 == id)).any (0 < ·.2) := by
  unfold isAlive combatant? roster
  split
  · rfl
  · rw [List.find?_map, Option.any_map]
    rfl

theorem livingEnemyIds_eq_roster :
    combat.livingEnemyIds = (combat.roster.2.filter (0 < ·.2)).map (·.1) := by
  unfold livingEnemyIds livingEnemies roster
  rw [List.filter_map, List.map_map]
  rfl

/-- The entry of a roster whose health beats the health of all others; of several the first. -/
def foremost (beats : Int → Int → Bool) (entries : List (CombatantId × Int)) :
    Option (CombatantId × Int) :=
  entries.foldl (fun best entry =>
    match best with
    | some leader => if beats entry.2 leader.2 then some entry else best
    | none => some entry) none

theorem leader_eq_roster {beats : Int → Int → Bool} :
    (Aim.leader beats combat.livingEnemies).map (·.id) =
      (foremost beats (combat.roster.2.filter (0 < ·.2))).map (·.1) := by
  let view (enemy : Combatant) : CombatantId × Int := (enemy.id, enemy.health)
  have hliving : combat.roster.2.filter (fun entry => 0 < entry.2) =
      combat.livingEnemies.map view := by
    unfold roster livingEnemies
    rw [List.filter_map]
    rfl
  have hview : foremost beats (combat.livingEnemies.map view) =
      (Aim.leader beats combat.livingEnemies).map view := by
    unfold foremost Aim.leader
    rw [List.foldl_map]
    refine @List.foldl_hom _ _ _ (Option.map view) _ _ _ none fun best enemy => ?_
    cases best with
    | none => rfl
    | some leader =>
        show (if beats enemy.health leader.health then some (view enemy) else some (view leader)) =
          Option.map view (if beats enemy.health leader.health then some enemy else some leader)
        split <;> rfl
  rw [hliving, hview, Option.map_map]
  rfl

/-- A combatant that keeps its health leaves the roster as it is. -/
theorem roster_setCombatant (hc : combat.combatant? id = some old) (hid : new.id = old.id)
    (hhealth : new.health = old.health) : (combat.setCombatant id new).roster = combat.roster := by
  by_cases hp : id = .player
  · subst hp
    obtain rfl := Option.some.inj hc
    show (new.health, _) = (combat.player.health, _)
    rw [hhealth]
    rfl
  · rw [setCombatant_enemy hp]
    rw [combatant?_enemy hp] at hc
    refine congrArg (combat.player.health, ·) ?_
    show (replaceEnemy id new combat.enemies).map _ = combat.enemies.map _
    generalize combat.enemies = enemies at hc
    induction enemies with
    | nil => rfl
    | cons enemy enemies ih =>
        unfold replaceEnemy
        rw [List.find?_cons] at hc
        split at hc
        case h_1 h =>
          obtain rfl := Option.some.inj hc
          rw [if_pos h, List.map_cons, List.map_cons, hid, hhealth]
        case h_2 h =>
          rw [if_neg (by simp [h]), List.map_cons, List.map_cons, ih hc]

end Combat

namespace Aim

variable {before after combat : Combat} {ctx : Context} {target : Aim}

theorem candidates_congr (h : after.roster = before.roster) :
    target.candidates after ctx = target.candidates before ctx := by
  have halive (id : CombatantId) : after.isAlive id = before.isAlive id := by
    rw [Combat.isAlive_eq_roster, Combat.isAlive_eq_roster, h]
  have hliving : after.livingEnemyIds = before.livingEnemyIds := by
    rw [Combat.livingEnemyIds_eq_roster, Combat.livingEnemyIds_eq_roster, h]
  have hleader (beats : Int → Int → Bool) : (leader beats after.livingEnemies).map (·.id) =
      (leader beats before.livingEnemies).map (·.id) := by
    rw [Combat.leader_eq_roster, Combat.leader_eq_roster, h]
  have hfound (id : CombatantId) : living after id = living before id := by
    unfold living
    rw [halive]
  have henemy : after.isLivingEnemy = before.isLivingEnemy := by
    funext id
    unfold Combat.isLivingEnemy
    rw [halive]
  cases target with
  | player | self => exact hfound _
  | source =>
      unfold candidates
      rw [hfound, funext hfound]
  | enemy =>
      unfold candidates
      rw [henemy, hliving]
  | weakestEnemy | strongestEnemy => exact congrArg Option.toList (hleader _)
  | everyone =>
      unfold candidates
      rw [hfound, hliving]
  | randomEnemy | frontEnemy | backEnemy | allEnemies | otherEnemies =>
      unfold candidates
      rw [hliving]

theorem find_congr (h : after.roster = before.roster) :
    target.find after ctx = target.find before ctx := by
  unfold find
  rw [candidates_congr h]

theorem nodup_living {id : CombatantId} : (living combat id).Nodup := by
  unfold living
  split
  · exact List.nodup_singleton id
  · exact List.nodup_nil

theorem nodup_toList {α : Type} (found : Option α) : found.toList.Nodup := by
  cases found with
  | none => exact List.nodup_nil
  | some x => exact List.nodup_singleton x

/-- Everyone is a candidate at most once. -/
theorem nodup_candidates (hn : combat.Numbered) : (target.candidates combat ctx).Nodup := by
  have hliving : combat.livingEnemyIds.Nodup := hn.1.sublist (List.filter_sublist.map _)
  cases target with
  | player | self => exact nodup_living
  | source =>
      show (if ctx.triggered then (ctx.currentTarget.map (living combat)).getD []
        else living combat ctx.source).Nodup
      split
      · cases ctx.currentTarget with
        | none => exact List.nodup_nil
        | some cause => exact nodup_living
      · exact nodup_living
  | enemy | weakestEnemy | strongestEnemy | frontEnemy | backEnemy => exact nodup_toList _
  | randomEnemy | allEnemies => exact hliving
  | everyone =>
      refine nodup_living.append hliving fun id hplayer henemy => ?_
      exact ((Combat.mem_livingEnemyIds hn).mp henemy).1 (mem_living hplayer).1
  | otherEnemies => exact hliving.filter _

/-- **Everyone is found at most once.** -/
theorem nodup_find (hn : combat.Numbered) {rng : Rng} :
    ((target.find combat ctx).run rng).1.Nodup := by
  unfold find
  dsimp only
  split
  · exact nodup_toList _
  · exact nodup_candidates hn

end Aim

/-! ## Finding in a scene -/

namespace Scene

variable {s t u : Scene} {aim : Aim} {ctx : Context} {id other : CombatantId}
  {before after : Combatant}

/-- Whom an aim finds now. -/
def found (scene : Scene) (aim : Aim) (ctx : Context) : List CombatantId :=
  ((aim.find scene.combat ctx).run scene.rng).1

/-- The scene after an aim has found whom it finds. -/
def sought (scene : Scene) (aim : Aim) (ctx : Context) : Scene :=
  { scene with rng := ((aim.find scene.combat ctx).run scene.rng).2 }

@[simp] theorem combat_sought : (s.sought aim ctx).combat = s.combat := rfl

theorem nodup_found (hn : s.combat.Numbered) : (s.found aim ctx).Nodup := Aim.nodup_find hn

/-- Whoever is found is there, and alive. -/
theorem exists_of_mem_found (hn : s.combat.Numbered) (h : id ∈ s.found aim ctx) :
    ∃ combatant, s.combat.combatant? id = some combatant ∧ combatant.isAlive = true :=
  (Option.any_eq_true _ _).mp (Aim.isAlive_of_mem_find hn h)

theorem found_congr (hroster : t.combat.roster = s.combat.roster) (hrng : t.rng = s.rng) :
    t.found aim ctx = s.found aim ctx := by
  unfold found
  rw [Aim.find_congr hroster, hrng]

/-! ## The powers of one combatant change -/

/-- The scene after a combatant was set and events have told of it. -/
def amended (scene : Scene) (id : CombatantId) (after : Combatant) (events : List Event) : Scene :=
  (scene.setCombatant id after).tell events

variable {events : List Event}

/-- Whoever was set is found as it was set, and everyone else as before. -/
theorem combatant?_amended (hc : s.combat.combatant? id = some before)
    (h : before.SameButPowers after) : (s.amended id after events).combat.combatant? other =
      if other = id then some after else s.combat.combatant? other := by
  unfold amended
  rw [tell_eq]
  exact Scene.combatant?_setCombatant hc h.id

theorem roster_amended (hc : s.combat.combatant? id = some before)
    (h : before.SameButPowers after) :
    (s.amended id after events).combat.roster = s.combat.roster := by
  obtain ⟨powers, rfl⟩ := h
  have hroster : (s.combat.setCombatant id { before with powers }).roster = s.combat.roster :=
    Combat.roster_setCombatant hc rfl rfl
  unfold amended
  rw [tell_eq, ← hroster]
  unfold setCombatant
  split <;> rfl

theorem rng_amended : (s.amended id after events).rng = s.rng := by
  unfold amended
  rw [tell_eq]
  unfold setCombatant
  split <;> rfl

/-- Whoever is set as it is changes nothing. -/
theorem amended_self (hc : s.combat.combatant? id = some before) : s.amended id before [] = s := by
  unfold amended
  rw [setCombatant_self hc]
  rfl

end Scene

/-! ## One after the other -/

namespace Resolution

variable {s t : Scene} {aim : Aim} {ctx : Context}

theorem run_targets (s : Scene) (aim : Aim) (ctx : Context) :
    (targets aim ctx).run s = .ok (s.found aim ctx, s.sought aim ctx) :=
  run_targets_iff.mpr ⟨rfl, rfl⟩

/-- An amount that may be missing. -/
theorem run_amount?_iff {value : Option Value} {asked : Option Int} :
    (amount? value ctx).run s = .ok (asked, t) ↔
      value.mapM (·.resolve s.combat ctx) = .ok asked ∧ s = t := by
  cases value with
  | none =>
      show (pure none : Resolution (Option Int)).run s = .ok (asked, t) ↔
        (Except.ok none : Except Fault (Option Int)) = .ok asked ∧ s = t
      rw [run_pure_iff, Except.ok.injEq]
  | some value =>
      show (amount value ctx >>= fun n => pure (some n)).run s = .ok (asked, t) ↔
        (value.resolve s.combat ctx >>= fun n => pure (some n)) = .ok asked ∧ s = t
      simp only [run_bind_iff, run_amount_iff, run_pure_iff, bind_eq_ok]
      constructor
      · rintro ⟨n, _, ⟨hn, rfl⟩, rfl, rfl⟩
        exact ⟨⟨n, hn, rfl⟩, rfl⟩
      · rintro ⟨⟨n, hn, hasked⟩, rfl⟩
        exact ⟨n, s, ⟨hn, rfl⟩, Except.ok.inj hasked, rfl⟩

/-- Something is done to the only one who is found. -/
theorem run_forTargets_one {id : CombatantId} {before : Combatant}
    {act : CombatantId → Combatant → Resolution Unit} (hfound : s.found aim ctx = [id])
    (hc : s.combat.combatant? id = some before)
    (h : (act id before).run (s.sought aim ctx) = .ok ((), t)) :
    (forTargets aim ctx act).run s = .ok ((), t) := by
  refine run_bind_iff.mpr ⟨_, _, run_targets s aim ctx, ?_⟩
  rw [hfound]
  refine run_bind_iff.mpr ⟨(), t, ?_, rfl⟩
  exact run_bind_iff.mpr ⟨some before, _, run_combatant?_iff.mpr ⟨hc, rfl⟩, h⟩

/-- **Something is done to one combatant after the other**: what is done to each of them changes it
in a way that depends on nobody else, and changes nobody else. So in the end all of them have been
changed as if each had been the only one, and everyone else is as before. -/
theorem exists_run_forM {ids : List CombatantId} {act : CombatantId → Resolution Unit}
    {changed : Combatant → Combatant → Prop} (hnodup : ids.Nodup)
    (hthere : ∀ id ∈ ids, ∃ before, s.combat.combatant? id = some before)
    (hact : ∀ id ∈ ids, ∀ before, s.combat.combatant? id = some before →
      ∀ u : Scene, u.combat.combatant? id = some before → ∃ v after,
        (act id).run u = .ok ((), v) ∧ v.combat.combatant? id = some after ∧
          changed before after ∧
            ∀ other, other ≠ id → v.combat.combatant? other = u.combat.combatant? other) :
    ∃ t, (ids.forM act).run s = .ok ((), t) ∧
      (∀ id ∈ ids, ∀ before, s.combat.combatant? id = some before →
        ∃ after, t.combat.combatant? id = some after ∧ changed before after) ∧
        ∀ other, other ∉ ids → t.combat.combatant? other = s.combat.combatant? other := by
  induction ids generalizing s with
  | nil => exact ⟨s, rfl, fun _ hmem => absurd hmem List.not_mem_nil, fun _ _ => rfl⟩
  | cons id ids ih =>
      obtain ⟨hfirst, hrest⟩ := List.nodup_cons.mp hnodup
      obtain ⟨before, hbefore⟩ := hthere id List.mem_cons_self
      obtain ⟨u, after, hrun, hafter, hchanged, hkept⟩ :=
        hact id List.mem_cons_self before hbefore s hbefore
      -- whoever comes later is still as it was at the beginning
      have hlater {other : CombatantId} (hmem : other ∈ ids) :
          u.combat.combatant? other = s.combat.combatant? other :=
        hkept other fun heq => hfirst (heq ▸ hmem)
      obtain ⟨t, hruns, hall, hothers⟩ := ih (s := u) hrest
        (fun other hmem => hlater hmem ▸ hthere other (List.mem_cons_of_mem _ hmem))
        (fun other hmem before hc => hact other (List.mem_cons_of_mem _ hmem) before
          (hlater hmem ▸ hc))
      refine ⟨t, run_bind_iff.mpr ⟨(), u, hrun, hruns⟩, fun other hmem found hc => ?_,
        fun other hmem => ?_⟩
      · rcases List.mem_cons.mp hmem with rfl | hmem
        · obtain rfl := Option.some.inj (hbefore.symm.trans hc)
          exact ⟨after, (hothers _ hfirst).trans hafter, hchanged⟩
        · exact hall other hmem found ((hlater hmem).trans hc)
      · rw [List.mem_cons, not_or] at hmem
        rw [hothers other hmem.2, hkept other hmem.1]

end Resolution

end CardCombat
