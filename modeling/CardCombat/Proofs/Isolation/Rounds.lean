import CardCombat.Proofs.Isolation.Reached

/-!
# Iterations over enemies

An iteration carries out its effects for one enemy after another. Whom it reaches is fixed when it
begins; what an effect on `enemy` finds is settled when the effect begins. As long as the enemy that
was reached is alive, it is the one that is found, and no other enemy is disturbed. Once it is dead,
the effects that are left are not skipped: they go to whoever would be found without an iteration,
the enemy that was chosen or else the first that lives.

## Main definitions

* `Stroke` -- one nested effect, and whom it disturbs.
* `Round` -- all that an iteration does for one that it has reached.

## Main results

* `Resolution.stroke_of_run` -- one nested effect, carried out anywhere in an iteration.
* `Resolution.isolated_while_reached_lives` -- an iteration is made of rounds, and these of strokes.
* `Resolution.forEach_isolated` -- with one nested effect no round disturbs another enemy.
-/

namespace CardCombat

open Resolution

/-! ## What stays as it was -/

namespace Combat

variable {combat before after : Combat} {who id : CombatantId} {c : Combatant}

theorem find?_bystanders (hid : id ≠ who) :
    (combat.bystanders who).find? (·.id == id) = combat.enemies.find? (·.id == id) := by
  unfold bystanders
  rw [List.find?_filter]
  refine congrArg (combat.enemies.find? ·) (funext fun enemy => ?_)
  by_cases h : enemy.id = id
  · simp [h, hid]
  · simp [h]

/-- **Every living bystander** is found as it was. -/
theorem Undisturbed.combatant?_eq (h : Undisturbed who before after) (hid : id ≠ who)
    (hp : id ≠ .player) (hc : before.combatant? id = some c) (halive : c.isAlive = true) :
    after.combatant? id = some c := by
  rw [combatant?_enemy hp, ← find?_bystanders hid] at hc ⊢
  rcases h with h | h
  · rw [h, hc]
  · rw [h, List.find?_filter]
    generalize before.bystanders who = enemies at hc
    induction enemies with
    | nil => exact absurd hc nofun
    | cons enemy enemies ih =>
        rw [List.find?_cons] at hc ⊢
        by_cases heq : (enemy.id == id) = true
        · rw [heq] at hc
          obtain rfl := Option.some.inj hc
          rw [heq, halive]
          rfl
        · rw [Bool.not_eq_true] at heq
          rw [heq] at hc
          rw [heq]
          simpa using ih hc

theorem Undisturbed.isLivingEnemy (h : Undisturbed who before after) (hid : id ≠ who)
    (hl : before.isLivingEnemy id = true) : after.isLivingEnemy id = true := by
  obtain ⟨hp, c, hc, halive⟩ := isLivingEnemy_iff.mp hl
  exact isLivingEnemy_iff.mpr ⟨hp, c, h.combatant?_eq hid hp hc halive, halive⟩

end Combat

/-! ## Whom an effect on an enemy finds -/

/-- Whom an effect on an enemy finds without an iteration: the enemy that was chosen, if it is
alive, or else the first that lives. -/
def Context.fallback? (ctx : Context) (combat : Combat) : Option CombatantId :=
  ctx.target.filter combat.isLivingEnemy <|> combat.livingEnemyIds.head?

section Finding

variable {combat : Combat} {ctx inner : Context} {reached : CombatantId}

/-- The context of a round differs in whom was reached, and lies deeper. -/
theorem Context.eq_of_atTarget (h : ctx.atTarget reached = .ok inner) :
    ∃ depth, inner = { ctx with currentTarget := some reached, depth } := by
  obtain ⟨deeper, hdeeper, h⟩ := bind_eq_ok.mp h
  obtain ⟨depth, -, hdeeper⟩ := bind_eq_ok.mp hdeeper
  obtain rfl := Except.ok.inj hdeeper
  exact ⟨depth, (Except.ok.inj h).symm⟩

/-- **Inside an iteration** an effect on an enemy finds the one that was reached, if it is a living
enemy, and whom it would find without the iteration if it is not. -/
theorem Aim.candidates_enemy_atTarget (h : ctx.atTarget reached = .ok inner) :
    Aim.candidates combat inner .enemy =
      if combat.isLivingEnemy reached then [reached] else (ctx.fallback? combat).toList := by
  obtain ⟨depth, rfl⟩ := Context.eq_of_atTarget h
  show (([some reached, ctx.target].filterMap id).find? combat.isLivingEnemy
    <|> combat.livingEnemyIds.head?).toList = _
  unfold Context.fallback?
  cases hreached : combat.isLivingEnemy reached with
  | true => simp [hreached]
  | false =>
      cases htarget : ctx.target with
      | none => simp [hreached]
      | some target =>
          cases hliving : combat.isLivingEnemy target <;> simp [hreached, hliving, Option.filter]

/-- **Without an iteration** it is found. -/
theorem Aim.candidates_enemy_reaching_none (h : ctx.atTarget reached = .ok inner) :
    Aim.candidates combat (inner.reaching none) .enemy = (ctx.fallback? combat).toList := by
  obtain ⟨depth, rfl⟩ := Context.eq_of_atTarget h
  show (([none, ctx.target].filterMap id).find? combat.isLivingEnemy
    <|> combat.livingEnemyIds.head?).toList = _
  unfold Context.fallback?
  cases htarget : ctx.target with
  | none => rfl
  | some target => cases hliving : combat.isLivingEnemy target <;> simp [hliving, Option.filter]

theorem Context.fallback?_eq_none (h : combat.livingEnemyIds = []) :
    ctx.fallback? combat = none := by
  unfold Context.fallback?
  rw [h, List.head?_nil]
  cases htarget : ctx.target with
  | none => rfl
  | some target =>
      have hdead : ¬combat.isLivingEnemy target = true := fun hl =>
        Combat.livingEnemyIds_ne_nil hl h
      simp [hdead]

theorem Aim.run_find {aim : Aim} (h : aim.isRandom = false) (rng : Rng) :
    (aim.find combat ctx).run rng = (aim.candidates combat ctx, rng) := by
  unfold Aim.find
  rw [if_neg (by simp [h])]
  rfl

end Finding

/-! ## Strokes and rounds -/

/-- Something is done for one element of a list after another. -/
inductive Along {α : Type} (R : α → Scene → Scene → Prop) : List α → Scene → Scene → Prop
  | nil (s : Scene) : Along R [] s s
  | cons {x xs s t u} (h : R x s t) (hrest : Along R xs t u) : Along R (x :: xs) s u

/-- One of the nested effects is carried out for the one that an iteration has reached, with so many
levels left for what it brings about. -/
structure Stroke (rules : Rules) (levels : Nat) (ctx : Context) (reached : CombatantId)
    (effect : Effect) (s t : Scene) : Prop where
  /-- If no living enemy was reached the effect is carried out as it is without an iteration. -/
  carried : ∃ inner, ctx.atTarget reached = .ok inner ∧
    (dispatch rules (within rules skip levels) inner effect).run s = .ok ((), t) ∧
      (s.combat.isLivingEnemy reached = false →
        (dispatch rules (within rules skip levels) (inner.reaching none) effect).run s =
          .ok ((), t))
  /-- As long as the enemy that was reached lives, or if no enemy does, nobody else is disturbed. -/
  isolated : s.combat.isLivingEnemy reached = true ∨ s.combat.livingEnemyIds = [] →
    s.combat.Undisturbed reached t.combat
  /-- Otherwise nobody is disturbed but whoever is found without an iteration. -/
  strayed : s.combat.isLivingEnemy reached = false →
    ∀ other, ctx.fallback? s.combat = some other → s.combat.Undisturbed other t.combat

/-- The effects that carry out nested `effects` for everyone that an aim finds: iterations, and hits
with effects nested in them. -/
inductive Effect.Iterates (aim : Aim) (effects : List Effect) : Effect → Prop
  | forEach : Iterates aim effects (.forEach (.combatant aim) effects)
  | damage (amount : Value) {element : Element} (he : element ≠ .lightning) (piercing : Bool) :
      Iterates aim effects (.damage amount aim element piercing effects)

/-- What an iteration does for one that it has reached. A hit comes before the effects nested in it,
the answers to it come after them, and both disturb nobody else. -/
inductive Round (rules : Rules) (levels : Nat) (ctx : Context) (reached : CombatantId) :
    Effect → Scene → Scene → Prop
  | strokes {aim effects s t} (h : Along (Stroke rules levels ctx reached) effects s t) :
      Round rules levels ctx reached (.forEach (.combatant aim) effects) s t
  | missed {amount aim element piercing effects s} (h : s.combat.isAlive reached = false) :
      Round rules levels ctx reached (.damage amount aim element piercing effects) s s
  | landed {amount aim element piercing effects s u v t} (halive : s.combat.isAlive reached = true)
      (hlanded : s.combat.Undisturbed reached u.combat)
      (h : Along (Stroke rules levels ctx reached) effects u v)
      (hanswered : v.combat.Undisturbed reached t.combat) :
      Round rules levels ctx reached (.damage amount aim element piercing effects) s t

namespace Along

variable {α : Type} {R R' : α → Scene → Scene → Prop} {xs : List α} {s t : Scene}

/-- A loop does what its body does for one element after another, and keeps what its body keeps. -/
theorem of_forM {P : Scene → Prop} {f : α → Resolution Unit}
    (hf : ∀ x ∈ xs, ∀ {s a t}, P s → (f x).run s = .ok (a, t) → R x s t ∧ P t) {a : Unit} (hs : P s)
    (h : (xs.forM f).run s = .ok (a, t)) : Along R xs s t ∧ P t := by
  induction xs generalizing s with
  | nil =>
      obtain ⟨-, rfl⟩ := run_pure_iff.mp h
      exact ⟨.nil s, hs⟩
  | cons x xs ih =>
      obtain ⟨_, u, hx, h⟩ := run_bind_iff.mp h
      obtain ⟨hfirst, hu⟩ := hf x List.mem_cons_self hs hx
      obtain ⟨hrest, ht⟩ := ih (fun y hy => hf y (List.mem_cons_of_mem _ hy)) hu h
      exact ⟨.cons hfirst hrest, ht⟩

end Along

namespace Resolution

variable {rules : Rules} {levels : Nat} {ctx inner : Context} {reached : CombatantId}
  {effect : Effect} {effects : List Effect} {aim : Aim} {s t : Scene} {a : Unit}

/-- A nested effect for someone who is no living enemy is carried out as it would be without an
iteration. -/
theorem run_reaching_none {nested : List Effect → Context → Resolution Unit}
    (he : effect.Plain .enemy) (hinner : ctx.atTarget reached = .ok inner)
    (hdead : s.combat.isLivingEnemy reached = false) :
    (dispatch rules nested (inner.reaching none) effect).run s =
      (dispatch rules nested inner effect).run s := by
  refine plain_reached ?_ he
  rw [Aim.candidates_enemy_reaching_none hinner, Aim.candidates_enemy_atTarget hinner, hdead]
  exact (if_neg Bool.false_ne_true).symm

section Rounds

variable (hpowers : rules.content.powers.Personal) (hsource : ctx.source = .player)

include hpowers hsource

/-- A nested effect disturbs nobody but the one that it finds. -/
theorem undisturbed_of_nested {who : CombatantId} (he : effect.Plain .enemy)
    (hinner : ctx.atTarget reached = .ok inner) (hs : s.relics = [])
    (h : (dispatch rules (within rules skip levels) inner effect).run s = .ok (a, t))
    (hfound : ∀ id ∈ Aim.candidates s.combat inner .enemy, id = who) :
    t.relics = [] ∧ s.combat.Undisturbed who t.combat := by
  have hplayer : inner.source = .player := by
    obtain ⟨depth, rfl⟩ := Context.eq_of_atTarget hinner
    exact hsource
  exact plain_confined (fun id hid => .inr (hfound id hid)) hpowers
    (within_staysBetween hpowers levels) (.inl hplayer) he h hs

/-- **One nested effect**, carried out at any time for whom an iteration has reached. -/
theorem stroke_of_run (he : effect.Plain .enemy) (hinner : ctx.atTarget reached = .ok inner)
    (hs : s.relics = [])
    (h : (dispatch rules (within rules skip levels) inner effect).run s = .ok (a, t)) :
    Stroke rules levels ctx reached effect s t ∧ t.relics = [] := by
  have hkept {who : CombatantId} := @undisturbed_of_nested rules levels ctx inner reached effect s t
    a hpowers hsource who he hinner hs h
  rw [Aim.candidates_enemy_atTarget hinner] at hkept
  suffices hfound : t.relics = [] ∧
      (s.combat.isLivingEnemy reached = true ∨ s.combat.livingEnemyIds = [] →
        s.combat.Undisturbed reached t.combat) ∧
        (s.combat.isLivingEnemy reached = false → ∀ other, ctx.fallback? s.combat = some other →
          s.combat.Undisturbed other t.combat) by
    obtain ⟨ht, hisolated, hstrayed⟩ := hfound
    exact ⟨⟨⟨inner, hinner, h, fun hdead => (run_reaching_none he hinner hdead).trans h⟩, hisolated,
      hstrayed⟩, ht⟩
  cases hreached : s.combat.isLivingEnemy reached with
  | true =>
      rw [hreached, if_pos rfl] at hkept
      obtain ⟨ht, hkept⟩ := hkept fun id hid => List.mem_singleton.mp hid
      exact ⟨ht, fun _ => hkept, fun hdead => absurd hdead nofun⟩
  | false =>
      rw [hreached, if_neg Bool.false_ne_true] at hkept
      cases hfallback : ctx.fallback? s.combat with
      | none =>
          rw [hfallback] at hkept
          obtain ⟨ht, hkept⟩ := @hkept reached fun id hid => absurd hid List.not_mem_nil
          exact ⟨ht, fun _ => hkept, fun _ other hother => absurd hother nofun⟩
      | some other =>
          rw [hfallback] at hkept
          obtain ⟨ht, hkept⟩ := hkept fun id hid => List.mem_singleton.mp hid
          refine ⟨ht, fun hcalm => ?_, fun _ found hfound => Option.some.inj hfound ▸ hkept⟩
          rcases hcalm with hliving | hnone
          · exact absurd hliving nofun
          · exact absurd (hfallback.symm.trans (Context.fallback?_eq_none hnone)) nofun

/-- The nested effects are carried out one after another. -/
theorem strokes_of_run (heffects : ∀ effect ∈ effects, effect.Plain .enemy)
    (hinner : ctx.atTarget reached = .ok inner) (hs : s.relics = [])
    (h : (within rules skip (levels + 1) effects inner).run s = .ok (a, t)) :
    Along (Stroke rules levels ctx reached) effects s t ∧ t.relics = [] :=
  Along.of_forM (P := fun s => s.relics = []) (fun effect hmem _ _ _ hs h =>
    stroke_of_run hpowers hsource (heffects effect hmem) hinner hs h) hs h

/-- **An iteration** over whom an aim finds at its beginning is made of rounds, one for each of
them; of the effects nested in it, each disturbs no enemy but the one that was reached, as long as
that one lives when the effect begins. -/
theorem rounds_of_iterates (heffects : ∀ effect ∈ effects, effect.Plain .enemy)
    (haim : aim.isRandom = false) {iteration : Effect} (hi : iteration.Iterates aim effects)
    (hs : s.relics = [])
    (h : (dispatch rules (within rules skip (levels + 1)) ctx iteration).run s = .ok (a, t)) :
    Along (fun reached => Round rules levels ctx reached iteration) (aim.candidates s.combat ctx)
      s t := by
  have hfound {v : Scene} {ids : List CombatantId}
      (h : (targets aim ctx).run s = .ok (ids, v)) : ids = aim.candidates s.combat ctx ∧ v = s := by
    obtain ⟨hids, hv⟩ := run_targets_iff.mp h
    rw [Aim.run_find haim] at hids hv
    exact ⟨hids.symm, hv.symm⟩
  cases hi with
  | forEach =>
      obtain ⟨_, _, htargets, h⟩ := run_bind_iff.mp h
      obtain ⟨rfl, rfl⟩ := hfound htargets
      refine (Along.of_forM (P := fun s => s.relics = []) (fun reached _ s a t hs h => ?_) hs h).1
      obtain ⟨inner, _, hinner, h⟩ := run_bind_iff.mp h
      obtain ⟨hok, rfl⟩ := run_lift_iff.mp hinner
      obtain ⟨hstrokes, ht⟩ := strokes_of_run hpowers hsource heffects hok hs h
      exact ⟨.strokes hstrokes, ht⟩
  | damage amount he piercing =>
      obtain ⟨_, _, hamount, h⟩ := run_bind_iff.mp h
      obtain ⟨-, rfl⟩ := run_amount_iff.mp hamount
      obtain ⟨_, _, htargets, h⟩ := run_bind_iff.mp h
      obtain ⟨rfl, rfl⟩ := hfound htargets
      refine (Along.of_forM (P := fun s => s.relics = []) (fun reached _ s a t hs h => ?_) hs h).1
      obtain ⟨outcome, h⟩ := run_discard_iff.mp h
      have hstays : StaysBetween (within rules skip (levels + 1)) reached :=
        within_staysBetween hpowers (levels + 1)
      rcases hit_of_run hpowers hstays (.inl hsource) (.inr rfl) he h with
        ⟨hdead, rfl⟩ | ⟨halive, u, v, hsu, hnested, hvt⟩
      · exact ⟨.missed hdead, hs⟩
      · obtain ⟨hu, hlanded⟩ := hsu hs
        obtain ⟨hstrokes, hv⟩ :
            Along (Stroke rules levels ctx reached) effects u v ∧ v.relics = [] := by
          rcases run_onlyIf_iff.mp hnested with ⟨-, hnested⟩ | ⟨hempty, rfl⟩
          · obtain ⟨inner, _, hinner, hnested⟩ := run_bind_iff.mp hnested
            obtain ⟨hok, rfl⟩ := run_lift_iff.mp hinner
            exact strokes_of_run hpowers hsource heffects hok hu hnested
          · have hnil : effects = [] := by simpa using hempty
            exact hnil ▸ ⟨.nil u, hu⟩
        obtain ⟨ht, hanswered⟩ := hvt hv
        exact ⟨.landed halive hlanded hstrokes hanswered, ht⟩

end Rounds

/-- Rounds with one nested effect disturb nobody else: whoever was alive when the iteration began is
alive when it is reached. -/
theorem isolated_of_rounds {ids : List CombatantId}
    (h : Along (fun reached => Round rules levels ctx reached (.forEach (.combatant aim) [effect]))
      ids s t) (hnodup : ids.Nodup) (hliving : ∀ id ∈ ids, s.combat.isLivingEnemy id = true) :
    Along (fun reached s t => s.combat.Undisturbed reached t.combat) ids s t := by
  induction h with
  | nil s => exact .nil s
  | @cons reached ids s t u hround _ ih =>
      obtain ⟨hfirst, hrest⟩ := List.nodup_cons.mp hnodup
      obtain ⟨hstrokes⟩ := hround
      obtain ⟨⟩ | ⟨hstroke, ⟨⟩⟩ := hstrokes
      have hkept : s.combat.Undisturbed reached t.combat :=
        hstroke.isolated (.inl (hliving reached List.mem_cons_self))
      refine .cons hkept (ih hrest fun id hmem => ?_)
      exact hkept.isLivingEnemy (fun heq => hfirst (heq ▸ hmem))
        (hliving id (List.mem_cons_of_mem _ hmem))

/-- **An iteration over enemies with one nested effect** disturbs in each round nobody but the enemy
that was reached: none of them dies before its turn. -/
theorem forEach_isolated (hpowers : rules.content.powers.Personal) (hsource : ctx.source = .player)
    (he : effect.Plain .enemy) (haim : aim = .allEnemies ∨ aim = .otherEnemies)
    (hn : s.combat.Numbered) (hs : s.relics = [])
    (h : (dispatch rules (within rules skip (levels + 1)) ctx
      (.forEach (.combatant aim) [effect])).run s = .ok (a, t)) :
    Along (fun reached s t => s.combat.Undisturbed reached t.combat) (aim.candidates s.combat ctx)
      s t := by
  have hfixed : aim.isRandom = false := by rcases haim with rfl | rfl <;> rfl
  have hnodup : s.combat.livingEnemyIds.Nodup :=
    hn.1.sublist (List.filter_sublist.map _)
  have hfound : (aim.candidates s.combat ctx).Nodup ∧
      ∀ id ∈ aim.candidates s.combat ctx, id ∈ s.combat.livingEnemyIds := by
    rcases haim with rfl | rfl
    · exact ⟨hnodup, fun _ hid => hid⟩
    · exact ⟨hnodup.filter _, fun _ hid => List.mem_of_mem_filter hid⟩
  refine isolated_of_rounds (rounds_of_iterates hpowers hsource
    (fun other hmem => List.mem_singleton.mp hmem ▸ he) hfixed .forEach hs h) hfound.1
    fun id hid => ?_
  obtain ⟨hp, halive⟩ := (Combat.mem_livingEnemyIds hn).mp (hfound.2 id hid)
  obtain ⟨c, hc, halive⟩ := (Option.any_eq_true _ _).mp halive
  exact Combat.isLivingEnemy_iff.mpr ⟨hp, c, hc, halive⟩

/-- **Isolation.** With the built-in powers only, without relics and with the player as the source,
an iteration is made of rounds, one for each of those whom the aim finds at the beginning, in their
order. Each effect nested in it disturbs nobody but the enemy that was reached, if that one lives
when the effect begins or if no enemy lives at all; otherwise it is carried out as it is without an
iteration, and disturbs nobody but whoever is found then. -/
theorem isolated_while_reached_lives (hpowers : rules.content.powers = .builtinPowers)
    (hrelics : s.relics = []) (hsource : ctx.source = .player)
    (heffects : ∀ effect ∈ effects, effect.Plain .enemy) (haim : aim.isRandom = false)
    {iteration : Effect} (hi : iteration.Iterates aim effects)
    (h : (dispatch rules (within rules skip (levels + 1)) ctx iteration).run s = .ok ((), t)) :
    Along (fun reached => Round rules levels ctx reached iteration) (aim.candidates s.combat ctx)
      s t :=
  rounds_of_iterates (hpowers ▸ Catalog.personal_builtinPowers) hsource heffects haim hi hrelics h

end Resolution

/-! ## A sweep -/

/-- Rules with the built-in powers. -/
def sweepRules : Rules where
  content := (Content.ofPack {}).toOption.getD {}

/-- The player before two enemies, of which the first has few points of health. -/
def sweepScene : Scene where
  combat :=
    { player := .ofPlayer "Hero" 10 10
      resources := {}
      enemies :=
        [{ id := ⟨1⟩, name := "Rat", health := 10, maxHealth := 10 },
         { id := ⟨2⟩, name := "Ogre", health := 50, maxHealth := 50 }]
      nextCardUid := 1 }
  gold := 0
  stats := {}
  relics := []
  rng := .ofSeed 0

/-- Two blows. -/
def sweepBlows : List Effect :=
  [.damage (.fixed 10) .enemy .physical false [], .damage (.fixed 10) .enemy .physical false []]

/-- Two blows for every enemy. -/
def sweep : Effect := .forEach (.combatant .allEnemies) sweepBlows

/-- The scene after the sweep. -/
def sweepAfter : Scene :=
  sceneAfter (dispatch sweepRules (within sweepRules skip 9) {} sweep) sweepScene

/-- The scene after the blows for the first enemy. -/
def sweepBegun : Scene :=
  sceneAfter (within sweepRules skip 9 sweepBlows { currentTarget := some ⟨1⟩, depth := 1 })
    sweepScene

theorem sweepBlows_plain : ∀ effect ∈ sweepBlows, effect.Plain .enemy := by
  intro effect hmem
  obtain rfl : effect = .damage (.fixed 10) .enemy .physical false [] := by
    simpa [sweepBlows] using hmem
  exact .damage _ (by decide) _

namespace Resolution

/-- What becomes of a sweep. -/
theorem isolated_while_reached_lives_sweep :
    Along (fun reached => Round sweepRules 8 {} reached sweep) [⟨1⟩, ⟨2⟩] sweepScene sweepAfter ∧
      sweepAfter.combat.enemies.map (·.health) = [20] := by
  refine ⟨?_, by decide +kernel⟩
  exact @isolated_while_reached_lives sweepRules 8 {} sweepBlows .allEnemies sweepScene sweepAfter
    rfl rfl rfl sweepBlows_plain rfl sweep .forEach (run_eq_of_isSome (by decide +kernel))

/-- Another enemy can be disturbed in a round: when the first enemy that an iteration over all of
them reaches has died of the first effect, the second effect goes to the next enemy. -/
theorem sweep_strays :
    ¬∀ rules levels ctx effects reached inner s t, rules.content.powers = .builtinPowers →
      s.relics = [] → ctx.source = .player → (∀ effect ∈ effects, effect.Plain .enemy) →
        (Aim.candidates s.combat ctx .allEnemies).head? = some reached →
          ctx.atTarget reached = .ok inner →
            (within rules skip (levels + 1) effects inner).run s = .ok ((), t) →
              s.combat.Undisturbed reached t.combat := by
  intro hclaim
  have hkept : sweepScene.combat.Undisturbed ⟨1⟩ sweepBegun.combat :=
    hclaim sweepRules 8 {} sweepBlows ⟨1⟩ { currentTarget := some ⟨1⟩, depth := 1 } sweepScene
      sweepBegun rfl rfl rfl sweepBlows_plain rfl rfl (run_eq_of_isSome (by decide +kernel))
  have hlost : (sweepBegun.combat.bystanders ⟨1⟩).map (·.health) = [40] := by decide +kernel
  rcases hkept with hkept | hkept
  · rw [hkept] at hlost
    exact absurd hlost (by decide +kernel)
  · rw [hkept] at hlost
    exact absurd hlost (by decide +kernel)

end Resolution

end CardCombat
