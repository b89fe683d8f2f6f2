import CardCombat.Proofs.Isolation.Rounds

/-!
# The cause of a trigger

Inside a trigger the source of effects is to be whoever caused it. The cause is kept where an
iteration keeps whom it has reached, so an iteration inside a trigger hides it: from the first round
on, and at any depth below, the source is whoever was reached last. It is the cause only where
nobody was reached, or where that was the cause itself.

## Main definitions

* `Context.Inward` -- a step from the context of an effect to that of an effect nested in it.
* `Context.Inward.lastReached` -- whom the last iteration on the way has reached.

## Main results

* `Context.Inward.currentTarget_of_apply`, `Context.Inward.currentTarget_of_applyAll` -- what one
  step and all steps do to the place where the cause is kept.
* `Context.source_is_cause_iff` -- where the source is the cause of the trigger.
-/

namespace CardCombat

namespace Context

/-- A step inward, from the context of an effect to that of an effect nested in it, or to the same
context for a power or with another target. -/
inductive Inward where
  | deeper
  | atTarget (id : CombatantId)
  | atCard (card : Card)
  | forPower (stack : Int)
  | withTarget (target : Option CombatantId)

namespace Inward

/-- The context after a step. -/
def apply (ctx : Context) : Inward → Except Fault Context
  | deeper => ctx.deeper
  | atTarget id => ctx.atTarget id
  | atCard card => ctx.atCard card
  | forPower stack => return { ctx with stack := some stack }
  | withTarget target => return { ctx with target }

/-- The context after steps. -/
def applyAll (ctx : Context) (steps : List Inward) : Except Fault Context := steps.foldlM apply ctx

/-- Whom an iteration reaches with a step. -/
def reached : Inward → Option CombatantId
  | atTarget id => some id
  | _ => none

/-- Whom the last iteration has reached. -/
def lastReached (steps : List Inward) : Option CombatantId := (steps.filterMap reached).getLast?

variable {ctx inner : Context} {step : Inward} {steps : List Inward}

/-- **One step** keeps the circumstances of a trigger, but whoever is reached takes the place of the
cause. -/
theorem currentTarget_of_apply (h : apply ctx step = .ok inner) :
    inner.triggered = ctx.triggered ∧ inner.currentTarget = step.reached.or ctx.currentTarget := by
  cases step with
  | deeper =>
      obtain ⟨depth, -, h⟩ := bind_eq_ok.mp h
      obtain rfl := Except.ok.inj h
      exact ⟨rfl, rfl⟩
  | atTarget id =>
      obtain ⟨depth, rfl⟩ := eq_of_atTarget h
      exact ⟨rfl, rfl⟩
  | atCard card =>
      obtain ⟨deeper, hdeeper, h⟩ := bind_eq_ok.mp h
      obtain ⟨depth, -, hdeeper⟩ := bind_eq_ok.mp hdeeper
      obtain rfl := Except.ok.inj hdeeper
      obtain rfl := Except.ok.inj h
      exact ⟨rfl, rfl⟩
  | forPower stack | withTarget target =>
      obtain rfl := Except.ok.inj h
      exact ⟨rfl, rfl⟩

theorem lastReached_cons :
    lastReached (step :: steps) = (lastReached steps).or step.reached := by
  unfold lastReached
  cases hreached : step.reached with
  | none => rw [List.filterMap_cons_none hreached, Option.or_none]
  | some id =>
      rw [List.filterMap_cons_some hreached, List.getLast?_cons]
      cases (steps.filterMap reached).getLast? <;> rfl

/-- **All steps**: what is in the place of the cause is whoever was reached last, or else what was
there. -/
theorem currentTarget_of_applyAll (h : applyAll ctx steps = .ok inner) :
    inner.triggered = ctx.triggered ∧
      inner.currentTarget = (lastReached steps).or ctx.currentTarget := by
  induction steps generalizing ctx with
  | nil =>
      obtain rfl := Except.ok.inj h
      exact ⟨rfl, rfl⟩
  | cons step steps ih =>
      unfold applyAll at h
      rw [List.foldlM_cons] at h
      obtain ⟨middle, hstep, h⟩ := bind_eq_ok.mp h
      obtain ⟨htriggered, htarget⟩ := currentTarget_of_apply hstep
      obtain ⟨htriggered', htarget'⟩ := ih h
      refine ⟨htriggered'.trans htriggered, ?_⟩
      rw [htarget', htarget, lastReached_cons, Option.or_assoc]

end Inward

end Context

/-! ## Who the source is -/

namespace Aim

variable {combat : Combat} {ctx : Context} {id other : CombatantId} {rng : Rng}

/-- In a trigger the source is whoever stands in the place of the cause. -/
theorem run_find_source (htriggered : ctx.triggered = true) (hid : ctx.currentTarget = some id) :
    (Aim.source.find combat ctx).run rng = (living combat id, rng) := by
  rw [run_find rfl]
  unfold candidates
  rw [htriggered, hid]
  rfl

/-- Anyone may be alive, so two are found alike in all combats only if they are the same. -/
theorem living_inj (h : ∀ combat, living combat id = living combat other) : id = other := by
  let combat : Combat :=
    { player := .ofPlayer "" 1 1
      resources := {}
      enemies := [{ id, name := "", health := 1, maxHealth := 1 }]
      nextCardUid := 0 }
  have halive : combat.isAlive id = true := by
    unfold Combat.isAlive Combat.combatant?
    split
    · rfl
    · simp [combat, Combatant.isAlive]
  have hliving : id ∈ living combat other := by
    rw [← h combat]
    unfold living
    rw [if_pos halive]
    exact List.mem_singleton_self id
  exact (mem_living hliving).1

end Aim

namespace Context

variable {ctx start inner : Context} {owner cause : CombatantId} {steps : List Inward}

/-- **The cause of a trigger.** Anywhere inside a trigger the source is whoever an iteration has
reached last on the way there, if that one is alive, and the cause if nobody was reached. So it is
the cause in all combats exactly if nobody but the cause was reached last. -/
theorem source_is_cause_iff (hstart : ctx.ofTrigger owner (some cause) = .ok start)
    (hinner : Inward.applyAll start steps = .ok inner) :
    (∀ combat rng, (Aim.source.find combat inner).run rng =
      (Aim.living combat ((Inward.lastReached steps).getD cause), rng)) ∧
      ((∀ combat rng, (Aim.source.find combat inner).run rng = (Aim.living combat cause, rng)) ↔
        ∀ id ∈ Inward.lastReached steps, id = cause) := by
  obtain ⟨deeper, -, hstart⟩ := bind_eq_ok.mp hstart
  obtain rfl := Except.ok.inj hstart
  obtain ⟨htriggered, htarget⟩ := Inward.currentTarget_of_applyAll hinner
  have hfinds (combat : Combat) (rng : Rng) : (Aim.source.find combat inner).run rng =
      (Aim.living combat ((Inward.lastReached steps).getD cause), rng) := by
    refine Aim.run_find_source htriggered (htarget.trans ?_)
    cases Inward.lastReached steps <;> rfl
  refine ⟨hfinds, fun hcause id hmem => ?_, fun hlast combat rng => ?_⟩
  · refine Aim.living_inj fun combat => ?_
    have hsame := (hfinds combat (.ofSeed 0)).symm.trans (hcause combat (.ofSeed 0))
    rw [Option.mem_def.mp hmem] at hsame
    exact (Prod.mk.inj hsame).1
  · rw [hfinds combat rng]
    cases hreached : Inward.lastReached steps with
    | none => rfl
    | some id => rw [hlast id hreached, Option.getD_some]

/-! ## Spite -/

/-- The first enemy has hurt the player, and a trigger of the player's is carried out. -/
def spite : Context := { currentTarget := some ⟨1⟩, triggered := true, depth := 1 }

/-- Iterations inside the trigger that come back to the first enemy leave it the source. -/
theorem source_is_cause_of_spite :
    ((Aim.source.find sweepScene.combat { spite with stack := some 3, depth := 4 }).run
      (.ofSeed 0)).1 = [⟨1⟩] := by
  have hinner : Inward.applyAll spite [.forPower 3, .atTarget ⟨2⟩, .deeper, .atTarget ⟨1⟩] =
      .ok { spite with stack := some 3, depth := 4 } := rfl
  have hlast : Inward.lastReached [.forPower 3, .atTarget ⟨2⟩, .deeper, .atTarget ⟨1⟩] =
      some ⟨1⟩ := rfl
  have hstart : ofTrigger {} .player (some ⟨1⟩) = .ok spite := rfl
  have hcause := (source_is_cause_iff hstart hinner).2.mpr
    (fun id hmem => (Option.some.inj (hlast.symm.trans hmem)).symm) sweepScene.combat (.ofSeed 0)
  rw [hcause]
  decide +kernel

/-- The source is not always the cause: in an iteration that has reached the second enemy it is the
second enemy, though the first one is alive. -/
theorem spite_strays :
    ¬∀ ctx owner cause steps start inner, ofTrigger ctx owner (some cause) = .ok start →
      Inward.applyAll start steps = .ok inner → ∀ combat rng,
        (Aim.source.find combat inner).run rng = (Aim.living combat cause, rng) := by
  intro hclaim
  have hcause := hclaim {} .player ⟨1⟩ [.atTarget ⟨2⟩] spite
    { spite with currentTarget := some ⟨2⟩, depth := 2 } rfl rfl sweepScene.combat (.ofSeed 0)
  have hfound : ((Aim.source.find sweepScene.combat
      { spite with currentTarget := some ⟨2⟩, depth := 2 }).run (.ofSeed 0)).1 =
        Aim.living sweepScene.combat ⟨1⟩ := congrArg Prod.fst hcause
  exact absurd hfound (by decide +kernel)

end Context

end CardCombat
