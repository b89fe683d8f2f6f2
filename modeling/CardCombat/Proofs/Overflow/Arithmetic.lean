import CardCombat.Action.Call
import CardCombat.Proofs.Success

/-!
# How arithmetic fails

A rule fails with an overflow, with an empty interval to draw from, or with bounds that cross. The
rules of a combat draw from no interval whose bounds are given, and the bounds between which health
is brought cross only if the greatest health is negative. So all arithmetic on combatants, powers,
cards and amounts that can fail fails with an overflow, and with nothing else.

## Main definitions

* `OnlyOverflows` -- a computation fails, if at all, with an overflow.

## Main results

* `OnlyOverflows.resolve`, `.damageDealt`, `.costToPlay` and the like -- the rules, one by one.
* `OnlyOverflows.setHealth` -- the one rule that also needs a greatest health in its range.
-/

namespace CardCombat

variable {α β : Type}

/-- A quantity has left its range. -/
def Fault.IsOverflow (cause : Fault) : Prop := ∃ operation, cause = .overflow operation

/-- The computation fails, if at all, because a quantity leaves its range. -/
def OnlyOverflows (x : Except Fault α) : Prop := ∀ cause, x = .error cause → cause.IsOverflow

namespace OnlyOverflows

/-! ## Computations of several steps -/

theorem pure (a : α) : OnlyOverflows (pure a) := fun _ h => absurd h nofun

theorem overflow (operation : Operation) :
    OnlyOverflows (.error (.overflow operation) : Except Fault α) :=
  fun _ h => ⟨operation, (Except.error.inj h).symm⟩

theorem bind {x : Except Fault α} {f : α → Except Fault β} (hx : OnlyOverflows x)
    (hf : ∀ a, OnlyOverflows (f a)) : OnlyOverflows (x >>= f) := by
  cases x with
  | error cause =>
      intro cause' h
      obtain rfl : cause = cause' := Except.error.inj h
      exact hx cause rfl
  | ok a => exact hf a

theorem foldlM {f : β → α → Except Fault β} (hf : ∀ b x, OnlyOverflows (f b x)) (xs : List α)
    (b : β) : OnlyOverflows (xs.foldlM f b) := by
  induction xs generalizing b with
  | nil => exact pure b
  | cons x xs ih =>
      rw [List.foldlM_cons]
      exact bind (hf b x) ih

theorem mapM {f : α → Except Fault β} (hf : ∀ x, OnlyOverflows (f x)) (xs : List α) :
    OnlyOverflows (xs.mapM f) := by
  induction xs with
  | nil => exact pure []
  | cons x xs ih =>
      rw [List.mapM_cons]
      exact bind (hf x) fun _ => bind ih fun _ => pure _

theorem allM {f : α → Except Fault Bool} (hf : ∀ x, OnlyOverflows (f x)) (xs : List α) :
    OnlyOverflows (xs.allM f) := by
  induction xs with
  | nil => exact pure true
  | cons x xs ih =>
      refine bind (hf x) fun passed => ?_
      cases passed with
      | false => exact pure false
      | true => exact ih

theorem filterM {f : α → Except Fault Bool} (hf : ∀ x, OnlyOverflows (f x)) (xs : List α) :
    OnlyOverflows (xs.filterM f) := by
  induction xs with
  | nil => exact pure []
  | cons x xs ih =>
      rw [filterM_cons]
      exact bind (hf x) fun passed => bind ih fun _ => pure _

/-! ## Checked operations -/

theorem check (operation : Operation) (n : Int) : OnlyOverflows (Signed.check operation n) := by
  unfold Signed.check
  split
  · exact pure n
  · exact overflow operation

theorem add (a b : Int) : OnlyOverflows (Signed.add a b) := check .add (a + b)

theorem sub (a b : Int) : OnlyOverflows (Signed.sub a b) := check .subtract (a - b)

theorem mul (a b : Int) : OnlyOverflows (Signed.mul a b) := check .multiply (a * b)

theorem neg (a : Int) : OnlyOverflows (Signed.neg a) := check .negate (-a)

theorem percentOf (n percent : Int) : OnlyOverflows (Signed.percentOf n percent) :=
  bind (mul n percent) fun _ => pure _

theorem clamp (n : Int) {low high : Int} (h : low ≤ high) :
    OnlyOverflows (Signed.clamp n low high) := by
  unfold Signed.clamp
  rw [if_pos h]
  exact pure _

theorem unsigned (bits a b : Nat) : OnlyOverflows (Unsigned.add bits a b) := by
  unfold Unsigned.add
  split
  · exact pure _
  · exact overflow .add

/-! ## Combatants -/

variable {combatant : Combatant} {powers : Catalog PowerDefinition}

theorem missingHealth : OnlyOverflows combatant.missingHealth :=
  bind (sub _ _) fun _ => pure _

theorem healthPercent : OnlyOverflows combatant.healthPercent := by
  unfold Combatant.healthPercent
  split
  · exact pure 0
  · exact bind (mul _ _) fun _ => pure _

theorem absorb (guard remaining : Int) : OnlyOverflows (Combatant.absorb guard remaining) :=
  bind (sub _ _) fun _ => pure _

theorem takeDamage (amount : Int) (piercing : Bool) :
    OnlyOverflows (combatant.takeDamage amount piercing) := by
  cases piercing with
  | true =>
      exact bind (pure _) fun _ => bind (pure _) fun _ => bind (add _ _) fun _ =>
        bind (sub _ _) fun _ => bind (sub _ _) fun _ => bind (sub _ _) fun _ => pure _
  | false =>
      exact bind (absorb _ _) fun _ => bind (absorb _ _) fun _ => bind (add _ _) fun _ =>
        bind (sub _ _) fun _ => bind (sub _ _) fun _ => bind (sub _ _) fun _ => pure _

theorem heal (amount : Int) (overheal : Bool) : OnlyOverflows (combatant.heal amount overheal) := by
  unfold Combatant.heal
  split
  · exact pure _
  · exact bind (sub _ _) fun _ => pure _

/-- The greatest health stays positive, so the bounds of health do not cross. -/
theorem changeMaxHealth (delta : Int) : OnlyOverflows (combatant.changeMaxHealth delta) := by
  refine bind (add _ _) fun raised => ?_
  have hbounds : (0 : Int) ≤ max raised 1 := by omega
  dsimp only
  split
  · exact bind (add _ _) fun _ => bind (clamp _ hbounds) fun _ => pure _
  · exact bind (pure _) fun _ => bind (clamp _ hbounds) fun _ => pure _

/-- Setting health is the one rule that could fail otherwise: if the greatest health is negative
there is no value that health may have. -/
theorem setHealth (value : Int) (h : 0 ≤ combatant.maxHealth) :
    OnlyOverflows (combatant.setHealth value) :=
  bind (clamp value h) fun _ => pure _

/-! ## Powers -/

theorem join (stacking : Stacking) (held : Option Power) (amount : Int) (duration : Option Int) :
    OnlyOverflows (stacking.join held amount duration) := by
  cases held with
  | none => exact pure _
  | some held =>
      cases stacking with
      | intensity | both => exact bind (add _ _) fun _ => pure _
      | duration => exact pure _

theorem applyPower (id : PowerId) (amount : Int) (duration : Option Int) :
    OnlyOverflows (combatant.applyPower powers id amount duration) := by
  unfold Combatant.applyPower
  split
  · exact pure _
  · refine bind (join _ _ _ _) fun ⟨amount, duration⟩ => ?_
    dsimp only
    split <;> exact pure _

theorem removePower (id : PowerId) (amount : Option Int) :
    OnlyOverflows (combatant.removePower powers id amount) := by
  unfold Combatant.removePower
  split
  · exact pure _
  · split
    · exact pure _
    · refine bind (sub _ _) fun left => ?_
      split <;> exact pure _

theorem scaleBy (amount : Int) (modifier : Int × Modifier) :
    OnlyOverflows (Combatant.scaleBy amount modifier) := by
  unfold Combatant.scaleBy
  split
  · exact bind (add _ _) fun _ => bind (mul _ _) fun _ => pure _
  · exact pure _

theorem flatSum (modifiers : List (Int × Modifier)) :
    OnlyOverflows (Combatant.flatSum modifiers) :=
  foldlM (fun _ _ => bind (mul _ _) fun _ => add _ _) modifiers 0

theorem underModifiers (amount : Int) (modifiers : List (Int × Modifier)) :
    OnlyOverflows (Combatant.underModifiers amount modifiers) :=
  bind (flatSum modifiers) fun _ => bind (add _ _) fun _ => foldlM scaleBy modifiers _

theorem damageDealt (amount : Int) : OnlyOverflows (combatant.damageDealt powers amount) :=
  underModifiers _ _

theorem damageTaken (amount : Int) : OnlyOverflows (combatant.damageTaken powers amount) :=
  underModifiers _ _

theorem blockGiven (amount : Int) : OnlyOverflows (combatant.blockGiven powers amount) :=
  underModifiers _ _

theorem decay (boundary : Boundary) : OnlyOverflows (combatant.decay powers boundary) := by
  have hlowered (power : Power) : OnlyOverflows (Combatant.decayPower powers boundary power) := by
    unfold Combatant.decayPower
    split
    · exact pure _
    · dsimp only
      split
      · exact pure _
      · exact bind (sub _ _) fun _ => pure _
  exact bind (mapM hlowered _) fun _ => pure _

/-! ## Amounts and conditions -/

variable {combat : Combat} {ctx : Context} {gold : Int}

theorem units (source : Measure) : OnlyOverflows (source.units combat ctx) := by
  cases source with
  | missingHealth =>
      dsimp only [Measure.units]
      split
      · exact bind missingHealth fun _ => pure _
      · exact pure _
  | _ => exact pure _

theorem resolve (value : Value) : OnlyOverflows (value.resolve combat ctx) := by
  cases value with
  | fixed | powerAmount => exact pure _
  | range => exact bind (add _ _) fun _ => pure _
  | scaled base perUnit source max => exact bind (units source) fun _ => pure _

theorem count (value : Value) : OnlyOverflows (value.count combat ctx) :=
  bind (resolve value) fun _ => pure _

theorem allPass (target : Aim) {test : Combatant → Except Fault Bool}
    (h : ∀ combatant, OnlyOverflows (test combatant)) :
    OnlyOverflows (target.allPass combat ctx test) := by
  unfold Aim.allPass
  split
  · exact pure false
  · exact pure false
  · refine allM (fun id => ?_) _
    split
    · exact h _
    · exact pure false

theorem quantity (form : HealthMeasure) : OnlyOverflows (form.quantity combatant) := by
  cases form with
  | current | max => exact pure _
  | percent => exact healthPercent
  | missing => exact missingHealth

mutual

/-- Judging a condition fails only where a share of health or missing health does. -/
theorem holds (condition : Condition) : OnlyOverflows (condition.holds combat gold ctx) := by
  cases condition with
  | health target form =>
      unfold Condition.holds
      exact allPass target fun _ => bind (quantity form) fun _ => pure _
  | hasPower target =>
      unfold Condition.holds
      exact allPass target fun _ => pure _
  | resource | pileCount | turn | enemyCount =>
      unfold Condition.holds
      exact pure _
  | and conditions =>
      unfold Condition.holds
      exact allHold conditions
  | or conditions =>
      unfold Condition.holds
      exact anyHolds conditions
  | not condition =>
      unfold Condition.holds
      exact bind (holds condition) fun _ => pure _

theorem allHold (conditions : List Condition) :
    OnlyOverflows (Condition.allHold combat gold ctx conditions) := by
  cases conditions with
  | nil => exact pure true
  | cons condition conditions =>
      unfold Condition.allHold
      refine bind (holds condition) fun held => ?_
      cases held with
      | true => exact allHold conditions
      | false => exact pure false

theorem anyHolds (conditions : List Condition) :
    OnlyOverflows (Condition.anyHolds combat gold ctx conditions) := by
  cases conditions with
  | nil => exact pure false
  | cons condition conditions =>
      unfold Condition.anyHolds
      refine bind (holds condition) fun held => ?_
      cases held with
      | true => exact pure true
      | false => exact anyHolds conditions

end

/-! ## Cards -/

variable {cards : Catalog CardDefinition} {rng : Rng}

theorem costToPlay (card : Card) (definition : CardDefinition) (energy : Int) :
    OnlyOverflows (card.costToPlay definition energy) := by
  unfold Card.costToPlay
  split
  · exact bind (add _ _) fun _ => pure _
  · exact pure _

theorem accepts (filter : CardFilter) (card : Card) :
    OnlyOverflows (filter.accepts cards combat card) := by
  unfold CardFilter.accepts
  split
  · exact pure true
  · split
    · exact pure false
    · dsimp only
      split
      · exact bind (costToPlay _ _ _) fun _ => pure _
      · exact pure _

theorem madeFree {rules : Rules} (card : Card) :
    OnlyOverflows (Resolution.madeFree rules card) := by
  unfold Resolution.madeFree
  split
  · exact pure card
  · split
    · exact bind (neg _) fun _ => pure _
    · exact pure card

/-! ## Resources, hits and contexts -/

theorem change (change : Change) (before amount : Int) :
    OnlyOverflows (change.of before amount) := by
  cases change with
  | gain => exact add _ _
  | lose => exact bind (sub _ _) fun _ => pure _
  | set => exact pure _

theorem damage (hit : Hit) : OnlyOverflows (hit.damage powers combat ctx combatant) := by
  refine bind (sub _ _) fun base => ?_
  dsimp only
  split
  · split
    · exact bind (pure _) fun _ => bind (damageTaken _) fun _ => pure _
    · exact bind (damageDealt _) fun _ => bind (damageTaken _) fun _ => pure _
  · exact bind (pure _) fun _ => bind (damageTaken _) fun _ => pure _

theorem withCombo (hit : Hit) : OnlyOverflows (hit.withCombo powers combat ctx combatant) := by
  refine bind (damage hit) fun plain => ?_
  split
  · exact bind (add _ _) fun _ => pure _
  · exact pure _

theorem countDamage (stats : Stats) (source target : CombatantId) (lost : Int) :
    OnlyOverflows (stats.countDamage source target lost) := by
  unfold Stats.countDamage
  split
  · exact bind (unsigned _ _ _) fun _ => pure _
  · split
    · exact bind (unsigned _ _ _) fun _ => pure _
    · exact pure _

theorem deeper : OnlyOverflows ctx.deeper := bind (unsigned _ _ _) fun _ => pure _

theorem atTarget (target : CombatantId) : OnlyOverflows (ctx.atTarget target) :=
  bind deeper fun _ => pure _

theorem atCard (card : Card) : OnlyOverflows (ctx.atCard card) := bind deeper fun _ => pure _

theorem ofTrigger (owner : CombatantId) (cause : Option CombatantId) :
    OnlyOverflows (ctx.ofTrigger owner cause) := bind deeper fun _ => pure _

theorem ofReplay (card : CardUid) : OnlyOverflows (ctx.ofReplay card) :=
  bind deeper fun _ => pure _

/-! ## Runs -/

variable {run : Run} {rules : Rules}

theorem nextCardUid : OnlyOverflows run.nextCardUid :=
  bind (mapM (fun _ => unsigned _ _ _) _) fun _ => pure _

theorem spawn (template : EnemyTemplate) (id : CombatantId) :
    OnlyOverflows (template.spawn id powers) :=
  foldlM (fun _ _ => bind (applyPower _ _ _) fun _ => pure _) _ _

/-- The combatants of a combat gather. -/
theorem gather (templates : List EnemyTemplate) : OnlyOverflows (rules.gather run templates) := by
  refine bind nextCardUid fun uid => foldlM (fun combat template => ?_) _ _
  exact bind (bind (unsigned _ _ _) fun _ => pure _) fun _ => bind (spawn _ _) fun _ => pure _

theorem conclude : OnlyOverflows run.conclude := by
  unfold Run.conclude
  split
  · exact pure _
  · split
    · exact pure _
    · split
      · exact pure _
      · dsimp only
        split
        · exact bind (unsigned _ _ _) fun _ => pure _
        · exact bind (pure _) fun _ => pure _

theorem isPlayable (card : Card) : OnlyOverflows (rules.isPlayable combat card) := by
  unfold Rules.isPlayable
  split
  · exact pure _
  · split
    · exact pure _
    · exact bind (costToPlay _ _ _) fun _ => pure _

end OnlyOverflows

end CardCombat
