import CardCombat.Proofs.Isolation.Effects

/-!
# Whom an iteration has reached

Of the circumstances in which an effect is carried out, whom an iteration has reached matters to
aims only: neither the amounts nor what comes of a hit or of a death depend on it. So an effect that
nests no others, and that finds the same combatants with an iteration and without one, is carried
out in the same way with and without it.

## Main results

* `Resolution.resolveHit_reached` -- a hit does not depend on whom an iteration has reached.
* `Resolution.plain_reached` -- a plain effect depends on it only in whom it finds.
-/

namespace CardCombat

variable {ctx : Context} {reached : Option CombatantId}

namespace Context

/-- The same circumstances with someone else reached, or nobody. -/
def reaching (ctx : Context) (reached : Option CombatantId) : Context :=
  { ctx with currentTarget := reached }

/-- A trigger does not get to know whom an iteration has reached. -/
theorem ofTrigger_reaching (owner : CombatantId) (cause : Option CombatantId) :
    (ctx.reaching reached).ofTrigger owner cause = ctx.ofTrigger owner cause := by
  unfold ofTrigger deeper reaching
  dsimp only
  cases Unsigned.add 32 ctx.depth 1 <;> rfl

end Context

theorem Value.resolve_reaching (value : Value) (combat : Combat) :
    value.resolve combat (ctx.reaching reached) = value.resolve combat ctx := by
  cases value with
  | fixed | range | powerAmount => rfl
  | scaled base perUnit source max => cases source <;> rfl

namespace Resolution

variable {rules : Rules} {nested : List Effect → Context → Resolution Unit} {s t : Scene} {a : Unit}
  {target : CombatantId}

/-! ## Hits and what comes of them -/

theorem react_reached (owner : CombatantId) (occasion : Occasion) (cause : Option CombatantId) :
    react rules nested owner occasion cause (ctx.reaching reached) =
      react rules nested owner occasion cause ctx := by
  unfold react
  simp only [Context.ofTrigger_reaching]

theorem die_reached (killer : CombatantId) :
    die rules nested (ctx.reaching reached) target killer = die rules nested ctx target killer := by
  unfold die
  simp only [react_reached]

theorem afterDamage_reached (outcome : DamageReport) (attack : Bool) :
    afterDamage rules nested (ctx.reaching reached) target outcome attack =
      afterDamage rules nested ctx target outcome attack := by
  unfold afterDamage
  simp only [react_reached, die_reached]
  rfl

theorem settleCombo_reached (combo : Option Combo) (dealt : Int) :
    settleCombo rules nested (ctx.reaching reached) target combo dealt =
      settleCombo rules nested ctx target combo dealt := by
  unfold settleCombo comboConsequences leap hurt
  simp only [afterDamage_reached]
  rfl

/-- **A hit** with no other effects nested in it. -/
theorem resolveHit_reached {hit : Hit} (h : hit.onHit = []) :
    resolveHit rules nested (ctx.reaching reached) target hit =
      resolveHit rules nested ctx target hit := by
  unfold resolveHit aftermath
  simp only [settleCombo_reached, afterDamage_reached, h]
  rfl

/-! ## Amounts and aims -/

theorem amount_reached (value : Value) :
    amount value (ctx.reaching reached) = amount value ctx := by
  unfold amount
  simp only [Value.resolve_reaching]

theorem amount?_reached (value : Option Value) :
    amount? value (ctx.reaching reached) = amount? value ctx := by
  unfold amount?
  simp only [amount_reached]

/-- What comes after something was only looked at has to be looked at in the same scene. -/
theorem run_look_congr {α : Type} {x : Resolution α} {f g : α → Resolution Unit} (hx : Looks x)
    (h : ∀ y, (f y).run s = (g y).run s) : (x >>= f).run s = (x >>= g).run s := by
  show (x.run s >>= fun p => (f p.1).run p.2) = (x.run s >>= fun p => (g p.1).run p.2)
  cases hrun : x.run s with
  | error fault => rfl
  | ok p =>
      obtain ⟨y, t⟩ := p
      obtain rfl : s = t := hx hrun
      exact h y

theorem looks_blockGained (base : Int) : Looks (blockGained rules base ctx) :=
  ⟨fun h => (blockGained_of_run h).2⟩

section Aims

variable {aim : Aim} (hsame : aim.candidates s.combat (ctx.reaching reached) =
  aim.candidates s.combat ctx)

include hsame

/-- Something is done to everyone who is aimed at. -/
theorem targets_reached {f : CombatantId → Resolution Unit} :
    (do (← targets aim (ctx.reaching reached)).forM f).run s =
      (do (← targets aim ctx).forM f).run s := by
  have hfind : aim.find s.combat (ctx.reaching reached) = aim.find s.combat ctx := by
    unfold Aim.find
    rw [hsame]
  show (draw (aim.find s.combat (ctx.reaching reached)) >>= (·.forM f)).run s =
    (draw (aim.find s.combat ctx) >>= (·.forM f)).run s
  rw [hfind]

theorem forTargets_reached {act : CombatantId → Combatant → Resolution Unit} :
    (forTargets aim (ctx.reaching reached) act).run s = (forTargets aim ctx act).run s :=
  targets_reached hsame

/-! ## Plain effects -/

/-- **A plain effect** that finds the same combatants whether or not someone was reached is carried
out in the same way. -/
theorem plain_reached {effect : Effect} (h : effect.Plain aim) :
    (dispatch rules nested (ctx.reaching reached) effect).run s =
      (dispatch rules nested ctx effect).run s := by
  cases h with
  | damage value he piercing =>
      show (damage rules nested value aim _ piercing [] (ctx.reaching reached)).run s = _
      unfold damage
      simp only [amount_reached, resolveHit_reached]
      exact run_look_congr (looks_amount value) fun _ => targets_reached hsame
  | block value =>
      show (block rules nested value aim (ctx.reaching reached)).run s = _
      unfold block
      simp only [amount_reached, react_reached]
      refine run_look_congr (looks_amount value) fun base => ?_
      refine run_look_congr (looks_blockGained base) fun gained => ?_
      split
      · exact forTargets_reached hsame
      · rfl
  | heal value overheal =>
      show (heal value aim overheal (ctx.reaching reached)).run s = _
      unfold heal
      simp only [amount_reached]
      exact run_look_congr (looks_amount value) fun _ => forTargets_reached hsame
  | destroyBlock includeBarrier => exact forTargets_reached hsame
  | setHealth value =>
      show (setHealth rules nested value aim (ctx.reaching reached)).run s = _
      unfold setHealth
      simp only [amount_reached, die_reached]
      exact run_look_congr (looks_amount value) fun _ => forTargets_reached hsame
  | weakenIntent value =>
      show (weakenIntent value aim (ctx.reaching reached)).run s = _
      unfold weakenIntent
      simp only [amount_reached]
      refine run_look_congr (looks_amount value) fun _ => ?_
      split
      · exact forTargets_reached hsame
      · rfl
  | applyPower power value duration =>
      show (applyPower rules power value aim duration (ctx.reaching reached)).run s = _
      unfold applyPower
      simp only [amount_reached]
      refine run_look_congr (looks_amount value) fun _ => ?_
      split
      · exact targets_reached hsame
      · rfl
  | removePower power value =>
      show (removePower rules power value aim (ctx.reaching reached)).run s = _
      unfold removePower
      simp only [amount?_reached]
      exact run_look_congr (looks_amount? value) fun _ => targets_reached hsame

end Aims

end Resolution

end CardCombat
