import CardCombat.Proofs.Overflow.Plain
import CardCombat.Proofs.Vitality.Everyone

/-!
# Effects fail by overflow only

Setting health is the one rule that could fail otherwise: a greatest health below zero leaves no
value for health. While everyone's numbers are in their range this cannot be, and effects keep them
there. So effects are secure in a hale combat, at any depth.

## Main definitions

* `Combat.Hale` -- everyone's numbers are in their range.

## Main results

* `Resolution.dispatch_secure` -- one effect, if those nested in it are secure.
* `Resolution.within_secure` -- effects at any depth.
-/

namespace CardCombat

/-- Everyone's numbers are in their range. -/
def Combat.Hale (combat : Combat) : Prop :=
  combat.Everyone (Fit Effect.Any (Combatant.Vital False))

variable {rules : Rules} {combat : Combat} {before after : Combatant} {id : CombatantId}

theorem Combat.Hale.vital (h : combat.Hale) (hc : combat.combatant? id = some before) :
    before.Vital False := (h.combatant? hc).1

/-- No wear takes the numbers of a combatant out of their range. -/
theorem Combat.Hale.wear (h : combat.Hale) (hc : combat.combatant? id = some before)
    (hw : Wear Effect.Any before after) : after.Vital False := hw.vital False.elim (h.vital hc)

/-- Powers are no numbers of health. -/
theorem Wear.of_sameButPowers (h : before.SameButPowers after) : Wear Effect.Any before after := by
  obtain ⟨powers, rfl⟩ := h
  exact .kept rfl

theorem prevails_hale :
    Prevails rules Effect.Any (Lasting (Fit Effect.Any (Combatant.Vital False))) :=
  prevails_of_touches Lasting.flow (Touches.lasting fun hw hb => hw.vital False.elim hb)

namespace Resolution

variable {α β : Type} {ctx : Context} {m : Resolution α}

namespace Secure

/-! ## In a hale combat -/

/-- What is secure anywhere and keeps the numbers of everyone in their range is secure in a hale
combat. -/
theorem of_anywhere (h : Secure Anywhere m)
    (hkept : Ensures (Lasting (Fit Effect.Any (Combatant.Vital False))) m) :
    Secure Combat.Hale m where
  fails _ := h.fails trivial
  lasts hs hrun := hkept.rel hrun hs

theorem setCombatant_hale (h : after.Vital False) :
    Secure Combat.Hale (Resolution.setCombatant id after) := by
  refine of_anywhere (setCombatant id after) ⟨fun hrun hs => ?_⟩
  obtain rfl := run_setCombatant_iff.mp hrun
  have hfit : Fit Effect.Any (Combatant.Vital False) after := ⟨h, fun _ _ _ _ => trivial⟩
  exact (hs.setCombatant hfit).of_field (Scene.field_setCombatant id after)

/-- Health is set, and something is done after it. The greatest health is positive, so there is a
value for health. -/
theorem settingHealth {f : Combatant → Resolution β}
    (hb : before.Vital False) (value : Int)
    (hf : ∀ after, Secure Combat.Hale (f after)) :
    Secure Combat.Hale (do
      let after ← before.setHealth value
      Resolution.setCombatant id after
      f after) := by
  have hmax : 0 ≤ before.maxHealth := Int.le_trans Int.one_nonneg hb.maxHealth
  refine liftBind (.setHealth value hmax) fun after hset => ?_
  have hwear : Wear Effect.Any before after := .setHealth hset
  exact bind (setCombatant_hale (hwear.vital False.elim hb)) fun _ => hf after

theorem modifyCombat_hale {change : Combat → Combat} (h : ∀ c, (change c).field = c.field) :
    Secure Combat.Hale (Resolution.modifyCombat change) := by
  refine of_anywhere (modifyCombat change) ⟨fun hrun hs => ?_⟩
  obtain rfl := run_modifyCombat_iff.mp hrun
  exact hs.of_field (h _)

theorem setPiles_hale (piles : Piles) : Secure Combat.Hale (Resolution.setPiles piles) :=
  modifyCombat_hale fun _ => rfl

theorem setResources_hale (resources : Resources) :
    Secure Combat.Hale (Resolution.setResources resources) := modifyCombat_hale fun _ => rfl

theorem report_hale (event : Event) : Secure Combat.Hale (Resolution.report event) :=
  modifyCombat_hale fun _ => rfl

theorem reportIf_hale {p : Prop} [Decidable p] (event : Event) :
    Secure Combat.Hale (if p then Resolution.report event else Pure.pure ()) := by
  split
  · exact report_hale event
  · exact pure ()

end Secure

theorem endPlay_hale (uid : CardUid) : Secure Combat.Hale (endPlay rules uid) :=
  .of_anywhere (endPlay_secure uid) ⟨fun h => prevails_hale.closes (run_endPlay h)⟩

variable {nested : List Effect → Context → Resolution Unit}
  (hn : ∀ effects ctx, Secure Combat.Hale (nested effects ctx))

/-! ## Deaths -/

include hn in
theorem react_secure (owner : CombatantId) (occasion : Occasion) (cause : Option CombatantId) :
    Secure Combat.Hale (react rules nested owner occasion cause ctx) := by
  have hacts (effects : List Effect) (inner : Context) :
      Secure Combat.Hale (act nested occasion effects inner) :=
    .bind (.record _) fun _ => hn _ _
  refine .get fun s _ => ?_
  split
  · exact .pure ()
  · exact .bind (.forM fun _ => .bind (.lift (.ofTrigger _ _)) fun _ => hacts _ _) fun _ =>
      .forM fun _ => .bind (.lift (.ofTrigger _ _)) fun _ => hacts _ _

theorem bury_secure : Secure Combat.Hale bury := by
  refine .of_anywhere ?_ ⟨fun hrun hs => ?_⟩
  · exact .combat fun _ _ => .bind (.modifyCombat _) fun _ => .forM fun _ => .record _
  · obtain rfl := run_bury_iff.mp hrun
    exact hs.reap

include hn in
theorem die_secure (victim killer : CombatantId) :
    Secure Combat.Hale (die rules nested ctx victim killer) := by
  have hcount : Secure Combat.Hale countKill :=
    .get fun _ _ => .bind (.lift (.unsigned _ _ _)) fun _ => .modifyAside _ fun _ => rfl
  exact .bind (.report_hale _) fun _ => .bind (.record _) fun _ => .bind (.onlyIf hcount) fun _ =>
    .bind (react_secure hn _ _ _) fun _ => .bind bury_secure fun _ => .onlyIf (react_secure hn _ _ _)

/-! ## Damage -/

theorem dealDamage_secure (source target : CombatantId) (amount : Int) (element : Element)
    (piercing : Bool) :
    Secure Combat.Hale (dealDamage source target amount element piercing) := by
  refine .combatant? fun c hc => ?_
  split
  · exact .pure _
  · refine .liftBind (.takeDamage _ _) fun ⟨outcome, after⟩ htake => ?_
    have hafter := hc.wear ‹_› (.damage htake)
    exact .bind (.setCombatant_hale hafter) fun _ => .bind (.report_hale _) fun _ => .get fun _ _ =>
      .bind (.lift (.countDamage _ _ _ _)) fun _ => .bind (.modifyAside _ fun _ => rfl) fun _ =>
        .pure _

theorem leaveStatus_secure (target : CombatantId) (status : PowerId) (stack : Int) :
    Secure Combat.Hale (leaveStatus rules target status stack) := by
  refine .combatant? fun c hc => ?_
  split
  · exact .pure ()
  case h_2 before hfound =>
    refine .liftBind (.applyPower _ _ _) fun ⟨applied, after⟩ happly => ?_
    have hafter := hc.wear (Option.filter_eq_some_iff.mp hfound).1
      (.of_sameButPowers (Combatant.applyPower_sameButPowers happly))
    exact .bind (.setCombatant_hale hafter) fun _ => .reportIf_hale _

include hn in
theorem afterDamage_secure (target : CombatantId) (outcome : DamageReport) (attack : Bool) :
    Secure Combat.Hale (afterDamage rules nested ctx target outcome attack) :=
  .bind (.onlyIf (.bind (react_secure hn _ _ _) fun _ => react_secure hn _ _ _)) fun _ =>
    .bind (.onlyIf (react_secure hn _ _ _)) fun _ => .onlyIf (die_secure hn _ _)

include hn in
theorem hurt_secure (target : CombatantId) (amount : Int) (element : Element) (piercing : Bool) :
    Secure Combat.Hale (hurt rules nested ctx target amount element piercing) := by
  refine .bind (dealDamage_secure _ _ _ _ _) fun dealt => ?_
  split
  · exact afterDamage_secure hn _ _ _
  · exact .pure ()

/-! ## Hits -/

/-- Health set to zero is within its bounds, since the greatest health is. -/
theorem executeBelow_secure (target : CombatantId) (percent : Int) :
    Secure Combat.Hale (executeBelow target percent) := by
  refine .combatant? fun c hc => ?_
  split
  · exact .pure _
  case h_2 before hfound =>
    have hbefore := hc.vital (Option.filter_eq_some_iff.mp hfound).1
    refine .bind (.lift .healthPercent) fun _ => ?_
    split
    · exact .settingHealth hbefore 0 fun _ => .bind (.report_hale _) fun _ => .pure _
    · exact .pure _

include hn in
theorem settleCombo_secure (target : CombatantId) (combo : Option Combo) (dealt : Int) :
    Secure Combat.Hale (settleCombo rules nested ctx target combo dealt) := by
  cases combo with
  | none => exact .pure _
  | some combo =>
      have hleaps (element : Element) (damage : Int) :
          Secure Combat.Hale (leap rules nested ctx target element damage) :=
        .combat fun _ _ => .forM fun _ => hurt_secure hn _ _ _ _
      refine .bind (.forSome fun _ => leaveStatus_secure _ _ _) fun _ =>
        .bind (.forSome fun _ => .bind (.lift (.percentOf _ _)) fun _ => hleaps _ _) fun _ => ?_
      split
      · exact executeBelow_secure _ _
      · exact .pure _

include hn in
theorem aftermath_secure (target : CombatantId) (hit : Hit) (combo : Option Combo) (amount : Int)
    (landed : DamageReport) :
    Secure Combat.Hale (aftermath rules nested ctx target hit combo amount landed) :=
  .bind (settleCombo_secure hn _ _ _) fun _ =>
    .bind (.onlyIf (.bind (.lift (.atTarget _)) fun _ => hn _ _)) fun _ =>
      .bind (.onlyIf (.forSome fun _ => leaveStatus_secure _ _ _)) fun _ =>
        .bind (afterDamage_secure hn _ _ _) fun _ => .pure _

include hn in
theorem resolveHit_secure (target : CombatantId) (hit : Hit) :
    Secure Combat.Hale (resolveHit rules nested ctx target hit) := by
  refine .combat fun c hc => ?_
  split
  · exact .pure _
  case h_2 defender hfound =>
    have hdefender := (Option.filter_eq_some_iff.mp hfound).1
    have hconsume (combo : Combo) : Secure Combat.Hale (consume target defender combo) :=
      .bind (.setCombatant_hale (hc.wear hdefender (.kept rfl))) fun _ =>
        .bind (.report_hale _) fun _ => .report_hale _
    refine .bind (.lift (.withCombo hit)) fun _ => .bind (.forSome hconsume) fun _ =>
      .bind (dealDamage_secure _ _ _ _ _) fun dealt => ?_
    split
    · exact .pure _
    · exact .bind (aftermath_secure hn _ _ _ _ _) fun _ => .pure _

/-! ## Attacks -/

section

include hn

variable (amount : Value) (target : Aim)

theorem damage_secure (element : Element) (piercing : Bool) (onHit : List Effect) :
    Secure Combat.Hale (damage rules nested amount target element piercing onHit ctx) :=
  .bind (.amount amount) fun _ => .bind (.targets target) fun _ =>
    .forM fun _ => .discard (resolveHit_secure hn _ _)

theorem drain_secure (hit : Hit) (ids : List CombatantId) (drained : Int) :
    Secure Combat.Hale (drain rules nested ctx hit ids drained) := by
  induction ids generalizing drained with
  | nil => exact .pure _
  | cons id ids ih =>
      refine .bind (resolveHit_secure hn _ _) fun outcome => ?_
      cases outcome with
      | none => exact ih drained
      | some outcome => exact .bind (.lift (.add _ _)) fun _ => ih _

theorem lifesteal_secure (element : Element) (percent : Int) :
    Secure Combat.Hale (lifesteal rules nested amount target element percent ctx) := by
  refine .bind (.amount amount) fun _ => .bind (.targets target) fun _ =>
    .bind (drain_secure hn _ _ _) fun _ => .bind (.lift (.percentOf _ _)) fun _ =>
      .combatant? fun c hc => ?_
  split
  · exact .pure ()
  case h_2 before hfound =>
    refine .liftBind (.heal _ _) fun ⟨healed, after⟩ hheal => ?_
    have hwear : Wear Effect.Any before after := .heal (fun ho => absurd ho (by decide)) hheal
    exact .bind (.setCombatant_hale (hc.wear hfound hwear)) fun _ => .reportIf_hale _

theorem splash_secure (element : Element) (splashPercent : Int) :
    Secure Combat.Hale (splash rules nested amount target element splashPercent ctx) := by
  refine .bind (.amount amount) fun _ => .bind (.targets target) fun ids => ?_
  cases ids with
  | nil => exact .pure ()
  | cons primary ids =>
      exact .combat fun _ _ => .bind (.discard (resolveHit_secure hn _ _)) fun _ =>
        .bind (.lift (.percentOf _ _)) fun _ => .forM fun _ => .discard (resolveHit_secure hn _ _)

theorem strikeAll_secure (hit : Hit) (ids : List CombatantId) :
    Secure Combat.Hale (strikeAll rules nested ctx hit ids) := by
  induction ids with
  | nil => exact .pure _
  | cons id ids ih => exact .bind (resolveHit_secure hn _ _) fun _ => .bind ih fun _ => .pure _

theorem recoil_secure (element : Element) (cost : Value) :
    Secure Combat.Hale (recoil rules nested amount target element cost ctx) := by
  refine .bind (.amount amount) fun _ => .bind (.amount cost) fun _ =>
    .bind (.targets target) fun _ => .bind (strikeAll_secure hn _ _) fun _ => .combat fun _ _ => ?_
  split
  · exact hurt_secure hn _ _ _ _
  · exact .pure ()

theorem bounce_secure (element : Element) (falloffPercent : Int) (bounces : Nat)
    (current : CombatantId) (base : Int) :
    Secure Combat.Hale (bounce rules nested ctx element falloffPercent bounces current base) := by
  induction bounces generalizing current base with
  | zero => exact .pure ()
  | succ bounces ih =>
      refine .bind (.lift (.percentOf _ _)) fun base => ?_
      split
      · exact .pure ()
      · refine .combat fun _ _ => .bind (.draw _) fun next => ?_
        cases next with
        | none => exact .pure ()
        | some next => exact .bind (.discard (resolveHit_secure hn _ _)) fun _ => ih next base

theorem chain_secure (element : Element) (bounces : Nat) (falloffPercent : Int) :
    Secure Combat.Hale (chain rules nested amount target element bounces falloffPercent ctx) := by
  refine .bind (.amount amount) fun _ => .bind (.targets target) fun ids => ?_
  cases ids with
  | nil => exact .pure ()
  | cons first ids =>
      exact .bind (.discard (resolveHit_secure hn _ _)) fun _ => bounce_secure hn _ _ _ _ _

/-! ## Guards and health -/

theorem block_secure : Secure Combat.Hale (block rules nested amount target ctx) := by
  refine .bind (.amount amount) fun base => .bindRun (blockGained_secure base) fun hrun => ?_
  have hnonneg := (blockGained_of_run hrun).1
  split
  case isTrue hne =>
    have hpos := Int.lt_iff_le_and_ne.mpr ⟨hnonneg, Ne.symm (by simpa using hne)⟩
    exact .forTargets fun hc hfound => .liftBind (.add _ _) fun _ hadd =>
      .bind (.setCombatant_hale (hc.wear hfound (.block hpos hadd))) fun _ =>
        .bind (.report_hale _) fun _ => react_secure hn _ _ _
  case isFalse => exact .pure ()

theorem setHealth_secure : Secure Combat.Hale (setHealth rules nested amount target ctx) := by
  refine .bind (.amount amount) fun value => .forTargets fun hc hfound => ?_
  refine .settingHealth (hc.vital hfound) value fun _ => .bind (.report_hale _) fun _ => ?_
  split
  · exact die_secure hn _ _
  · exact .pure ()

theorem execute_secure (threshold : Int) :
    Secure Combat.Hale (execute rules nested threshold target ctx) := by
  refine .forTargets fun hc hfound => .bind (.lift .healthPercent) fun _ => ?_
  split
  · exact .settingHealth (hc.vital hfound) 0 fun _ => .bind (.report_hale _) fun _ =>
      die_secure hn _ _
  · exact .pure ()

/-! ## Playing again -/

theorem replayCards_secure (aim : CardAim) (repetitions : Value) :
    Secure Combat.Hale (replayCards rules nested aim repetitions ctx) := by
  refine .bind (.count repetitions) fun repetitions => .forCards fun card => ?_
  split
  · exact .pure ()
  · exact .times (.bind (.report_hale _) fun _ => .bind (.lift (.ofReplay _)) fun _ => hn _ _) _

theorem playOffDeck_secure (card : Card) (definition : CardDefinition) :
    Secure Combat.Hale (playOffDeck rules nested card definition ctx) :=
  .combat fun _ _ => .bind (.draw _) fun _ => .bind (.report_hale _) fun _ =>
    .bind (.modifyCombat_hale fun _ => rfl) fun _ => .bind (.lift (.ofReplay _)) fun _ =>
      .bind (hn _ _) fun _ => endPlay_hale _

theorem playTop_secure : Secure Combat.Hale (playTop rules nested ctx) := by
  have hshuffle : Secure Combat.Hale reshuffle :=
    .combat fun _ _ => .bind (.draw _) fun _ => .bind (.setPiles_hale _) fun _ =>
      .bind (.record _) fun _ => .pure _
  have hpop : Secure Combat.Hale popDraw? := by
    refine .combat fun _ _ => ?_
    split
    · exact .pure _
    · exact .bind (.setPiles_hale _) fun _ => .pure _
  refine .combat fun _ _ => .bind (.onlyIf (.discard hshuffle)) fun _ => .bind hpop fun found => ?_
  cases found with
  | none => exact .pure _
  | some card =>
      dsimp only
      split
      · exact .bind (playOffDeck_secure hn _ _) fun _ => .pure _
      · exact .bind (.combat fun _ _ => .setPiles_hale _) fun _ => .bind (.report_hale _) fun _ =>
          .pure _

theorem playTopCards_secure (number : Value) :
    Secure Combat.Hale (playTopCards rules nested number ctx) :=
  .bind (.count number) fun count => .discard (.upTo (playTop_secure hn) count)

/-! ## Control -/

theorem conditional_secure (condition : Condition) (yes no : List Effect) :
    Secure Combat.Hale (conditional nested condition yes no ctx) :=
  .get fun _ _ => .bind (.lift (.holds condition)) fun _ => .bind (.lift .deeper) fun _ => hn _ _

theorem repeated_secure (repetitions : Value) (effects : List Effect) :
    Secure Combat.Hale (repeated nested repetitions effects ctx) :=
  .bind (.count repetitions) fun _ => .bind (.lift .deeper) fun _ => .times (hn _ _) _

theorem randomChoice_secure (choices : List Branch) :
    Secure Combat.Hale (randomChoice nested choices ctx) := by
  refine .bind (.draw _) fun _ => ?_
  split
  · exact .pure ()
  · exact .bind (.lift .deeper) fun _ => hn _ _

theorem forEach_secure (subject : Subject) (effects : List Effect) :
    Secure Combat.Hale (forEach rules nested subject effects ctx) := by
  cases subject with
  | combatant target =>
      exact .bind (.targets target) fun _ => .forM fun _ => .bind (.lift (.atTarget _)) fun _ =>
        hn _ _
  | card target => exact .forCards fun _ => .bind (.lift (.atCard _)) fun _ => hn _ _

end

/-! ## All effects -/

include hn in
/-- **An effect fails by overflow only**, and everyone's numbers stay in their range, if that is so
for the effects that are nested in it. -/
theorem dispatch_secure (effect : Effect) :
    Secure Combat.Hale (dispatch rules nested ctx effect) := by
  have hcarries : Carries rules Effect.Any nested
      (Lasting (Fit Effect.Any (Combatant.Vital False))) :=
    prevails_hale.carries nested fun effects ctx => ⟨fun h hs => (hn effects ctx).lasts hs h⟩
  have hplain (h : Secure Anywhere (dispatch rules nested ctx effect)) :
      Secure Combat.Hale (dispatch rules nested ctx effect) :=
    .of_anywhere h (hcarries.dispatch trivial)
  cases effect with
  | damage amount target element piercing onHit => exact damage_secure hn _ _ _ _ _
  | block amount target => exact block_secure hn _ _
  | barrier amount target => exact hplain (barrier_secure _ _)
  | heal amount target overheal => exact hplain (heal_secure _ _ _)
  | lifesteal amount target element percent => exact lifesteal_secure hn _ _ _ _
  | destroyBlock target includeBarrier => exact hplain (destroyBlock_secure _ _)
  | maxHealth amount target => exact hplain (changeMaxHealth_secure _ _)
  | setHealth amount target => exact setHealth_secure hn _ _
  | execute threshold target => exact execute_secure hn _ _
  | splash amount target element splashPercent => exact splash_secure hn _ _ _ _
  | recoil amount target element cost => exact recoil_secure hn _ _ _ _
  | chain amount target element bounces falloffPercent => exact chain_secure hn _ _ _ _ _
  | weakenIntent amount target => exact hplain (weakenIntent_secure _ _)
  | counter amount target => exact hplain (applyPower_secure _ _ _ _)
  | mark amount target => exact hplain (applyPower_secure _ _ _ _)
  | reflect amount target => exact hplain (applyPower_secure _ _ _ _)
  | amplify amount target => exact hplain (applyPower_secure _ _ _ _)
  | applyPower power amount target duration => exact hplain (applyPower_secure _ _ _ _)
  | removePower power amount target => exact hplain (removePower_secure _ _ _)
  | transferPower power amount giver receiver => exact hplain (transferPower_secure _ _ _ _)
  | stealPower power amount target => exact hplain (stealPower_secure _ _ _)
  | silencePower power turns target => exact hplain (silencePower_secure _ _ _)
  | energy amount operation => exact hplain (energy_secure _ _)
  | gold amount operation => exact hplain (gold_secure _ _)
  | energyNextTurn amount => exact hplain (energyNextTurn_secure _)
  | draw amount => exact hplain (.bind (.count amount) fun count => drawCards_secure count)
  | discard amount target playerChoice => exact hplain (discardCards_secure _ _ _)
  | exhaust amount target => exact hplain (exhaustCards_secure _ _)
  | banish amount target playerChoice => exact hplain (banishCards_secure _ _ _)
  | addCard cardId destination count upgraded position =>
      exact hplain (addCards_secure _ _ _ _ _)
  | addStatusCard cardId destination count => exact hplain (addCards_secure _ _ _ _ _)
  | shuffle includeDiscard => exact hplain (shuffle_secure _)
  | retain target => exact hplain (retain_secure _)
  | copyCard target destination count => exact hplain (copyCards_secure _ _ _)
  | putOnDeck target position => exact hplain (putOnDeck_secure _ _)
  | modifyCost amount target => exact hplain (modifyCost_secure _ _)
  | discover theme choices destination upgraded => exact hplain (discover_secure _ _ _ _)
  | scry amount => exact hplain (scry_secure _)
  | tutor filter destination playerChoice => exact hplain (tutor_secure _ _ _)
  | upgrade target => exact hplain (upgrade_secure _)
  | transform target theme => exact hplain (transform_secure _ _)
  | mill amount => exact hplain (mill_secure _)
  | createRandomCard theme destination count free upgraded =>
      exact hplain (createRandomCards_secure _ _ _ _ _)
  | setCardFlag target flag value => exact hplain (setCardFlag_secure _ _ _)
  | replayCard target times => exact replayCards_secure hn _ _
  | playTopCard count => exact playTopCards_secure hn _
  | conditional condition yes no => exact conditional_secure hn _ _ _
  | repeated times effects => exact repeated_secure hn _ _
  | randomChoice choices => exact randomChoice_secure hn _
  | sequence effects => exact .bind (.lift .deeper) fun _ => hn _ _
  | forEach target effects => exact forEach_secure hn _ _

/-- **Effects fail by overflow only**, at any depth. -/
theorem within_secure (levels : Nat) (effects : List Effect) (ctx : Context) :
    Secure Combat.Hale (within rules skip levels effects ctx) := by
  induction levels generalizing effects ctx with
  | zero => exact .pure ()
  | succ levels ih => exact .forM fun effect => dispatch_secure ih effect

theorem carryOut_secure (effects : List Effect) (ctx : Context) :
    Secure Combat.Hale (carryOut rules effects ctx) := within_secure _ effects ctx

theorem happen_secure (owner : CombatantId) (occasion : Occasion) (cause : Option CombatantId)
    (ctx : Context) : Secure Combat.Hale (happen rules owner occasion cause ctx) :=
  react_secure (fun effects ctx => carryOut_secure effects ctx) owner occasion cause

end Resolution

end CardCombat
