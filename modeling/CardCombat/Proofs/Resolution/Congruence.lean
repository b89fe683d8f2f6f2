import CardCombat.Proofs.Content.Reference
import CardCombat.Resolve.Dispatch

/-!
# What an effect hands on

Carrying out an effect depends on the triggers of powers and relics, and on how nested effects are
carried out, only through what it hands on: the effects that lie inside it, in a context as
triggered as its own; the effects of cards that are played again, in a context that is not
triggered; and the triggers of the occasions that it brings about, in triggered contexts. All of
these contexts are exactly one level deeper.

What two ways of carrying out nested effects have to do with each other passes on to the effect
that hands them on, if it passes from the parts of a resolution to the whole. For being the same
that says: two ways that agree on all that is handed on carry out the effect in the same way,
failures included. The proofs follow the effect once for all such relations.

An effect in a triggered context brings about no attack, so nothing is asked of the triggers of
attacks there.

## Main definitions

* `Effect.replays` -- the effects that carry out the effects of cards.
* `Effect.iterates` -- the effects that carry out effects for every card that they find.
* `Rules.withTriggers` -- rules with other triggers.
* `Precongruence` -- a relation that passes from the parts of a resolution to the whole.
* `Alike`, `AlikeForCards` -- two ways of carrying out nested effects are related for some
  effects, or for those of all cards.
* `Agrees` -- two ways of carrying out what the occasions of a context bring about are related.

## Main results

* `Resolution.react_congr` -- what an occasion hands on.
* `Resolution.dispatch_congr` -- what an effect hands on.
-/

namespace CardCombat

/-- Whether an effect itself carries out the effects of cards. -/
def Effect.replays : Effect → Bool
  | .replayCard .. | .playTopCard .. => true
  | _ => false

/-- Whether an effect carries out effects once for every card that it finds. -/
def Effect.iterates : Effect → Bool
  | .forEach (.card _) _ => true
  | _ => false

variable {powers powers' : Catalog PowerDefinition}

/-! ## Powers with other triggers -/

/-- The definition without its triggers. -/
def PowerDefinition.untriggered (definition : PowerDefinition) : PowerDefinition :=
  { definition with triggers := [] }

/-- Two catalogs have the same powers, but for their triggers. -/
def Catalog.SameButTriggers (powers powers' : Catalog PowerDefinition) : Prop :=
  ∀ power, (powers'.find? power).map PowerDefinition.untriggered =
    (powers.find? power).map PowerDefinition.untriggered

namespace Catalog.SameButTriggers

theorem refl (powers : Catalog PowerDefinition) : powers.SameButTriggers powers := fun _ => rfl

variable (h : powers.SameButTriggers powers')

include h

/-- Whatever the triggers have no part in is the same for a power of both catalogs. -/
theorem map_eq {α : Type} {part : PowerDefinition → α}
    (hpart : ∀ definition, part definition.untriggered = part definition) (power : PowerId) :
    (powers'.find? power).map part = (powers.find? power).map part := by
  have hboth := congrArg (Option.map part) (h power)
  rw [Option.map_map, Option.map_map] at hboth
  rwa [show part ∘ PowerDefinition.untriggered = part from funext hpart] at hboth

theorem contains_eq (power : PowerId) : powers'.contains power = powers.contains power := by
  have hboth := congrArg Option.isSome (h power)
  rwa [Option.isSome_map, Option.isSome_map] at hboth

/-- The two definitions of a power, if there are any, say the same of stacks. -/
theorem find?_cases (power : PowerId) :
    powers'.find? power = none ∧ powers.find? power = none ∨
      ∃ definition definition', powers'.find? power = some definition' ∧
        powers.find? power = some definition ∧ definition'.stacking = definition.stacking ∧
          definition'.removeAtZero = definition.removeAtZero := by
  have hboth := h power
  cases hnew : powers'.find? power with
  | none =>
      rw [hnew] at hboth
      exact .inl ⟨rfl, Option.map_eq_none_iff.mp hboth.symm⟩
  | some definition' =>
      rw [hnew] at hboth
      obtain ⟨definition, hold, heq⟩ := Option.map_eq_some_iff.mp hboth.symm
      exact .inr ⟨definition, definition', rfl, hold,
        (congrArg PowerDefinition.stacking heq).symm,
        (congrArg PowerDefinition.removeAtZero heq).symm⟩

theorem applyPower_eq (combatant : Combatant) (power : PowerId) (amount : Int)
    (duration : Option Int) :
    combatant.applyPower powers' power amount duration =
      combatant.applyPower powers power amount duration := by
  unfold Combatant.applyPower
  rcases h.find?_cases power with ⟨hnew, hold⟩ | ⟨_, _, hnew, hold, hstacking, hremove⟩
  · rw [hnew, hold]
  · rw [hnew, hold]
    dsimp only
    rw [hstacking, hremove]

theorem removePower_eq (combatant : Combatant) (power : PowerId) (amount : Option Int) :
    combatant.removePower powers' power amount = combatant.removePower powers power amount := by
  have hremove : (powers'.find? power).any (·.removeAtZero) =
      (powers.find? power).any (·.removeAtZero) := by
    rcases h.find?_cases power with ⟨hnew, hold⟩ | ⟨_, _, hnew, hold, -, hremove⟩
    · rw [hnew, hold]
    · rw [hnew, hold]
      exact hremove
  unfold Combatant.removePower
  rw [hremove]

theorem workingModifiers_eq (combatant : Combatant) :
    combatant.workingModifiers powers' = combatant.workingModifiers powers := by
  unfold Combatant.workingModifiers
  exact congrArg (List.filterMap · _) (funext fun power => h.map_eq (fun _ => rfl) power.id)

theorem withCombo_eq (hit : Hit) (combat : Combat) (ctx : Context) (defender : Combatant) :
    hit.withCombo powers' combat ctx defender = hit.withCombo powers combat ctx defender := by
  unfold Hit.withCombo Hit.damage Combatant.damageDealt Combatant.damageTaken
  simp only [h.workingModifiers_eq]

theorem blockGiven_eq (combatant : Combatant) (amount : Int) :
    combatant.blockGiven powers' amount = combatant.blockGiven powers amount := by
  unfold Combatant.blockGiven
  rw [h.workingModifiers_eq]

end Catalog.SameButTriggers

/-! ## Rules with other triggers -/

/-- The rules with other powers and relics. -/
def Rules.withTriggers (rules : Rules) (powers : Catalog PowerDefinition)
    (relics : Catalog RelicDefinition) : Rules :=
  { rules with content := { rules.content with powers, relics } }

namespace Resolution

variable {rules : Rules} {relics : Catalog RelicDefinition} {α β : Type}

section Powers

variable (h : rules.content.powers.SameButTriggers powers)

include h

theorem givePower_withTriggers :
    givePower (rules.withTriggers powers relics) = givePower rules := by
  funext target power amount duration
  unfold givePower
  simp only [Rules.withTriggers, h.contains_eq, h.applyPower_eq]

theorem takePower_withTriggers :
    takePower (rules.withTriggers powers relics) = takePower rules := by
  funext target power amount
  unfold takePower
  simp only [Rules.withTriggers, h.removePower_eq]

theorem leaveStatus_withTriggers :
    leaveStatus (rules.withTriggers powers relics) = leaveStatus rules := by
  funext target status stack
  unfold leaveStatus
  simp only [Rules.withTriggers, h.applyPower_eq]

theorem powerToSteal_withTriggers :
    powerToSteal (rules.withTriggers powers relics) = powerToSteal rules := by
  funext power combatant
  unfold powerToSteal stealable
  have hkind (id : PowerId) : (powers.find? id).any (·.kind == .buff) =
      (rules.content.powers.find? id).any (·.kind == .buff) := by
    have hany (found : Option PowerDefinition) : found.any (·.kind == .buff) =
        (found.map (·.kind)).any (· == .buff) := by cases found <;> rfl
    rw [hany, hany]
    rw [h.map_eq (fun _ => rfl) id]
  simp only [Rules.withTriggers, hkind]

theorem blockGained_withTriggers :
    blockGained (rules.withTriggers powers relics) = blockGained rules := by
  funext base ctx
  unfold blockGained
  simp only [Rules.withTriggers, h.blockGiven_eq]

end Powers

/-! ## From the parts to the whole -/

/-- A relation between resolutions that passes from the parts of a resolution to the whole. -/
structure Precongruence where
  rel {α : Type} : Resolution α → Resolution α → Prop
  refl {α : Type} (x : Resolution α) : rel x x
  bind {α β : Type} {x y : Resolution α} {f g : α → Resolution β} :
    rel x y → (∀ a, rel (f a) (g a)) → rel (x >>= f) (y >>= g)

namespace Precongruence

/-- To be the same resolution. -/
def same : Precongruence where
  rel := Eq
  refl _ := rfl
  bind h hf := h ▸ bind_congr hf

variable (C : Precongruence)

/-- What comes first is the same. -/
theorem after {x : Resolution α} {f g : α → Resolution β} (h : ∀ a, C.rel (f a) (g a)) :
    C.rel (x >>= f) (x >>= g) := C.bind (C.refl x) h

/-- What comes next is the same. -/
theorem before {x y : Resolution α} {f : α → Resolution β} (h : C.rel x y) :
    C.rel (x >>= f) (y >>= f) := C.bind h fun a => C.refl (f a)

/-- What comes after a computation that may fail matters only for its result. -/
theorem afterLift {x : Except Fault α} {f g : α → Resolution β}
    (h : ∀ a, x = .ok a → C.rel (f a) (g a)) : C.rel (liftM x >>= f) (liftM x >>= g) := by
  cases x with
  | error fault =>
      have hsame : ((liftM (Except.error fault : Except Fault α) : Resolution α) >>= f) =
          (liftM (Except.error fault : Except Fault α) >>= g) := rfl
      rw [hsame]
      exact C.refl _
  | ok a => exact h a rfl

theorem ite {p : Prop} [Decidable p] {x y z : Resolution α} (h : C.rel x y) :
    C.rel (if p then x else z) (if p then y else z) := by
  split
  · exact h
  · exact C.refl z

theorem onlyIf {called : Bool} {x y : Resolution Unit} (h : called = true → C.rel x y) :
    C.rel (onlyIf called x) (onlyIf called y) := by
  cases called with
  | true => exact h rfl
  | false => exact C.refl _

theorem discard {x y : Resolution α} (h : C.rel x y) : C.rel (discard x) (discard y) := by
  show C.rel (x >>= fun _ => pure ()) (y >>= fun _ => pure ())
  exact C.before h

theorem forM {xs : List α} {f g : α → Resolution Unit} (h : ∀ x ∈ xs, C.rel (f x) (g x)) :
    C.rel (xs.forM f) (xs.forM g) := by
  induction xs with
  | nil => exact C.refl _
  | cons x xs ih =>
      exact C.bind (h x List.mem_cons_self) fun _ => ih fun y hy => h y (List.mem_cons_of_mem _ hy)

theorem forSome {found : Option α} {f g : α → Resolution Unit} (h : ∀ x, C.rel (f x) (g x)) :
    C.rel (found.forM f) (found.forM g) := by
  cases found with
  | none => exact C.refl _
  | some x => exact h x

theorem times {x y : Resolution Unit} (h : C.rel x y) (n : Nat) :
    C.rel (times n x) (times n y) := by
  induction n with
  | zero => exact C.refl _
  | succ n ih => exact C.bind h fun _ => ih

theorem upTo {x y : Resolution Bool} (h : C.rel x y) (n : Nat) :
    C.rel (upTo n x) (upTo n y) := by
  induction n with
  | zero => exact C.refl _
  | succ n ih => exact C.bind h fun _ => C.ite (C.before ih)

theorem forTargets {target : Aim} {ctx : Context} {f g : CombatantId → Combatant → Resolution Unit}
    (h : ∀ id combatant, C.rel (f id combatant) (g id combatant)) :
    C.rel (forTargets target ctx f) (forTargets target ctx g) := by
  refine C.after fun ids => C.forM fun id _ => C.after fun found => ?_
  cases found with
  | none => exact C.refl _
  | some combatant => exact h id combatant

theorem forCards {target : CardAim} {limit : Option Nat} {ctx : Context}
    {f g : Card → Resolution Unit} (h : ∀ card, C.rel (f card) (g card)) :
    C.rel (forCards rules target limit ctx f) (forCards rules target limit ctx g) :=
  C.after fun _ => C.forM fun card _ => h card

end Precongruence

/-! ## Contexts -/

/-- A context is one level deeper than another one, and triggered or not; it is for the card that
the other one is for, if for any. -/
structure Under (ctx : Context) (triggered : Bool) (inner : Context) : Prop where
  depth : inner.depth = ctx.depth + 1
  triggered : inner.triggered = triggered
  card : inner.currentCard = none ∨ inner.currentCard = ctx.currentCard

/-- The context in which an iteration has reached a card, on the same level. -/
def showing (ctx : Context) (card : Card) : Context := { ctx with currentCard := some card }

variable {ctx inner : Context}

theorem under_deeper (h : ctx.deeper = .ok inner) : Under ctx ctx.triggered inner := by
  obtain ⟨depth, hdepth, h⟩ := bind_eq_ok.mp h
  obtain rfl := (Unsigned.add_eq_ok_iff.mp hdepth).2
  obtain rfl := Except.ok.inj h
  exact ⟨rfl, rfl, .inr rfl⟩

theorem under_atTarget {target : CombatantId} (h : ctx.atTarget target = .ok inner) :
    Under ctx ctx.triggered inner := by
  obtain ⟨deeper, hdeeper, h⟩ := bind_eq_ok.mp h
  obtain ⟨hdepth, htriggered, hcard⟩ := under_deeper hdeeper
  obtain rfl := Except.ok.inj h
  exact ⟨hdepth, htriggered, hcard⟩

theorem under_atCard {card : Card} (h : ctx.atCard card = .ok inner) :
    Under (showing ctx card) ctx.triggered inner := by
  obtain ⟨deeper, hdeeper, h⟩ := bind_eq_ok.mp h
  obtain ⟨hdepth, htriggered, -⟩ := under_deeper hdeeper
  obtain rfl := Except.ok.inj h
  exact ⟨hdepth, htriggered, .inr rfl⟩

theorem under_ofTrigger {owner : CombatantId} {cause : Option CombatantId}
    (h : ctx.ofTrigger owner cause = .ok inner) : Under ctx true inner := by
  obtain ⟨deeper, hdeeper, h⟩ := bind_eq_ok.mp h
  obtain rfl := Except.ok.inj h
  exact ⟨(under_deeper hdeeper).depth, rfl, .inl rfl⟩

theorem under_ofReplay {card : CardUid} (h : ctx.ofReplay card = .ok inner) :
    Under ctx false inner := by
  obtain ⟨deeper, hdeeper, h⟩ := bind_eq_ok.mp h
  obtain rfl := Except.ok.inj h
  exact ⟨(under_deeper hdeeper).depth, rfl, .inl rfl⟩

variable {C : Precongruence} {nested nested' : List Effect → Context → Resolution Unit}

/-- Two ways of carrying out nested effects are related for some effects, in all contexts one level
deeper than `ctx` that are triggered or not as said. -/
def Alike (C : Precongruence) (nested nested' : List Effect → Context → Resolution Unit)
    (ctx : Context) (triggered : Bool) (effects : List Effect) : Prop :=
  ∀ inner, Under ctx triggered inner → C.rel (nested' effects inner) (nested effects inner)

/-! ## Control -/

theorem conditional_congr {condition : Condition} {yes no : List Effect}
    (hyes : Alike C nested nested' ctx ctx.triggered yes)
    (hno : Alike C nested nested' ctx ctx.triggered no) :
    C.rel (conditional nested' condition yes no ctx) (conditional nested condition yes no ctx) := by
  unfold conditional
  refine C.after fun scene => C.after fun holds => C.afterLift fun inner hinner => ?_
  cases holds with
  | true => exact hyes inner (under_deeper hinner)
  | false => exact hno inner (under_deeper hinner)

theorem repeated_congr {effects : List Effect}
    (h : Alike C nested nested' ctx ctx.triggered effects) (repetitions : Value) :
    C.rel (repeated nested' repetitions effects ctx) (repeated nested repetitions effects ctx) :=
  C.after fun count => C.afterLift fun inner hinner =>
    C.times (h inner (under_deeper hinner)) count

theorem randomChoice_congr {choices : List Branch}
    (h : ∀ choice ∈ choices, Alike C nested nested' ctx ctx.triggered choice.effects) :
    C.rel (randomChoice nested' choices ctx) (randomChoice nested choices ctx) := by
  unfold randomChoice
  refine C.after fun drawn => ?_
  cases hchosen : drawn.bind (choices[·]?) with
  | none => exact C.refl _
  | some choice =>
      obtain ⟨index, -, hindex⟩ := Option.bind_eq_some_iff.mp hchosen
      have hmem : choice ∈ choices := List.mem_of_getElem? hindex
      exact C.afterLift fun inner hinner => h choice hmem inner (under_deeper hinner)

theorem sequence_congr {effects : List Effect}
    (h : Alike C nested nested' ctx ctx.triggered effects) :
    C.rel (sequence nested' effects ctx) (sequence nested effects ctx) :=
  C.afterLift fun inner hinner => h inner (under_deeper hinner)

theorem forEach_congr {effects : List Effect} {target : Subject}
    (h : Alike C nested nested' ctx ctx.triggered effects)
    (hshown : ∀ {aim}, target = .card aim →
      ∀ card, Alike C nested nested' (showing ctx card) ctx.triggered effects) :
    C.rel (forEach (rules.withTriggers powers relics) nested' target effects ctx)
      (forEach rules nested target effects ctx) := by
  cases target with
  | combatant target =>
      exact C.after fun ids => C.forM fun id _ => C.afterLift fun inner hinner =>
        h inner (under_atTarget hinner)
  | card target =>
      exact C.forCards fun card => C.afterLift fun inner hinner =>
        hshown rfl card inner (under_atCard hinner)

/-! ## Playing again -/

/-- Two ways of carrying out nested effects are related for the effects of all cards, in contexts
that are not triggered. -/
def AlikeForCards (C : Precongruence) (rules : Rules)
    (nested nested' : List Effect → Context → Resolution Unit) (ctx : Context) : Prop :=
  ∀ name definition, rules.content.cards.find? name = some definition →
    ∀ upgraded : Bool, Alike C nested nested' ctx false (definition.effectsWhen upgraded)

/-- **What a replay hands on**: the effects of the cards, in contexts that are not triggered. -/
theorem replayCards_congr (hcards : AlikeForCards C rules nested nested' ctx)
    (target : CardAim) (repetitions : Value) :
    C.rel (replayCards (rules.withTriggers powers relics) nested' target repetitions ctx)
      (replayCards rules nested target repetitions ctx) := by
  refine C.after fun repetitions => C.forCards fun card => ?_
  have hcatalog : (rules.withTriggers powers relics).content.cards = rules.content.cards := rfl
  rw [hcatalog]
  cases hfind : rules.content.cards.find? card.definition with
  | none => exact C.refl _
  | some definition =>
      refine C.times (C.after fun _ => C.afterLift fun inner hinner => ?_) repetitions
      exact hcards _ _ hfind _ inner (under_ofReplay hinner)

theorem playOffDeck_congr (hcards : AlikeForCards C rules nested nested' ctx) {card : Card}
    {definition : CardDefinition} (h : playableDefinition? rules card = some definition) :
    C.rel (playOffDeck (rules.withTriggers powers relics) nested' card definition ctx)
      (playOffDeck rules nested card definition ctx) := by
  obtain ⟨hfind, -⟩ := Option.filter_eq_some_iff.mp h
  refine C.after fun _ => C.after fun target => C.after fun _ => C.after fun _ =>
    C.afterLift fun inner hinner => C.before ?_
  obtain ⟨hdepth, htriggered, hcard⟩ := under_ofReplay hinner
  exact hcards _ _ hfind _ _ ⟨hdepth, htriggered, hcard⟩

theorem playTop_congr (hcards : AlikeForCards C rules nested nested' ctx) :
    C.rel (playTop (rules.withTriggers powers relics) nested' ctx) (playTop rules nested ctx) := by
  refine C.after fun _ => C.after fun _ => C.after fun found => ?_
  cases found with
  | none => exact C.refl _
  | some card =>
      have hsame : playableDefinition? (rules.withTriggers powers relics) card =
          playableDefinition? rules card := rfl
      dsimp only
      rw [hsame]
      cases hfind : playableDefinition? rules card with
      | none => exact C.refl _
      | some definition => exact C.before (playOffDeck_congr hcards hfind)

theorem playTopCards_congr (hcards : AlikeForCards C rules nested nested' ctx) (number : Value) :
    C.rel (playTopCards (rules.withTriggers powers relics) nested' number ctx)
      (playTopCards rules nested number ctx) :=
  C.after fun count => C.discard (C.upTo (playTop_congr hcards) count)

/-! ## Occasions -/

/-- **What an occasion hands on**: the effects of its triggers, in triggered contexts. -/
theorem react_congr {rules' : Rules} {owner : CombatantId} {occasion : Occasion}
    {cause : Option CombatantId}
    (hpowers : ∀ combatant : Combatant, combatant.triggersOn rules'.content.powers occasion =
      combatant.triggersOn rules.content.powers occasion)
    (hrelics : ∀ held, relicTriggers rules' held occasion = relicTriggers rules held occasion)
    (hofPowers : ∀ (combatant : Combatant), ∀ trigger ∈
      combatant.triggersOn rules.content.powers occasion,
        Alike C nested nested' ctx true trigger.effects)
    (hofRelics : ∀ held, ∀ effects ∈ relicTriggers rules held occasion,
      Alike C nested nested' ctx true effects) :
    C.rel (react rules' nested' owner occasion cause ctx)
      (react rules nested owner occasion cause ctx) := by
  unfold react
  refine C.after fun scene => ?_
  cases scene.combat.combatant? owner with
  | none => exact C.refl _
  | some combatant =>
      dsimp only
      rw [hpowers, hrelics]
      refine C.bind (C.forM fun trigger hmem => C.afterLift fun inner hinner => C.after fun _ => ?_)
        fun _ => C.forM fun effects hmem => C.afterLift fun inner hinner => C.after fun _ => ?_
      · obtain ⟨hdepth, htriggered, hcard⟩ := under_ofTrigger hinner
        exact hofPowers combatant trigger hmem _ ⟨hdepth, htriggered, hcard⟩
      · split at hmem
        · exact hofRelics _ effects hmem _ (under_ofTrigger hinner)
        · exact absurd hmem List.not_mem_nil

/-- Two ways of carrying out nested effects, one under rules with other triggers, are related for
all occasions that an effect in a context brings about. -/
structure Agrees (C : Precongruence) (rules : Rules) (powers : Catalog PowerDefinition)
    (relics : Catalog RelicDefinition) (nested nested' : List Effect → Context → Resolution Unit)
    (ctx : Context) : Prop where
  same : rules.content.powers.SameButTriggers powers
  reacts : ∀ owner occasion cause,
    (ctx.triggered = true → occasion ≠ .attack ∧ occasion ≠ .attacked) →
      C.rel (react (rules.withTriggers powers relics) nested' owner occasion cause ctx)
        (react rules nested owner occasion cause ctx)

namespace Agrees

variable (h : Agrees C rules powers relics nested nested' ctx)

include h

/-! ## Hits and deaths -/

/-- An occasion that comes in every context. -/
theorem reacts_of_ne (owner : CombatantId) (occasion : Occasion) (cause : Option CombatantId)
    (hattack : occasion ≠ .attack) (hattacked : occasion ≠ .attacked) :
    C.rel (react (rules.withTriggers powers relics) nested' owner occasion cause ctx)
      (react rules nested owner occasion cause ctx) :=
  h.reacts owner occasion cause fun _ => ⟨hattack, hattacked⟩

theorem die_congr (victim killer : CombatantId) :
    C.rel (die (rules.withTriggers powers relics) nested' ctx victim killer)
      (die rules nested ctx victim killer) :=
  C.after fun _ => C.after fun _ => C.after fun _ =>
    C.bind (h.reacts_of_ne _ .death _ (by decide) (by decide)) fun _ =>
      C.after fun _ => C.onlyIf fun _ => h.reacts_of_ne _ .kill _ (by decide) (by decide)

theorem afterDamage_congr (target : CombatantId) (outcome : DamageReport) (attack : Bool) :
    C.rel (afterDamage (rules.withTriggers powers relics) nested' ctx target outcome attack)
      (afterDamage rules nested ctx target outcome attack) := by
  refine C.bind (C.onlyIf fun hattack => ?_) fun _ => C.bind (C.onlyIf fun _ => ?_) fun _ =>
    C.onlyIf fun _ => h.die_congr _ _
  · have hfree (occasion : Occasion) (htriggered : ctx.triggered = true) :
        occasion ≠ .attack ∧ occasion ≠ .attacked := by
      rw [htriggered, Bool.not_true, Bool.and_false] at hattack
      exact absurd hattack Bool.false_ne_true
    exact C.bind (h.reacts _ .attack _ (hfree _)) fun _ => h.reacts _ .attacked _ (hfree _)
  · exact h.reacts_of_ne _ .damaged _ (by decide) (by decide)

theorem hurt_congr (target : CombatantId) (amount : Int) (element : Element) (piercing : Bool) :
    C.rel (hurt (rules.withTriggers powers relics) nested' ctx target amount element piercing)
      (hurt rules nested ctx target amount element piercing) := by
  refine C.after fun outcome => ?_
  cases outcome with
  | none => exact C.refl _
  | some outcome => exact h.afterDamage_congr _ _ _

theorem leap_congr (target : CombatantId) (element : Element) (amount : Int) :
    C.rel (leap (rules.withTriggers powers relics) nested' ctx target element amount)
      (leap rules nested ctx target element amount) :=
  C.after fun _ => C.forM fun _ _ => h.hurt_congr _ _ _ _

theorem settleCombo_congr (target : CombatantId) (combo : Option Combo) (dealt : Int) :
    C.rel (settleCombo (rules.withTriggers powers relics) nested' ctx target combo dealt)
      (settleCombo rules nested ctx target combo dealt) := by
  cases combo with
  | none => exact C.refl _
  | some combo =>
      unfold settleCombo comboConsequences
      dsimp only
      rw [leaveStatus_withTriggers h.same]
      exact C.after fun _ => C.before (C.forSome fun _ => C.after fun _ => h.leap_congr _ _ _)

/-- **A hit hands on its own effects** and the triggers of its occasions. -/
theorem resolveHit_congr {hit : Hit}
    (hon : Alike C nested nested' ctx ctx.triggered hit.onHit) (target : CombatantId) :
    C.rel (resolveHit (rules.withTriggers powers relics) nested' ctx target hit)
      (resolveHit rules nested ctx target hit) := by
  have hafter (combo : Option Combo) (amount : Int) (landed : DamageReport) :
      C.rel (aftermath (rules.withTriggers powers relics) nested' ctx target hit combo amount
        landed) (aftermath rules nested ctx target hit combo amount landed) := by
    unfold aftermath
    rw [leaveStatus_withTriggers h.same]
    refine C.bind (h.settleCombo_congr _ _ _) fun _ => C.bind (C.onlyIf fun _ => ?_) fun _ =>
      C.after fun _ => C.before (h.afterDamage_congr _ _ _)
    exact C.afterLift fun inner hinner => hon inner (under_atTarget hinner)
  have hcombo (combat : Combat) (defender : Combatant) :
      hit.withCombo (rules.withTriggers powers relics).content.powers combat ctx defender =
        hit.withCombo rules.content.powers combat ctx defender :=
    h.same.withCombo_eq hit combat ctx defender
  unfold resolveHit
  refine C.after fun before => ?_
  cases (before.combatant? target).filter (·.isAlive) with
  | none => exact C.refl _
  | some defender =>
      dsimp only
      rw [hcombo]
      refine C.after fun (combo, amount) => C.after fun _ => C.after fun landed => ?_
      cases landed with
      | none => exact C.refl _
      | some landed => exact C.before (hafter combo amount landed)

/-! ## Attacks -/

theorem damage_congr {onHit : List Effect}
    (hon : Alike C nested nested' ctx ctx.triggered onHit) (amount : Value) (target : Aim)
    (element : Element) (piercing : Bool) :
    C.rel (damage (rules.withTriggers powers relics) nested' amount target element piercing onHit
      ctx) (damage rules nested amount target element piercing onHit ctx) :=
  C.after fun _ => C.after fun _ => C.forM fun _ _ => C.discard (h.resolveHit_congr hon _)

section Plain

variable (hnil : Alike C nested nested' ctx ctx.triggered [])

include hnil

theorem plainHit_congr (base : Int) (element : Element) (target : CombatantId) :
    C.rel (resolveHit (rules.withTriggers powers relics) nested' ctx target { base, element })
      (resolveHit rules nested ctx target { base, element }) :=
  h.resolveHit_congr hnil target

theorem drain_congr (ids : List CombatantId) (base drained : Int) (element : Element) :
    C.rel (drain (rules.withTriggers powers relics) nested' ctx { base, element } ids drained)
      (drain rules nested ctx { base, element } ids drained) := by
  induction ids generalizing drained with
  | nil => exact C.refl _
  | cons id ids ih =>
      refine C.bind (h.plainHit_congr hnil _ _ _) fun outcome => ?_
      cases outcome with
      | none => exact ih drained
      | some outcome => exact C.after fun sum => ih sum

theorem lifesteal_congr (amount : Value) (target : Aim) (element : Element) (percent : Int) :
    C.rel (lifesteal (rules.withTriggers powers relics) nested' amount target element percent ctx)
      (lifesteal rules nested amount target element percent ctx) :=
  C.after fun _ => C.after fun _ => C.before (h.drain_congr hnil _ _ _ _)

theorem splash_congr (amount : Value) (target : Aim) (element : Element) (splashPercent : Int) :
    C.rel (splash (rules.withTriggers powers relics) nested' amount target element splashPercent
      ctx) (splash rules nested amount target element splashPercent ctx) := by
  refine C.after fun _ => C.after fun ids => ?_
  cases ids with
  | nil => exact C.refl _
  | cons primary ids =>
      exact C.after fun _ => C.bind (C.discard (h.plainHit_congr hnil _ _ _)) fun _ =>
        C.after fun _ => C.forM fun _ _ => C.discard (h.plainHit_congr hnil _ _ _)

theorem strikeAll_congr (ids : List CombatantId) (base : Int) (element : Element) :
    C.rel (strikeAll (rules.withTriggers powers relics) nested' ctx { base, element } ids)
      (strikeAll rules nested ctx { base, element } ids) := by
  induction ids with
  | nil => exact C.refl _
  | cons id ids ih => exact C.bind (h.plainHit_congr hnil _ _ _) fun _ => C.before ih

theorem recoil_congr (amount : Value) (target : Aim) (element : Element) (cost : Value) :
    C.rel (recoil (rules.withTriggers powers relics) nested' amount target element cost ctx)
      (recoil rules nested amount target element cost ctx) :=
  C.after fun _ => C.after fun _ => C.after fun _ =>
    C.bind (h.strikeAll_congr hnil _ _ _) fun _ => C.after fun _ =>
      C.ite (h.hurt_congr _ _ _ _)

theorem bounce_congr (element : Element) (falloffPercent : Int) (bounces : Nat)
    (current : CombatantId) (base : Int) :
    C.rel (bounce (rules.withTriggers powers relics) nested' ctx element falloffPercent bounces
      current base) (bounce rules nested ctx element falloffPercent bounces current base) := by
  induction bounces generalizing current base with
  | zero => exact C.refl _
  | succ bounces ih =>
      refine C.after fun base => ?_
      by_cases hbase : base ≤ 0
      · rw [if_pos hbase, if_pos hbase]
        exact C.refl _
      · rw [if_neg hbase, if_neg hbase]
        refine C.after fun _ => C.after fun next => ?_
        cases next with
        | none => exact C.refl _
        | some next =>
            exact C.bind (C.discard (h.plainHit_congr hnil _ _ _)) fun _ => ih next base

theorem chain_congr (amount : Value) (target : Aim) (element : Element) (bounces : Nat)
    (falloffPercent : Int) :
    C.rel (chain (rules.withTriggers powers relics) nested' amount target element bounces
      falloffPercent ctx)
      (chain rules nested amount target element bounces falloffPercent ctx) := by
  refine C.after fun _ => C.after fun ids => ?_
  cases ids with
  | nil => exact C.refl _
  | cons first ids =>
      exact C.bind (C.discard (h.plainHit_congr hnil _ _ _)) fun _ => h.bounce_congr hnil _ _ _ _ _

end Plain

/-! ## Health and guards -/

theorem block_congr (amount : Value) (target : Aim) :
    C.rel (block (rules.withTriggers powers relics) nested' amount target ctx)
      (block rules nested amount target ctx) := by
  unfold block
  rw [blockGained_withTriggers h.same]
  refine C.after fun _ => C.after fun _ => C.ite (C.forTargets fun id combatant => ?_)
  exact C.after fun _ => C.after fun _ => C.after fun _ =>
    h.reacts_of_ne _ .block _ (by decide) (by decide)

theorem setHealth_congr (amount : Value) (target : Aim) :
    C.rel (setHealth (rules.withTriggers powers relics) nested' amount target ctx)
      (setHealth rules nested amount target ctx) :=
  C.after fun _ => C.forTargets fun _ _ => C.after fun _ => C.after fun _ => C.after fun _ =>
    C.ite (h.die_congr _ _)

theorem execute_congr (threshold : Int) (target : Aim) :
    C.rel (execute (rules.withTriggers powers relics) nested' threshold target ctx)
      (execute rules nested threshold target ctx) :=
  C.forTargets fun _ _ => C.after fun _ => C.ite
    (C.after fun _ => C.after fun _ => C.after fun _ => h.die_congr _ _)

end Agrees

/-! ## All effects -/

/-- **What an effect hands on**: the effects inside it, in contexts as triggered as its own, the
effects of cards that are played again, in contexts that are not triggered, and the triggers of its
occasions. All of these contexts are one level deeper, and only an iteration over cards makes them
for other cards. -/
theorem dispatch_congr {effect : Effect} (h : Agrees C rules powers relics nested nested' ctx)
    (hinside : ∀ {effects : List Effect}, (∀ inner ∈ effects, Effect.Inside inner effect) →
      Alike C nested nested' ctx ctx.triggered effects)
    (hcards : effect.replays = true → AlikeForCards C rules nested nested' ctx)
    (hshown : effect.iterates = true → ∀ {effects : List Effect},
      (∀ inner ∈ effects, Effect.Inside inner effect) →
        ∀ card, Alike C nested nested' (showing ctx card) ctx.triggered effects) :
    C.rel (dispatch (rules.withTriggers powers relics) nested' ctx effect)
      (dispatch rules nested ctx effect) := by
  have hnil : Alike C nested nested' ctx ctx.triggered [] := hinside (by simp)
  cases effect with
  | damage => exact h.damage_congr (hinside fun _ => .onHit) _ _ _ _
  | block => exact h.block_congr _ _
  | lifesteal => exact h.lifesteal_congr hnil _ _ _ _
  | setHealth => exact h.setHealth_congr _ _
  | execute => exact h.execute_congr _ _
  | splash => exact h.splash_congr hnil _ _ _ _
  | recoil => exact h.recoil_congr hnil _ _ _ _
  | chain => exact h.chain_congr hnil _ _ _ _ _
  | counter | mark | reflect | amplify | applyPower =>
      simp only [dispatch, applyPower, givePower_withTriggers h.same, C.refl]
  | removePower => simp only [dispatch, removePower, takePower_withTriggers h.same, C.refl]
  | transferPower =>
      simp only [dispatch, transferPower, takePower_withTriggers h.same,
        givePower_withTriggers h.same, C.refl]
  | stealPower =>
      simp only [dispatch, stealPower, takePower_withTriggers h.same,
        givePower_withTriggers h.same, powerToSteal_withTriggers h.same, C.refl]
  | replayCard target times => exact replayCards_congr (hcards rfl) target times
  | playTopCard number => exact playTopCards_congr (hcards rfl) number
  | conditional => exact conditional_congr (hinside fun _ => .yes) (hinside fun _ => .no)
  | repeated times => exact repeated_congr (hinside fun _ => .repeated) times
  | randomChoice => exact randomChoice_congr fun choice hmem => hinside fun _ => .choice choice hmem
  | sequence => exact sequence_congr (hinside fun _ => .sequence)
  | forEach target =>
      refine forEach_congr (hinside fun _ => .forEach) fun htarget => ?_
      exact hshown (by rw [htarget]; rfl) fun _ => .forEach
  | _ => exact C.refl _

end Resolution

end CardCombat
