import CardCombat.Proofs.Resolution.Blows
import CardCombat.Proofs.Resolution.Congruence
import CardCombat.Proofs.Resolution.Plays

/-!
# What prevails through effects

If a relation adds up and holds of every kind of step there is, it prevails: it holds from before to
after any effects, at any depth. Steps that only some effects make have to be thought of only if the
content holds such effects. The content permits effects if it holds no other ones, and what is
carried out is then never anything else.

## Main definitions

* `Content.Holds` -- the lists of effects in content.
* `Content.Permits` -- content holds no effects but those that may be carried out.
* `Prevails` -- a relation that holds of all steps.

## Main results

* `Resolution.within_permitted` -- only effects that are permitted are ever carried out.
* `Prevails.carryOut`, `Prevails.happen` -- what prevails through effects and triggers.
-/

namespace CardCombat

theorem Catalog.mem_values_of_find? {α : Type} {catalog : Catalog α} {name : String} {x : α}
    (h : catalog.find? name = some x) : x ∈ catalog.values := by
  unfold find? at h
  unfold values
  generalize catalog.entries = entries at h ⊢
  induction entries with
  | nil => exact absurd h (by simp)
  | cons entry entries ih =>
      rw [List.lookup_cons] at h
      rw [List.map_cons]
      split at h
      · exact Option.some.inj h ▸ List.mem_cons_self
      · exact List.mem_cons_of_mem _ (ih h)

/-! ## Where triggers are written -/

theorem Trigger.exists_of_mem_on {occasion : Occasion} {triggers : List Trigger}
    {effects : List Effect} (h : effects ∈ Trigger.on occasion triggers) :
    ∃ written ∈ triggers, written.effects = effects := by
  obtain ⟨written, hmem, rfl⟩ := List.mem_map.mp h
  exact ⟨written, List.mem_of_mem_filter hmem, rfl⟩

/-- What a combatant's powers do is written in their definitions. -/
theorem Combatant.exists_of_mem_triggersOn {powers : Catalog PowerDefinition}
    {combatant : Combatant} {occasion : Occasion} {trigger : Triggered}
    (h : trigger ∈ combatant.triggersOn powers occasion) :
    ∃ definition ∈ powers.values, ∃ written ∈ definition.triggers,
      written.effects = trigger.effects := by
  obtain ⟨power, -, h⟩ := List.mem_flatMap.mp h
  split at h
  case h_1 => exact absurd h List.not_mem_nil
  case h_2 definition hfind =>
    obtain ⟨effects, hmem, rfl⟩ := List.mem_map.mp h
    exact ⟨definition, Catalog.mem_values_of_find? hfind, Trigger.exists_of_mem_on hmem⟩

/-- What relics do is written in their definitions. -/
theorem Resolution.exists_of_mem_relicTriggers {rules : Rules} {relics : List RelicId}
    {occasion : Occasion} {effects : List Effect}
    (h : effects ∈ relicTriggers rules relics occasion) :
    ∃ relic ∈ rules.content.relics.values, ∃ written ∈ relic.triggers,
      written.effects = effects := by
  obtain ⟨relic, hmem, h⟩ := List.mem_flatMap.mp h
  obtain ⟨id, -, hfind⟩ := List.mem_filterMap.mp hmem
  exact ⟨relic, Catalog.mem_values_of_find? hfind, Trigger.exists_of_mem_on h⟩

/-- The effect is one of certain effects, or one of them lies inside it. -/
inductive Effect.Has (P : Effect → Prop) : Effect → Prop
  | self {effect} (h : P effect) : Has P effect
  | inside {effect inner} (h : Effect.Inside inner effect) (hi : Has P inner) : Has P effect

namespace Content

/-! ## The effects of content -/

/-- The lists of effects that content holds. -/
inductive Holds (content : Content) : List Effect → Prop
  | card {definition} (h : definition ∈ content.cards.values) (upgraded : Bool) :
      Holds content (definition.effectsWhen upgraded)
  | power {definition trigger} (h : definition ∈ content.powers.values)
      (ht : trigger ∈ definition.triggers) : Holds content trigger.effects
  | relic {definition trigger} (h : definition ∈ content.relics.values)
      (ht : trigger ∈ definition.triggers) : Holds content trigger.effects
  | move {template move} (h : template ∈ content.enemies.values) (hm : move ∈ template.moves) :
      Holds content move.effects
  | ability {template ability} (h : template ∈ content.heroes.values)
      (ha : template.ability = some ability) : Holds content ability.effects

/-- The content holds no effects but those that `may` be carried out, at any depth. -/
structure Permits (content : Content) (may : Effect → Prop) : Prop where
  inside : ∀ {effect inner}, Effect.Inside inner effect → may effect → may inner
  holds : ∀ {effects}, content.Holds effects → ∀ effect ∈ effects, may effect

theorem permits_any (content : Content) : content.Permits Effect.Any :=
  ⟨fun _ _ => trivial, fun _ _ _ => trivial⟩

/-- Some effect of the content is such an effect, or one lies inside it. -/
def Has (content : Content) (P : Effect → Prop) : Prop :=
  ∃ effects, content.Holds effects ∧ ∃ effect ∈ effects, effect.Has P

/-- Content that has no such effect permits only effects that have none inside. -/
theorem permits_of_not_has {content : Content} {P : Effect → Prop} (h : ¬content.Has P) :
    content.Permits fun effect => ¬effect.Has P where
  inside hinside hmay hhas := hmay (.inside hinside hhas)
  holds hholds effect hmem hhas := h ⟨_, hholds, effect, hmem, hhas⟩

variable {content : Content}

theorem holds_of_powers {combatant : Combatant} {occasion : Occasion} {trigger : Triggered}
    (h : trigger ∈ combatant.triggersOn content.powers occasion) :
    content.Holds trigger.effects := by
  obtain ⟨definition, hmem, written, hwritten, heffects⟩ := Combatant.exists_of_mem_triggersOn h
  exact heffects ▸ .power hmem hwritten

theorem holds_of_relics {rules : Rules} {relics : List RelicId} {occasion : Occasion}
    {effects : List Effect} (h : effects ∈ Resolution.relicTriggers rules relics occasion) :
    rules.content.Holds effects := by
  obtain ⟨relic, hmem, written, hwritten, rfl⟩ := Resolution.exists_of_mem_relicTriggers h
  exact .relic hmem hwritten

end Content

/-! ## Only what is permitted is carried out -/

namespace Resolution

variable {rules : Rules} {may : Effect → Prop} {R : Scene → Scene → Prop}
  {nested : List Effect → Context → Resolution Unit}

open Classical in
/-- Carries out effects if all of them may be carried out. -/
noncomputable def guarded (may : Effect → Prop)
    (nested : List Effect → Context → Resolution Unit) (effects : List Effect) (ctx : Context) :
    Resolution Unit :=
  if ∀ effect ∈ effects, may effect then nested effects ctx else skip effects ctx

theorem guarded_eq {effects : List Effect} (h : ∀ effect ∈ effects, may effect) (ctx : Context) :
    guarded may nested effects ctx = nested effects ctx := if_pos h

theorem guarded_ensures (hR : Flow R)
    (h : ∀ effects ctx, (∀ effect ∈ effects, may effect) → Ensures R (nested effects ctx))
    (effects : List Effect) (ctx : Context) : Ensures R (guarded may nested effects ctx) := by
  unfold guarded
  split
  · exact h effects ctx ‹_›
  · exact Ensures.pure hR ()

/-- An occasion hands on nothing but what is permitted. -/
theorem react_guarded (hp : rules.content.Permits may) (owner : CombatantId) (occasion : Occasion)
    (cause : Option CombatantId) (ctx : Context) :
    react rules (guarded may nested) owner occasion cause ctx =
      react rules nested owner occasion cause ctx :=
  react_congr (C := .same) (fun _ => rfl) (fun _ => rfl)
    (fun _ _ hmem inner _ => guarded_eq (hp.holds (Content.holds_of_powers hmem)) inner)
    (fun _ _ hmem inner _ => guarded_eq (hp.holds (Content.holds_of_relics hmem)) inner)

/-- An effect that may be carried out hands on nothing but what is permitted. -/
theorem dispatch_guarded (hp : rules.content.Permits may) {effect : Effect} (hmay : may effect)
    (ctx : Context) :
    dispatch rules (guarded may nested) ctx effect = dispatch rules nested ctx effect := by
  have hagrees : Agrees .same rules rules.content.powers rules.content.relics nested
      (guarded may nested) ctx :=
    ⟨.refl _, fun owner occasion cause _ => react_guarded hp owner occasion cause ctx⟩
  have hhanded {effects : List Effect} (hinside : ∀ inner ∈ effects, Effect.Inside inner effect)
      (inner : Context) : guarded may nested effects inner = nested effects inner :=
    guarded_eq (fun effect hmem => hp.inside (hinside effect hmem) hmay) inner
  refine dispatch_congr hagrees (fun hinside inner _ => hhanded hinside inner)
    (fun _ _ _ hfind upgraded inner _ => ?_) fun _ _ hinside _ inner _ => hhanded hinside inner
  exact guarded_eq (hp.holds (.card (Catalog.mem_values_of_find? hfind) upgraded)) inner

/-- **What effects carry that may be carried out, they carry at any depth** if nothing else is
permitted. -/
theorem within_permitted (hR : Flow R) (hp : rules.content.Permits may)
    (hcarries : ∀ nested : List Effect → Context → Resolution Unit,
      (∀ effects ctx, Ensures R (nested effects ctx)) → Carries rules may nested R)
    (levels : Nat) (effects : List Effect) (ctx : Context) (hmay : ∀ effect ∈ effects, may effect) :
    Ensures R (within rules skip levels effects ctx) := by
  induction levels generalizing effects ctx with
  | zero => exact Ensures.pure hR ()
  | succ levels ih =>
      have hguarded : Carries rules may (guarded may (within rules skip levels)) R :=
        hcarries _ (guarded_ensures hR ih)
      refine Ensures.forM hR fun effect hmem => ?_
      rw [← dispatch_guarded hp (hmay effect hmem)]
      exact hguarded.dispatch (hmay effect hmem)

end Resolution

/-! ## Relations that hold of all steps -/

open Resolution

/-- A relation that adds up and holds of every step of effects that `may` be carried out. -/
structure Prevails (rules : Rules) (may : Effect → Prop) (R : Scene → Scene → Prop) : Prop where
  flow : Flow R
  step : ∀ {s t}, Step rules may s t → R s t
  blow : ∀ {s t}, Blow rules s t → R s t
  opens : ∀ {card s t}, Opens card s t → R s t
  closes : ∀ {uid s t}, Closes rules uid s t → R s t

namespace Prevails

variable {rules : Rules} {may : Effect → Prop} {R : Scene → Scene → Prop}
  (h : Prevails rules may R)

include h

theorem bears {nested : List Effect → Context → Resolution Unit}
    (hnested : ∀ effects ctx, Ensures R (nested effects ctx)) : Bears rules may nested R :=
  ⟨h.flow, h.step, h.blow, hnested⟩

theorem carries (nested : List Effect → Context → Resolution Unit)
    (hnested : ∀ effects ctx, Ensures R (nested effects ctx)) : Carries rules may nested R := by
  have hbears := h.bears hnested
  refine hbears.carries fun ctx => ⟨fun {s played t} hplay => ?_⟩
  rcases playTop_of_run hnested hplay with hcourse | ⟨_, _, _, _, hcourse, hopen, hin, hclose⟩
  · exact hbears.course hcourse
  · exact h.flow.trans (hbears.course hcourse)
      (h.flow.trans (h.opens hopen) (h.flow.trans hin (h.closes hclose)))

/-- **What prevails through effects.** -/
theorem carryOut (hp : rules.content.Permits may) {effects : List Effect}
    (hmay : ∀ effect ∈ effects, may effect) (ctx : Context) :
    Ensures R (carryOut rules effects ctx) :=
  within_permitted h.flow hp h.carries _ effects ctx hmay

/-- **What prevails through the triggers of an occasion.** -/
theorem happen (hp : rules.content.Permits may) (owner : CombatantId) (occasion : Occasion)
    (cause : Option CombatantId) (ctx : Context) :
    Ensures R (happen rules owner occasion cause ctx) := by
  unfold Resolution.happen
  rw [← react_guarded hp]
  exact (h.bears (guarded_ensures h.flow fun _ ctx hmay => h.carryOut hp hmay ctx)).react

end Prevails

end CardCombat
