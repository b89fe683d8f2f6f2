import CardCombat.Proofs.Resolution.Prevails

/-!
# Triggers do not attack

The damage that a trigger deals is no attack: it brings about neither attack nor attacked. So
whatever is carried out in a triggered context, at any depth and through any effect, is the same if
all powers and relics lose the triggers of these two occasions. The exception are the cards that
are played again or off the deck. Their effects are carried out in a context of their own that is
not triggered, so that their damage is an attack even if it was a trigger that had them played.

## Main definitions

* `Rules.disarmed` -- the rules without the triggers of attacks.
* `Effect.Replays` -- an effect that has the effects of cards carried out, or one inside it does.
* `Resolution.carryOutApart` -- carries out effects, with the effects of cards in the hands of
  someone else.

## Main results

* `Resolution.carryOut_disarmed` -- no trigger of an attack has a part in what is triggered, apart
  from the effects of cards.
* `Resolution.carryOut_disarmed_of_not_replays` -- and none at all if nothing has cards played.
-/

namespace CardCombat

/-! ## Rules without the triggers of attacks -/

namespace Occasion

/-- Whether the occasion belongs to an attack. -/
def ofAttack : Occasion → Bool
  | .attack | .attacked => true
  | _ => false

theorem ofAttack_eq_false_iff {occasion : Occasion} :
    occasion.ofAttack = false ↔ occasion ≠ .attack ∧ occasion ≠ .attacked := by
  cases occasion <;> decide

end Occasion

/-- The triggers without those of attacks. -/
def Trigger.disarm (triggers : List Trigger) : List Trigger :=
  triggers.filter (!·.occasion.ofAttack)

/-- Only the triggers of attacks are gone. -/
theorem Trigger.on_disarm (occasion : Occasion) (triggers : List Trigger) :
    Trigger.on occasion (Trigger.disarm triggers) =
      if occasion.ofAttack then [] else Trigger.on occasion triggers := by
  have hsame (trigger : Trigger) :
      (trigger.occasion == occasion && !trigger.occasion.ofAttack) =
        (trigger.occasion == occasion && !occasion.ofAttack) := by
    by_cases heq : trigger.occasion = occasion
    · rw [heq]
    · rw [beq_false_of_ne heq, Bool.false_and, Bool.false_and]
  unfold on disarm
  rw [List.filter_filter, List.filter_congr fun trigger _ => hsame trigger]
  cases occasion.ofAttack with
  | true => simp
  | false => simp

def PowerDefinition.disarmed (definition : PowerDefinition) : PowerDefinition :=
  { definition with triggers := Trigger.disarm definition.triggers }

def RelicDefinition.disarmed (relic : RelicDefinition) : RelicDefinition :=
  { relic with triggers := Trigger.disarm relic.triggers }

namespace Catalog

variable {α β : Type}

/-- Changes all definitions. -/
def map (f : α → β) (catalog : Catalog α) : Catalog β :=
  ⟨catalog.entries.map fun entry => (entry.1, f entry.2)⟩

theorem find?_map (f : α → β) (catalog : Catalog α) (name : String) :
    (catalog.map f).find? name = (catalog.find? name).map f := by
  unfold find? map
  generalize catalog.entries = entries
  induction entries with
  | nil => rfl
  | cons entry entries ih =>
      rw [List.map_cons, List.lookup_cons, List.lookup_cons, ih]
      cases name == entry.1 <;> rfl

end Catalog

/-- The rules without the triggers of attacks. -/
def Rules.disarmed (rules : Rules) : Rules :=
  rules.withTriggers (rules.content.powers.map PowerDefinition.disarmed)
    (rules.content.relics.map RelicDefinition.disarmed)

variable {rules : Rules} {occasion : Occasion}

namespace Rules

/-- The powers are the same, but for their triggers. -/
theorem disarmed_sameButTriggers (rules : Rules) :
    rules.content.powers.SameButTriggers rules.disarmed.content.powers := by
  intro power
  show ((rules.content.powers.map PowerDefinition.disarmed).find? power).map _ = _
  rw [Catalog.find?_map, Option.map_map]
  rfl

/-- A combatant's powers act on the same occasions as before, and on no attack. -/
theorem triggersOn_disarmed (combatant : Combatant) :
    combatant.triggersOn rules.disarmed.content.powers occasion =
      if occasion.ofAttack then [] else combatant.triggersOn rules.content.powers occasion := by
  have hdefinition (definition : PowerDefinition) :
      definition.disarmed.triggersOn occasion =
        if occasion.ofAttack then [] else definition.triggersOn occasion :=
    Trigger.on_disarm occasion definition.triggers
  have hfind (power : PowerId) : rules.disarmed.content.powers.find? power =
      (rules.content.powers.find? power).map PowerDefinition.disarmed :=
    Catalog.find?_map _ _ power
  unfold Combatant.triggersOn
  induction combatant.powers.filter (!·.isSilenced) with
  | nil => exact (ite_self []).symm
  | cons power powers ih =>
      rw [List.flatMap_cons, ih, hfind, List.flatMap_cons]
      cases rules.content.powers.find? power.id with
      | none => rfl
      | some definition =>
          show (definition.disarmed.triggersOn occasion).map _ ++ _ = _
          rw [hdefinition]
          cases occasion.ofAttack with
          | true => rfl
          | false => rfl

/-- The relics act on the same occasions as before, and on no attack. -/
theorem relicTriggers_disarmed (held : List RelicId) :
    Resolution.relicTriggers rules.disarmed held occasion =
      if occasion.ofAttack then [] else Resolution.relicTriggers rules held occasion := by
  have hdefinition (relic : RelicDefinition) : relic.disarmed.triggersOn occasion =
      if occasion.ofAttack then [] else relic.triggersOn occasion :=
    Trigger.on_disarm occasion relic.triggers
  have hfind : rules.disarmed.content.relics.find? =
      fun relic => (rules.content.relics.find? relic).map RelicDefinition.disarmed :=
    funext fun relic => Catalog.find?_map _ _ relic
  unfold Resolution.relicTriggers Content.relicsOf
  rw [hfind, ← List.map_filterMap, List.flatMap_map]
  simp only [hdefinition]
  cases occasion.ofAttack with
  | true => simp
  | false => rfl

end Rules

/-! ## What is triggered -/

namespace Resolution

variable {nested nested' : List Effect → Context → Resolution Unit} {ctx : Context}
  {effects : List Effect}

/-- Without the triggers of attacks an attack brings about nothing. -/
theorem react_disarmed (h : occasion.ofAttack = true) (owner : CombatantId)
    (cause : Option CombatantId) :
    react rules.disarmed nested owner occasion cause ctx = pure () := by
  unfold react
  simp only [Rules.triggersOn_disarmed, Rules.relicTriggers_disarmed, if_pos h, ite_self]
  calc
    _ = ((get : Resolution Scene) >>= fun _ => pure ()) := by
        refine bind_congr fun scene => ?_
        cases scene.combat.combatant? owner with
        | none | some => rfl
    _ = pure () := rfl

/-- **An occasion that is no attack** hands on the same effects without the triggers of attacks. -/
theorem agrees_disarmed (htriggered : ctx.triggered = true)
    (hofPowers : ∀ occasion (combatant : Combatant),
      ∀ trigger ∈ combatant.triggersOn rules.content.powers occasion,
        Alike .same nested nested' ctx true trigger.effects)
    (hofRelics : ∀ occasion held, ∀ effects ∈ relicTriggers rules held occasion,
      Alike .same nested nested' ctx true effects) :
    Agrees .same rules rules.disarmed.content.powers rules.disarmed.content.relics nested nested'
      ctx where
  same := rules.disarmed_sameButTriggers
  reacts owner occasion cause hoccasion := by
    have hother : occasion.ofAttack = false :=
      Occasion.ofAttack_eq_false_iff.mpr (hoccasion htriggered)
    refine react_congr (fun combatant => ?_) (fun held => ?_) (hofPowers occasion)
      (hofRelics occasion)
    · have h := @Rules.triggersOn_disarmed rules occasion combatant
      rw [hother] at h
      exact h
    · have h := @Rules.relicTriggers_disarmed rules occasion held
      rw [hother] at h
      exact h

/-! ### The effects of cards apart -/

/-- Carries out one effect. If it has the effects of cards carried out, these are left to
`replayed`; all other nested effects are left to `nested`. -/
def dispatchApart (rules : Rules) (replayed nested : List Effect → Context → Resolution Unit)
    (ctx : Context) : Effect → Resolution Unit
  | .replayCard target times => replayCards rules replayed target times ctx
  | .playTopCard count => playTopCards rules replayed count ctx
  | effect => dispatch rules nested ctx effect

/-- Carries out effects with so many levels left. The effects of cards are left to `replayed`, with
the levels that they have left. -/
def withinApart (rules : Rules) (replayed : Nat → List Effect → Context → Resolution Unit) :
    Nat → List Effect → Context → Resolution Unit
  | 0 => skip
  | levels + 1 => fun effects ctx =>
      effects.forM (dispatchApart rules (replayed levels) (withinApart rules replayed levels) ctx)

/-- Carries out effects one after another, with the effects of cards left to `replayed`. -/
def carryOutApart (rules : Rules) (replayed : Nat → List Effect → Context → Resolution Unit)
    (effects : List Effect) (ctx : Context) : Resolution Unit :=
  withinApart rules replayed (levels rules ctx.depth) effects ctx

theorem dispatchApart_of_not_replays {replayed : List Effect → Context → Resolution Unit}
    {effect : Effect} (h : effect.replays = false) :
    dispatchApart rules replayed nested ctx effect = dispatch rules nested ctx effect := by
  cases effect with
  | replayCard | playTopCard => exact absurd h.symm Bool.false_ne_true
  | _ => rfl

theorem dispatchApart_self (effect : Effect) :
    dispatchApart rules nested nested ctx effect = dispatch rules nested ctx effect := by
  cases hreplays : effect.replays with
  | false => exact dispatchApart_of_not_replays hreplays
  | true =>
      cases effect with
      | replayCard | playTopCard => rfl
      | _ => exact absurd hreplays Bool.false_ne_true

/-- Whoever carries out the effects of cards as all others are carried out sets nothing apart. -/
theorem withinApart_within (rules : Rules) (levels : Nat) :
    withinApart rules (within rules skip) levels = within rules skip levels := by
  induction levels with
  | zero => rfl
  | succ levels ih =>
      funext effects ctx
      refine Precongruence.same.forM fun effect _ => ?_
      rw [ih]
      exact dispatchApart_self effect

/-- One effect that is triggered is carried out without the triggers of attacks. -/
theorem dispatchApart_disarmed {replayed : List Effect → Context → Resolution Unit}
    (htriggered : ctx.triggered = true)
    (hnested : ∀ effects inner, inner.triggered = true →
      nested' effects inner = nested effects inner) (effect : Effect) :
    dispatchApart rules.disarmed replayed nested' ctx effect =
      dispatchApart rules replayed nested ctx effect := by
  cases hreplays : effect.replays with
  | true =>
      cases effect with
      | replayCard target times =>
          exact replayCards_congr (C := .same) (fun _ _ _ _ _ _ => rfl) target times
      | playTopCard number => exact playTopCards_congr (C := .same) (fun _ _ _ _ _ _ => rfl) number
      | _ => exact absurd hreplays Bool.false_ne_true
  | false =>
      rw [dispatchApart_of_not_replays hreplays, dispatchApart_of_not_replays hreplays]
      refine dispatch_congr (agrees_disarmed htriggered ?_ ?_) (fun _ inner h => ?_)
        (fun h => ?_) fun _ _ _ _ inner h => ?_
      · exact fun _ _ trigger _ inner h => hnested trigger.effects inner h.triggered
      · exact fun _ _ effects _ inner h => hnested effects inner h.triggered
      · exact hnested _ inner (h.triggered.trans htriggered)
      · exact absurd (hreplays.symm.trans h) nofun
      · exact hnested _ inner (h.triggered.trans htriggered)

/-- **Whatever is triggered** is carried out without the triggers of attacks, apart from the effects
of cards. -/
theorem withinApart_disarmed (replayed : Nat → List Effect → Context → Resolution Unit)
    (levels : Nat) (effects : List Effect) (ctx : Context) (htriggered : ctx.triggered = true) :
    withinApart rules.disarmed replayed levels effects ctx =
      withinApart rules replayed levels effects ctx := by
  induction levels generalizing effects ctx with
  | zero => rfl
  | succ levels ih =>
      exact Precongruence.same.forM fun effect _ => dispatchApart_disarmed htriggered ih effect

theorem carryOutApart_disarmed (replayed : Nat → List Effect → Context → Resolution Unit)
    (effects : List Effect) (htriggered : ctx.triggered = true) :
    carryOutApart rules.disarmed replayed effects ctx = carryOutApart rules replayed effects ctx :=
  withinApart_disarmed replayed _ effects ctx htriggered

theorem carryOutApart_within (rules : Rules) :
    carryOutApart rules (within rules skip) = carryOut rules := by
  funext effects ctx
  unfold carryOutApart carryOut
  rw [withinApart_within]

/-- **The damage of a trigger is no attack.** What is carried out in a triggered context, at any
depth and through any effect, is the same without the triggers of attacks, failures included. Only
the effects of the cards that it has played again or off the deck are carried out with them. -/
theorem carryOut_disarmed (effects : List Effect) (htriggered : ctx.triggered = true) :
    carryOutApart rules.disarmed (within rules skip) effects ctx = carryOut rules effects ctx := by
  rw [carryOutApart_disarmed _ effects htriggered, carryOutApart_within]

/-- **Whatever the occasion**, the triggers that it brings about are carried out without those of
attacks. -/
theorem happen_disarmed (owner : CombatantId) (occasion : Occasion) (cause : Option CombatantId)
    (ctx : Context) :
    react rules (carryOutApart rules.disarmed (within rules skip)) owner occasion cause ctx =
      happen rules owner occasion cause ctx := by
  have hsame (effects : List Effect) (inner : Context) (h : inner.triggered = true) :
      carryOutApart rules.disarmed (within rules skip) effects inner =
        carryOut rules effects inner := by
    rw [carryOutApart_disarmed _ effects h, carryOutApart_within]
  exact react_congr (C := .same) (fun _ => rfl) (fun _ => rfl)
    (fun _ trigger _ inner h => hsame trigger.effects inner h.triggered)
    fun _ effects _ inner h => hsame effects inner h.triggered

end Resolution

/-! ## Triggers that play no cards -/

/-- The effect has the effects of cards carried out, itself or by an effect inside it. -/
inductive Effect.Replays : Effect → Prop
  | itself {effect : Effect} (h : effect.replays = true) : Replays effect
  | inside {effect inner : Effect} (h : Effect.Inside inner effect) (hi : Replays inner) :
      Replays effect

/-- No trigger of a power or a relic has the effects of cards carried out. -/
structure Content.TriggersPlayNoCards (content : Content) : Prop where
  powers : ∀ definition ∈ content.powers.values, ∀ trigger ∈ definition.triggers,
    ∀ effect ∈ trigger.effects, ¬effect.Replays
  relics : ∀ definition ∈ content.relics.values, ∀ trigger ∈ definition.triggers,
    ∀ effect ∈ trigger.effects, ¬effect.Replays

namespace Resolution

variable {nested nested' : List Effect → Context → Resolution Unit} {ctx : Context}
  {effects : List Effect}

/-- **If no trigger has cards played** and the effects do not either, the triggers of attacks have
no part in what is triggered at all. -/
theorem carryOut_disarmed_of_not_replays (hcontent : rules.content.TriggersPlayNoCards)
    (heffects : ∀ effect ∈ effects, ¬effect.Replays) (htriggered : ctx.triggered = true) :
    carryOut rules.disarmed effects ctx = carryOut rules effects ctx := by
  show within rules.disarmed skip (levels rules ctx.depth) effects ctx = _
  unfold carryOut
  generalize levels rules ctx.depth = levels
  induction levels generalizing effects ctx with
  | zero => rfl
  | succ levels ih =>
      refine Precongruence.same.forM fun effect hmem => ?_
      have hnot := heffects effect hmem
      have hhanded {effects : List Effect}
          (hinside : ∀ inner ∈ effects, Effect.Inside inner effect) {inner : Context}
          (htriggered : inner.triggered = true) :
          within rules.disarmed skip levels effects inner =
            within rules skip levels effects inner :=
        ih (fun effect hmem hreplays => hnot (.inside (hinside effect hmem) hreplays)) htriggered
      refine dispatch_congr (agrees_disarmed htriggered ?_ ?_)
        (fun hinside inner h => hhanded hinside (h.triggered.trans htriggered)) (fun h => ?_)
          fun _ _ hinside _ inner h => hhanded hinside (h.triggered.trans htriggered)
      · intro occasion combatant trigger hacts inner hinner
        obtain ⟨definition, hdefinition, written, hwritten, heq⟩ :=
          Combatant.exists_of_mem_triggersOn hacts
        exact ih (heq ▸ hcontent.powers definition hdefinition written hwritten)
          hinner.triggered
      · intro occasion held effects hacts inner hinner
        obtain ⟨relic, hrelic, written, hwritten, rfl⟩ := exists_of_mem_relicTriggers hacts
        exact ih (hcontent.relics relic hrelic written hwritten) hinner.triggered
      · exact absurd (.itself h) hnot

end Resolution

/-! ## A sling and a purse -/

/-- A card that strikes the front enemy, a relic that plays the top card of the draw pile when a
turn begins, and one that gives gold for every attack. -/
def slingRules : Rules where
  content :=
    { cards := Catalog.empty.put "strike"
        { id := "strike", name := "Strike", theme := .attack, cost := .fixed 1
          effects := [.damage (.fixed 6) .frontEnemy .physical false []] }
      relics := (Catalog.empty.put "sling"
        { id := "sling", name := "Sling"
          triggers := [⟨.turnStart, [.playTopCard (.fixed 1)]⟩] }).put "purse"
        { id := "purse", name := "Purse", triggers := [⟨.attack, [.gold (.fixed 5) .gain]⟩] } }

/-- A combat with that card on the deck. -/
def slingScene : Scene where
  combat :=
    { player := .ofPlayer "" 10 10
      resources := {}
      enemies := [.ofEnemy ⟨1⟩ "Dummy" 20
        { template := "dummy", vulnerabilities := [], resistances := [] }]
      piles := { drawPile := [{ uid := ⟨1⟩, definition := "strike" }] }
      nextCardUid := 2 }
  gold := 0
  stats := {}
  relics := ["sling", "purse"]
  rng := .ofSeed 0

namespace Resolution

/-- A trigger that strikes gives no gold for an attack. -/
theorem carryOut_disarmed_of_sling :
    ((carryOut slingRules [.damage (.fixed 6) .frontEnemy .physical false []]
      { triggered := true }).run slingScene).toOption.map (·.2.gold) = some 0 := by
  rw [← carryOut_disarmed _ rfl]
  decide +kernel

/-- A trigger that plays a card gives gold, since the card attacks. -/
theorem sling_attacks :
    ¬∀ rules effects ctx, ctx.triggered = true →
      carryOut rules.disarmed effects ctx = carryOut rules effects ctx := by
  intro hclaim
  have hsame := congrArg (fun m => (m.run slingScene).toOption.map (·.2.gold))
    (hclaim slingRules [.playTopCard (.fixed 1)] { triggered := true } rfl)
  have hplain : ((carryOut slingRules [.playTopCard (.fixed 1)]
      { triggered := true }).run slingScene).toOption.map (·.2.gold) = some 5 := by
    decide +kernel
  have hdisarmed : ((carryOut slingRules.disarmed [.playTopCard (.fixed 1)]
      { triggered := true }).run slingScene).toOption.map (·.2.gold) = some 0 := by
    decide +kernel
  rw [hplain, hdisarmed] at hsame
  exact absurd hsame (by decide)

end Resolution

end CardCombat
