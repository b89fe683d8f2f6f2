import CardCombat.Proofs.Resolution.Cards
import CardCombat.Resolve.Dispatch

/-!
# Relations that effects carry

An effect is made of plain steps, of hits and other blows, of cards that come into play, and of
effects nested in it. A relation that adds up and that each of these keeps is kept by every effect,
and so by whole lists of effects at any depth. What a hit keeps is not derived here from the steps
that it is made of, since some relations hold of a hit only as a whole: a death, for one, is not
over before it has been dealt with. The same goes for cards that are drawn or shuffled, of which
nothing is told before it is done.

## Main results

* `Resolution.react_acts` -- the triggers of an occasion act one after the other.
* `Resolution.Carries.dispatch` -- from the parts to an effect.
* `Resolution.Carries.within` -- from the parts to effects at any depth.
-/

namespace CardCombat.Resolution

variable {rules : Rules} {may : Effect → Prop} {nested : List Effect → Context → Resolution Unit}
  {R : Scene → Scene → Prop} {s t : Scene}

/-! ## Triggers -/

/-- Lists of effects are carried out for an owner, each after it was written down. -/
inductive Acts (R : Scene → Scene → Prop) (owner : CombatantId) (occasion : Occasion) :
    List (List Effect) → Scene → Scene → Prop
  | nil (s : Scene) : Acts R owner occasion [] s s
  | cons {effects lists s t u} (h : R (s.record (.acted owner occasion effects)) t)
      (hrest : Acts R owner occasion lists t u) : Acts R owner occasion (effects :: lists) s u

namespace Acts

variable {owner : CombatantId} {occasion : Occasion} {lists : List (List Effect)}

theorem append {lists' : List (List Effect)} {u : Scene} (h : Acts R owner occasion lists s t)
    (h' : Acts R owner occasion lists' t u) : Acts R owner occasion (lists ++ lists') s u := by
  induction h with
  | nil => exact h'
  | cons h _ ih => exact .cons h (ih h')

theorem of_forM {α : Type} {effects : α → List Effect} {f : α → Resolution Unit}
    (hf : ∀ x s u t, (f x).run s = .ok (u, t) → R (s.record (.acted owner occasion (effects x))) t)
    {xs : List α} {u : Unit} (h : (xs.forM f).run s = .ok (u, t)) :
    Acts R owner occasion (xs.map effects) s t := by
  induction xs generalizing s with
  | nil =>
      obtain ⟨-, rfl⟩ := run_pure_iff.mp h
      exact .nil s
  | cons x xs ih =>
      obtain ⟨_, v, hx, h⟩ := run_bind_iff.mp h
      exact .cons (hf x s _ v hx) (ih h)

/-- Acting is kept if it is kept that an act was written down. -/
theorem carried (hR : Flow R) (hacted : ∀ s effects, R s (s.record (.acted owner occasion effects)))
    (h : Acts R owner occasion lists s t) : R s t := by
  induction h with
  | nil s => exact hR.refl s
  | cons h _ ih => exact hR.trans (hR.trans (hacted _ _) h) ih

end Acts

/-- **When an occasion comes to a combatant, the triggers of its powers act in their order, and
after them those of the relics if it is the player.** -/
theorem react_acts (hnested : ∀ effects ctx, Ensures R (nested effects ctx)) {owner : CombatantId}
    {occasion : Occasion} {cause : Option CombatantId} {ctx : Context} {u : Unit}
    (h : (react rules nested owner occasion cause ctx).run s = .ok (u, t)) :
    s.combat.combatant? owner = none ∧ s = t ∨
      ∃ c, s.combat.combatant? owner = some c ∧
        Acts R owner occasion ((c.triggersOn rules.content.powers occasion).map (·.effects) ++
          if owner.isPlayer then relicTriggers rules s.relics occasion else []) s t := by
  have source_ofTrigger {inner : Context} (h : ctx.ofTrigger owner cause = .ok inner) :
      inner.source = owner := by
    obtain ⟨deeper, -, h⟩ := bind_eq_ok.mp h
    obtain rfl := Except.ok.inj h
    rfl
  have acted {effects : List Effect} {inner : Context} {s t : Scene} {u : Unit}
      (hs : inner.source = owner) (h : (act nested occasion effects inner).run s = .ok (u, t)) :
      R (s.record (.acted owner occasion effects)) t := by
    obtain ⟨_, v, hrecord, h⟩ := run_bind_iff.mp h
    obtain rfl := run_record_iff.mp hrecord
    rw [← hs]
    exact hnested effects inner h
  obtain ⟨_, _, hget, h⟩ := run_bind_iff.mp h
  obtain ⟨rfl, rfl⟩ := run_get_iff.mp hget
  split at h
  case h_1 hnone => exact .inl ⟨hnone, (run_pure_iff.mp h).2⟩
  case h_2 c hc =>
    obtain ⟨_, v, hpowers, hrelics⟩ := run_bind_iff.mp h
    refine .inr ⟨c, hc, .append (.of_forM (fun trigger s u t h => ?_) hpowers) ?_⟩
    · obtain ⟨inner, _, hinner, h⟩ := run_bind_iff.mp h
      obtain ⟨hok, rfl⟩ := run_lift_iff.mp hinner
      have hs : inner.source = owner := source_ofTrigger hok
      exact acted (by exact hs) h
    · rw [← List.map_id (ite _ _ _)]
      refine Acts.of_forM (fun effects s u t h => ?_) hrelics
      obtain ⟨inner, _, hinner, h⟩ := run_bind_iff.mp h
      obtain ⟨hok, rfl⟩ := run_lift_iff.mp hinner
      exact acted (source_ofTrigger hok) h

/-! ## What effects carry -/

/-- A relation that adds up, that holds of every plain step that tells of what it changes, and that
everything keeps of which effects are made besides. -/
structure Carries (rules : Rules) (may : Effect → Prop)
    (nested : List Effect → Context → Resolution Unit)
    (R : Scene → Scene → Prop) : Prop where
  flow : Flow R
  step : ∀ {s t}, Step rules may s t → Candid s t → R s t
  drawCards : ∀ count, Ensures R (drawCards rules count)
  shuffle : ∀ includeDiscard, Ensures R (shuffle includeDiscard)
  inside : ∀ effects ctx, Ensures R (nested effects ctx)
  hit : ∀ ctx target hit, Ensures R (resolveHit rules nested ctx target hit)
  hurt : ∀ ctx target amount element piercing,
    Ensures R (hurt rules nested ctx target amount element piercing)
  setHealth : ∀ amount target ctx, Ensures R (setHealth rules nested amount target ctx)
  execute : ∀ threshold target ctx, Ensures R (execute rules nested threshold target ctx)
  playTop : ∀ ctx, Ensures R (playTop rules nested ctx)

namespace Carries

variable {ctx : Context} (hR : Carries rules may nested R)

include hR

theorem telling (h : Telling rules may s t) : R s t := h.lift hR.flow hR.step

theorem of_course {α : Type} {m : Resolution α} (h : Ensures (Telling rules may) m) :
    Ensures R m := h.mono fun _ _ => hR.telling

theorem draw {α : Type} {x : Draw α} : Ensures R (draw x) := hR.of_course draw_course

theorem targets {target : Aim} : Ensures R (targets target ctx) := by
  refine ⟨fun h => ?_⟩
  obtain ⟨-, rfl⟩ := run_targets_iff.mp h
  exact hR.telling (.drew _)

theorem react {owner : CombatantId} {occasion : Occasion} (ho : occasion ≠ .death)
    {cause : Option CombatantId} : Ensures R (react rules nested owner occasion cause ctx) := by
  refine ⟨fun {s u t} h => ?_⟩
  rcases react_acts hR.inside h with ⟨-, rfl⟩ | ⟨c, -, hacts⟩
  · exact hR.flow.refl s
  · exact hacts.carried hR.flow fun _ _ => hR.step (.acted ho) (.of_unmoved ⟨_, _, _, rfl⟩)

theorem forCards {target : CardAim} {limit : Option Nat} {act : Card → Resolution Unit}
    (hact : ∀ card, Ensures R (act card)) :
    Ensures R (forCards rules target limit ctx act) :=
  Ensures.bind hR.flow (hR.of_course cards_course) fun _ =>
    Ensures.forM hR.flow fun card _ => hact card

/-- A context one level deeper is made, and effects are carried out in it. -/
theorem inner {effects : List Effect} {deeper : Except Fault Context} :
    Ensures R (do nested effects (← deeper)) :=
  Ensures.bind hR.flow (Ensures.lift hR.flow deeper) fun _ => hR.inside _ _

/-! ### Attacks -/

theorem damage (amount : Value) (target : Aim) (element : Element) (piercing : Bool)
    (onHit : List Effect) :
    Ensures R (damage rules nested amount target element piercing onHit ctx) :=
  Ensures.amount hR.flow fun _ => Ensures.bind hR.flow hR.targets fun _ =>
    Ensures.forM hR.flow fun _ _ => Ensures.discard (hR.hit _ _ _)

theorem drain (hit : Hit) (ids : List CombatantId) (drained : Int) :
    Ensures R (drain rules nested ctx hit ids drained) := by
  induction ids generalizing drained with
  | nil => exact Ensures.pure hR.flow drained
  | cons id ids ih =>
      refine Ensures.bind hR.flow (hR.hit _ _ _) fun outcome => ?_
      cases outcome with
      | none => exact ih drained
      | some outcome => exact Ensures.bind hR.flow (Ensures.lift hR.flow _) fun sum => ih sum

theorem lifesteal (amount : Value) (target : Aim) (element : Element) (percent : Int) :
    Ensures R (lifesteal rules nested amount target element percent ctx) := by
  refine Ensures.amount hR.flow fun base => Ensures.bind hR.flow hR.targets fun ids =>
    Ensures.bind hR.flow (hR.drain _ _ _) fun drained =>
      Ensures.bind hR.flow (Ensures.lift hR.flow _) fun healing => ?_
  refine ⟨fun {s u t} h => ?_⟩
  obtain ⟨found, _, hfound, h⟩ := run_bind_iff.mp h
  obtain ⟨rfl, rfl⟩ := run_combatant?_iff.mp hfound
  split at h
  case h_1 =>
    obtain ⟨-, rfl⟩ := run_pure_iff.mp h
    exact hR.flow.refl s
  case h_2 before hc =>
    simp only [run_bind_iff, run_lift_iff, run_setCombatant_iff, run_if_report_iff] at h
    obtain ⟨⟨healed, after⟩, _, ⟨hheal, rfl⟩, _, _, rfl, h⟩ := h
    cases hlife : before.isAlive with
    | false =>
        obtain ⟨rfl, rfl⟩ := Combatant.heal_dead hlife hheal
        rw [Scene.setCombatant_self hc] at h
        obtain rfl := h
        exact hR.flow.refl _
    | true =>
        exact hR.telling (altered_course hc (fun _ => hlife)
          (.heal (fun ho => absurd ho (by decide)) hheal) h
            fun hs hnone => Combatant.eq_of_heal hs hheal (not_of_tellIf hnone))

theorem splash (amount : Value) (target : Aim) (element : Element) (splashPercent : Int) :
    Ensures R (splash rules nested amount target element splashPercent ctx) := by
  refine Ensures.amount hR.flow fun base => Ensures.bind hR.flow hR.targets fun ids => ?_
  cases ids with
  | nil => exact Ensures.pure hR.flow ()
  | cons primary ids =>
      exact Ensures.combat hR.flow fun combat =>
        Ensures.bind hR.flow (Ensures.discard (hR.hit _ _ _)) fun _ =>
          Ensures.bind hR.flow (Ensures.lift hR.flow _) fun splashed =>
            Ensures.forM hR.flow fun _ _ => Ensures.discard (hR.hit _ _ _)

theorem strikeAll (hit : Hit) (ids : List CombatantId) :
    Ensures R (strikeAll rules nested ctx hit ids) := by
  induction ids with
  | nil => exact Ensures.pure hR.flow false
  | cons id ids ih =>
      exact Ensures.bind hR.flow (hR.hit _ _ _) fun struck =>
        Ensures.bind hR.flow ih fun later => Ensures.pure hR.flow _

theorem recoil (amount : Value) (target : Aim) (element : Element) (cost : Value) :
    Ensures R (recoil rules nested amount target element cost ctx) := by
  refine Ensures.amount hR.flow fun base => Ensures.amount hR.flow fun cost =>
    Ensures.bind hR.flow hR.targets fun ids => Ensures.bind hR.flow (hR.strikeAll _ _) fun struck =>
      Ensures.combat hR.flow fun combat => ?_
  split
  · exact hR.hurt _ _ _ _ _
  · exact Ensures.pure hR.flow ()

theorem bounce (element : Element) (falloffPercent : Int) (bounces : Nat) (current : CombatantId)
    (base : Int) :
    Ensures R (bounce rules nested ctx element falloffPercent bounces current base) := by
  induction bounces generalizing current base with
  | zero => exact Ensures.pure hR.flow ()
  | succ bounces ih =>
      apply Ensures.bind hR.flow (Ensures.lift hR.flow _)
      intro base
      split
      · exact Ensures.pure hR.flow ()
      · refine Ensures.combat hR.flow fun combat => Ensures.bind hR.flow hR.draw fun next => ?_
        cases next with
        | none => exact Ensures.pure hR.flow ()
        | some next =>
            exact Ensures.bind hR.flow (Ensures.discard (hR.hit _ _ _)) fun _ => ih next base

theorem chain (amount : Value) (target : Aim) (element : Element) (bounces : Nat)
    (falloffPercent : Int) :
    Ensures R (chain rules nested amount target element bounces falloffPercent ctx) := by
  refine Ensures.amount hR.flow fun base => Ensures.bind hR.flow hR.targets fun ids => ?_
  cases ids with
  | nil => exact Ensures.pure hR.flow ()
  | cons first ids =>
      exact Ensures.bind hR.flow (Ensures.discard (hR.hit _ _ _)) fun _ => hR.bounce _ _ _ _ _

/-! ### Guards -/

theorem block (amount : Value) (target : Aim) :
    Ensures R (block rules nested amount target ctx) := by
  refine Ensures.amount hR.flow fun base => ⟨fun {s u t} h => ?_⟩
  obtain ⟨gained, _, hgained, h⟩ := run_bind_iff.mp h
  obtain ⟨hnonneg, rfl⟩ := blockGained_of_run hgained
  split at h
  case isTrue hne =>
    have hpos : 0 < gained := by
      have hne : gained ≠ 0 := by simpa using hne
      omega
    refine (Ensures.bind hR.flow hR.targets fun ids => Ensures.forM hR.flow fun id _ => ?_).rel h
    refine ⟨fun {s u t} h => ?_⟩
    obtain ⟨found, _, hfound, h⟩ := run_bind_iff.mp h
    obtain ⟨rfl, rfl⟩ := run_combatant?_iff.mp hfound
    split at h
    case h_1 before hc =>
      simp only [run_bind_iff, run_lift_iff, run_setCombatant_iff, run_report_iff] at h
      obtain ⟨block, _, ⟨hadd, rfl⟩, _, _, rfl, _, _, rfl, h⟩ := h
      have hset : Telling rules may s
          ((s.setCombatant id { before with block }).report (.block id gained)) :=
        Telling.of_report (.altered hc (.block hpos hadd))
          (Nat.le_of_eq (congrArg Array.size (s.events_setCombatant _ _).symm))
      exact hR.flow.trans (hR.telling hset) (hR.react (by decide) h)
    case h_2 =>
      obtain ⟨-, rfl⟩ := run_pure_iff.mp h
      exact hR.flow.refl s
  case isFalse =>
    obtain ⟨-, rfl⟩ := run_pure_iff.mp h
    exact hR.flow.refl s

/-! ### Playing again -/

theorem replayCards (target : CardAim) (repetitions : Value) :
    Ensures R (replayCards rules nested target repetitions ctx) := by
  refine Ensures.count hR.flow fun repetitions => hR.forCards fun card => ?_
  split
  · exact Ensures.pure hR.flow ()
  · exact Ensures.times hR.flow
      (Ensures.bind hR.flow (hR.of_course (report_course (by exact trivial))) fun _ => hR.inner) _

theorem playTopCards (number : Value) : Ensures R (playTopCards rules nested number ctx) :=
  Ensures.count hR.flow fun count =>
    Ensures.discard (Ensures.upTo hR.flow (hR.playTop ctx) count)

/-! ### Control -/

theorem conditional (condition : Condition) (yes no : List Effect) :
    Ensures R (conditional nested condition yes no ctx) :=
  Ensures.look hR.flow ⟨fun h => (run_get_iff.mp h).2⟩ fun _ =>
    Ensures.bind hR.flow (Ensures.lift hR.flow _) fun _ => hR.inner

theorem repeated (repetitions : Value) (effects : List Effect) :
    Ensures R (repeated nested repetitions effects ctx) :=
  Ensures.count hR.flow fun _ => Ensures.bind hR.flow (Ensures.lift hR.flow _) fun _ =>
    Ensures.times hR.flow (hR.inside _ _) _

theorem randomChoice (choices : List Branch) :
    Ensures R (randomChoice nested choices ctx) := by
  apply Ensures.bind hR.flow hR.draw
  intro chosen
  split
  · exact Ensures.pure hR.flow ()
  · exact hR.inner

theorem forEach (target : Subject) (effects : List Effect) :
    Ensures R (forEach rules nested target effects ctx) := by
  cases target with
  | combatant target =>
      exact Ensures.bind hR.flow hR.targets fun _ => Ensures.forM hR.flow fun _ _ => hR.inner
  | card target => exact hR.forCards fun _ => hR.inner

/-! ### All effects -/

/-- **An effect that may be carried out carries what the parts of effects carry.** -/
theorem dispatch {effect : Effect} (hmay : may effect) :
    Ensures R (dispatch rules nested ctx effect) := by
  cases effect with
  | damage amount target element piercing onHit => exact hR.damage _ _ _ _ _
  | block amount target => exact hR.block _ _
  | barrier amount target => exact hR.of_course (barrier_course _ _)
  | heal amount target overheal => exact hR.of_course (heal_course hmay)
  | lifesteal amount target element percent => exact hR.lifesteal _ _ _ _
  | destroyBlock target includeBarrier => exact hR.of_course (destroyBlock_course _ _)
  | maxHealth amount target => exact hR.of_course (changeMaxHealth_course _ _)
  | setHealth amount target => exact hR.setHealth _ _ _
  | execute threshold target => exact hR.execute _ _ _
  | splash amount target element splashPercent => exact hR.splash _ _ _ _
  | recoil amount target element cost => exact hR.recoil _ _ _ _
  | chain amount target element bounces falloffPercent => exact hR.chain _ _ _ _ _
  | weakenIntent amount target => exact hR.of_course (weakenIntent_course _ _)
  | counter amount target => exact hR.of_course (applyPower_course _ _ _ _)
  | mark amount target => exact hR.of_course (applyPower_course _ _ _ _)
  | reflect amount target => exact hR.of_course (applyPower_course _ _ _ _)
  | amplify amount target => exact hR.of_course (applyPower_course _ _ _ _)
  | applyPower power amount target duration => exact hR.of_course (applyPower_course _ _ _ _)
  | removePower power amount target => exact hR.of_course (removePower_course _ _ _)
  | transferPower power amount giver receiver => exact hR.of_course (transferPower_course _ _ _ _)
  | stealPower power amount target => exact hR.of_course (stealPower_course _ _ _)
  | silencePower power turns target => exact hR.of_course (silencePower_course _ _ _)
  | energy amount operation => exact hR.of_course (energy_course hmay)
  | gold amount operation => exact hR.of_course (gold_course _ _)
  | energyNextTurn amount => exact hR.of_course (energyNextTurn_course hmay)
  | draw amount =>
      exact Ensures.count hR.flow fun count => hR.drawCards count
  | discard amount target playerChoice => exact hR.of_course (discardCards_course _ _ _)
  | exhaust amount target => exact hR.of_course (exhaustCards_course _ _)
  | banish amount target playerChoice => exact hR.of_course (banishCards_course hmay)
  | addCard cardId destination count upgraded position =>
      exact hR.of_course (addCards_course _ _ _ _ _)
  | addStatusCard cardId destination count => exact hR.of_course (addCards_course _ _ _ _ _)
  | shuffle includeDiscard => exact hR.shuffle _
  | retain target => exact hR.of_course (retain_course _)
  | copyCard target destination count => exact hR.of_course (copyCards_course hmay)
  | putOnDeck target position => exact hR.of_course (putOnDeck_course _ _)
  | modifyCost amount target => exact hR.of_course (modifyCost_course _ _)
  | discover theme choices destination upgraded => exact hR.of_course (discover_course _ _ _ _)
  | scry amount => exact hR.of_course (scry_course _)
  | tutor filter destination playerChoice => exact hR.of_course (tutor_course hmay)
  | upgrade target => exact hR.of_course (upgrade_course _)
  | transform target theme => exact hR.of_course (transform_course _ _)
  | mill amount => exact hR.of_course (mill_course _)
  | createRandomCard theme destination count free upgraded =>
      exact hR.of_course (createRandomCards_course _ _ _ _ _)
  | setCardFlag target flag value => exact hR.of_course (setCardFlag_course _ _ _)
  | replayCard target times => exact hR.replayCards _ _
  | playTopCard count => exact hR.playTopCards _
  | conditional condition yes no => exact hR.conditional _ _ _
  | repeated times effects => exact hR.repeated _ _
  | randomChoice choices => exact hR.randomChoice _
  | sequence effects => exact hR.inner
  | forEach target effects => exact hR.forEach _ _

end Carries

/-- **What effects carry whatever is nested in them, they carry at any depth.** -/
theorem within_ensures {beyond : List Effect → Context → Resolution Unit}
    (hbeyond : ∀ effects ctx, Ensures R (beyond effects ctx))
    (hcarries : ∀ nested : List Effect → Context → Resolution Unit,
      (∀ effects ctx, Ensures R (nested effects ctx)) → Carries rules Effect.Any nested R)
    (levels : Nat) (effects : List Effect) (ctx : Context) :
    Ensures R (within rules beyond levels effects ctx) := by
  induction levels generalizing effects ctx with
  | zero => exact hbeyond effects ctx
  | succ levels ih =>
      have hR : Carries rules Effect.Any (within rules beyond levels) R := hcarries _ ih
      exact Ensures.forM hR.flow fun effect _ => hR.dispatch trivial

end CardCombat.Resolution
