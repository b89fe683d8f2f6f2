import CardCombat.Proofs.Damage.Monotone
import CardCombat.Proofs.Powers.Held
import CardCombat.Proofs.Resolution.Candid
import CardCombat.Proofs.Vitality.Everyone

/-!
# Hits that nobody answers

Attack, being attacked, being damaged, death and a kill are the occasions that come of a hit. Where
no relic, no power that somebody holds and no status of an element acts on them, such an occasion
passes and nothing happens. Then a hit, and everything that follows of it, is nothing but the steps
it is made of: whoever is not concerned and lives stays exactly as they are, also where the dead are
taken away, and no combo is reported but the one that the hit itself has set off. And it stays that
way, since no step gives anyone a power that would act, beyond the statuses of elements.

## Main definitions

* `Occasion.ofHit`, `Element.statuses` -- the occasions that come of a hit, and the statuses that
  hits leave behind.
* `Scene.Unanswered` -- nothing acts on these occasions.
* `PassesBy` -- how a scene changes that passes some combatants by.
* `Resolution.Passing` -- a resolution that changes an unanswered scene so, or overflows.

## Main results

* `Resolution.run_react_of_unanswered` -- the occasions pass.
* `Resolution.Passing.die`, `.afterDamage`, `.hurt`, `.leap`, `.leaveStatus` -- what hits are made
  of.
-/

namespace CardCombat

/-- The occasions that come of a hit. -/
def Occasion.ofHit : List Occasion := [.attack, .attacked, .damaged, .death, .kill]

/-- The statuses of elements. -/
def Element.statuses : List PowerId := ["burning", "frozen", "charged", "oiled", "wet"]

/-- Whether an event tells of a combo. -/
def Event.isCombo : Event → Bool
  | .combo .. => true
  | _ => false

/-- Where no event tells of a combo, no combo is told of. -/
theorem Event.filter_isCombo_eq_nil {events : List Event}
    (h : ∀ event ∈ events, event.isCombo = false) : events.filter (·.isCombo) = [] := by
  refine List.filter_eq_nil_iff.mpr fun event hmem => ?_
  rw [h event hmem]
  exact Bool.false_ne_true

open Resolution

variable {rules : Rules} {catalog : Catalog PowerDefinition} {s t u : Scene} {id : CombatantId}
  {before after : Combatant} {occasion : Occasion} {spared : CombatantId → Prop}

/-- A power of that name, if it is known, does not act on what comes of a hit. -/
def Catalog.Mute (catalog : Catalog PowerDefinition) (id : PowerId) : Prop :=
  ∀ definition, catalog.find? id = some definition →
    ∀ occasion ∈ Occasion.ofHit, definition.triggersOn occasion = []

theorem Catalog.mute_iff {power : PowerId} : catalog.Mute power ↔
    ∀ definition ∈ catalog.find? power, ∀ occasion ∈ Occasion.ofHit,
      (definition.triggersOn occasion).isEmpty = true :=
  forall_congr' fun _ => forall_congr' fun _ => forall_congr' fun _ => forall_congr' fun _ =>
    List.isEmpty_iff.symm

instance (power : PowerId) : Decidable (catalog.Mute power) := decidable_of_iff' _ Catalog.mute_iff

namespace Combatant

/-- None of the powers that are held acts on what comes of a hit. -/
def Mute (catalog : Catalog PowerDefinition) (combatant : Combatant) : Prop :=
  ∀ power ∈ combatant.powers, catalog.Mute power.id

instance (combatant : Combatant) : Decidable (combatant.Mute catalog) :=
  inferInstanceAs (Decidable (∀ power ∈ combatant.powers, catalog.Mute power.id))

/-- Whoever holds no other powers than someone mute is mute. -/
theorem Mute.of_subset (h : before.Mute catalog) (hpowers : after.powers ⊆ before.powers) :
    after.Mute catalog :=
  fun power hmem => h power (hpowers hmem)

theorem triggersOn_of_mute (h : before.Mute catalog) (ho : occasion ∈ Occasion.ofHit) :
    before.triggersOn catalog occasion = [] := by
  refine List.flatMap_eq_nil_iff.mpr fun power hmem => ?_
  split
  · rfl
  case h_2 definition hfind =>
    rw [h power (List.mem_of_mem_filter hmem) definition hfind occasion ho]
    rfl

/-- Whoever is given a power holds no other one beyond those that were held. -/
theorem mem_applyPower {id : PowerId} {amount : Int} {duration applied : Option Int} {power : Power}
    (h : before.applyPower catalog id amount duration = .ok (applied, after))
    (hmem : power ∈ after.powers) : power.id = id ∨ power ∈ before.powers := by
  unfold Combatant.applyPower at h
  split at h
  · obtain ⟨-, rfl⟩ := Prod.mk.inj (Except.ok.inj h)
    exact .inr hmem
  · obtain ⟨⟨joined, duration⟩, -, h⟩ := bind_eq_ok.mp h
    dsimp only at h
    split at h
    · obtain ⟨-, rfl⟩ := Prod.mk.inj (Except.ok.inj h)
      exact .inr (List.mem_of_mem_eraseP hmem)
    · obtain ⟨-, rfl⟩ := Prod.mk.inj (Except.ok.inj h)
      exact (PowerSet.mem_insert hmem).imp_left (congrArg Power.id)

/-- Whoever is given a power that does not act stays mute. -/
theorem Mute.applyPower {power : PowerId} {amount : Int} {duration applied : Option Int}
    (h : before.Mute catalog) (hpower : catalog.Mute power)
    (happly : before.applyPower catalog power amount duration = .ok (applied, after)) :
    after.Mute catalog := by
  intro other hmem
  rcases mem_applyPower happly hmem with hid | hheld
  · exact hid ▸ hpower
  · exact h other hheld

end Combatant

/-- Whom a combat holds decides who is found. -/
theorem Combat.combatant?_of_field {combat combat' : Combat} (h : combat'.field = combat.field) :
    combat'.combatant? id = combat.combatant? id := by
  obtain ⟨-, h⟩ := Prod.mk.inj h
  obtain ⟨hplayer, henemies⟩ := Prod.mk.inj h
  unfold combatant?
  rw [hplayer, henemies]

/-- Whoever lives is found as before when the dead were taken away. -/
theorem Combat.combatant?_reap_of_isAlive {combat : Combat}
    (hc : combat.combatant? id = some before) (halive : before.isAlive = true) :
    combat.reap.2.combatant? id = some before := by
  unfold combatant? at hc ⊢
  split
  case isTrue hp =>
    rw [if_pos hp] at hc
    exact hc
  case isFalse hp =>
    rw [if_neg hp] at hc
    show (combat.enemies.filter (·.isAlive)).find? (·.id == id) = some before
    obtain ⟨hid, front, back, hsplit, hfront⟩ := List.find?_eq_some_iff_append.mp hc
    rw [List.find?_eq_some_iff_append]
    refine ⟨hid, front.filter (·.isAlive), back.filter (·.isAlive), ?_, fun enemy hmem => ?_⟩
    · rw [hsplit, List.filter_append, List.filter_cons_of_pos halive]
    · exact hfront enemy (List.mem_of_mem_filter hmem)

namespace Scene

theorem relics_setCombatant (scene : Scene) (id : CombatantId) (combatant : Combatant) :
    (scene.setCombatant id combatant).relics = scene.relics := by
  unfold setCombatant
  split <;> rfl

/-- Nothing acts on what comes of a hit: no power of anyone, no relic, and no status that a hit
could leave behind. -/
structure Unanswered (rules : Rules) (scene : Scene) : Prop where
  held : scene.combat.Everyone (Combatant.Mute rules.content.powers)
  relics : ∀ occasion ∈ Occasion.ofHit, relicTriggers rules scene.relics occasion = []
  statuses : ∀ status ∈ Element.statuses, rules.content.powers.Mute status

theorem Unanswered.tell (h : s.Unanswered rules) (events : List Event) :
    (s.tell events).Unanswered rules := by
  rw [tell_eq]
  exact ⟨h.held, h.relics, h.statuses⟩

end Scene

namespace Resolution

variable {nested : List Effect → Context → Resolution Unit}

/-- **The occasions pass.** -/
theorem run_react_of_unanswered (hs : s.Unanswered rules) (ho : occasion ∈ Occasion.ofHit)
    (owner : CombatantId) (cause : Option CombatantId) (ctx : Context) :
    (react rules nested owner occasion cause ctx).run s = .ok ((), s) := by
  unfold react
  refine run_bind_iff.mpr ⟨s, s, run_get_iff.mpr ⟨rfl, rfl⟩, ?_⟩
  cases hc : s.combat.combatant? owner with
  | none => rfl
  | some combatant =>
      have hrelics :
          (if owner.isPlayer then relicTriggers rules s.relics occasion else []) = [] := by
        rw [hs.relics occasion ho, ite_self]
      dsimp only
      rw [Combatant.triggersOn_of_mute (hs.held.combatant? hc) ho, hrelics]
      rfl

end Resolution

/-! ## What passes some by -/

/-- From one scene to the next: the events that came tell of no combo, and of those who are spared
everyone who lived is found as before. What was unanswered still is. -/
structure PassesBy (rules : Rules) (spared : CombatantId → Prop) (s t : Scene) : Prop where
  unanswered : s.Unanswered rules → t.Unanswered rules
  told : ∃ events : List Event, t.combat.events = s.combat.events ++ events.toArray ∧
    ∀ event ∈ events, event.isCombo = false
  spared : ∀ id combatant, spared id → s.combat.combatant? id = some combatant →
    combatant.isAlive = true → t.combat.combatant? id = some combatant

namespace PassesBy

theorem flow : Flow (PassesBy rules spared) where
  refl s := ⟨id, ⟨[], Array.append_empty.symm, nofun⟩, fun _ _ _ hc _ => hc⟩
  trans {s t u} h h' := by
    obtain ⟨events, htold, hplain⟩ := h.told
    obtain ⟨events', htold', hplain'⟩ := h'.told
    refine ⟨fun hs => h'.unanswered (h.unanswered hs), ⟨events ++ events', ?_, ?_⟩, ?_⟩
    · simp [htold', htold, Array.append_assoc]
    · exact fun event hmem => (List.mem_append.mp hmem).elim (hplain event) (hplain' event)
    · exact fun id combatant hid hc halive =>
        h'.spared id combatant hid (h.spared id combatant hid hc halive) halive

/-- Fewer are spared. -/
theorem mono {spared' : CombatantId → Prop} (h : PassesBy rules spared s t)
    (himp : ∀ id, spared' id → spared id) : PassesBy rules spared' s t :=
  ⟨h.unanswered, h.told, fun id combatant hid => h.spared id combatant (himp id hid)⟩

/-- Nobody is concerned. -/
theorem of_nobody {events : List Event} (hfield : t.combat.field = s.combat.field)
    (hrelics : t.relics = s.relics)
    (hevents : t.combat.events = s.combat.events ++ events.toArray)
    (hplain : ∀ event ∈ events, event.isCombo = false) : PassesBy rules spared s t where
  unanswered hs := ⟨hs.held.of_field hfield, hrelics ▸ hs.relics, hs.statuses⟩
  told := ⟨events, hevents, hplain⟩
  spared _ _ _ hc _ := Combat.combatant?_of_field hfield ▸ hc

theorem of_tell {events : List Event} (hplain : ∀ event ∈ events, event.isCombo = false) :
    PassesBy rules spared s (s.tell events) := by
  refine of_nobody (Scene.field_tell events) ?_ ?_ hplain
  · rw [Scene.tell_eq]
  · rw [Scene.tell_eq]

theorem of_report {event : Event} (hplain : event.isCombo = false) :
    PassesBy rules spared s (s.report event) :=
  .of_tell fun _ hmem => (List.mem_singleton.mp hmem).symm ▸ hplain

/-- One who is not spared is changed, and stays mute. -/
theorem of_setCombatant (hid : ¬spared id) (hc : s.combat.combatant? id = some before)
    (hafter : after.id = before.id)
    (hmute : before.Mute rules.content.powers → after.Mute rules.content.powers) :
    PassesBy rules spared s (s.setCombatant id after) where
  unanswered hs := by
    have hheld : (s.combat.setCombatant id after).Everyone
        (Combatant.Mute rules.content.powers) :=
      hs.held.setCombatant (hmute (hs.held.combatant? hc))
    refine ⟨hheld.of_field (Scene.field_setCombatant id after), ?_, hs.statuses⟩
    rw [Scene.relics_setCombatant]
    exact hs.relics
  told := ⟨[], by rw [Scene.events_setCombatant, Array.append_empty], nofun⟩
  spared other combatant hother hfound _ := by
    have hne : other ≠ id := fun heq => hid (heq ▸ hother)
    rw [Scene.combatant?_setCombatant hc hafter, if_neg hne]
    exact hfound

/-- One who is not spared is damaged. -/
theorem of_damages {source : CombatantId} {outcome : DamageReport} (hid : ¬spared id)
    (h : Damages source id outcome s t) : PassesBy rules spared s t := by
  cases h with
  | @mk before after amount element piercing stats hc htake hstats =>
    obtain ⟨hafter, hpowers, -⟩ := Combatant.takeDamage_spec htake
    have hmute : before.Mute rules.content.powers → after.Mute rules.content.powers :=
      fun hm => hm.of_subset fun _ hmem => hpowers ▸ hmem
    have hplain : Event.isCombo (.damage id amount outcome.blocked element) = false := rfl
    refine flow.trans (.of_setCombatant hid hc hafter hmute) (flow.trans (.of_report hplain) ?_)
    exact .of_nobody rfl rfl Array.append_empty.symm nofun

/-- One who is not spared is executed, or nothing happens. -/
theorem of_executeBelow {percent : Int} {executed : Bool} (hid : ¬spared id)
    (h : (executeBelow id percent).run s = .ok (executed, t)) : PassesBy rules spared s t := by
  rcases executed_of_run h with ⟨-, rfl⟩ | ⟨-, before, after, hc, -, hset, rfl⟩
  · exact flow.refl s
  · obtain ⟨hafter, hpowers, -⟩ := Combatant.setHealth_spec hset
    have hmute : before.Mute rules.content.powers → after.Mute rules.content.powers :=
      fun hm => hm.of_subset fun _ hmem => hpowers ▸ hmem
    have hplain : Event.isCombo (.execute id) = false := rfl
    exact flow.trans (.of_setCombatant hid hc hafter hmute) (.of_report hplain)

/-- The dead are taken away. -/
theorem of_bury : PassesBy rules spared s s.bury where
  unanswered hs := ⟨hs.held.reap, hs.relics, hs.statuses⟩
  told := ⟨[], Array.append_empty.symm, nofun⟩
  spared _ _ _ hc halive := Combat.combatant?_reap_of_isAlive hc halive

end PassesBy

namespace Resolution

variable {nested : List Effect → Context → Resolution Unit} {ctx : Context} {target : CombatantId}

/-- From an unanswered scene the resolution fails, if at all, by an overflow, and passes some by. -/
structure Passing (rules : Rules) (spared : CombatantId → Prop) {α : Type} (m : Resolution α) :
    Prop where
  fails : ∀ {s}, s.Unanswered rules → OnlyOverflows (m.run s)
  lasts : ∀ {s a t}, s.Unanswered rules → m.run s = .ok (a, t) → PassesBy rules spared s t

namespace Passing

variable {α β : Type}

theorem pure (a : α) : Passing rules spared (pure a : Resolution α) where
  fails _ := .pure _
  lasts _ h := (run_pure_iff.mp h).2 ▸ PassesBy.flow.refl _

theorem lift {x : Except Fault α} (hx : OnlyOverflows x) :
    Passing rules spared (liftM x : Resolution α) where
  fails _ := .bind hx fun _ => .pure _
  lasts _ h := (run_lift_iff.mp h).2 ▸ PassesBy.flow.refl _

theorem bind {x : Resolution α} {f : α → Resolution β} (hx : Passing rules spared x)
    (hf : ∀ a, Passing rules spared (f a)) : Passing rules spared (x >>= f) where
  fails hs := onlyOverflows_bind (hx.fails hs) fun a _ hrun =>
    (hf a).fails ((hx.lasts hs hrun).unanswered hs)
  lasts hs h := by
    obtain ⟨a, u, hrun, hrest⟩ := run_bind_iff.mp h
    have hpasses := hx.lasts hs hrun
    exact PassesBy.flow.trans hpasses ((hf a).lasts (hpasses.unanswered hs) hrest)

theorem onlyIf {called : Bool} {m : Resolution Unit} (hm : Passing rules spared m) :
    Passing rules spared (onlyIf called m) := by
  cases called with
  | true => exact hm
  | false => exact pure ()

theorem forM {xs : List α} {f : α → Resolution Unit}
    (hf : ∀ x ∈ xs, Passing rules spared (f x)) : Passing rules spared (xs.forM f) := by
  induction xs with
  | nil => exact pure ()
  | cons x xs ih =>
      exact bind (hf x List.mem_cons_self) fun _ =>
        ih fun other hmem => hf other (List.mem_cons_of_mem _ hmem)

theorem forSome {found : Option α} {f : α → Resolution Unit}
    (hf : ∀ x, found = some x → Passing rules spared (f x)) :
    Passing rules spared (found.forM f) := by
  cases found with
  | none => exact pure ()
  | some x => exact hf x rfl

/-- What is done with the combat as it is now. -/
theorem combat {f : Combat → Resolution β} (hf : ∀ c, Passing rules spared (f c)) :
    Passing rules spared (combat >>= f) where
  fails {s} hs := (hf s.combat).fails hs
  lasts {s} _ _ hs h := (hf s.combat).lasts hs h

/-- Nothing comes of an occasion. -/
theorem react {owner : CombatantId} {cause : Option CombatantId}
    (ho : occasion ∈ Occasion.ofHit) :
    Passing rules spared (react rules nested owner occasion cause ctx) where
  fails hs := by
    rw [run_react_of_unanswered hs ho]
    exact .pure _
  lasts hs h := by
    obtain ⟨-, rfl⟩ := Prod.mk.inj (Except.ok.inj ((run_react_of_unanswered hs ho ..).symm.trans h))
    exact PassesBy.flow.refl _

/-- What an event or a deed adds to a scene passes everyone by. -/
theorem of_secure {m : Resolution α} (hm : Secure Anywhere m)
    (hlasts : ∀ {s a t}, m.run s = .ok (a, t) → PassesBy rules spared s t) :
    Passing rules spared m :=
  ⟨fun _ => hm.fails trivial, fun _ => hlasts⟩

theorem report {event : Event} (hplain : event.isCombo = false) :
    Passing rules spared (report event) := by
  refine of_secure (.report event) fun h => ?_
  obtain rfl := run_report_iff.mp h
  exact .of_report hplain

theorem record (deed : Deed) : Passing rules spared (record deed) := by
  refine of_secure (.record deed) fun h => ?_
  obtain rfl := run_record_iff.mp h
  exact PassesBy.of_nobody rfl rfl Array.append_empty.symm nofun

theorem countKill : Passing rules spared countKill := by
  have hsecure : Secure Anywhere Resolution.countKill :=
    .get fun _ _ => .bind (.lift (.unsigned _ _ _)) fun _ => .modifyAside _ fun _ => rfl
  refine of_secure hsecure fun h => ?_
  unfold Resolution.countKill at h
  simp only [run_bind_iff, run_get_iff, run_lift_iff, run_modify_iff] at h
  obtain ⟨_, _, ⟨rfl, rfl⟩, enemiesKilled, _, ⟨-, rfl⟩, rfl⟩ := h
  exact PassesBy.of_nobody rfl rfl Array.append_empty.symm nofun

theorem bury : Passing rules spared bury := by
  have hsecure : Secure Anywhere Resolution.bury :=
    .combat fun _ _ => .bind (.modifyCombat _) fun _ => .forM fun _ => .record _
  refine of_secure hsecure fun h => ?_
  obtain rfl := run_bury_iff.mp h
  exact PassesBy.of_bury

/-- **A death** leaves the living alone. -/
theorem die (killer : CombatantId) :
    Passing rules spared (die rules nested ctx target killer) := by
  refine bind (report rfl) fun _ => bind (record _) fun _ => bind (onlyIf countKill) fun _ => ?_
  refine bind (react ?_) fun _ => bind bury fun _ => onlyIf (react ?_)
  · decide
  · decide

/-- **What follows of damage** leaves the living alone. -/
theorem afterDamage (outcome : DamageReport) (attack : Bool) :
    Passing rules spared (afterDamage rules nested ctx target outcome attack) := by
  refine bind (onlyIf (bind (react ?_) fun _ => react ?_)) fun _ =>
    bind (onlyIf (react ?_)) fun _ => onlyIf (die _)
  · decide
  · decide
  · decide

/-- Damage concerns the one that it reaches. -/
theorem dealDamage (hid : ¬spared target) (source : CombatantId) (amount : Int)
    (element : Element) (piercing : Bool) :
    Passing rules spared (dealDamage source target amount element piercing) := by
  refine of_secure dealDamage_anywhere fun {s found t} h => ?_
  rcases dealt_of_run h with ⟨-, -, rfl⟩ | ⟨outcome, -, hdamages⟩
  · exact PassesBy.flow.refl s
  · exact PassesBy.of_damages hid hdamages

/-- **Damage that is no attack** concerns the one that it reaches. -/
theorem hurt (hid : ¬spared target) (amount : Int) (element : Element) (piercing : Bool) :
    Passing rules spared (hurt rules nested ctx target amount element piercing) := by
  refine bind (dealDamage hid _ _ _ _) fun found => ?_
  cases found with
  | none => exact pure ()
  | some outcome => exact afterDamage outcome false

/-- **Damage that leaps** passes the one that it leaps from. -/
theorem leap (element : Element) (damage : Int) :
    Passing rules (· = target) (leap rules nested ctx target element damage) := by
  refine combat fun c => forM fun other hmem => hurt ?_ _ _ _
  have hne := (List.mem_filter.mp hmem).2
  simpa using hne

/-- **A status** concerns the one on whom it is left, who stays mute if the status is. -/
theorem leaveStatus (hid : ¬spared target) {status : PowerId} (stack : Int)
    (hmute : rules.content.powers.Mute status) :
    Passing rules spared (leaveStatus rules target status stack) := by
  have hsecure : Secure Anywhere (Resolution.leaveStatus rules target status stack) := by
    refine .combatant? fun _ _ => ?_
    split
    · exact .pure _
    · exact .bind (.lift (.applyPower _ _ _)) fun _ => .bind (.setCombatant _ _) fun _ =>
        .reportIf _
  refine of_secure hsecure fun {s u t} h => ?_
  rcases left_of_run h with rfl | ⟨before, after, applied, hc, -, happly, rfl⟩
  · exact PassesBy.flow.refl _
  · have hafter := (Combatant.applyPower_sameButPowers happly).id
    refine PassesBy.flow.trans
      (.of_setCombatant hid hc hafter fun hm => hm.applyPower hmute happly) (.of_tell ?_)
    intro event hmem
    split at hmem
    · obtain rfl := List.mem_singleton.mp hmem
      rfl
    · exact absurd hmem List.not_mem_nil

end Passing

end Resolution

end CardCombat
