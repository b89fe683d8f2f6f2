import CardCombat.Proofs.Combat.Vitals
import CardCombat.Proofs.Resolution.Step

/-!
# Steps that tell of what they change

Whoever watches a combat learns from its events what becomes of it. A change is candid if events
tell of it, or if it is none: random numbers may be drawn without a word, numbers of cards given out
and deeds written down, but nothing else is changed in silence.

Two things can be done to a combatant in silence. A guard of which there is less than none is taken
away; and health beyond a greatest health of one is lost when the greatest health is lowered, which
it cannot be. Whoever is snug gives no occasion for either.

Most plain steps are candid. What is not are the parts of a whole that is told of in the end, as
when cards are drawn.

## Main definitions

* `Combatant.Snug`, `Combat.Snug` -- nothing can be taken in silence.
* `Unmoved` -- nothing has changed that is told of.
* `Candid` -- events tell of what has changed.
* `Telling` -- any number of candid plain steps.

## Main results

* `Candid.altered` -- a combatant is changed with a word, or not at all.
-/

namespace CardCombat

/-! ## Combatants -/

/-- There is nothing about the combatant that could be taken from it in silence. -/
structure Combatant.Snug (combatant : Combatant) : Prop where
  fits : combatant.health ≤ Signed.greatest
  health : combatant.maxHealth = 1 → 0 ≤ combatant.health ∧ combatant.health ≤ 1
  block : 0 ≤ combatant.block
  guards : ∀ {sum}, Signed.add combatant.block combatant.barrier = .ok sum → sum ≤ 0 →
    combatant.barrier = 0

/-- Whoever has numbers in their range can be taken nothing in silence, unless there is more health
than a greatest health of one. -/
theorem Combatant.Vital.snug {bounded : Prop} {combatant : Combatant} (h : combatant.Vital bounded)
    (hfits : combatant.health ≤ Signed.greatest)
    (hone : combatant.maxHealth = 1 → combatant.health ≤ 1) : combatant.Snug where
  fits := hfits
  health hmax := ⟨h.health, hone hmax⟩
  block := h.block
  guards hsum hnone := by
    obtain ⟨-, rfl⟩ := Signed.add_eq_ok_iff.mp hsum
    have hblock := h.block
    have hbarrier := h.barrier
    omega

/-- A change that leaves the power of a name as it is leaves all powers as they are. -/
theorem PowerSet.modify_eq_self {powers : PowerSet} {id : PowerId} {held : Power}
    {change : Power → Power} (h : powers.get? id = some held) (hc : change held = held) :
    modify id change powers = powers := by
  induction powers with
  | nil => exact absurd h nofun
  | cons power powers ih =>
      unfold get? at h
      unfold modify
      rw [List.find?_cons] at h
      split at h
      case h_1 hid =>
        obtain rfl := Option.some.inj h
        rw [if_pos hid, hc]
      case h_2 hid => rw [if_neg (by rw [hid]; exact Bool.false_ne_true), ih h]

namespace Combatant

variable {before after : Combatant} {catalog : Catalog PowerDefinition} {power : PowerId}

/-- Healing by which nothing is gained changes nothing. -/
theorem eq_of_heal {amount healed : Int} {overheal : Bool} (hs : before.Snug)
    (h : before.heal amount overheal = .ok (healed, after)) (hn : ¬0 < healed) :
    after = before := by
  unfold heal at h
  split at h
  case isTrue => exact (Prod.mk.inj (Except.ok.inj h)).2.symm
  case isFalse hcond =>
    rw [Bool.or_eq_true, not_or, decide_eq_true_iff] at hcond
    obtain ⟨gained, hgained, h⟩ := bind_eq_ok.mp h
    obtain ⟨rfl, rfl⟩ := Prod.mk.inj (Except.ok.inj h)
    obtain ⟨-, rfl⟩ := Signed.sub_eq_ok_iff.mp hgained
    have hfits := hs.fits
    have hraised : before.health ≤ Signed.saturate (before.health + amount) := by
      unfold Signed.saturate
      omega
    have hsame : (if overheal = true then Signed.saturate (before.health + amount)
        else min (Signed.saturate (before.health + amount)) (max before.maxHealth before.health)) =
          before.health := by
      cases overheal with
      | true =>
          rw [if_pos rfl] at hn ⊢
          omega
      | false =>
          rw [if_neg Bool.false_ne_true] at hn ⊢
          omega
    rw [hsame]

/-- A change of the greatest health that does not change it changes nothing. -/
theorem eq_of_changeMaxHealth {delta : Int} (hs : before.Snug) (hd : delta ≠ 0)
    (h : before.changeMaxHealth delta = .ok after) (hn : after.maxHealth = before.maxHealth) :
    after = before := by
  unfold changeMaxHealth at h
  obtain ⟨sum, hsum, h⟩ := bind_eq_ok.mp h
  obtain ⟨-, rfl⟩ := Signed.add_eq_ok_iff.mp hsum
  dsimp only at h
  split at h
  case isTrue hgain =>
    obtain ⟨hpos, -⟩ := Bool.and_eq_true_iff.mp hgain
    obtain ⟨raised, -, h⟩ := bind_eq_ok.mp h
    obtain ⟨health, -, h⟩ := bind_eq_ok.mp h
    obtain rfl := Except.ok.inj h
    have hpos : 0 < delta := of_decide_eq_true hpos
    dsimp only at hn
    omega
  case isFalse =>
    obtain ⟨_, hkept, h⟩ := bind_eq_ok.mp h
    obtain rfl := Except.ok.inj hkept
    obtain ⟨health, hclamp, h⟩ := bind_eq_ok.mp h
    obtain rfl := Except.ok.inj h
    obtain ⟨rfl, -⟩ := clamp_spec hclamp
    dsimp only at hn ⊢
    -- the greatest health is held up at one, and health was not above it
    obtain ⟨hpos, hle⟩ := hs.health (by omega)
    have hhealth : max 0 (min before.maxHealth before.health) = before.health := by omega
    rw [hn, hhealth]

/-- Block and barrier that come to nothing together are nothing. -/
theorem eq_of_destroyBlock {includeBarrier : Bool} {removed : Int} (hs : before.Snug)
    (h : (if includeBarrier then Signed.add before.block before.barrier else pure before.block) =
      .ok removed) (hn : ¬0 < removed) :
    { before with block := 0, barrier := if includeBarrier then 0 else before.barrier } =
      before := by
  have hblock := hs.block
  have hself {barrier : Int} (hnone : 0 = before.block) (hbarrier : barrier = before.barrier) :
      { before with block := 0, barrier } = before :=
    congrArg₂ (fun block barrier => { before with block, barrier }) hnone hbarrier
  cases includeBarrier with
  | true =>
      have hbarrier : before.barrier = 0 := hs.guards h (Int.not_lt.mp hn)
      obtain ⟨-, rfl⟩ := Signed.add_eq_ok_iff.mp h
      exact hself (by omega) hbarrier.symm
  | false =>
      obtain rfl := Except.ok.inj h
      exact hself (by omega) rfl

/-- A power that is given and does not stay was not held before, or changes nothing. -/
theorem eq_of_applyPower {amount : Int} {duration : Option Int}
    (h : before.applyPower catalog power amount duration = .ok (none, after))
    (hn : ¬before.powers.contains power = true) : after = before := by
  unfold applyPower at h
  split at h
  · exact (Prod.mk.inj (Except.ok.inj h)).2.symm
  · obtain ⟨⟨sum, length⟩, -, h⟩ := bind_eq_ok.mp h
    dsimp only at h
    split at h
    · obtain ⟨-, rfl⟩ := Prod.mk.inj (Except.ok.inj h)
      have hsame : before.powers.remove power = before.powers := by
        refine List.eraseP_of_forall_not fun held hmem hid => hn ?_
        exact List.find?_isSome.mpr ⟨held, hmem, hid⟩
      rw [hsame]
    · exact absurd (Prod.mk.inj (Except.ok.inj h)).1 nofun

/-- A power of which no stacks are taken and which stays is as it was. -/
theorem eq_of_removePower {amount : Option Int} {left : Int}
    (h : before.removePower catalog power (amount.map fun _ => 0) = .ok (some left, after)) :
    after = before := by
  unfold removePower at h
  cases amount with
  | none => exact absurd (Prod.mk.inj (Except.ok.inj h)).1 nofun
  | some amount =>
      dsimp only [Option.map_some] at h
      split at h
      · exact absurd (Prod.mk.inj (Except.ok.inj h)).1 nofun
      · rename_i held hheld
        obtain ⟨rest, hrest, h⟩ := bind_eq_ok.mp h
        obtain ⟨-, rfl⟩ := Signed.sub_eq_ok_iff.mp hrest
        split at h
        · exact absurd (Prod.mk.inj (Except.ok.inj h)).1 nofun
        · obtain ⟨-, rfl⟩ := Prod.mk.inj (Except.ok.inj h)
          rw [PowerSet.modify_eq_self hheld (by rw [Int.sub_zero])]

/-- If no power is silenced nothing changes. -/
theorem eq_of_silence {meant : Option PowerId} {turns : Nat}
    (hn : (before.powers.silence meant turns).1 = []) :
    { before with powers := (before.powers.silence meant turns).2 } = before := by
  have hnone : ∀ power ∈ before.powers, ¬meant.all (power.id == ·) = true :=
    List.filter_eq_nil_iff.mp (List.map_eq_nil_iff.mp hn)
  have hsame : (before.powers.silence meant turns).2 = before.powers :=
    (List.map_congr_left fun power hmem => if_neg (hnone power hmem)).trans (List.map_id _)
  rw [hsame]

end Combatant

/-! ## Combats -/

namespace Combat

variable {combat : Combat} {id : CombatantId} {before : Combatant}

/-- Nobody whom an effect can reach can be taken anything from in silence. -/
def Snug (combat : Combat) : Prop :=
  ∀ {id combatant}, combat.combatant? id = some combatant →
    (combat.Numbered → combatant.isAlive) → combatant.Snug

theorem replaceEnemy_self {enemies : List Combatant}
    (h : enemies.find? (·.id == id) = some before) : replaceEnemy id before enemies = enemies := by
  induction enemies with
  | nil => exact absurd h nofun
  | cons enemy enemies ih =>
      unfold replaceEnemy
      rw [List.find?_cons] at h
      split at h
      case h_1 hid =>
        obtain rfl := Option.some.inj h
        rw [if_pos hid]
      case h_2 hid => rw [if_neg (by rw [hid]; exact Bool.false_ne_true), ih h]

/-- A combatant in its own place. -/
theorem setCombatant_self (hc : combat.combatant? id = some before) :
    combat.setCombatant id before = combat := by
  by_cases hp : id = .player
  · subst hp
    obtain rfl := Option.some.inj hc
    rfl
  · rw [setCombatant_enemy hp, replaceEnemy_self (combatant?_enemy hp ▸ hc)]

end Combat

namespace Scene

variable {scene : Scene} {id other : CombatantId} {before after : Combatant}

/-- Whoever was set in a scene is found as it was set, and everyone else as before. -/
theorem combatant?_setCombatant (hc : scene.combat.combatant? id = some before)
    (ha : after.id = before.id) : (scene.setCombatant id after).combat.combatant? other =
      if other = id then some after else scene.combat.combatant? other := by
  rw [← Combat.combatant?_setCombatant hc ha]
  unfold setCombatant
  split <;> rfl

theorem setCombatant_self (hc : scene.combat.combatant? id = some before) :
    scene.setCombatant id before = scene := by
  unfold setCombatant putCombatant
  rw [Combat.isAlive_of_combatant? hc, Combat.setCombatant_self hc, if_neg (by simp)]

theorem events_setCombatant (scene : Scene) (id : CombatantId) (combatant : Combatant) :
    (scene.setCombatant id combatant).combat.events = scene.combat.events := by
  obtain ⟨player, enemies, hcombat⟩ := scene.combat_setCombatant id combatant
  rw [hcombat]

theorem size_events_lt {s t : Scene} {event : Event}
    (h : s.combat.events.size ≤ t.combat.events.size) :
    s.combat.events.size < (t.report event).combat.events.size := by
  show _ < (t.combat.events.push event).size
  rw [Array.size_push]
  exact Nat.lt_succ_of_le h

end Scene

/-! ## Candid changes -/

/-- Nothing has changed but the generator, the number of the next card and the chronicle. -/
def Unmoved (s t : Scene) : Prop :=
  ∃ rng nextCardUid chronicle, t =
    { s with rng, chronicle, combat := { s.combat with nextCardUid } }

/-- No event is taken back, and if none has come nothing has changed, unless somebody could be taken
something from in silence. -/
structure Candid (s t : Scene) : Prop where
  grows : s.combat.events.size ≤ t.combat.events.size
  unmoved : s.combat.Snug → t.combat.events.size = s.combat.events.size → Unmoved s t

namespace Candid

variable {s t u : Scene}

theorem of_unmoved (h : Unmoved s t) : Candid s t := by
  obtain ⟨rng, nextCardUid, chronicle, rfl⟩ := h
  exact ⟨Nat.le_refl _, fun _ _ => ⟨rng, nextCardUid, chronicle, rfl⟩⟩

theorem refl (s : Scene) : Candid s s := of_unmoved ⟨_, _, _, rfl⟩

theorem drew (s : Scene) (rng : Rng) : Candid s { s with rng } := of_unmoved ⟨_, _, _, rfl⟩

theorem of_lt (h : s.combat.events.size < t.combat.events.size) : Candid s t :=
  ⟨Nat.le_of_lt h, fun _ hsame => absurd hsame (Nat.ne_of_gt h)⟩

theorem of_report {event : Event} (h : s.combat.events.size ≤ u.combat.events.size) :
    Candid s (u.report event) := of_lt (Scene.size_events_lt h)

theorem flow : Resolution.Flow Candid where
  refl := refl
  trans {s u t} h h' := by
    refine ⟨Nat.le_trans h.grows h'.grows, fun hs hsame => ?_⟩
    have hgrows := h.grows
    have hgrows' := h'.grows
    obtain ⟨rng, nextCardUid, chronicle, rfl⟩ := h.unmoved hs (by omega)
    obtain ⟨rng', nextCardUid', chronicle', rfl⟩ := h'.unmoved hs (by omega)
    exact ⟨rng', nextCardUid', chronicle', rfl⟩

/-- **A combatant is changed with a word, or not at all.** -/
theorem altered {id : CombatantId} {before after : Combatant} {events : List Event}
    (hc : s.combat.combatant? id = some before) (halive : s.combat.Numbered → before.isAlive)
    (hkept : before.Snug → events = [] → after = before) :
    Candid s ((s.setCombatant id after).tell events) := by
  have hsize : ((s.setCombatant id after).tell events).combat.events.size =
      s.combat.events.size + events.length := by
    rw [Scene.tell_eq]
    exact (Array.size_append).trans (congrArg₂ _ (congrArg _ (s.events_setCombatant id after)) rfl)
  refine ⟨by omega, fun hs hsame => ?_⟩
  obtain rfl : events = [] := List.length_eq_zero_iff.mp (by omega)
  rw [hkept (hs hc halive) rfl, Scene.setCombatant_self hc]
  exact ⟨_, _, _, rfl⟩

end Candid

/-! ## Courses -/

/-- Any number of plain steps that are candid. -/
abbrev Telling (rules : Rules) (may : Effect → Prop) : Scene → Scene → Prop :=
  Relation.ReflTransGen fun s t => Step rules may s t ∧ Candid s t

namespace Telling

variable {rules : Rules} {may : Effect → Prop} {s t u : Scene}

theorem flow : Resolution.Flow (Telling rules may) :=
  ⟨fun _ => .refl, fun h h' => h.trans h'⟩

theorem of_step (h : Step rules may s t) (hc : Candid s t) : Telling rules may s t :=
  .single ⟨h, hc⟩

/-- Random numbers are drawn without a word. -/
theorem drew (rng : Rng) : Telling rules may s { s with rng } :=
  of_step (.drew rng) (.drew s rng)

/-- What a step reports in the end makes it candid. -/
theorem of_report {event : Event} (h : Step rules may s (u.report event))
    (hgrows : s.combat.events.size ≤ u.combat.events.size) :
    Telling rules may s (u.report event) := of_step h (.of_report hgrows)

/-- A card is changed with a word. -/
theorem changed {uid : CardUid} {card : Card} {event : Event}
    (h : Step rules may s ((s.alter uid card).report event)) :
    Telling rules may s ((s.alter uid card).report event) := by
  refine of_report h (Nat.le_of_eq (Eq.symm ?_))
  exact Combat.same_modifyCard (fun combat => combat.events.size) fun _ _ => rfl

/-- What adds up and holds of every candid step holds of any number of them. -/
theorem lift {R : Scene → Scene → Prop} (hR : Resolution.Flow R)
    (hstep : ∀ {s t}, Step rules may s t → Candid s t → R s t) (h : Telling rules may s t) :
    R s t := by
  induction h with
  | refl => exact hR.refl s
  | tail _ h ih => exact hR.trans ih (hstep h.1 h.2)

theorem candid (h : Telling rules may s t) : Candid s t := h.lift Candid.flow fun _ hc => hc

theorem course (h : Telling rules may s t) : Course rules may s t :=
  h.lift ⟨fun _ => .refl, fun h h' => h.trans h'⟩ fun hstep _ => .single hstep

end Telling

theorem Resolution.Ensures.course {α : Type} {rules : Rules} {may : Effect → Prop}
    {m : Resolution α} (h : Ensures (Telling rules may) m) : Ensures (Course rules may) m :=
  h.mono fun _ _ => Telling.course

end CardCombat
