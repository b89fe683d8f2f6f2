import CardCombat.Proofs.Powers.Decay
import CardCombat.Proofs.Vitality.Everyone

/-!
# The powers that combatants hold

Powers are gained, joined, taken, moved, silenced and used up, and they decay. Through all of that
nobody ever holds two powers of one name, or a power that the content does not know, or one of which
nothing is left although it goes when its stack is not positive.

## Main definitions

* `Power.Sustained` -- the power is known, and there is enough of it to stay.
* `PowerSet.Sound` -- powers of different names, all of them sustained.

## Main results

* `Combatant.sound_applyPower`, `.sound_removePower`, `.sound_decay` -- what changes powers keeps
  them sound.
* `Rules.powersSound_of_reaches` -- everyone holds sound powers throughout a combat.
-/

namespace CardCombat

/-! ## Sets of powers -/

/-- The power is known, and if it goes when its stack is not positive there is some of it. -/
def Power.Sustained (catalog : Catalog PowerDefinition) (power : Power) : Prop :=
  ∃ definition, catalog.find? power.id = some definition ∧
    (definition.removeAtZero = true → 1 ≤ power.amount)

/-- A power stands as before if it keeps its name and its stack. -/
theorem Power.Sustained.of_eq {catalog : Catalog PowerDefinition} {power power' : Power}
    (h : power.Sustained catalog) (hid : power'.id = power.id)
    (hamount : power'.amount = power.amount) : power'.Sustained catalog := by
  unfold Sustained
  rw [hid, hamount]
  exact h

namespace PowerSet

variable {catalog : Catalog PowerDefinition} {powers powers' : PowerSet} {power : Power}
  {id : PowerId}

/-- The powers have different names, and each of them is sustained. -/
structure Sound (catalog : Catalog PowerDefinition) (powers : PowerSet) : Prop where
  nodup : (powers.map (·.id)).Nodup
  sustained : ∀ power ∈ powers, power.Sustained catalog

theorem mem_insert {other : Power} (h : other ∈ insert power powers) :
    other = power ∨ other ∈ powers := by
  induction powers with
  | nil => exact .inl (List.mem_singleton.mp h)
  | cons first powers ih =>
      unfold insert at h
      split at h
      · exact (List.mem_cons.mp h).imp_right (List.mem_cons_of_mem _)
      · rcases List.mem_cons.mp h with rfl | h
        · exact .inr List.mem_cons_self
        · exact (ih h).imp_right (List.mem_cons_of_mem _)

theorem nodup_insert (h : (powers.map (·.id)).Nodup) :
    ((insert power powers).map (·.id)).Nodup := by
  induction powers with
  | nil => exact List.nodup_singleton _
  | cons first powers ih =>
      obtain ⟨hfirst, hrest⟩ := List.nodup_cons.mp h
      unfold insert
      split
      case isTrue hid =>
        rw [List.map_cons, ← eq_of_beq hid]
        exact h
      case isFalse hid =>
        refine List.nodup_cons.mpr ⟨fun hmem => ?_, ih hrest⟩
        obtain ⟨other, hother, hname⟩ := List.mem_map.mp hmem
        rcases mem_insert hother with rfl | hother
        · exact hid (beq_iff_eq.mpr hname.symm)
        · exact hfirst (List.mem_map.mpr ⟨other, hother, hname⟩)

theorem map_id_modify {change : Power → Power} (hid : ∀ power, (change power).id = power.id) :
    (modify id change powers).map (·.id) = powers.map (·.id) := by
  induction powers with
  | nil => rfl
  | cons first powers ih =>
      unfold modify
      split
      · rw [List.map_cons, List.map_cons, hid]
      · rw [List.map_cons, List.map_cons, ih]

theorem mem_modify {change : Power → Power} (h : power ∈ modify id change powers) :
    power ∈ powers ∨ ∃ held ∈ powers, held.id = id ∧ power = change held := by
  induction powers with
  | nil => exact absurd h List.not_mem_nil
  | cons first powers ih =>
      unfold modify at h
      split at h
      case isTrue hid =>
        rcases List.mem_cons.mp h with rfl | h
        · exact .inr ⟨first, List.mem_cons_self, eq_of_beq hid, rfl⟩
        · exact .inl (List.mem_cons_of_mem _ h)
      case isFalse hid =>
        rcases List.mem_cons.mp h with rfl | h
        · exact .inl List.mem_cons_self
        · refine (ih h).imp (List.mem_cons_of_mem _) ?_
          rintro ⟨held, hheld, hname⟩
          exact ⟨held, List.mem_cons_of_mem _ hheld, hname⟩

/-- A power that was taken out is held no longer, if it was held once. -/
theorem not_mem_remove (h : (powers.map (·.id)).Nodup) : id ∉ (powers.remove id).map (·.id) := by
  unfold remove
  rw [eraseP_key_eq_filter h]
  simp

namespace Sound

theorem nil : Sound catalog [] := ⟨List.nodup_nil, fun _ h => absurd h List.not_mem_nil⟩

theorem of_sublist (hs : Sound catalog powers) (h : powers'.Sublist powers) :
    Sound catalog powers' :=
  ⟨hs.nodup.sublist (h.map _), fun power hmem => hs.sustained power (h.subset hmem)⟩

theorem remove (hs : Sound catalog powers) (id : PowerId) : Sound catalog (powers.remove id) :=
  hs.of_sublist List.eraseP_sublist

theorem insert (hs : Sound catalog powers) (hp : power.Sustained catalog) :
    Sound catalog (PowerSet.insert power powers) := by
  refine ⟨nodup_insert hs.nodup, fun other hmem => ?_⟩
  rcases mem_insert hmem with rfl | hmem
  · exact hp
  · exact hs.sustained other hmem

/-- Sound powers stay sound if each keeps its name and its stack. -/
theorem map (hs : Sound catalog powers) {change : Power → Power}
    (hid : ∀ power, (change power).id = power.id)
    (hamount : ∀ power, (change power).amount = power.amount) :
    Sound catalog (powers.map change) := by
  have hnames : (powers.map change).map (·.id) = powers.map (·.id) := by
    rw [List.map_map]
    exact List.map_congr_left fun power _ => hid power
  refine ⟨hnames ▸ hs.nodup, fun power hmem => ?_⟩
  obtain ⟨held, hheld, rfl⟩ := List.mem_map.mp hmem
  exact (hs.sustained held hheld).of_eq (hid held) (hamount held)

theorem silence (hs : Sound catalog powers) (meant : Option PowerId) (turns : Nat) :
    Sound catalog (powers.silence meant turns).2 := by
  refine hs.map (fun power => ?_) fun power => ?_
  · dsimp only
    split <;> rfl
  · dsimp only
    split <;> rfl

theorem passSilence (hs : Sound catalog powers) : Sound catalog powers.passSilence :=
  hs.map (fun _ => rfl) fun _ => rfl

/-- Powers that wear off leave those that stay sustained: those with nothing left have gone. -/
theorem wearsOff {boundary : Boundary} {ticks : List Decayed} (hs : Sound catalog powers)
    (h : WearsOff catalog boundary powers ticks powers') : Sound catalog powers' := by
  refine ⟨hs.nodup.sublist h.sublist, ?_⟩
  intro power hmem
  rcases h.mem hmem with hheld | ⟨held, hheld, decay, rfl, hleft⟩
  · exact hs.sustained power hheld
  · obtain ⟨definition, hfind, -⟩ := hs.sustained held hheld
    exact ⟨definition, hfind, fun _ => hleft⟩

end Sound

end PowerSet

/-! ## Combatants -/

namespace Combatant

variable {catalog : Catalog PowerDefinition} {before after : Combatant} {id : PowerId}

/-- **A power that is given** comes to those that are held, is joined to the one of its name, or
goes with it if nothing is left. -/
theorem sound_applyPower {amount : Int} {duration applied : Option Int}
    (hs : before.powers.Sound catalog)
    (h : before.applyPower catalog id amount duration = .ok (applied, after)) :
    after.powers.Sound catalog := by
  unfold applyPower at h
  split at h
  case h_1 =>
    obtain ⟨-, rfl⟩ := Prod.mk.inj (Except.ok.inj h)
    exact hs
  case h_2 definition hfind =>
    obtain ⟨⟨joined, lasting⟩, -, h⟩ := bind_eq_ok.mp h
    dsimp only at h
    split at h
    case isTrue =>
      obtain ⟨-, rfl⟩ := Prod.mk.inj (Except.ok.inj h)
      exact hs.remove id
    case isFalse hstays =>
      obtain ⟨-, rfl⟩ := Prod.mk.inj (Except.ok.inj h)
      refine hs.insert ⟨definition, hfind, fun hremove => ?_⟩
      rw [hremove, Bool.and_true, decide_eq_true_iff] at hstays
      dsimp only
      omega

/-- **A power that is taken** goes, or is lowered to a stack with which it stays. -/
theorem sound_removePower {amount left : Option Int} (hs : before.powers.Sound catalog)
    (h : before.removePower catalog id amount = .ok (left, after)) :
    after.powers.Sound catalog := by
  unfold removePower at h
  split at h
  case h_1 =>
    obtain ⟨-, rfl⟩ := Prod.mk.inj (Except.ok.inj h)
    exact hs.remove id
  case h_2 amount =>
    split at h
    case h_1 =>
      obtain ⟨-, rfl⟩ := Prod.mk.inj (Except.ok.inj h)
      exact hs
    case h_2 held hheld =>
      obtain ⟨difference, -, h⟩ := bind_eq_ok.mp h
      split at h
      case isTrue =>
        obtain ⟨-, rfl⟩ := Prod.mk.inj (Except.ok.inj h)
        exact hs.remove id
      case isFalse hstays =>
        obtain ⟨-, rfl⟩ := Prod.mk.inj (Except.ok.inj h)
        refine ⟨?_, fun power hmem => ?_⟩
        · rw [PowerSet.map_id_modify]
          · exact hs.nodup
          · exact fun _ => rfl
        rcases PowerSet.mem_modify hmem with hmem | ⟨other, hother, rfl, rfl⟩
        · exact hs.sustained power hmem
        · obtain ⟨definition, hfind, -⟩ := hs.sustained other hother
          refine ⟨definition, hfind, fun hremove => ?_⟩
          rw [hfind, Option.any_some, hremove, Bool.and_true, decide_eq_true_iff] at hstays
          dsimp only
          omega

/-- **Powers that decay** leave those that stay sustained. -/
theorem sound_decay {boundary : Boundary} {ticks : List Decayed} (hs : before.powers.Sound catalog)
    (h : before.decay catalog boundary = .ok (ticks, after)) : after.powers.Sound catalog :=
  hs.wearsOff (wearsOff_of_decay hs.nodup h)

end Combatant

/-- **However a combatant is altered**, it holds sound powers after it held sound powers. -/
theorem Alteration.sound {rules : Rules} {may : Effect → Prop} {numbered : Prop}
    {id : CombatantId} {before after : Combatant} {events : List Event}
    (h : Alteration rules may numbered id before after events)
    (hs : before.powers.Sound rules.content.powers) : after.powers.Sound rules.content.powers := by
  cases h with
  | heal _ h => exact (Combatant.heal_sameLife h).powers ▸ hs
  | maxHealth _ h => exact (Combatant.changeMaxHealth_sameLife h).powers ▸ hs
  | setHealth _ h => exact (Combatant.setHealth_spec h).2.1 ▸ hs
  | block | barrier | destroyBlock | weaken => exact hs
  | givePower _ _ h => exact Combatant.sound_applyPower hs h
  | leaveStatus _ h => exact Combatant.sound_applyPower hs h
  | takePower _ _ _ h => exact Combatant.sound_removePower hs h
  | silence => exact hs.silence _ _
  | consume => exact hs.remove _

/-! ## Resolutions -/

open Resolution

variable {rules : Rules} {s t : Scene}

/-- If everyone holds sound powers before, everyone does after. -/
abbrev SoundKept (rules : Rules) : Scene → Scene → Prop :=
  Lasting fun combatant => combatant.powers.Sound rules.content.powers

namespace SoundKept

theorem of_field (h : t.combat.field = s.combat.field) : SoundKept rules s t :=
  fun hs => hs.of_field h

/-- One combatant holds other powers, which are sound if those were that it held before. -/
theorem of_setCombatant {id : CombatantId} {before after : Combatant}
    (hc : s.combat.combatant? id = some before)
    (hsound : before.powers.Sound rules.content.powers →
      after.powers.Sound rules.content.powers)
    (h : t.combat.field = (s.combat.setCombatant id after).field) : SoundKept rules s t :=
  fun hs => (hs.setCombatant (hsound (hs.combatant? hc))).of_field h

/-- The same combatant with the same powers. -/
theorem of_powers {id : CombatantId} {before after : Combatant}
    (hc : s.combat.combatant? id = some before) (hpowers : after.powers = before.powers)
    (h : t.combat.field = (s.combat.setCombatant id after).field) : SoundKept rules s t :=
  of_setCombatant hc (fun hsound => hpowers ▸ hsound) h

theorem of_damages {source target : CombatantId} {outcome : DamageReport}
    (h : Damages source target outcome s t) : SoundKept rules s t := by
  cases h with
  | mk hc h =>
      exact of_powers hc (Combatant.takeDamage_spec h).2.1 (Scene.field_setCombatant _ _)

theorem of_step (h : Step rules Effect.Any s t) : SoundKept rules s t := by
  cases h with
  | altered hc h =>
      exact of_setCombatant hc h.sound
        ((Scene.field_tell _).trans (Scene.field_setCombatant _ _))
  | damaged h => exact of_damages h
  | energy | gold => exact of_field (Scene.field_tell _)
  | changed => exact of_field (Combat.field_modifyCard _ _)
  | drew | told | acted | energyNextTurn | shuffled | reshuffled | drawn | milled | moved | brought
  | removed | sent | recalled | issued | created | asked | offered => exact of_field rfl

theorem of_blow (h : Blow rules s t) : SoundKept rules s t := by
  cases h with
  | damaged h => exact of_damages h
  | setHealth hc h | executed hc h =>
      exact of_powers hc (Combatant.setHealth_spec h).2.1 (Scene.field_setCombatant _ _)
  | buried => exact fun hs => hs.reap
  | died | counted | acted => exact of_field rfl

theorem of_upkeep (h : Upkeep rules s t) : SoundKept rules s t := by
  cases h with
  | decayed hc h =>
      exact of_setCombatant hc (fun hs => Combatant.sound_decay hs h)
        (Scene.field_setCombatant _ _)
  | eased hc =>
      exact of_setCombatant hc (fun hs => hs.passSilence) (Scene.field_setCombatant _ _)
  | bared hc | moved hc | declared hc =>
      refine of_powers hc ?_ (Scene.field_setCombatant _ _)
      rfl
  | turned => exact fun hs => ⟨hs.1, hs.2⟩
  | told | released | charged | discharged => exact of_field rfl

/-- **Effects of any content leave sound powers**, at any depth. -/
theorem prevails : Prevails rules Effect.Any (SoundKept rules) where
  flow := Lasting.flow
  step := of_step
  blow := of_blow
  opens h := by
    cases h with
    | mk => exact of_field rfl
  closes h := by
    obtain ⟨inPlay, discardPile, exhaustPile, events, hcombat⟩ := h.combat_eq
    exact of_field (by rw [hcombat]; rfl)

/-- **Turns and plays leave sound powers.** -/
theorem governs : Governs rules Effect.Any (SoundKept rules) := by
  refine prevails.governs rules.content.permits_any of_upkeep
    (fun {card cost s t} henter => ?_)
    (fun _ _ => of_field rfl) fun {s id combatant intent ctx a t} _ _ hrun => ?_
  · cases henter with
    | mk h hp =>
        cases hp with
        | nothing | energy => exact of_field rfl
  · have htold : SoundKept rules s (s.report (.intent id intent.name)) := of_field rfl
    exact Lasting.flow.trans htold
      ((prevails.carryOut rules.content.permits_any (fun _ _ => trivial) ctx).rel hrun)

end SoundKept

/-! ## Calls -/

/-- An enemy that has just come holds sound powers. -/
theorem EnemyTemplate.sound_spawn {template : EnemyTemplate} {id : CombatantId}
    {catalog : Catalog PowerDefinition} {enemy : Combatant}
    (h : template.spawn id catalog = .ok enemy) : enemy.powers.Sound catalog := by
  refine foldlM_preserves (P := fun combatant : Combatant => combatant.powers.Sound catalog)
    (fun {before start after} hgiven hbefore => ?_) h .nil
  obtain ⟨⟨applied, given⟩, happly, hafter⟩ := bind_eq_ok.mp hgiven
  obtain rfl := Except.ok.inj hafter
  exact Combatant.sound_applyPower hbefore happly

namespace Rules

variable {run run' started : Run} {call : Call}

/-- An accepted call leaves everyone with sound powers, if it found everyone so, and so does the
start of a combat in any case. -/
theorem powersSound_of_accepted
    (hbefore : (∀ enemies, call ≠ .start enemies) → run.InCombat
      (Combat.Everyone fun combatant => combatant.powers.Sound rules.content.powers))
    (hcall : rules.perform run call = .ok (none, run')) : run'.InCombat
      (Combat.Everyone fun combatant => combatant.powers.Sound rules.content.powers) := by
  refine SoundKept.governs.inCombat_of_accepted rules.content.permits_any (fun _ h => h)
    (fun _ h => h) (fun _ h => h) (fun _ _ _ h => h) (fun h hs => h hs) (fun _ h => h)
    (fun hgathered _ => ?_) hbefore hcall
  obtain ⟨enemies, nextEnemyId, rfl, hspawn⟩ := hgathered
  refine ⟨.nil, fun enemy hmem => ?_⟩
  obtain ⟨template, id, hspawn⟩ := hspawn enemy hmem
  exact EnemyTemplate.sound_spawn hspawn

/-- **Everyone holds sound powers** from the start of a combat on, through calls of every kind: the
names of the powers are different, the content knows each of them, and of those that go when their
stack is not positive at least one is left. -/
theorem powersSound_of_reaches {enemies : List String}
    (hstart : rules.perform run (.start enemies) = .ok (none, started))
    (h : rules.Reaches started run') : run'.InCombat
      (Combat.Everyone fun combatant => combatant.powers.Sound rules.content.powers) :=
  inCombat_of_reaches powersSound_of_accepted (fun _ _ hs => hs) hstart h

end Rules

/-- A card that gives venom twice and takes more of it than it gave once, and that gives less than
no ward; venom goes when nothing is left of it, and it wears off, while ward does neither. -/
def brewRules : Rules where
  content :=
    { cards := Catalog.empty.put "brew"
        { id := "brew", name := "Brew", theme := .skill, cost := .fixed 0
          effects :=
            [.applyPower "venom" (.fixed 2) .frontEnemy none,
              .applyPower "venom" (.fixed 3) .allEnemies none,
              .removePower "venom" (some (.fixed 3)) .frontEnemy,
              .applyPower "ward" (.fixed (-3)) .self none] }
      powers := (Catalog.empty.put "venom"
        { id := "venom", name := "Venom", kind := .debuff, stacking := .intensity
          removeAtZero := true, decay := some { boundary := .turnEnd } }).put "ward"
        (.plain "ward" .buff .both)
      enemies := Catalog.empty.put "dummy"
        { id := "dummy", name := "Dummy", maxHealth := 20, moves := []
          startingPowers := [{ power := "venom", amount := -1 }] } }

/-- A run with that card. -/
def brewRun : Run where
  hero := ""
  health := 10
  maxHealth := 10
  deck := [{ uid := ⟨1⟩, definition := "brew" }]
  rng := .ofSeed 0

/-- The run after a combat has begun. -/
def brewStarted : Run := brewRules.after brewRun (.start ["dummy", "dummy"])

/-- The run after the card was played. -/
def brewPlayed : Run := brewRules.after brewStarted (.play ⟨1⟩ none)

theorem brew_starts :
    brewRules.perform brewRun (.start ["dummy", "dummy"]) = .ok (none, brewStarted) :=
  Rules.perform_eq_of_answer (by decide +kernel)

theorem brew_played : brewRules.perform brewStarted (.play ⟨1⟩ none) = .ok (none, brewPlayed) :=
  Rules.perform_eq_of_answer (by decide +kernel)

theorem brew_passed :
    brewRules.perform brewPlayed .endTurn = .ok (none, brewRules.after brewPlayed .endTurn) :=
  Rules.perform_eq_of_answer (by decide +kernel)

namespace Rules

/-- What is left of the venom of both enemies when it has worn off once, and of the ward. -/
theorem powersSound_of_brew :
    ∃ combat, (brewRules.after brewPlayed .endTurn).combat = some combat ∧
      (combat.player :: combat.enemies).map (·.powers.map fun power => (power.id, power.amount)) =
        [[("ward", -3)], [("venom", 1)], [("venom", 2)]] ∧
      combat.Everyone fun combatant => combatant.powers.Sound brewRules.content.powers := by
  have hheld : (brewRules.after brewPlayed .endTurn).combat.map
      (fun combat => (combat.player :: combat.enemies).map
        (·.powers.map fun power => (power.id, power.amount))) =
          some [[("ward", -3)], [("venom", 1)], [("venom", 2)]] := by decide +kernel
  obtain ⟨combat, hcombat, hpowers⟩ := Option.map_eq_some_iff.mp hheld
  exact ⟨combat, hcombat, hpowers, powersSound_of_reaches brew_starts
    (.call (.call .refl brew_played) brew_passed) combat hcombat⟩

end Rules

end CardCombat
