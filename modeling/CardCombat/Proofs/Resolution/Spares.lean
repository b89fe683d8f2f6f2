import CardCombat.Proofs.Resolution.Step

/-!
# Steps that spare everyone

Plain steps cost nobody's life and bring nobody back: the same combatants are there afterwards, each
of them alive if it was alive before, and nothing of the kind is told or written down. So a
combatant that was alive when a number of plain steps began is alive in the end, and this is how an
effect can rely on those whom its aim has found.

## Main results

* `Step.spares`, `Opens.spares`, `Closes.spares` -- the steps that spare everyone.
* `Spares.flow` -- sparing adds up.
-/

namespace CardCombat

/-- A deed that tells of a death. -/
def Deed.IsMortal : Deed → Prop
  | .fell .. | .died _ | .buried _ | .acted _ .death _ => True
  | _ => False

/-- The same life: alive if it was alive before, and, where `numbered` holds, with its old powers if
it was dead. -/
structure Lasts (numbered : Prop) (before after : Combatant) : Prop where
  isAlive : after.isAlive = before.isAlive
  powers : numbered → before.isAlive = false → after.powers = before.powers

namespace Lasts

variable {numbered : Prop} {a b c : Combatant}

theorem refl (combatant : Combatant) : Lasts numbered combatant combatant :=
  ⟨rfl, fun _ _ => rfl⟩

theorem trans (h : Lasts numbered a b) (h' : Lasts numbered b c) : Lasts numbered a c :=
  ⟨h'.isAlive.trans h.isAlive,
    fun hn hdead => (h'.powers hn (h.isAlive.trans hdead)).trans (h.powers hn hdead)⟩

end Lasts

/-- Nobody has died and nobody has come back. -/
structure Spares (s t : Scene) : Prop where
  ids : t.combat.enemies.map (·.id) = s.combat.enemies.map (·.id)
  lasts : ∀ id, Option.Rel (Lasts s.combat.Numbered) (s.combat.combatant? id)
    (t.combat.combatant? id)
  living : t.combat.livingEnemies.length = s.combat.livingEnemies.length
  killed : t.stats.enemiesKilled = s.stats.enemiesKilled
  deeds : ∃ deeds, t.chronicle.toList = s.chronicle.toList ++ deeds ∧
    ∀ deed ∈ deeds, ¬deed.IsMortal
  events : ∃ events, t.combat.events.toList = s.combat.events.toList ++ events ∧
    ∀ id, .death id ∉ events

namespace Spares

variable {s t u : Scene} {numbered : Prop}

private theorem rel_refl (found : Option Combatant) :
    Option.Rel (Lasts numbered) found found := by
  cases found with
  | none => exact .none
  | some combatant => exact .some (.refl combatant)

private theorem rel_trans {a b c : Option Combatant} (h : Option.Rel (Lasts numbered) a b)
    (h' : Option.Rel (Lasts numbered) b c) : Option.Rel (Lasts numbered) a c := by
  cases h with
  | none => exact h'
  | some h =>
      cases h' with
      | some h' => exact .some (h.trans h')

/-- Whatever leaves the combatants as they are spares them. -/
theorem of_same (henemies : t.combat.enemies = s.combat.enemies)
    (hplayer : t.combat.player = s.combat.player)
    (hkilled : t.stats.enemiesKilled = s.stats.enemiesKilled)
    (hdeeds : ∃ deeds, t.chronicle.toList = s.chronicle.toList ++ deeds ∧
      ∀ deed ∈ deeds, ¬deed.IsMortal)
    (hevents : ∃ events, t.combat.events.toList = s.combat.events.toList ++ events ∧
      ∀ id, .death id ∉ events) : Spares s t where
  ids := by rw [henemies]
  lasts id := by
    have hsame : t.combat.combatant? id = s.combat.combatant? id := by
      unfold Combat.combatant?
      rw [henemies, hplayer]
    rw [hsame]
    exact rel_refl _
  living := by rw [Combat.livingEnemies, henemies]; rfl
  killed := hkilled
  deeds := hdeeds
  events := hevents

theorem numbered_iff (h : Spares s t) : t.combat.Numbered ↔ s.combat.Numbered := by
  unfold Combat.Numbered
  rw [h.ids]

theorem flow : Resolution.Flow Spares where
  refl s := of_same rfl rfl rfl ⟨[], by simp⟩ ⟨[], by simp⟩
  trans {s t u} h h' := by
    have hlasts (id : CombatantId) := h'.lasts id
    rw [propext h.numbered_iff] at hlasts
    obtain ⟨deeds, hd, hmortal⟩ := h.deeds
    obtain ⟨deeds', hd', hmortal'⟩ := h'.deeds
    obtain ⟨events, he, hdeath⟩ := h.events
    obtain ⟨events', he', hdeath'⟩ := h'.events
    refine ⟨h'.ids.trans h.ids, fun id => rel_trans (h.lasts id) (hlasts id),
      h'.living.trans h.living, h'.killed.trans h.killed, ⟨deeds ++ deeds', ?_, ?_⟩,
      ⟨events ++ events', ?_, ?_⟩⟩
    · rw [hd', hd, List.append_assoc]
    · exact List.forall_mem_append.mpr ⟨hmortal, hmortal'⟩
    · rw [he', he, List.append_assoc]
    · intro id hmem
      rcases List.mem_append.mp hmem with hmem | hmem
      · exact hdeath id hmem
      · exact hdeath' id hmem

/-- Whatever leaves alone the combatants, the totals and what was told and written. -/
theorem of_aside (henemies : t.combat.enemies = s.combat.enemies)
    (hplayer : t.combat.player = s.combat.player) (hstats : t.stats = s.stats)
    (hchronicle : t.chronicle = s.chronicle) (hevents : t.combat.events = s.combat.events) :
    Spares s t :=
  of_same henemies hplayer (by rw [hstats]) ⟨[], by simp [hchronicle]⟩ ⟨[], by simp [hevents]⟩

/-- No death is told. -/
theorem report {event : Event} (h : Spares s t) (he : ∀ id, event ≠ .death id) :
    Spares s (t.report event) :=
  flow.trans h (of_same rfl rfl rfl ⟨[], by simp [Scene.report]⟩
    ⟨[event], by simp [Scene.report, Combat.report], by simpa [eq_comm] using he⟩)

theorem tell {events : List Event} (h : Spares s t) (he : ∀ id, .death id ∉ events) :
    Spares s (t.tell events) := by
  induction events generalizing t with
  | nil => exact h
  | cons event events ih =>
      have hhead : ∀ id, event ≠ .death id := fun id heq => he id (heq ▸ List.mem_cons_self)
      exact ih (h.report hhead) fun id hmem => he id (List.mem_cons_of_mem _ hmem)

/-- No death is written down. -/
theorem record {deed : Deed} (h : Spares s t) (hd : ¬deed.IsMortal) : Spares s (t.record deed) :=
  flow.trans h (of_same rfl rfl rfl ⟨[deed], by simp [Scene.record], by simpa using hd⟩
    ⟨[], by simp [Scene.record]⟩)

/-- Nobody dies of a card that comes into a pile. -/
theorem arrive (h : Spares s t) (card : Card) (pile : Pile) (placement : Placement) :
    Spares s (t.arrive card pile placement) :=
  .record (flow.trans h (of_aside rfl rfl rfl rfl rfl)) (by simp [Deed.IsMortal])

/-- A combatant may be set to one that has the same life. -/
theorem of_setCombatant {id : CombatantId} {before after : Combatant}
    (hc : s.combat.combatant? id = some before) (hid : after.id = before.id)
    (hlasts : Lasts s.combat.Numbered before after) : Spares s (s.setCombatant id after) := by
  have hput : s.setCombatant id after = s.putCombatant id after := by
    unfold Scene.setCombatant
    rw [Combat.isAlive_of_combatant? hc, hlasts.isAlive, Bool.and_not_self]
    rfl
  rw [hput]
  refine ⟨Combat.map_id_enemies_setCombatant hc hid, fun other => ?_, ?_, rfl,
    ⟨[], by simp [Scene.putCombatant]⟩, ⟨[], ?_, by simp⟩⟩
  · show Option.Rel _ _ ((s.combat.setCombatant id after).combatant? other)
    rw [Combat.combatant?_setCombatant hc hid]
    by_cases ho : other = id
    · rw [if_pos ho, ho, hc]
      exact .some hlasts
    · rw [if_neg ho]
      exact rel_refl _
  · change (s.combat.setCombatant id after).livingEnemies.length = _
    by_cases hp : id = .player
    · rw [hp, Combat.livingEnemies_setCombatant_player]
    · have := @Combat.length_livingEnemies_setCombatant _ _ _ after hp hc
      rw [hlasts.isAlive] at this
      omega
  · unfold Scene.putCombatant Combat.setCombatant
    split <;> simp

/-! ## What follows -/

/-- Whoever was alive is alive. -/
theorem isAlive (h : Spares s t) (id : CombatantId) :
    t.combat.isAlive id = s.combat.isAlive id := by
  unfold Combat.isAlive
  have hl := h.lasts id
  revert hl
  generalize s.combat.combatant? id = before, t.combat.combatant? id = after
  intro hl
  cases hl with
  | none => rfl
  | some hl => simpa using hl.isAlive

end Spares

/-! ## The steps -/

namespace Alteration

variable {rules : Rules} {may : Effect → Prop} {numbered : Prop} {id : CombatantId}
  {before after : Combatant}
  {events : List Event}

theorem id_eq (h : Alteration rules may numbered id before after events) :
    after.id = before.id := by
  cases h with
  | heal _ h => exact (Combatant.heal_sameLife h).id
  | maxHealth _ h => exact (Combatant.changeMaxHealth_sameLife h).id
  | setHealth _ h => exact (Combatant.setHealth_spec h).1
  | givePower _ _ h => exact (Combatant.applyPower_sameButPowers h).id
  | leaveStatus _ h => exact (Combatant.applyPower_sameButPowers h).id
  | takePower _ _ _ h => exact (Combatant.removePower_sameButPowers h).id
  | block | barrier | destroyBlock | weaken | silence | consume => rfl

theorem lasts (h : Alteration rules may numbered id before after events) :
    Lasts numbered before after := by
  have ofLiving {a : Combatant} (hb : numbered → before.isAlive)
      (ha : a.isAlive = before.isAlive) : Lasts numbered before a :=
    ⟨ha, fun hn hdead => absurd ((hb hn).symm.trans hdead) (by decide)⟩
  cases h with
  | heal _ h =>
      have hsame := Combatant.heal_sameLife h
      exact ⟨hsame.isAlive, fun _ _ => hsame.powers⟩
  | maxHealth _ h =>
      have hsame := Combatant.changeMaxHealth_sameLife h
      exact ⟨hsame.isAlive, fun _ _ => hsame.powers⟩
  | setHealth ha h ha' => exact ofLiving (fun _ => ha) (ha'.trans ha.symm)
  | givePower ha _ h => exact ofLiving (fun _ => ha) (Combatant.applyPower_sameButPowers h).isAlive
  | leaveStatus ha h => exact ofLiving (fun _ => ha) (Combatant.applyPower_sameButPowers h).isAlive
  | takePower ha _ _ h => exact ofLiving ha (Combatant.removePower_sameButPowers h).isAlive
  | silence ha => exact ofLiving ha rfl
  | consume ha => exact ofLiving (fun _ => ha) rfl
  | block | barrier | destroyBlock | weaken => exact ⟨rfl, fun _ _ => rfl⟩

/-- What is told of an alteration tells of combatants only. -/
theorem isOfCombatant (h : Alteration rules may numbered id before after events) :
    ∀ event ∈ events, event.IsOfCombatant := by
  have ofSingle {event : Event} (he : event.IsOfCombatant) :
      ∀ other ∈ [event], other.IsOfCombatant := fun _ hmem => List.mem_singleton.mp hmem ▸ he
  have ofIf {P : Prop} [Decidable P] {told rest : List Event}
      (htold : ∀ event ∈ told, event.IsOfCombatant) (hrest : ∀ event ∈ rest, event.IsOfCombatant) :
      ∀ event ∈ (if P then told else rest), event.IsOfCombatant := by
    split
    · exact htold
    · exact hrest
  have ofNone : ∀ event ∈ ([] : List Event), event.IsOfCombatant :=
    fun _ hmem => absurd hmem List.not_mem_nil
  cases h with
  | heal | destroyBlock | maxHealth | leaveStatus => exact ofIf (ofSingle trivial) ofNone
  | block | barrier | setHealth | weaken => exact ofSingle trivial
  | givePower => exact ofIf (ofSingle trivial) (ofIf (ofSingle trivial) ofNone)
  | @takePower _ _ _ _ _ left =>
      cases left with
      | none => exact ofSingle trivial
      | some left => exact ofIf (ofSingle trivial) ofNone
  | silence =>
      intro event hmem
      obtain ⟨power, -, rfl⟩ := List.mem_map.mp hmem
      trivial
  | consume =>
      intro event hmem
      rcases List.mem_pair.mp hmem with rfl | rfl <;> trivial

theorem not_death (h : Alteration rules may numbered id before after events)
    (victim : CombatantId) : .death victim ∉ events := fun hmem => h.isOfCombatant _ hmem

end Alteration

variable {rules : Rules} {may : Effect → Prop} {s t : Scene}

/-- Damage counts in the totals of damage only. -/
theorem Stats.countDamage_eq {stats counted : Stats} {source target : CombatantId} {lost : Int}
    (h : stats.countDamage source target lost = .ok counted) :
    ∃ damageDealt damageTaken, counted = { stats with damageDealt, damageTaken } := by
  unfold Stats.countDamage at h
  split at h
  · obtain ⟨total, -, h⟩ := bind_eq_ok.mp h
    exact ⟨_, _, (Except.ok.inj h).symm⟩
  · split at h
    · obtain ⟨total, -, h⟩ := bind_eq_ok.mp h
      exact ⟨_, _, (Except.ok.inj h).symm⟩
    · exact ⟨_, _, (Except.ok.inj h).symm⟩

theorem Stats.enemiesKilled_countDamage {stats counted : Stats} {source target : CombatantId}
    {lost : Int} (h : stats.countDamage source target lost = .ok counted) :
    counted.enemiesKilled = stats.enemiesKilled := by
  obtain ⟨damageDealt, damageTaken, rfl⟩ := countDamage_eq h
  rfl

/-- Other totals, as long as no kill is counted. -/
theorem Spares.of_stats {stats : Stats} (h : stats.enemiesKilled = s.stats.enemiesKilled) :
    Spares s { s with stats } := .of_same rfl rfl h ⟨[], by simp⟩ ⟨[], by simp⟩

/-- Damage spares everyone if it does not kill. -/
theorem Damages.spares {source target : CombatantId} {outcome : DamageReport}
    (h : Damages source target outcome s t) (hk : outcome.killed = false) : Spares s t := by
  cases h with
  | @mk before after amount element piercing stats hc h hs =>
      obtain ⟨hid, hpowers, hkilled, hdead⟩ := Combatant.takeDamage_spec h
      have halive : after.isAlive = before.isAlive := by
        cases hb : before.isAlive with
        | true => simpa [hk, hb] using hkilled
        | false => exact hdead hb
      have hset := Spares.of_setCombatant hc hid ⟨halive, fun _ _ => hpowers⟩
      have hstats : stats.enemiesKilled = (s.setCombatant target after).stats.enemiesKilled :=
        (Stats.enemiesKilled_countDamage hs).trans hset.killed.symm
      exact Spares.flow.trans (hset.report (by simp)) (.of_stats hstats)

/-- **A plain step spares everyone.** -/
theorem Step.spares (h : Step rules may s t) : Spares s t := by
  cases h with
  | drew | issued => exact .of_aside rfl rfl rfl rfl rfl
  | told h => exact (Spares.flow.refl s).report fun id he => by rw [he] at h; exact h
  | acted h =>
      refine (Spares.flow.refl s).record fun hd => h ?_
      unfold Deed.IsMortal at hd
      split at hd <;> simp_all
  | altered hc h => exact (Spares.of_setCombatant hc h.id_eq h.lasts).tell h.not_death
  | damaged h hk => exact h.spares hk
  | energy h he =>
      refine .tell (.of_aside rfl rfl rfl rfl rfl) fun id => ?_
      rcases he with ⟨-, rfl⟩ | ⟨delta, -, -, rfl⟩ <;> simp
  | energyNextTurn h₀ h => exact .report (.of_aside rfl rfl rfl rfl rfl) (by simp)
  | gold h hd he =>
      refine .tell (.of_same rfl rfl rfl ⟨[], by simp⟩ ⟨[], by simp⟩) fun id => ?_
      split <;> simp
  | shuffled h | drawn hroom h => exact .of_aside rfl rfl rfl rfl rfl
  | reshuffled h => exact .record (.of_aside rfl rfl rfl rfl rfl) (by simp [Deed.IsMortal])
  | milled h he =>
      refine .report (.of_aside rfl rfl rfl rfl rfl) fun id => ?_
      rcases he with rfl | rfl <;> simp
  | moved h he =>
      refine .report (.record (.of_aside rfl rfl rfl rfl rfl) (by simp [Deed.IsMortal]))
        fun id => ?_
      rcases he with ⟨-, rfl⟩ | ⟨-, rfl⟩ <;> simp
  | brought h he =>
      have htaken (piles : Piles) : Spares s (s.withPiles piles) := .of_aside rfl rfl rfl rfl rfl
      refine ((htaken _).arrive _ _ _).report fun id => ?_
      rcases he with rfl | ⟨definition, rfl⟩ <;> simp
  | removed h =>
      exact .report (.record (.of_aside rfl rfl rfl rfl rfl) (by simp [Deed.IsMortal])) (by simp)
  | sent h he =>
      refine .report (.record (.of_aside rfl rfl rfl rfl rfl) (by simp [Deed.IsMortal]))
        fun id => ?_
      rcases he with ⟨-, rfl⟩ | ⟨-, rfl⟩ | ⟨-, rfl⟩ <;> simp
  | recalled h he =>
      have hroute (uid : CardUid) (before : Option Route) (after : Route) :
          Spares s (s.route uid before after) :=
        .record (.of_aside rfl rfl rfl rfl rfl) (by simp [Deed.IsMortal])
      refine ((hroute _ _ _).arrive _ _ _).report fun id => ?_
      rcases he with rfl | ⟨definition, rfl⟩ <;> simp
  | changed hf hu he =>
      refine .report (.record (.of_aside (Combat.same_modifyCard Combat.enemies fun _ _ => rfl)
        (Combat.same_modifyCard Combat.player fun _ _ => rfl) rfl rfl
        (Combat.same_modifyCard Combat.events fun _ _ => rfl)) (by simp [Deed.IsMortal]))
        fun id => ?_
      rcases he with rfl | rfl | ⟨delta, rfl⟩ | ⟨flag, value, rfl⟩ | rfl <;> simp
  | created hu =>
      have hissue : Spares s (s.issue 1) := .of_aside rfl rfl rfl rfl rfl
      exact (hissue.arrive _ _ _).report (by simp)
  | asked hk hc hp => exact .report (.of_aside rfl rfl rfl rfl rfl) (by simp)
  | offered hc hp hu => exact .report (.of_aside rfl rfl rfl rfl rfl) (by simp)

/-- A card that comes into play harms nobody. -/
theorem Opens.spares {card : Card} (h : Opens card s t) : Spares s t := by
  cases h with
  | mk h =>
      have hpopped (piles : Piles) (rng : Rng) : Spares s { s.withPiles piles with rng } :=
        .of_aside rfl rfl rfl rfl rfl
      have hshown (piles : Piles) (rng : Rng) (uid : CardUid) :
          Spares s (({ s.withPiles piles with rng } : Scene).report (.replay uid)) :=
        (hpopped piles rng).report (by simp)
      exact Spares.flow.trans (hshown _ _ _) (.of_aside rfl rfl rfl rfl rfl)

/-- A card that leaves play harms nobody. -/
theorem Closes.spares {uid : CardUid} (h : Closes rules uid s t) : Spares s t := by
  cases h with
  | nothing => exact Spares.flow.refl s
  | @mk played combat h =>
      unfold Combat.takeInPlay? at h
      obtain ⟨entry, -, h⟩ := Option.bind_eq_some_iff.mp h
      obtain ⟨rfl, rfl⟩ := Prod.mk.inj (Option.some.inj h)
      generalize Resolution.routeOf rules entry = route
      cases route with
      | banished | elsewhere => exact .of_aside rfl rfl rfl rfl rfl
      | discard => exact .record (.of_aside rfl rfl rfl rfl rfl) (by simp [Deed.IsMortal])
      | exhaust =>
          exact .report (.record (.of_aside rfl rfl rfl rfl rfl) (by simp [Deed.IsMortal])) (by simp)

/-- A course of plain steps spares everyone. -/
theorem Course.spares (h : Course rules may s t) : Spares s t := by
  induction h with
  | refl => exact Spares.flow.refl s
  | tail _ hstep ih => exact Spares.flow.trans ih hstep.spares

end CardCombat
