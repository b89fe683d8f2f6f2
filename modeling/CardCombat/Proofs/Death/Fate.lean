import CardCombat.Proofs.Resolution.Carries

/-!
# What becomes of a combatant

The chronicle of a resolution, read for one combatant, is its story. A living enemy may live on, and
then its story is empty; or it falls, and then the story tells all that happens to it until it is
gone. While a death is dealt with, more deaths may be dealt with inside it, and whoever of them is
done first takes all the dead away, also those whose own death has not been dealt with yet: their
deaths come late, when nobody is left whose triggers could act.

An `Account` of what happened between two scenes tells the fates of combatants together with what is
counted and reported about them. Accounts of parts make up an account of the whole.

## Main definitions

* `Fate` -- what may become of an enemy, and the story that goes with it.
* `Account`, `Accounted` -- what happened between two scenes, and that nothing is left open.

## Main results

* `Accounted.flow` -- accounts add up.
* `Spares.accounted` -- where nobody dies there is little to account for.
-/

namespace CardCombat

namespace Deed

/-- A deed that belongs to the death of a combatant. -/
def concerns (id : CombatantId) : Deed → Bool
  | .fell other _ | .died other | .buried other | .acted other .death _ => other == id
  | _ => false

/-- The death of a combatant is dealt with. -/
def isDeathOf (id : CombatantId) : Deed → Bool
  | .died other => other == id
  | _ => false

end Deed

/-- The story of a combatant: the deeds that belong to its death. -/
def story (id : CombatantId) (deeds : List Deed) : List Deed := deeds.filter (·.concerns id)

/-- The effects of all the triggers with which a combatant responds to its death. -/
def lastWords (rules : Rules) (combatant : Combatant) : List (List Effect) :=
  (combatant.triggersOn rules.content.powers .death).map (·.effects)

theorem lastWords_congr {rules : Rules} {combatant other : Combatant}
    (h : combatant.powers = other.powers) : lastWords rules combatant = lastWords rules other := by
  unfold lastWords Combatant.triggersOn
  rw [h]

/-- What happens to an enemy that has fallen: its death is dealt with before it is taken away, or
else after. -/
inductive Dying (rules : Rules) (id : CombatantId) (fallen : Combatant) : List Deed → Prop
  | timely {earlier later} (h : earlier ++ later = lastWords rules fallen) :
      Dying rules id fallen (.died id :: earlier.map (.acted id .death) ++
        .buried id :: later.map (.acted id .death))
  | late : Dying rules id fallen [.buried id, .died id]

/-- What becomes of the enemy with a number, and its story. -/
inductive Fate (rules : Rules) (id : CombatantId) :
    Option Combatant → List Deed → Option Combatant → Prop
  | absent : Fate rules id none [] none
  | lives {before after} (hb : before.isAlive = true) (ha : after.isAlive = true) :
      Fate rules id (some before) [] (some after)
  | lies {before after} (hb : before.isAlive = false) (ha : after.isAlive = false)
      (hp : after.powers = before.powers) : Fate rules id (some before) [] (some after)
  | buried {before} (hb : before.isAlive = false) : Fate rules id (some before) [.buried id] none
  | dies {before fallen dying} (hb : before.isAlive = true) (hf : fallen.isAlive = false)
      (h : Dying rules id fallen dying) :
      Fate rules id (some before) (.fell id fallen :: dying) none

namespace Fate

variable {rules : Rules} {id : CombatantId} {a b c : Option Combatant} {deeds deeds' : List Deed}

/-- Nothing has happened to an enemy that is found as it was. -/
theorem refl (found : Option Combatant) : Fate rules id found [] found := by
  cases found with
  | none => exact .absent
  | some combatant =>
      cases h : combatant.isAlive with
      | true => exact .lives h h
      | false => exact .lies h h rfl

theorem trans (h : Fate rules id a deeds b) (h' : Fate rules id b deeds' c) :
    Fate rules id a (deeds ++ deeds') c := by
  cases h with
  | absent => exact h'
  | lives hb ha =>
      cases h' with
      | lives _ ha' => exact .lives hb ha'
      | dies _ hf h' => exact .dies hb hf h'
      | lies hb' | buried hb' => exact absurd (ha.symm.trans hb') (by decide)
  | lies hb ha hp =>
      cases h' with
      | lies _ ha' hp' => exact .lies hb ha' (hp'.trans hp)
      | buried => exact .buried hb
      | lives hb' | dies hb' => exact absurd (hb'.symm.trans ha) (by decide)
  | buried hb =>
      cases h' with
      | absent => exact .buried hb
  | dies hb hf h =>
      cases h' with
      | absent =>
          rw [List.append_nil]
          exact .dies hb hf h

end Fate

/-! ## Accounts -/

/-- How many enemies have been killed or are still to be killed. -/
def Scene.tally (scene : Scene) : Nat :=
  scene.stats.enemiesKilled + scene.combat.livingEnemies.length

/-- What happened between two scenes: the deeds that were written down, the events that were
reported, and the fates of everyone `who` is asked about. -/
structure Account (rules : Rules) (who : CombatantId → Prop) (s t : Scene) (deeds : List Deed)
    (events : List Event) : Prop where
  ids : (t.combat.enemies.map (·.id)).Sublist (s.combat.enemies.map (·.id))
  chronicle : t.chronicle.toList = s.chronicle.toList ++ deeds
  told : t.combat.events.toList = s.combat.events.toList ++ events
  fate : ∀ id, who id → Fate rules id (s.combat.combatant? id) (story id deeds)
    (t.combat.combatant? id)
  deaths : ∀ id, events.count (.death id) = deeds.countP (·.isDeathOf id)
  player : (s.combat.player.isAlive = false ∨ ∃ fallen, .fell .player fallen ∈ deeds) →
    t.combat.player.isAlive = false

/-- Everything is accounted for: whoever has fallen is gone, and every kill is counted. -/
def Accounted (rules : Rules) (s t : Scene) : Prop :=
  (∃ deeds events, Account rules (· ≠ .player) s t deeds events) ∧ t.tally = s.tally

namespace Account

variable {rules : Rules} {who : CombatantId → Prop} {s t u : Scene} {deeds deeds' : List Deed}
  {events events' : List Event}

theorem trans (h : Account rules who s t deeds events) (h' : Account rules who t u deeds' events') :
    Account rules who s u (deeds ++ deeds') (events ++ events') where
  ids := h'.ids.trans h.ids
  chronicle := by rw [h'.chronicle, h.chronicle, List.append_assoc]
  told := by rw [h'.told, h.told, List.append_assoc]
  fate id hid := by
    rw [story, List.filter_append]
    exact (h.fate id hid).trans (h'.fate id hid)
  deaths id := by rw [List.count_append, List.countP_append, h.deaths, h'.deaths]
  player hdead := by
    rcases hdead with hdead | ⟨fallen, hmem⟩
    · exact h'.player (.inl (h.player (.inl hdead)))
    · rcases List.mem_append.mp hmem with hmem | hmem
      · exact h'.player (.inl (h.player (.inr ⟨fallen, hmem⟩)))
      · exact h'.player (.inr ⟨fallen, hmem⟩)

theorem mono {who' : CombatantId → Prop} (h : Account rules who s t deeds events)
    (hwho : ∀ id, who' id → who id) : Account rules who' s t deeds events :=
  { h with fate := fun id hid => h.fate id (hwho id hid) }

/-- Enemies never get new numbers. -/
theorem numbered (h : Account rules who s t deeds events) (hn : s.combat.Numbered) :
    t.combat.Numbered :=
  ⟨hn.1.sublist h.ids, fun hmem => hn.2 (h.ids.subset hmem)⟩

/-- Something that changes nobody. -/
theorem of_aside (henemies : t.combat.enemies = s.combat.enemies)
    (hplayer : t.combat.player = s.combat.player)
    (hchronicle : t.chronicle.toList = s.chronicle.toList ++ deeds)
    (htold : t.combat.events.toList = s.combat.events.toList ++ events)
    (hstory : ∀ id, who id → story id deeds = [])
    (hdeaths : ∀ id, events.count (.death id) = deeds.countP (·.isDeathOf id))
    (hfell : ∀ fallen, .fell .player fallen ∉ deeds) : Account rules who s t deeds events where
  ids := by rw [henemies]
  chronicle := hchronicle
  told := htold
  fate id hid := by
    have hsame : t.combat.combatant? id = s.combat.combatant? id := by
      unfold Combat.combatant?
      rw [henemies, hplayer]
    rw [hsame, hstory id hid]
    exact .refl _
  deaths := hdeaths
  player hdead := by
    rcases hdead with hdead | ⟨fallen, hmem⟩
    · rw [hplayer, hdead]
    · exact absurd hmem (hfell fallen)

/-- Other totals are no matter of fate. -/
theorem of_stats (stats : Stats) : Account rules who s { s with stats } [] [] :=
  .of_aside rfl rfl (by simp) (by simp) (fun _ _ => rfl) (fun _ => rfl) (by simp)

end Account

/-! ## Nobody dies -/

theorem Deed.not_concerns_of_not_isMortal {deed : Deed} (h : ¬deed.IsMortal) (id : CombatantId) :
    deed.concerns id = false := by
  unfold Deed.IsMortal at h
  unfold Deed.concerns
  split <;> simp_all

theorem Deed.concerns_of_isDeathOf {deed : Deed} {id : CombatantId} (h : deed.isDeathOf id) :
    deed.concerns id := by
  cases deed with
  | died other => exact h
  | fell | buried | acted | routed | changed | removed | landed | merged =>
      exact absurd h (by simp [Deed.isDeathOf])

namespace Spares

variable {rules : Rules} {who : CombatantId → Prop} {s t : Scene}

/-- A life that lasts, as a fate. -/
theorem fate (h : Spares s t) (hn : s.combat.Numbered) (id : CombatantId) :
    Fate rules id (s.combat.combatant? id) [] (t.combat.combatant? id) := by
  have hl := h.lasts id
  revert hl
  generalize s.combat.combatant? id = before, t.combat.combatant? id = after
  intro hl
  cases hl with
  | none => exact .absent
  | @some before after hl =>
      cases hb : before.isAlive with
      | true => exact .lives hb (hl.isAlive.trans hb)
      | false => exact .lies hb (hl.isAlive.trans hb) (hl.powers hn hb)

/-- Nobody's story goes on, and there is no death. -/
theorem account (h : Spares s t) (hn : s.combat.Numbered) :
    ∃ deeds events, Account rules who s t deeds events ∧ ∀ id, story id deeds = [] := by
  obtain ⟨deeds, hchronicle, hmortal⟩ := h.deeds
  obtain ⟨events, htold, hdeath⟩ := h.events
  have hstory (id : CombatantId) : story id deeds = [] := by
    apply List.filter_eq_nil_iff.mpr
    intro deed hmem
    rw [Deed.not_concerns_of_not_isMortal (hmortal deed hmem)]
    decide
  refine ⟨deeds, events, ⟨h.ids ▸ .refl _, hchronicle, htold, fun id _ => ?_, fun id => ?_, ?_⟩,
    hstory⟩
  · rw [hstory]
    exact h.fate hn id
  · have hzero : deeds.countP (·.isDeathOf id) = 0 := by
      apply List.countP_eq_zero.mpr
      intro deed hmem hd
      have := Deed.concerns_of_isDeathOf hd
      rw [Deed.not_concerns_of_not_isMortal (hmortal deed hmem)] at this
      exact absurd this (by decide)
    rw [hzero, List.count_eq_zero]
    exact hdeath id
  · rintro (hdead | ⟨fallen, hmem⟩)
    · have := h.isAlive .player
      rw [Combat.isAlive_of_combatant? Combat.combatant?_player,
        Combat.isAlive_of_combatant? Combat.combatant?_player] at this
      exact this.trans hdead
    · exact absurd trivial (hmortal _ hmem)

theorem tally (h : Spares s t) : t.tally = s.tally := by
  rw [Scene.tally, Scene.tally, h.killed, h.living]

theorem accounted (h : Spares s t) (hn : s.combat.Numbered) : Accounted rules s t := by
  obtain ⟨deeds, events, haccount, -⟩ := h.account hn
  exact ⟨⟨deeds, events, haccount⟩, h.tally⟩

end Spares

namespace Accounted

variable {rules : Rules} {s t u : Scene}

theorem numbered (h : Accounted rules s t) (hn : s.combat.Numbered) : t.combat.Numbered := by
  obtain ⟨⟨deeds, events, h⟩, -⟩ := h
  exact h.numbered hn

theorem refl (s : Scene) : Accounted rules s s := ⟨⟨[], [], .of_stats s.stats⟩, rfl⟩

theorem trans (h : Accounted rules s t) (h' : Accounted rules t u) : Accounted rules s u := by
  obtain ⟨⟨deeds, events, h⟩, htally⟩ := h
  obtain ⟨⟨deeds', events', h'⟩, htally'⟩ := h'
  exact ⟨⟨_, _, h.trans h'⟩, htally'.trans htally⟩

/-- Accounts add up, where everyone has a number of its own. -/
theorem flow : Resolution.Flow fun s t => s.combat.Numbered → Accounted rules s t where
  refl s _ := .refl s
  trans h h' hn := (h hn).trans (h' ((h hn).numbered hn))

/-- The dead are never alive again, and if they are gone they stay away. -/
theorem isAlive_eq_false (h : Accounted rules s t) {id : CombatantId}
    (hdead : s.combat.isAlive id = false) : t.combat.isAlive id = false := by
  obtain ⟨⟨deeds, events, h⟩, -⟩ := h
  by_cases hid : id = .player
  · subst hid
    rw [Combat.isAlive_of_combatant? Combat.combatant?_player] at hdead ⊢
    exact h.player (.inl hdead)
  · have hfate := h.fate id hid
    unfold Combat.isAlive at hdead ⊢
    revert hdead hfate
    generalize s.combat.combatant? id = before, story id deeds = tale,
      t.combat.combatant? id = after
    intro hdead hfate
    cases hfate with
    | absent | buried | dies => rfl
    | lies _ ha => exact ha
    | lives hb => exact absurd (hb.symm.trans hdead) (by decide)

end Accounted

end CardCombat
