import CardCombat.Proofs.Death.Fate
import CardCombat.Proofs.Resolution.Blows

/-!
# Deaths are brought to an end

Between the moment when a combatant falls and the moment when its death has been dealt with, its
account is open: it is dead, but not gone, or gone, but not counted. Everything else that happens in
between is accounted for, other deaths included, and so all is settled again once the death is over.

## Main results

* `bury_account` -- what is left when the dead were taken away.
* `Resolution.death_account` -- the end of a death.
* `Resolution.settled_of_death` -- from the fall of a combatant to the end of its death, everything
  is accounted for.
-/

namespace CardCombat

variable {rules : Rules} {id : CombatantId} {s t u : Scene}

/-- The combatants other than one, and the player, whose death ends the combat. -/
def Others (id : CombatantId) (other : CombatantId) : Prop := other ≠ .player ∧ other ≠ id

/-- How many kills there are to count when a combatant has died. -/
def toll (id : CombatantId) : Nat := if id = .player then 0 else 1

/-! ## Burials -/

theorem story_buried {dead : List CombatantId} (hd : dead.Nodup) :
    story id (dead.map .buried) = if id ∈ dead then [.buried id] else [] := by
  have hcomp : (fun deed : Deed => deed.concerns id) ∘ Deed.buried = (· == id) := rfl
  rw [story, List.filter_map, hcomp, List.filter_beq]
  split
  case isTrue hmem => rw [List.count_eq_one_of_mem hd hmem]; rfl
  case isFalse hmem => rw [List.count_eq_zero.mpr hmem]; rfl

/-- The dead enemies are those that are taken away. -/
theorem Combat.mem_reap_iff {combat : Combat} (hn : combat.Numbered) (hid : id ≠ .player) :
    id ∈ combat.reap.1 ↔ ∃ c, combat.combatant? id = some c ∧ c.isAlive = false := by
  unfold reap
  rw [List.mem_map]
  constructor
  · rintro ⟨c, hc, rfl⟩
    obtain ⟨hc, hdead⟩ := List.mem_filter.mp hc
    exact ⟨c, (combatant?_eq_some_iff hn hid).mpr ⟨hc, rfl⟩, by simpa using hdead⟩
  · rintro ⟨c, hc, hdead⟩
    obtain ⟨hmem, rfl⟩ := (combatant?_eq_some_iff hn hid).mp hc
    exact ⟨c, List.mem_filter.mpr ⟨hmem, by simpa using hdead⟩, rfl⟩

/-- Taking the dead away is accounted for. -/
theorem bury_account (hn : s.combat.Numbered) :
    Account rules (· ≠ .player) s s.bury (s.combat.reap.1.map .buried) [] where
  ids := List.filter_sublist.map _
  chronicle := by simp [Scene.bury]
  told := by simp [Scene.bury, Combat.reap]
  fate id hid := by
    have hnodup : s.combat.reap.1.Nodup := hn.1.sublist (List.filter_sublist.map _)
    have hafter : s.bury.combat.combatant? id = (s.combat.combatant? id).filter (·.isAlive) :=
      Combat.combatant?_reap hn hid
    have hmem := @Combat.mem_reap_iff id s.combat hn hid
    rw [story_buried hnodup, hafter]
    revert hmem
    generalize s.combat.combatant? id = found
    intro hmem
    cases found with
    | none =>
        rw [if_neg fun h => absurd (hmem.mp h) (by simp)]
        exact .absent
    | some c =>
        cases hc : c.isAlive with
        | true =>
            have hnot : id ∉ s.combat.reap.1 := fun h => absurd (hmem.mp h) (by simp [hc])
            rw [if_neg hnot, Option.filter_some, if_pos hc]
            exact .lives hc hc
        | false =>
            rw [if_pos (hmem.mpr ⟨c, rfl, hc⟩), Option.filter_some, if_neg (by simp [hc])]
            exact .buried hc
  deaths id := by
    rw [List.count_nil, List.countP_map, eq_comm, List.countP_eq_zero]
    simp [Deed.isDeathOf]
  player hdead := hdead.resolve_right (by simp)

/-- A dead enemy is gone for good once it has been taken away, if it was still there. -/
theorem gone_of_bury {deeds : List Deed} {events : List Event} (hn : s.combat.Numbered)
    (hid : id ≠ .player) (hdead : s.combat.isAlive id = false)
    (hlater : Account rules (· ≠ .player) s.bury t deeds events) :
    t.combat.combatant? id = none ∧ story id (s.combat.reap.1.map .buried ++ deeds) =
      if (s.combat.combatant? id).isSome then [.buried id] else [] := by
  have hgone : s.bury.combat.combatant? id = none := by
    refine (Combat.combatant?_reap hn hid).trans (Option.filter_eq_none_iff.mpr fun c hc => ?_)
    rw [← Combat.isAlive_of_combatant? hc, hdead]
    decide
  have hburied := (@bury_account rules s hn).fate id hid
  have hfate := hlater.fate id hid
  rw [story, List.filter_append]
  show _ ∧ story id _ ++ story id _ = _
  rw [hgone] at hburied hfate
  revert hburied hfate hdead
  unfold Combat.isAlive
  generalize s.combat.combatant? id = before, t.combat.combatant? id = after,
    story id deeds = tale', story id (s.combat.reap.1.map .buried) = tale
  intro hdead hburied hfate
  cases hfate with
  | absent =>
      cases hburied with
      | absent | buried => exact ⟨rfl, rfl⟩
      | dies hb => exact absurd (hb.symm.trans hdead) (by decide)

theorem tally_bury : s.bury.tally = s.tally := by
  have hliving : s.bury.combat.livingEnemies = s.combat.livingEnemies := by
    show (s.combat.enemies.filter (·.isAlive)).filter (·.isAlive) = _
    rw [List.filter_filter]
    simp only [Bool.and_self]
    rfl
  rw [Scene.tally, hliving]
  rfl

/-! ## Falls -/

/-- A living combatant falls, and nobody else does. -/
def Falls (id : CombatantId) (fallen : Combatant) (s t : Scene) : Prop :=
  ∃ before, s.combat.combatant? id = some before ∧ before.isAlive = true ∧
    fallen.id = before.id ∧ fallen.isAlive = false ∧ Spares (s.setCombatant id fallen) t

theorem setCombatant_of_fall {before fallen : Combatant}
    (hc : s.combat.combatant? id = some before) (hb : before.isAlive = true)
    (hf : fallen.isAlive = false) :
    s.setCombatant id fallen = (s.putCombatant id fallen).record (.fell id fallen) := by
  unfold Scene.setCombatant
  rw [Combat.isAlive_of_combatant? hc, hb, hf]
  rfl

/-- A fall is accounted for as far as everyone else is concerned. -/
theorem fall_account {before fallen : Combatant} (hc : s.combat.combatant? id = some before)
    (hb : before.isAlive = true) (hid : fallen.id = before.id) (hf : fallen.isAlive = false) :
    Account rules (Others id) s (s.setCombatant id fallen) [.fell id fallen] [] := by
  rw [setCombatant_of_fall hc hb hf]
  have hfound (other : CombatantId) :
      ((s.putCombatant id fallen).record (.fell id fallen)).combat.combatant? other =
        if other = id then some fallen else s.combat.combatant? other :=
    Combat.combatant?_setCombatant hc hid
  refine ⟨?_, by simp [Scene.record, Scene.putCombatant], ?_, fun other ho => ?_, fun other => ?_,
    fun hdead => ?_⟩
  · show ((s.combat.setCombatant id fallen).enemies.map (·.id)).Sublist _
    rw [Combat.map_id_enemies_setCombatant hc hid]
  · unfold Scene.record Scene.putCombatant Combat.setCombatant
    split <;> simp
  · have hstory : story other [.fell id fallen] = [] :=
      List.filter_eq_nil_iff.mpr (by simpa [Deed.concerns] using ho.2.symm)
    rw [hfound, if_neg ho.2, hstory]
    exact .refl _
  · rfl
  · have hplayer := hfound .player
    rw [Combat.combatant?_player] at hplayer
    split at hplayer
    · rw [Option.some.inj hplayer, hf]
    case isFalse hp =>
      rw [Option.some.inj hplayer]
      refine hdead.resolve_right fun hfell => hp ?_
      obtain ⟨c, hmem⟩ := hfell
      exact (Deed.fell.inj (List.mem_singleton.mp hmem)).1

theorem tally_fall {before fallen : Combatant} (hc : s.combat.combatant? id = some before)
    (hb : before.isAlive = true) (hf : fallen.isAlive = false) :
    (s.setCombatant id fallen).tally + toll id = s.tally := by
  rw [setCombatant_of_fall hc hb hf]
  show s.stats.enemiesKilled + (s.combat.setCombatant id fallen).livingEnemies.length + _ = _
  unfold toll Scene.tally
  split
  case isTrue hp => rw [hp, Combat.livingEnemies_setCombatant_player, Nat.add_zero]
  case isFalse hp =>
    have := @Combat.length_livingEnemies_setCombatant _ _ _ fallen hp hc
    rw [hb, hf] at this
    simp only [Bool.toNat_true, Bool.toNat_false] at this
    omega

/-- Whoever has fallen is dead. -/
theorem Falls.isAlive_eq_false {fallen : Combatant} (h : Falls id fallen s t) :
    t.combat.isAlive id = false := by
  obtain ⟨before, hc, hb, hid, hf, hspares⟩ := h
  rw [hspares.isAlive, setCombatant_of_fall hc hb hf, Combat.isAlive]
  show ((s.combat.setCombatant id fallen).combatant? id).any (·.isAlive) = false
  rw [Combat.combatant?_setCombatant hc hid, if_pos rfl, Option.any_some, hf]

/-! ## Last words -/

/-- The last words of an enemy that lies dead, or has been taken away already: it may be taken away
while they are heard. -/
inductive Wake (id : CombatantId) :
    Option Combatant → List (List Effect) → List Deed → Option Combatant → Prop
  | lies {before after lists} (ha : after.isAlive = false) :
      Wake id (some before) lists (lists.map (.acted id .death)) (some after)
  | buried {before} (earlier later) : Wake id (some before) (earlier ++ later)
      (earlier.map (.acted id .death) ++ .buried id :: later.map (.acted id .death)) none
  | gone (lists) : Wake id none lists (lists.map (.acted id .death)) none

theorem Wake.cons {a b c : Option Combatant} {effects : List Effect} {lists : List (List Effect)}
    {deeds deeds' : List Deed} (ha : ∀ before, a = some before → before.isAlive = false)
    (h : Fate rules id a deeds b) (h' : Wake id b lists deeds' c) :
    Wake id a (effects :: lists) (.acted id .death effects :: (deeds ++ deeds')) c := by
  cases h with
  | absent =>
      cases h' with
      | gone => exact .gone (effects :: lists)
  | lies =>
      cases h' with
      | lies ha' => exact .lies ha'
      | buried earlier later => exact .buried (effects :: earlier) later
  | buried =>
      cases h' with
      | gone => exact .buried [effects] lists
  | lives hb | dies hb => exact absurd (hb.symm.trans (ha _ rfl)) (by decide)

/-! ## Deaths -/

/-- Where everyone has a number of its own, everything is accounted for. -/
abbrev Settled (rules : Rules) (s t : Scene) : Prop := s.combat.Numbered → Accounted rules s t

/-- Plain steps leave nothing open. -/
theorem Step.settled (h : Step rules Effect.Any s t) : Settled rules s t := h.spares.accounted

theorem Course.settled (h : Course rules Effect.Any s t) : Settled rules s t := h.spares.accounted

/-- What has been written down of others is no part of a story. -/
theorem story_acted {owner : CombatantId} {occasion : Occasion} {effects : List Effect}
    (h : occasion ≠ .death ∨ owner ≠ id) : story id [.acted owner occasion effects] = [] := by
  apply List.filter_eq_nil_iff.mpr
  intro deed hmem
  obtain rfl := List.mem_singleton.mp hmem
  unfold Deed.concerns
  split <;> simp_all

theorem record_acted_account {who : CombatantId → Prop} {owner : CombatantId} {occasion : Occasion}
    {effects : List Effect} (h : ∀ id, who id → occasion ≠ .death ∨ owner ≠ id) :
    Account rules who s (s.record (.acted owner occasion effects))
      [.acted owner occasion effects] [] :=
  .of_aside rfl rfl (by simp [Scene.record]) (by simp [Scene.record])
    (fun id hid => story_acted (h id hid)) (fun _ => rfl) (by simp)

namespace Resolution

variable {nested : List Effect → Context → Resolution Unit} {ctx : Context}

/-- The last words of a combatant are heard. What is accounted for is everything that they bring
about, and what the words are. -/
theorem Acts.account {lists : List (List Effect)} (h : Acts (Settled rules) id .death lists s t)
    (hn : s.combat.Numbered) (hdead : s.combat.isAlive id = false) :
    ∃ deeds events, Account rules (Others id) s t deeds events ∧ t.tally = s.tally ∧
      (id ≠ .player → Wake id (s.combat.combatant? id) lists (story id deeds)
        (t.combat.combatant? id)) := by
  have hdown {s : Scene} (hdead : s.combat.isAlive id = false) (before : Combatant)
      (hc : s.combat.combatant? id = some before) : before.isAlive = false :=
    (Combat.isAlive_of_combatant? hc).symm.trans hdead
  induction h with
  | nil s =>
      refine ⟨[], [], .of_stats s.stats, rfl, fun _ => ?_⟩
      cases hc : s.combat.combatant? id with
      | none => exact .gone []
      | some c => exact @Wake.lies id c c [] (hdown hdead c hc)
  | @cons effects lists s t u h hrest ih =>
      have hrecord : Account rules (Others id) s (s.record (.acted id .death effects)) _ _ :=
        record_acted_account fun other ho => .inr ho.2.symm
      have haccounted : Accounted rules (s.record (.acted id .death effects)) t := h hn
      have hdead' : t.combat.isAlive id = false := haccounted.isAlive_eq_false hdead
      obtain ⟨⟨deeds, events, haccount⟩, htally⟩ := haccounted
      obtain ⟨deeds', events', haccount', htally', hwake⟩ := ih (haccount.numbered hn) hdead'
      refine ⟨_, _, hrecord.trans ((haccount.mono fun _ ho => ho.1).trans haccount'),
        htally'.trans htally, fun hid => ?_⟩
      have hstory : story id ([.acted id .death effects] ++ (deeds ++ deeds')) =
          .acted id .death effects :: (story id deeds ++ story id deeds') := by
        simp [story, Deed.concerns]
      rw [hstory]
      exact Wake.cons (hdown hdead) (haccount.fate id hid) (hwake hid)

/-- Occasions other than a death leave nothing open. -/
theorem react_settled (hnested : ∀ effects ctx, Ensures (Settled rules) (nested effects ctx))
    {owner : CombatantId} {occasion : Occasion} (ho : occasion ≠ .death)
    {cause : Option CombatantId} :
    Ensures (Settled rules) (react rules nested owner occasion cause ctx) := by
  refine ⟨fun {s u t} h => ?_⟩
  rcases react_acts hnested h with ⟨-, rfl⟩ | ⟨c, -, hacts⟩
  · exact Accounted.flow.refl s
  · exact hacts.carried Accounted.flow fun _ _ _ =>
      ⟨⟨_, _, record_acted_account fun _ _ => .inl ho⟩, rfl⟩

/-- That a death is reported and counted, is accounted for as far as everyone else is concerned. -/
theorem count_account {counted : Scene}
    (h : Counts id ((s.report (.death id)).record (.died id)) counted) :
    Account rules (Others id) s counted [.died id] [.death id] ∧
      counted.tally = s.tally + toll id ∧ counted.combat.combatant? = s.combat.combatant? := by
  have haccount : Account rules (Others id) s ((s.report (.death id)).record (.died id))
      [.died id] [.death id] := by
    refine .of_aside rfl rfl (by simp [Scene.record, Scene.report])
      (by simp [Scene.record, Scene.report, Combat.report]) (fun other ho => ?_) (fun other => ?_)
        (by simp)
    · exact List.filter_eq_nil_iff.mpr (by simpa [Deed.concerns] using ho.2.symm)
    · simp [Deed.isDeathOf, List.count_singleton]
  rcases h with ⟨hid, rfl⟩ | ⟨hid, enemiesKilled, hkilled, rfl⟩
  · refine ⟨haccount, ?_, rfl⟩
    rw [toll, if_pos hid]
    rfl
  · refine ⟨haccount.trans (.of_stats _), ?_, rfl⟩
    obtain ⟨-, rfl⟩ := Unsigned.add_eq_ok_iff.mp hkilled
    rw [toll, if_neg hid]
    show s.stats.enemiesKilled + 1 + s.combat.livingEnemies.length = _
    unfold Scene.tally
    omega

/-- What is heard of a combatant that is down: nothing if it is nowhere, or else its last words. -/
inductive Hears (rules : Rules) (id : CombatantId) :
    Option Combatant → List Deed → Option Combatant → Prop
  | nobody : Hears rules id none [] none
  | words {c tale after} (h : Wake id (some c) (lastWords rules c) tale after) :
      Hears rules id (some c) tale after

/-- The story of a combatant from when its death is dealt with: it dies, and if it was still there,
all its last words are heard, with its burial among them. -/
inductive Departs (rules : Rules) (id : CombatantId) : Option Combatant → List Deed → Prop
  | nobody : Departs rules id none [.died id]
  | somebody {c earlier later} (h : earlier ++ later = lastWords rules c) :
      Departs rules id (some c)
        (.died id :: earlier.map (.acted id .death) ++ .buried id :: later.map (.acted id .death))

/-- Whoever is still there after the last words is taken away. -/
theorem Hears.departs {before after : Option Combatant} {tale : List Deed}
    (h : Hears rules id before tale after) : Departs rules id before
      (.died id :: (tale ++ if after.isSome then [.buried id] else [])) := by
  cases h with
  | nobody => exact .nobody
  | @words c _ _ hwake =>
      generalize hlists : lastWords rules c = lists at hwake
      cases hwake with
      | lies => exact @Departs.somebody rules id c lists [] (by rw [hlists, List.append_nil])
      | buried earlier later =>
          have hdeparts := @Departs.somebody rules id c earlier later hlists.symm
          simpa using hdeparts

theorem Hears.isAlive_eq_false {before after : Option Combatant} {tale : List Deed}
    (h : Hears rules id before tale after) : after.any (·.isAlive) = false := by
  cases h with
  | nobody => rfl
  | @words c _ _ hwake =>
      generalize lastWords rules c = lists at hwake
      cases hwake with
      | lies ha => exact ha
      | buried => rfl

/-- The triggers of a death are the last words, and whatever they bring about is accounted for. -/
theorem react_hears (hnested : ∀ effects ctx, Ensures (Settled rules) (nested effects ctx))
    (hn : s.combat.Numbered) (hdead : s.combat.isAlive id = false) {cause : Option CombatantId}
    {v : Unit} (h : (react rules nested id .death cause ctx).run s = .ok (v, t)) :
    ∃ deeds events, Account rules (Others id) s t deeds events ∧ t.tally = s.tally ∧
      (id ≠ .player →
        Hears rules id (s.combat.combatant? id) (story id deeds) (t.combat.combatant? id)) := by
  rcases react_acts hnested h with ⟨hnone, rfl⟩ | ⟨c, hc, hacts⟩
  · refine ⟨[], [], .of_stats s.stats, rfl, fun _ => ?_⟩
    rw [hnone]
    exact .nobody
  · obtain ⟨deeds, events, haccount, htally, hwake⟩ := hacts.account hn hdead
    refine ⟨deeds, events, haccount, htally, fun hid => ?_⟩
    have hwords := hwake hid
    rw [hc] at hwords ⊢
    exact .words (by simpa [lastWords, CombatantId.isPlayer, hid] using hwords)

/-- **The end of a death.** Whoever has fallen is gone when its death has been dealt with. -/
theorem death_account (hnested : ∀ effects ctx, Ensures (Settled rules) (nested effects ctx))
    (hn : s.combat.Numbered) (hdead : s.combat.isAlive id = false) {killer : CombatantId} {v : Unit}
    (h : (die rules nested ctx id killer).run s = .ok (v, t)) :
    ∃ deeds events, Account rules (Others id) s t deeds events ∧ t.tally = s.tally + toll id ∧
      (id ≠ .player → t.combat.combatant? id = none ∧
        Departs rules id (s.combat.combatant? id) (story id deeds)) := by
  obtain ⟨counted, heard, hcount, hreact, hkill⟩ := death_of_run h
  obtain ⟨hcounted, htally, hsame⟩ : Account rules _ s counted _ _ ∧ _ := count_account hcount
  have hn' : counted.combat.Numbered := hcounted.numbered hn
  have hdead' : counted.combat.isAlive id = false := by
    unfold Combat.isAlive at hdead ⊢
    rw [hsame, hdead]
  obtain ⟨deeds, events, hheard, htally', hhears⟩ := react_hears hnested hn' hdead' hreact
  have hburied : Account rules (· ≠ .player) heard heard.bury _ _ :=
    bury_account (hheard.numbered hn')
  obtain ⟨⟨deeds', events', hlast⟩, htally''⟩ :=
    Ensures.onlyIf Accounted.flow (react_settled hnested (by decide)) hkill
      (hburied.numbered (hheard.numbered hn'))
  refine ⟨_, _, hcounted.trans (hheard.trans ((hburied.trans hlast).mono fun _ ho => ho.1)), ?_,
    fun hid => ?_⟩
  · rw [htally'', tally_bury, htally', htally]
  · have hdown : heard.combat.isAlive id = false := (hhears hid).isAlive_eq_false
    obtain ⟨hgone, hrest⟩ := gone_of_bury (hheard.numbered hn') hid hdown hlast
    have hstory : story id ([.died id] ++ (deeds ++ (heard.combat.reap.1.map .buried ++ deeds'))) =
        .died id :: (story id deeds ++ story id (heard.combat.reap.1.map .buried ++ deeds')) := by
      simp [story, Deed.concerns]
    rw [hstory, hrest, ← hsame]
    exact ⟨hgone, (hhears hid).departs⟩

/-- The fates of the others and that of one combatant are the fates of all. -/
theorem account_of_others {deeds : List Deed} {events : List Event}
    (h : Account rules (Others id) s t deeds events)
    (hfate : id ≠ .player → Fate rules id (s.combat.combatant? id) (story id deeds)
      (t.combat.combatant? id)) : Account rules (· ≠ .player) s t deeds events :=
  { h with
    fate := fun other ho => by
      by_cases h' : other = id
      · exact h' ▸ hfate (h' ▸ ho)
      · exact h.fate other ⟨ho, h'⟩ }

/-- **From the fall of a combatant to the end of its death everything is accounted for**, if what
happens in between is. -/
theorem accounted_of_death (hnested : ∀ effects ctx, Ensures (Settled rules) (nested effects ctx))
    {fallen : Combatant} (hn : s.combat.Numbered) (hfall : Falls id fallen s u) {v : Scene}
    (hmeanwhile : Settled rules u v) {killer : CombatantId} {a : Unit}
    (hdie : (die rules nested ctx id killer).run v = .ok (a, t)) : Accounted rules s t := by
  obtain ⟨before, hc, hb, hid, hf, hspares⟩ := hfall
  have hfell : Account rules (Others id) s (s.setCombatant id fallen) _ _ :=
    fall_account hc hb hid hf
  have hn' : (s.setCombatant id fallen).combat.Numbered := hfell.numbered hn
  have hlying : (s.setCombatant id fallen).combat.combatant? id = some fallen := by
    rw [setCombatant_of_fall hc hb hf]
    exact (Combat.combatant?_setCombatant hc hid).trans (if_pos rfl)
  have haccounted : Accounted rules (s.setCombatant id fallen) v :=
    (hspares.accounted hn').trans (hmeanwhile (hspares.numbered_iff.mpr hn'))
  have hdead : v.combat.isAlive id = false := by
    apply haccounted.isAlive_eq_false
    rw [Combat.isAlive_of_combatant? hlying, hf]
  obtain ⟨⟨deeds, events, hbetween⟩, htally⟩ := haccounted
  obtain ⟨deeds', events', hend, htally', hgone⟩ :=
    death_account hnested (hbetween.numbered hn') hdead hdie
  refine ⟨⟨_, _, account_of_others (hfell.trans ((hbetween.mono fun _ ho => ho.1).trans hend))
    fun hid => ?_⟩, ?_⟩
  · have hstory : story id ([.fell id fallen] ++ (deeds ++ deeds')) =
        .fell id fallen :: (story id deeds ++ story id deeds') := by
      simp [story, Deed.concerns]
    have hfate := hbetween.fate id hid
    obtain ⟨hgone, hend⟩ := hgone hid
    rw [hstory, hc, hgone]
    rw [hlying] at hfate
    revert hfate hend
    generalize story id deeds = tale, story id deeds' = tale', v.combat.combatant? id = found
    intro hfate hend
    refine .dies hb hf ?_
    cases hfate with
    | lies _ _ hp =>
        cases hend with
        | somebody hwords => exact .timely (hwords.trans (lastWords_congr hp))
    | buried =>
        cases hend with
        | nobody => exact .late
    | lives hb' | dies hb' => exact absurd (hb'.symm.trans hf) (by decide)
  · have := tally_fall hc hb hf
    omega

end Resolution

end CardCombat
