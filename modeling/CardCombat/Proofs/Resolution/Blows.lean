import CardCombat.Proofs.Resolution.Carries

/-!
# Blows

Hits, executions and deaths peeled apart: what each of them has done when it succeeded, in terms of
the steps that it is made of.

## Main results

* `Resolution.dealt_of_run`, `Resolution.executed_of_run` -- damage and execution.
* `Resolution.run_die_iff` -- a death.
-/

namespace CardCombat.Resolution

variable {rules : Rules} {may : Effect → Prop} {nested : List Effect → Context → Resolution Unit}
  {s t : Scene}

/-! ## Damage -/

/-- Damage that has reached a combatant. -/
theorem reached_of_run {source target : CombatantId} {before : Combatant} {amount : Int}
    {element : Element} {piercing : Bool} {found : Option DamageReport}
    (hc : s.combat.combatant? target = some before)
    (h : (dealDamage source target amount element piercing).run s = .ok (found, t)) :
    ∃ outcome after stats, found = some outcome ∧
      before.takeDamage amount piercing = .ok (outcome, after) ∧
        s.stats.countDamage source target outcome.healthLost = .ok stats ∧
          { (s.setCombatant target after).report (.damage target amount outcome.blocked element) with
            stats } = t := by
  unfold dealDamage at h
  simp only [run_bind_iff, run_combatant?_iff] at h
  obtain ⟨_, _, ⟨rfl, rfl⟩, h⟩ := h
  rw [hc] at h
  simp only [run_bind_iff, run_lift_iff, run_setCombatant_iff, run_report_iff, run_get_iff,
    run_modify_iff, run_pure_iff] at h
  obtain ⟨⟨outcome, after⟩, _, ⟨htake, rfl⟩, _, _, rfl, _, _, rfl, _, _, ⟨rfl, rfl⟩, stats, _,
    ⟨hstats, rfl⟩, _, _, rfl, rfl, rfl⟩ := h
  refine ⟨outcome, after, stats, rfl, htake, ?_, rfl⟩
  rw [← hstats]
  unfold Scene.setCombatant
  split <;> rfl

/-- Damage reaches a combatant, if it is there. -/
theorem dealt_of_run {source target : CombatantId} {amount : Int} {element : Element}
    {piercing : Bool} {found : Option DamageReport}
    (h : (dealDamage source target amount element piercing).run s = .ok (found, t)) :
    found = none ∧ s.combat.combatant? target = none ∧ s = t ∨
      ∃ outcome, found = some outcome ∧ Damages source target outcome s t := by
  cases hc : s.combat.combatant? target with
  | none =>
      unfold dealDamage at h
      simp only [run_bind_iff, run_combatant?_iff] at h
      obtain ⟨_, _, ⟨rfl, rfl⟩, h⟩ := h
      rw [hc] at h
      obtain ⟨rfl, rfl⟩ := run_pure_iff.mp h
      exact .inl ⟨rfl, rfl, rfl⟩
  | some before =>
      obtain ⟨outcome, after, stats, rfl, htake, hstats, rfl⟩ := reached_of_run hc h
      exact .inr ⟨outcome, rfl, .mk hc htake hstats⟩

/-- An execution takes the last health of a living combatant. -/
theorem executed_of_run {target : CombatantId} {percent : Int} {executed : Bool}
    (h : (executeBelow target percent).run s = .ok (executed, t)) :
    executed = false ∧ s = t ∨ executed = true ∧ ∃ before after,
      s.combat.combatant? target = some before ∧ before.isAlive ∧ before.setHealth 0 = .ok after ∧
        (s.setCombatant target after).report (.execute target) = t := by
  unfold executeBelow at h
  simp only [run_bind_iff, run_combatant?_iff] at h
  obtain ⟨_, _, ⟨rfl, rfl⟩, h⟩ := h
  split at h
  case h_1 =>
    obtain ⟨rfl, rfl⟩ := run_pure_iff.mp h
    exact .inl ⟨rfl, rfl⟩
  case h_2 before hc =>
    obtain ⟨hc, halive⟩ := Option.filter_eq_some_iff.mp hc
    obtain ⟨percent, _, hpercent, h⟩ := run_bind_iff.mp h
    obtain ⟨-, rfl⟩ := run_lift_iff.mp hpercent
    split at h
    · simp only [run_bind_iff, run_lift_iff, run_setCombatant_iff, run_report_iff,
        run_pure_iff] at h
      obtain ⟨after, _, ⟨hset, rfl⟩, _, _, rfl, _, _, rfl, rfl, rfl⟩ := h
      exact .inr ⟨rfl, before, after, hc, halive, hset, rfl⟩
    · obtain ⟨rfl, rfl⟩ := run_pure_iff.mp h
      exact .inl ⟨rfl, rfl⟩

/-! ## Death -/

theorem run_forM_record_iff {α : Type} {xs : List α} {deed : α → Deed} {u : Unit} :
    (xs.forM fun x => record (deed x)).run s = .ok (u, t) ↔
      { s with chronicle := s.chronicle ++ (xs.map deed).toArray } = t := by
  induction xs generalizing s with
  | nil =>
      rw [List.map_nil, Array.append_empty]
      exact run_pure_iff.trans (and_iff_right rfl)
  | cons x xs ih =>
      show (record (deed x) >>= fun _ => xs.forM fun x => record (deed x)).run s = _ ↔ _
      simp only [run_bind_iff, run_record_iff]
      constructor
      · rintro ⟨_, _, rfl, h⟩
        rw [← ih.mp h]
        simp [Scene.record]
      · intro h
        refine ⟨(), _, rfl, ih.mpr ?_⟩
        rw [← h]
        simp [Scene.record]

theorem run_bury_iff {u : Unit} : bury.run s = .ok (u, t) ↔ s.bury = t := by
  unfold bury
  simp only [run_bind_iff, run_combat_iff, run_modifyCombat_iff, run_forM_record_iff]
  constructor
  · rintro ⟨_, _, ⟨rfl, rfl⟩, _, _, rfl, h⟩
    exact h
  · exact fun h => ⟨_, _, ⟨rfl, rfl⟩, (), _, rfl, h⟩

/-- A kill is counted, unless it is the player that died. -/
def Counts (victim : CombatantId) (s t : Scene) : Prop :=
  victim = .player ∧ s = t ∨ victim ≠ .player ∧ ∃ enemiesKilled,
    Unsigned.add 64 s.stats.enemiesKilled 1 = .ok enemiesKilled ∧
      { s with stats := { s.stats with enemiesKilled } } = t

theorem counts_of_run {victim : CombatantId} {u : Unit}
    (h : (onlyIf (!victim.isPlayer) countKill).run s = .ok (u, t)) : Counts victim s t := by
  rcases run_onlyIf_iff.mp h with ⟨hv, h⟩ | ⟨hv, h⟩
  · unfold countKill at h
    simp only [run_bind_iff, run_get_iff, run_lift_iff, run_modify_iff] at h
    obtain ⟨_, _, ⟨rfl, rfl⟩, n, _, ⟨hn, rfl⟩, h⟩ := h
    exact .inr ⟨by simpa [CombatantId.isPlayer] using hv, n, hn, h⟩
  · exact .inl ⟨by simpa [CombatantId.isPlayer] using hv, h⟩

/-- **The course of a death**: it is reported and counted, the last words are heard, the dead are
taken away, and the killer responds. -/
theorem death_of_run {ctx : Context} {victim killer : CombatantId} {u : Unit}
    (h : (die rules nested ctx victim killer).run s = .ok (u, t)) :
    ∃ counted heard, Counts victim ((s.report (.death victim)).record (.died victim)) counted ∧
      (react rules nested victim .death (some killer) ctx).run counted = .ok ((), heard) ∧
        (onlyIf (killer != victim) do react rules nested killer .kill (some victim) ctx).run
          heard.bury = .ok ((), t) := by
  unfold die at h
  obtain ⟨_, _, hreport, h⟩ := run_bind_iff.mp h
  obtain rfl := run_report_iff.mp hreport
  obtain ⟨_, _, hrecord, h⟩ := run_bind_iff.mp h
  obtain rfl := run_record_iff.mp hrecord
  obtain ⟨_, counted, hcount, h⟩ := run_bind_iff.mp h
  obtain ⟨_, heard, hreact, h⟩ := run_bind_iff.mp h
  obtain ⟨_, _, hbury, h⟩ := run_bind_iff.mp h
  obtain rfl := run_bury_iff.mp hbury
  exact ⟨counted, heard, counts_of_run hcount, hreact, h⟩

/-! ## Relations that hold of blows -/

/-- A relation that adds up, and that holds of every plain step and of every blow. -/
structure Bears (rules : Rules) (may : Effect → Prop)
    (nested : List Effect → Context → Resolution Unit)
    (R : Scene → Scene → Prop) : Prop where
  flow : Flow R
  step : ∀ {s t}, Step rules may s t → R s t
  blow : ∀ {s t}, Blow rules s t → R s t
  inside : ∀ effects ctx, Ensures R (nested effects ctx)

namespace Bears

variable {R : Scene → Scene → Prop} {ctx : Context} {target : CombatantId}
  (hR : Bears rules may nested R)

include hR

theorem course (h : Course rules may s t) : R s t := by
  induction h with
  | refl => exact hR.flow.refl s
  | tail _ hstep ih => exact hR.flow.trans ih (hR.step hstep)

theorem dealDamage (source target : CombatantId) (amount : Int) (element : Element)
    (piercing : Bool) : Ensures R (dealDamage source target amount element piercing) := by
  refine ⟨fun {s found t} h => ?_⟩
  rcases dealt_of_run h with ⟨-, -, rfl⟩ | ⟨outcome, -, h⟩
  · exact hR.flow.refl s
  · exact hR.blow (.damaged h)

theorem executeBelow (percent : Int) : Ensures R (executeBelow target percent) := by
  refine ⟨fun {s executed t} h => ?_⟩
  rcases executed_of_run h with ⟨-, rfl⟩ | ⟨-, before, after, hc, -, hset, rfl⟩
  · exact hR.flow.refl s
  · exact hR.blow (.executed hc hset)

theorem react {owner : CombatantId} {occasion : Occasion} {cause : Option CombatantId} :
    Ensures R (react rules nested owner occasion cause ctx) := by
  refine ⟨fun {s u t} h => ?_⟩
  rcases react_acts hR.inside h with ⟨-, rfl⟩ | ⟨c, -, hacts⟩
  · exact hR.flow.refl s
  · exact hacts.carried hR.flow fun _ _ => hR.blow (.acted _ _ _)

theorem die {killer : CombatantId} : Ensures R (die rules nested ctx target killer) := by
  refine ⟨fun {s u t} h => ?_⟩
  obtain ⟨counted, heard, hcount, hreact, hkill⟩ := death_of_run h
  have hcounted : R ((s.report (.death target)).record (.died target)) counted := by
    rcases hcount with ⟨-, rfl⟩ | ⟨-, enemiesKilled, hkilled, rfl⟩
    · exact hR.flow.refl _
    · exact hR.blow (.counted hkilled)
  have hheard : R counted heard := hR.react hreact
  have hkilled : R heard.bury t := Ensures.onlyIf hR.flow hR.react hkill
  have hburied : R heard heard.bury := hR.blow .buried
  exact hR.flow.trans (hR.blow (.died target)) (hR.flow.trans hcounted
    (hR.flow.trans hheard (hR.flow.trans hburied hkilled)))

theorem afterDamage (outcome : DamageReport) (attack : Bool) :
    Ensures R (afterDamage rules nested ctx target outcome attack) := by
  refine Ensures.bind hR.flow (Ensures.onlyIf hR.flow ?_) fun _ =>
    Ensures.bind hR.flow (Ensures.onlyIf hR.flow hR.react) fun _ => Ensures.onlyIf hR.flow hR.die
  exact Ensures.bind hR.flow hR.react fun _ => hR.react

theorem hurt (amount : Int) (element : Element) (piercing : Bool) :
    Ensures R (hurt rules nested ctx target amount element piercing) := by
  refine Ensures.bind hR.flow (hR.dealDamage _ _ _ _ _) fun found => ?_
  cases found with
  | none => exact Ensures.pure hR.flow ()
  | some outcome => exact hR.afterDamage outcome false

theorem leaveStatus (status : PowerId) (stack : Int) :
    Ensures R (leaveStatus rules target status stack) :=
  (leaveStatus_course target status stack).mono fun _ _ => hR.course

theorem settleCombo (combo : Option Combo) (dealt : Int) :
    Ensures R (settleCombo rules nested ctx target combo dealt) := by
  cases combo with
  | none => exact Ensures.pure hR.flow false
  | some combo =>
      refine Ensures.bind hR.flow (Ensures.forSome hR.flow fun _ => hR.leaveStatus _ _) fun _ =>
        Ensures.bind hR.flow (Ensures.forSome hR.flow fun _ => ?_) fun _ => ?_
      · exact Ensures.bind hR.flow (Ensures.lift hR.flow _) fun _ =>
          Ensures.combat hR.flow fun _ => Ensures.forM hR.flow fun _ _ => hR.hurt _ _ _
      · split
        · exact hR.executeBelow _
        · exact Ensures.pure hR.flow false

theorem aftermath (hit : Hit) (combo : Option Combo) (amount : Int) (landed : DamageReport) :
    Ensures R (aftermath rules nested ctx target hit combo amount landed) := by
  refine Ensures.bind hR.flow (hR.settleCombo _ _) fun executed =>
    Ensures.bind hR.flow (Ensures.onlyIf hR.flow ?_) fun _ =>
      Ensures.bind hR.flow (Ensures.onlyIf hR.flow ?_) fun _ =>
        Ensures.bind hR.flow (hR.afterDamage _ true) fun _ => Ensures.pure hR.flow _
  · exact Ensures.bind hR.flow (Ensures.lift hR.flow _) fun _ => hR.inside _ _
  · exact Ensures.forSome hR.flow fun _ => hR.leaveStatus _ _

theorem hit (hit : Hit) : Ensures R (resolveHit rules nested ctx target hit) := by
  refine ⟨fun {s outcome t} h => ?_⟩
  obtain ⟨_, _, hcombat, h⟩ := run_bind_iff.mp h
  obtain ⟨rfl, rfl⟩ := run_combat_iff.mp hcombat
  split at h
  case h_1 =>
    obtain ⟨-, rfl⟩ := run_pure_iff.mp h
    exact hR.flow.refl s
  case h_2 defender hdefender =>
    obtain ⟨hc, halive⟩ := Option.filter_eq_some_iff.mp hdefender
    obtain ⟨⟨combo, amount⟩, _, hcombo, h⟩ := run_bind_iff.mp h
    obtain ⟨-, rfl⟩ := run_lift_iff.mp hcombo
    obtain ⟨_, u, hconsume, h⟩ := run_bind_iff.mp h
    have hsu : R s u := by
      cases combo with
      | none =>
          obtain ⟨-, rfl⟩ := run_pure_iff.mp hconsume
          exact hR.flow.refl s
      | some combo => exact hR.course (consume_course hc halive hconsume).course
    obtain ⟨found, v, hdeal, h⟩ := run_bind_iff.mp h
    have hsv : R s v := hR.flow.trans hsu (hR.dealDamage _ _ _ _ _ hdeal)
    cases found with
    | none =>
        obtain ⟨-, rfl⟩ := run_pure_iff.mp h
        exact hsv
    | some landed =>
        obtain ⟨outcome, _, hafter, h⟩ := run_bind_iff.mp h
        obtain ⟨-, rfl⟩ := run_pure_iff.mp h
        exact hR.flow.trans hsv (hR.aftermath _ _ _ _ hafter)

theorem setHealth (amount : Value) (aim : Aim) :
    Ensures R (setHealth rules nested amount aim ctx) := by
  refine Ensures.amount hR.flow fun value =>
    Ensures.forTargets hR.flow (fun _ _ => hR.step (.drew _)) fun {id c s a t} hc h => ?_
  obtain ⟨after, _, hlift, h⟩ := run_bind_iff.mp h
  obtain ⟨hset, rfl⟩ := run_lift_iff.mp hlift
  obtain ⟨_, _, hput, h⟩ := run_bind_iff.mp h
  obtain rfl := run_setCombatant_iff.mp hput
  obtain ⟨_, _, hreport, h⟩ := run_bind_iff.mp h
  obtain rfl := run_report_iff.mp hreport
  have hblow : R s _ := hR.blow (.setHealth hc hset)
  split at h
  · exact hR.flow.trans hblow (hR.die h)
  · obtain ⟨-, rfl⟩ := run_pure_iff.mp h
    exact hblow

theorem execute (threshold : Int) (aim : Aim) :
    Ensures R (execute rules nested threshold aim ctx) := by
  refine Ensures.forTargets hR.flow (fun _ _ => hR.step (.drew _)) fun {id c s a t} hc h => ?_
  obtain ⟨percent, _, hpercent, h⟩ := run_bind_iff.mp h
  obtain ⟨-, rfl⟩ := run_lift_iff.mp hpercent
  split at h
  · obtain ⟨after, _, hlift, h⟩ := run_bind_iff.mp h
    obtain ⟨hset, rfl⟩ := run_lift_iff.mp hlift
    obtain ⟨_, _, hput, h⟩ := run_bind_iff.mp h
    obtain rfl := run_setCombatant_iff.mp hput
    obtain ⟨_, _, hreport, h⟩ := run_bind_iff.mp h
    obtain rfl := run_report_iff.mp hreport
    have hblow : R s _ := hR.blow (.executed hc hset)
    exact hR.flow.trans hblow (hR.die h)
  · obtain ⟨-, rfl⟩ := run_pure_iff.mp h
    exact hR.flow.refl s

/-- **What holds of steps and blows, and of plays off the deck, is carried by effects.** -/
theorem carries (hplay : ∀ ctx, Ensures R (playTop rules nested ctx)) :
    Carries rules may nested R where
  flow := hR.flow
  step h _ := hR.step h
  drawCards count := (drawCards_course count).mono fun _ _ => hR.course
  shuffle includeDiscard := (shuffle_course includeDiscard).mono fun _ _ => hR.course
  inside := hR.inside
  hit _ _ := hR.hit
  hurt _ _ := hR.hurt
  setHealth amount aim _ := hR.setHealth amount aim
  execute threshold aim _ := hR.execute threshold aim
  playTop := hplay

end Bears

end CardCombat.Resolution
