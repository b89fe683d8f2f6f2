import CardCombat.Proofs.Death.Dying
import CardCombat.Proofs.Resolution.Plays

/-!
# Effects leave no death open

A hit, an execution and health that is set may make a combatant fall. Whoever falls of them has its
death dealt with before they are over, whatever happens in between, and so everything is accounted
for after each of them. Effects of all kinds inherit this.

## Main results

* `Resolution.hit_settled`, `Resolution.setHealth_settled`, `Resolution.execute_settled`
* `Resolution.settled_carries` -- effects carry that everything is accounted for.
* `Resolution.within_settled` -- and so do effects at any depth.
-/

namespace CardCombat.Resolution

variable {rules : Rules} {nested : List Effect → Context → Resolution Unit} {ctx : Context}
  {target : CombatantId} {r s t u : Scene} {a : Unit}

theorem settled_of_course {α : Type} {m : Resolution α} (h : Ensures (Course rules Effect.Any) m) :
    Ensures (Settled rules) m := h.mono fun _ _ => Course.settled

/-! ## An open death -/

/-- Everything is accounted for but, if it was killed, the death of one combatant. -/
inductive Pending (rules : Rules) (target : CombatantId) : Bool → Scene → Scene → Prop
  | settled {s t : Scene} (h : Accounted rules s t) : Pending rules target false s t
  | fell {s u v t fallen} (h : Accounted rules s u) (hfall : Falls target fallen u v)
      (h' : Accounted rules v t) : Pending rules target true s t

namespace Pending

variable {killed : Bool}

theorem numbered (h : Pending rules target killed s t) (hn : s.combat.Numbered) :
    t.combat.Numbered := by
  cases h with
  | settled h => exact h.numbered hn
  | fell h hfall h' =>
      obtain ⟨before, hc, hb, hid, hf, hspares⟩ := hfall
      have hfell : Account rules _ _ _ _ _ := fall_account hc hb hid hf
      exact h'.numbered (hspares.numbered_iff.mpr (hfell.numbered (h.numbered hn)))

theorem before (h : Accounted rules r s) (h' : Pending rules target killed s t) :
    Pending rules target killed r t := by
  cases h' with
  | settled h' => exact .settled (h.trans h')
  | fell h' hfall h'' => exact .fell (h.trans h') hfall h''

theorem after (h : Pending rules target killed s t) (h' : Accounted rules t u) :
    Pending rules target killed s u := by
  cases h with
  | settled h => exact .settled (h.trans h')
  | fell h hfall h'' => exact .fell h hfall (h''.trans h')

/-- Nobody falls that has fallen already, so there is never more than one death open. -/
theorem fall {fallen : Combatant} (h : Pending rules target killed s t)
    (hfall : Falls target fallen t u) : Pending rules target true s u := by
  cases h with
  | settled h => exact .fell h hfall (.refl u)
  | fell _ hfall' h' =>
      have hdead : t.combat.isAlive target = false := h'.isAlive_eq_false hfall'.isAlive_eq_false
      obtain ⟨before, hc, hb, -⟩ := hfall
      rw [Combat.isAlive_of_combatant? hc, hb] at hdead
      exact absurd hdead (by decide)

/-- **A death that is open is closed by dealing with it.** -/
theorem accounted (hnested : ∀ effects ctx, Ensures (Settled rules) (nested effects ctx))
    (hn : s.combat.Numbered) (h : Pending rules target killed s t) {killer : CombatantId}
    (hdie : (onlyIf killed (die rules nested ctx target killer)).run t = .ok (a, u)) :
    Accounted rules s u := by
  rcases run_onlyIf_iff.mp hdie with ⟨rfl, hdie⟩ | ⟨rfl, rfl⟩
  · cases h with
    | fell h hfall h' =>
        exact h.trans (accounted_of_death hnested (h.numbered hn) hfall (fun _ => h') hdie)
  · cases h with
    | settled h => exact h

end Pending

/-! ## Damage -/

/-- Damage kills or it does not. -/
theorem pending_of_damages {source : CombatantId} {outcome : DamageReport}
    (hn : s.combat.Numbered) (h : Damages source target outcome s t) :
    Pending rules target outcome.killed s t := by
  cases hk : outcome.killed with
  | false => exact .settled ((h.spares hk).accounted hn)
  | true =>
      cases h with
      | @mk before after amount element piercing stats hc h hs =>
          obtain ⟨hid, -, hkilled, -⟩ := Combatant.takeDamage_spec h
          rw [hk, eq_comm, Bool.and_eq_true, Bool.not_eq_true'] at hkilled
          obtain ⟨hb, ha⟩ := hkilled
          have hstats :
            stats.enemiesKilled = (s.setCombatant target after).stats.enemiesKilled := by
            rw [setCombatant_of_fall hc hb ha]
            exact Stats.enemiesKilled_countDamage hs
          refine .fell (.refl s) ⟨before, hc, hb, hid, ha, ?_⟩ (.refl _)
          exact Spares.flow.trans ((Spares.flow.refl _).report (by simp)) (.of_stats hstats)

/-- The occasions that come of damage are settled, and after them death is dealt with. -/
theorem afterDamage_of_run (hnested : ∀ effects ctx, Ensures (Settled rules) (nested effects ctx))
    {outcome : DamageReport} {attack : Bool}
    (h : (afterDamage rules nested ctx target outcome attack).run s = .ok (a, t)) :
    ∃ u, Settled rules s u ∧
      (onlyIf outcome.killed (die rules nested ctx target ctx.source)).run u = .ok (a, t) := by
  unfold afterDamage at h
  obtain ⟨_, v, hattack, h⟩ := run_bind_iff.mp h
  obtain ⟨_, u, hdamaged, h⟩ := run_bind_iff.mp h
  have hsv : Settled rules s v := by
    refine Ensures.onlyIf Accounted.flow (Ensures.bind Accounted.flow ?_ fun _ => ?_) hattack
    · exact react_settled hnested (by decide)
    · exact react_settled hnested (by decide)
  have hvu : Settled rules v u :=
    Ensures.onlyIf Accounted.flow (react_settled hnested (by decide)) hdamaged
  exact ⟨u, Accounted.flow.trans hsv hvu, h⟩

/-- Damage that is no attack. -/
theorem hurt_settled (hnested : ∀ effects ctx, Ensures (Settled rules) (nested effects ctx))
    (amount : Int) (element : Element) (piercing : Bool) :
    Ensures (Settled rules) (hurt rules nested ctx target amount element piercing) := by
  refine ⟨fun {s a t} h hn => ?_⟩
  obtain ⟨found, u, hdeal, h⟩ := run_bind_iff.mp h
  rcases dealt_of_run hdeal with ⟨rfl, -, rfl⟩ | ⟨outcome, rfl, hdamages⟩
  · obtain ⟨-, rfl⟩ := run_pure_iff.mp h
    exact .refl s
  · have hpending : Pending rules target outcome.killed s u := pending_of_damages hn hdamages
    obtain ⟨v, hsettled, hdie⟩ := afterDamage_of_run hnested h
    exact (hpending.after (hsettled (hpending.numbered hn))).accounted hnested hn hdie

/-! ## Hits -/

/-- A combo may bring about one more fall. -/
theorem settleCombo_pending
    (hnested : ∀ effects ctx, Ensures (Settled rules) (nested effects ctx)) {combo : Option Combo}
    {dealt : Int} {killed executed : Bool} (hn : r.combat.Numbered)
    (hpending : Pending rules target killed r s)
    (h : (settleCombo rules nested ctx target combo dealt).run s = .ok (executed, t)) :
    Pending rules target (killed || executed) r t := by
  unfold settleCombo at h
  cases combo with
  | none =>
      obtain ⟨rfl, rfl⟩ := run_pure_iff.mp h
      rw [Bool.or_false]
      exact hpending
  | some combo =>
      unfold comboConsequences at h
      obtain ⟨_, v, hstatus, h⟩ := run_bind_iff.mp h
      obtain ⟨_, w, hleap, h⟩ := run_bind_iff.mp h
      have hsv : Settled rules s v := Ensures.forSome Accounted.flow
        (fun status => settled_of_course (leaveStatus_course _ _ _)) hstatus
      have hvw : Settled rules v w := by
        refine Ensures.forSome Accounted.flow (fun percent => ?_) hleap
        exact Ensures.bind Accounted.flow (Ensures.lift Accounted.flow _) fun _ =>
          Ensures.combat Accounted.flow fun _ =>
            Ensures.forM Accounted.flow fun _ _ => hurt_settled hnested _ _ _
      have hpending : Pending rules target killed r w :=
        hpending.after (Accounted.flow.trans hsv hvw (hpending.numbered hn))
      split at h
      · rcases executed_of_run h with ⟨rfl, rfl⟩ | ⟨rfl, before, after, hc, hb, hset, rfl⟩
        · rw [Bool.or_false]
          exact hpending
        · obtain ⟨hid, -, hdead⟩ := Combatant.setHealth_spec hset
          rw [Bool.or_true]
          exact hpending.fall ⟨before, hc, hb, hid, hdead (Int.le_refl 0),
            (Spares.flow.refl _).report (by simp)⟩
      · obtain ⟨rfl, rfl⟩ := run_pure_iff.mp h
        rw [Bool.or_false]
        exact hpending

/-- What follows when a hit has landed. -/
theorem aftermath_accounted
    (hnested : ∀ effects ctx, Ensures (Settled rules) (nested effects ctx)) {hit : Hit}
    {combo : Option Combo} {amount : Int} {landed outcome : DamageReport} (hn : r.combat.Numbered)
    (hpending : Pending rules target landed.killed r s)
    (h : (aftermath rules nested ctx target hit combo amount landed).run s = .ok (outcome, t)) :
    Accounted rules r t := by
  unfold aftermath at h
  obtain ⟨executed, u, hcombo, h⟩ := run_bind_iff.mp h
  obtain ⟨_, v, honHit, h⟩ := run_bind_iff.mp h
  obtain ⟨_, w, hstatus, h⟩ := run_bind_iff.mp h
  obtain ⟨_, _, hafter, h⟩ := run_bind_iff.mp h
  obtain ⟨-, rfl⟩ := run_pure_iff.mp h
  have hpending : Pending rules target (landed.killed || executed) r u :=
    settleCombo_pending hnested hn hpending hcombo
  have huv : Settled rules u v := by
    refine Ensures.onlyIf Accounted.flow ?_ honHit
    exact Ensures.bind Accounted.flow (Ensures.lift Accounted.flow _) fun _ => hnested _ _
  have hvw : Settled rules v w := by
    refine Ensures.onlyIf Accounted.flow (Ensures.forSome Accounted.flow fun _ => ?_) hstatus
    exact settled_of_course (leaveStatus_course _ _ _)
  obtain ⟨x, hwx, hdie⟩ := afterDamage_of_run hnested hafter
  have hux : Settled rules u x := Accounted.flow.trans huv (Accounted.flow.trans hvw hwx)
  exact (hpending.after (hux (hpending.numbered hn))).accounted hnested hn hdie

/-- **After a hit everything is accounted for.** -/
theorem hit_settled (hnested : ∀ effects ctx, Ensures (Settled rules) (nested effects ctx))
    (hit : Hit) : Ensures (Settled rules) (resolveHit rules nested ctx target hit) := by
  refine ⟨fun {s outcome t} h hn => ?_⟩
  obtain ⟨_, _, hcombat, h⟩ := run_bind_iff.mp h
  obtain ⟨rfl, rfl⟩ := run_combat_iff.mp hcombat
  split at h
  case h_1 =>
    obtain ⟨-, rfl⟩ := run_pure_iff.mp h
    exact .refl s
  case h_2 defender hdefender =>
    obtain ⟨hc, halive⟩ := Option.filter_eq_some_iff.mp hdefender
    obtain ⟨⟨combo, amount⟩, _, hcombo, h⟩ := run_bind_iff.mp h
    obtain ⟨-, rfl⟩ := run_lift_iff.mp hcombo
    obtain ⟨_, u, hconsume, h⟩ := run_bind_iff.mp h
    have hsu : Accounted rules s u := by
      cases combo with
      | none =>
          obtain ⟨-, rfl⟩ := run_pure_iff.mp hconsume
          exact .refl s
      | some combo => exact Course.settled (consume_course hc halive hconsume).course hn
    obtain ⟨found, v, hdeal, h⟩ := run_bind_iff.mp h
    rcases dealt_of_run hdeal with ⟨rfl, -, rfl⟩ | ⟨landed, rfl, hdamages⟩
    · obtain ⟨-, rfl⟩ := run_pure_iff.mp h
      exact hsu
    · obtain ⟨outcome, _, hafter, h⟩ := run_bind_iff.mp h
      obtain ⟨-, rfl⟩ := run_pure_iff.mp h
      exact aftermath_accounted hnested hn
        (.before hsu (pending_of_damages (hsu.numbered hn) hdamages)) hafter

/-! ## Everyone who is aimed at -/

/-- An enemy that was alive is alive, or gone. -/
theorem isAlive_or_gone (h : Accounted rules s t) (hid : target ≠ .player)
    (halive : s.combat.isAlive target = true) :
    t.combat.isAlive target = true ∨ t.combat.combatant? target = none := by
  obtain ⟨⟨deeds, events, h⟩, -⟩ := h
  have hfate := h.fate target hid
  unfold Combat.isAlive at halive ⊢
  revert halive hfate
  generalize s.combat.combatant? target = before, story target deeds = tale,
    t.combat.combatant? target = after
  intro halive hfate
  cases hfate with
  | lives _ ha => exact .inl ha
  | absent | buried | dies => exact .inr rfl
  | lies hb => exact absurd (halive.symm.trans hb) (by decide)

variable {act : CombatantId → Combatant → Resolution Unit}

/-- What is done to everyone who is aimed at and is still there. -/
def onTarget (act : CombatantId → Combatant → Resolution Unit) (id : CombatantId) :
    Resolution Unit := do
  match ← combatant? id with
  | some combatant => act id combatant
  | none => return

/-- Everyone in a list is alive when its turn comes, if it is still there: the player can only be
the first, and the enemies that die are gone. -/
theorem onTargets_accounted
    (hact : ∀ {id c s a t}, s.combat.Numbered → s.combat.combatant? id = some c → c.isAlive →
      (act id c).run s = .ok (a, t) → Accounted rules s t) {ids : List CombatantId}
    (hids : ∀ id ∈ ids.tail, id ≠ .player) (hn : s.combat.Numbered)
    (halive : ∀ id ∈ ids, s.combat.isAlive id = true ∨ s.combat.combatant? id = none)
    (h : (ids.forM (onTarget act)).run s = .ok (a, t)) : Accounted rules s t := by
  induction ids generalizing s with
  | nil =>
      obtain ⟨-, rfl⟩ := run_pure_iff.mp h
      exact .refl s
  | cons id ids ih =>
      obtain ⟨_, u, hfirst, h⟩ := run_bind_iff.mp h
      obtain ⟨_, _, hfound, hfirst⟩ := run_bind_iff.mp hfirst
      obtain ⟨rfl, rfl⟩ := run_combatant?_iff.mp hfound
      have hsu : Accounted rules s u := by
        cases hc : s.combat.combatant? id with
        | none =>
            rw [hc] at hfirst
            obtain ⟨-, rfl⟩ := run_pure_iff.mp hfirst
            exact .refl s
        | some c =>
            rw [hc] at hfirst
            have hc' : c.isAlive = true := by
              have := halive id List.mem_cons_self
              rw [Combat.isAlive_of_combatant? hc] at this
              exact this.resolve_right (by simp [hc])
            exact hact hn hc hc' hfirst
      refine hsu.trans (ih (fun other hmem => hids other (List.mem_of_mem_tail hmem))
        (hsu.numbered hn) (fun other hmem => ?_) h)
      rcases halive other (List.mem_cons_of_mem _ hmem) with halive | hgone
      · exact isAlive_or_gone hsu (hids other hmem) halive
      · obtain ⟨⟨deeds, events, haccount⟩, -⟩ := hsu
        have hfate := haccount.fate other (hids other hmem)
        rw [hgone] at hfate
        revert hfate
        generalize story other deeds = tale, u.combat.combatant? other = after
        intro hfate
        cases hfate with
        | absent => exact .inr rfl

/-- Something is done to everyone who is aimed at. -/
theorem forTargets_settled {aim : Aim}
    (hact : ∀ {id c s a t}, s.combat.Numbered → s.combat.combatant? id = some c → c.isAlive →
      (act id c).run s = .ok (a, t) → Accounted rules s t) :
    Ensures (Settled rules) (forTargets aim ctx act) := by
  refine ⟨fun {s a t} h hn => ?_⟩
  obtain ⟨ids, _, hids, h⟩ := run_bind_iff.mp h
  obtain ⟨hfound, rfl⟩ := run_targets_iff.mp hids
  subst hfound
  have hdrew (rng : Rng) : Settled rules s { s with rng } := Step.settled (.drew rng)
  refine (hdrew _ hn).trans (onTargets_accounted hact ?_ ?_ ?_ h)
  · exact fun id hmem => Aim.ne_player_of_mem_tail_find hn hmem
  · exact hn
  · exact fun id hmem => .inl (Aim.isAlive_of_mem_find hn hmem)

/-- After health was set everything is accounted for. -/
theorem setHealth_settled (hnested : ∀ effects ctx, Ensures (Settled rules) (nested effects ctx))
    (amount : Value) (aim : Aim) :
    Ensures (Settled rules) (setHealth rules nested amount aim ctx) := by
  refine Ensures.amount Accounted.flow fun value =>
    forTargets_settled fun {id c s a t} hn hc hb h => ?_
  obtain ⟨after, _, hlift, h⟩ := run_bind_iff.mp h
  obtain ⟨hset, rfl⟩ := run_lift_iff.mp hlift
  obtain ⟨_, _, hput, h⟩ := run_bind_iff.mp h
  obtain rfl := run_setCombatant_iff.mp hput
  obtain ⟨_, _, hreport, h⟩ := run_bind_iff.mp h
  obtain rfl := run_report_iff.mp hreport
  obtain ⟨hid, -, -⟩ := Combatant.setHealth_spec hset
  split at h
  case isTrue hdead =>
    have hfalls :
      Falls id after s ((s.setCombatant id after).report (.setHealth id after.health)) :=
      ⟨c, hc, hb, hid, by simpa using hdead, (Spares.flow.refl _).report (by simp)⟩
    exact accounted_of_death hnested hn hfalls (Accounted.flow.refl _) h
  case isFalse halive =>
    obtain ⟨-, rfl⟩ := run_pure_iff.mp h
    exact Step.settled (.altered hc (.setHealth hb hset (by simpa using halive))) hn

/-- After executions everything is accounted for. -/
theorem execute_settled (hnested : ∀ effects ctx, Ensures (Settled rules) (nested effects ctx))
    (threshold : Int) (aim : Aim) :
    Ensures (Settled rules) (execute rules nested threshold aim ctx) := by
  refine forTargets_settled fun {id c s a t} hn hc hb h => ?_
  obtain ⟨percent, _, hpercent, h⟩ := run_bind_iff.mp h
  obtain ⟨-, rfl⟩ := run_lift_iff.mp hpercent
  split at h
  · obtain ⟨after, _, hlift, h⟩ := run_bind_iff.mp h
    obtain ⟨hset, rfl⟩ := run_lift_iff.mp hlift
    obtain ⟨_, _, hput, h⟩ := run_bind_iff.mp h
    obtain rfl := run_setCombatant_iff.mp hput
    obtain ⟨_, _, hreport, h⟩ := run_bind_iff.mp h
    obtain rfl := run_report_iff.mp hreport
    obtain ⟨hid, -, hdead⟩ := Combatant.setHealth_spec hset
    have hfalls : Falls id after s ((s.setCombatant id after).report (.execute id)) :=
      ⟨c, hc, hb, hid, hdead (Int.le_refl 0), (Spares.flow.refl _).report (by simp)⟩
    exact accounted_of_death hnested hn hfalls (Accounted.flow.refl _) h
  · obtain ⟨-, rfl⟩ := run_pure_iff.mp h
    exact .refl s

/-! ## All effects -/

/-- **Effects of every kind carry that everything is accounted for.** -/
theorem settled_carries (hnested : ∀ effects ctx, Ensures (Settled rules) (nested effects ctx)) :
    Carries rules Effect.Any nested (Settled rules) where
  flow := Accounted.flow
  step h _ := h.spares.accounted
  drawCards count := settled_of_course (drawCards_course count)
  shuffle includeDiscard := settled_of_course (shuffle_course includeDiscard)
  inside := hnested
  hit _ _ := hit_settled hnested
  hurt _ _ := hurt_settled hnested
  setHealth amount aim _ := setHealth_settled hnested amount aim
  execute threshold aim _ := execute_settled hnested threshold aim
  playTop ctx := by
    refine ⟨fun {s played t} h => ?_⟩
    rcases playTop_of_run hnested h with hcourse | ⟨card, u, v, w, hcourse, hopen, hin, hclose⟩
    · exact hcourse.settled
    · have hsv : Settled rules s v := Accounted.flow.trans hcourse.settled hopen.spares.accounted
      exact Accounted.flow.trans hsv (Accounted.flow.trans hin hclose.spares.accounted)

/-- **After any effects at any depth everything is accounted for**, if it is where they end. -/
theorem within_settled {beyond : List Effect → Context → Resolution Unit}
    (hbeyond : ∀ effects ctx, Ensures (Settled rules) (beyond effects ctx)) (levels : Nat)
    (effects : List Effect) (ctx : Context) :
    Ensures (Settled rules) (within rules beyond levels effects ctx) :=
  within_ensures hbeyond (fun _ => settled_carries) levels effects ctx

end CardCombat.Resolution
