import CardCombat.Proofs.Death.Accounting
import CardCombat.Proofs.Depth.Levels

/-!
# The limit of depth is only a guard

The limit of depth is there to end resolutions that would not end by themselves. A resolution that
never comes to it is the same under every greater limit: the same combat, gold and totals, the same
draws and the same events in their order, or the same failure.

That a resolution comes to the limit is said by watching for it. A failure takes the place of every
effect that is skipped, and the limit is reached if the resolution fails with it, whichever failure
it is. Watched in this way a resolution is the same as without being watched until the limit is
reached, and this passes from the parts of a resolution to the whole.

## Main definitions

* `Rules.withMaxDepth` -- rules with another limit.
* `Resolution.ReachesLimit` -- an effect that is too deep comes up.

## Main results

* `Resolution.run_within_of_not_reachesLimit` -- what lies beyond a limit that is not reached makes
  no difference.
* `Resolution.carryOut_withMaxDepth` -- a greater limit changes nothing if the limit is not reached.
* `Resolution.reachesLimit_iff` -- the limit is reached exactly if it makes a difference what is
  done there.
-/

namespace CardCombat

/-- The rules with another limit of depth. -/
def Rules.withMaxDepth (rules : Rules) (maxEffectDepth : Nat) : Rules :=
  { rules with config := { rules.config with maxEffectDepth } }

namespace Resolution

variable {rules : Rules} {limit : Nat} {nested nested' : List Effect → Context → Resolution Unit}
  {beyond : List Effect → Context → Resolution Unit} {effects : List Effect} {ctx : Context}
  {s t : Scene} {cause : Fault}

/-! ## One level does not know the limit -/

theorem drain_withMaxDepth (hit : Hit) (ids : List CombatantId) (drained : Int) :
    drain (rules.withMaxDepth limit) nested ctx hit ids drained =
      drain rules nested ctx hit ids drained := by
  induction ids generalizing drained with
  | nil => rfl
  | cons id ids ih =>
      have hhit : resolveHit (rules.withMaxDepth limit) nested ctx = resolveHit rules nested ctx :=
        rfl
      unfold drain
      simp only [hhit, ih]

theorem strikeAll_withMaxDepth (hit : Hit) (ids : List CombatantId) :
    strikeAll (rules.withMaxDepth limit) nested ctx hit ids =
      strikeAll rules nested ctx hit ids := by
  induction ids with
  | nil => rfl
  | cons id ids ih =>
      have hhit : resolveHit (rules.withMaxDepth limit) nested ctx = resolveHit rules nested ctx :=
        rfl
      unfold strikeAll
      rw [hhit, ih]

theorem bounce_withMaxDepth (element : Element) (falloffPercent : Int) (bounces : Nat)
    (current : CombatantId) (base : Int) :
    bounce (rules.withMaxDepth limit) nested ctx element falloffPercent bounces current base =
      bounce rules nested ctx element falloffPercent bounces current base := by
  induction bounces generalizing current base with
  | zero => rfl
  | succ bounces ih =>
      have hhit : resolveHit (rules.withMaxDepth limit) nested ctx = resolveHit rules nested ctx :=
        rfl
      unfold bounce
      simp only [hhit, ih]

/-- No effect reads the limit. -/
theorem dispatch_withMaxDepth (effect : Effect) :
    dispatch (rules.withMaxDepth limit) nested ctx effect = dispatch rules nested ctx effect := by
  cases effect with
  | lifesteal =>
      unfold dispatch lifesteal
      simp only [drain_withMaxDepth]
  | recoil =>
      have hhurt : hurt (rules.withMaxDepth limit) nested ctx = hurt rules nested ctx := rfl
      unfold dispatch recoil
      simp only [strikeAll_withMaxDepth, hhurt]
  | chain =>
      have hhit : resolveHit (rules.withMaxDepth limit) nested ctx = resolveHit rules nested ctx :=
        rfl
      unfold dispatch chain
      simp only [bounce_withMaxDepth, hhit]
  | _ => rfl

/-- The limit says how many levels there are, and that is all it says. -/
theorem within_withMaxDepth (levels : Nat) :
    within (rules.withMaxDepth limit) beyond levels = within rules beyond levels := by
  induction levels with
  | zero => rfl
  | succ levels ih =>
      funext effects ctx
      unfold within
      rw [ih]
      exact Precongruence.same.forM fun effect _ => dispatch_withMaxDepth effect

/-! ## Watching for the limit -/

/-- The resolutions are the same unless the first one fails with `cause`. -/
def sameUnless (cause : Fault) : Precongruence where
  rel x y := ∀ s, x.run s = .error cause ∨ x.run s = y.run s
  refl _ _ := .inr rfl
  bind {_ _ x y f g} hxy hfg s := by
    show (x.run s >>= fun p => (f p.1).run p.2) = .error cause ∨
      (x.run s >>= fun p => (f p.1).run p.2) = (y.run s >>= fun p => (g p.1).run p.2)
    rcases hxy s with hcause | hsame
    · rw [hcause]
      exact .inl rfl
    · rw [← hsame]
      cases x.run s with
      | error other => exact .inr rfl
      | ok result => exact hfg result.1 result.2

/-- What is related beyond the last level is related on all levels. -/
theorem within_congr {C : Precongruence} {beyond' : List Effect → Context → Resolution Unit}
    (h : ∀ effects ctx, C.rel (beyond' effects ctx) (beyond effects ctx)) (levels : Nat)
    (effects : List Effect) (ctx : Context) :
    C.rel (within rules beyond' levels effects ctx) (within rules beyond levels effects ctx) := by
  induction levels generalizing effects ctx with
  | zero => exact h effects ctx
  | succ levels ih =>
      exact C.forM fun effect _ => dispatch_next (fun effects inner _ => ih effects inner) effect

/-- The limit of depth is reached when effects are carried out: an effect comes up in a context that
is too deep, so that they fail with whatever failure takes its place. -/
def ReachesLimit (rules : Rules) (effects : List Effect) (ctx : Context) (s : Scene) : Prop :=
  ∀ cause, (watched rules (throw cause) effects ctx).run s = .error cause

/-- Watched for its limit, a resolution is what it is with anything else beyond the limit, unless
the limit is reached. -/
theorem watched_sameUnless (hnil : ∀ ctx, beyond [] ctx = pure ()) (cause : Fault)
    (effects : List Effect) (ctx : Context) :
    (sameUnless cause).rel (watched rules (throw cause) effects ctx)
      (within rules beyond (levels rules ctx.depth) effects ctx) := by
  refine within_congr (fun effects ctx s => ?_) _ effects ctx
  cases effects with
  | nil =>
      rw [hnil]
      exact .inr rfl
  | cons effect effects => exact .inl rfl

/-- **What lies beyond a limit that is not reached** makes no difference. -/
theorem run_within_of_not_reachesLimit (h : ¬ReachesLimit rules effects ctx s)
    (hnil : ∀ ctx, beyond [] ctx = pure ()) :
    (within rules beyond (levels rules ctx.depth) effects ctx).run s =
      (carryOut rules effects ctx).run s := by
  obtain ⟨cause, hcause⟩ := not_forall.mp h
  have hbeyond : (sameUnless cause).rel (watched rules (throw cause) effects ctx)
      (within rules beyond (levels rules ctx.depth) effects ctx) :=
    watched_sameUnless hnil cause effects ctx
  have hskip : (sameUnless cause).rel (watched rules (throw cause) effects ctx)
      (carryOut rules effects ctx) :=
    watched_sameUnless (fun _ => rfl) cause effects ctx
  rw [← (hbeyond s).resolve_left hcause, (hskip s).resolve_left hcause]

/-- **The limit of depth is only a guard.** Effects that are carried out without reaching the limit
are carried out in the same way under every greater one: to the same scene, the generator and the
events included, or to the same failure. -/
theorem carryOut_withMaxDepth (hle : rules.config.maxEffectDepth ≤ limit)
    (h : ¬ReachesLimit rules effects ctx s) :
    (carryOut (rules.withMaxDepth limit) effects ctx).run s =
      (carryOut rules effects ctx).run s := by
  obtain ⟨more, hmore⟩ : ∃ more, levels (rules.withMaxDepth limit) ctx.depth =
      levels rules ctx.depth + more := by
    have hlevels : levels rules ctx.depth ≤ levels (rules.withMaxDepth limit) ctx.depth := by
      show rules.config.maxEffectDepth + 1 - ctx.depth ≤ limit + 1 - ctx.depth
      omega
    exact Nat.exists_eq_add_of_le hlevels
  have hnil (ctx : Context) : within rules skip more [] ctx = pure () := by
    cases more with
    | zero => rfl
    | succ more => rfl
  rw [← run_within_of_not_reachesLimit h hnil, within_within]
  unfold carryOut
  rw [within_withMaxDepth, hmore]

/-! ## What it means to reach the limit -/

/-- **The limit is reached** exactly if it makes a difference what is done there. -/
theorem reachesLimit_iff : ReachesLimit rules effects ctx s ↔
    ∃ atLimit, (watched rules atLimit effects ctx).run s ≠ (carryOut rules effects ctx).run s := by
  constructor
  · intro h
    by_cases hfails : (carryOut rules effects ctx).run s = .error .emptyRange
    · refine ⟨throw (.overflow .add), fun hsame => ?_⟩
      rw [h, hfails] at hsame
      exact absurd (Except.error.inj hsame) (by decide)
    · refine ⟨throw .emptyRange, fun hsame => hfails ?_⟩
      rw [← hsame, h]
  · rintro ⟨atLimit, hdiffers⟩
    by_contra h
    exact hdiffers (run_within_of_not_reachesLimit h fun _ => rfl)

/-- Effects are carried out from one scene to another without a skipped one exactly if they lead
there and do not reach the limit. -/
theorem unskipped_iff : Unskipped rules effects ctx s t ↔
    ¬ReachesLimit rules effects ctx s ∧ (carryOut rules effects ctx).run s = .ok ((), t) := by
  constructor
  · intro h
    refine ⟨fun hreaches => ?_, h skip fun _ => rfl⟩
    have hwatched : (watched rules (throw .emptyRange) effects ctx).run s = .ok ((), t) :=
      h _ fun _ => rfl
    rw [hreaches] at hwatched
    exact absurd hwatched nofun
  · rintro ⟨h, hrun⟩ beyond hnil
    rw [run_within_of_not_reachesLimit h hnil, hrun]

/-! ## A gift in two wrappings -/

/-- Gold, two levels below. -/
def wrappedGold : List Effect := [.sequence [.sequence [.gold (.fixed 7) .gain]]]

/-- Without an echo a limit of three levels is not reached, and nine give the same. -/
theorem carryOut_withMaxDepth_of_wrappedGold :
    echoRules.config.maxEffectDepth ≤ 9 ∧ ¬ReachesLimit echoRules wrappedGold {} echoScene ∧
      (carryOut (echoRules.withMaxDepth 9) wrappedGold {}).run echoScene =
        (carryOut echoRules wrappedGold {}).run echoScene := by
  have hgold : ((watched echoRules (throw .emptyRange) wrappedGold {}).run
      echoScene).toOption.isSome = true := by
    decide +kernel
  have hnot : ¬ReachesLimit echoRules wrappedGold {} echoScene := by
    intro hreaches
    rw [hreaches .emptyRange] at hgold
    exact absurd hgold (by decide)
  exact ⟨by decide, hnot, carryOut_withMaxDepth (by decide) hnot⟩

/-- An echo reaches its limit, and goes on to a greater one. -/
example : ((carryOut (echoRules.withMaxDepth 9) [.block (.fixed 1) .self] {}).run
    echoScene).toOption.map (·.2.combat.player.block) = some 10 := by decide +kernel

end Resolution

end CardCombat
