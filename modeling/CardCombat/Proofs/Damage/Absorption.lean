import CardCombat.Proofs.Combat.Combatants

/-!
# Where damage goes

Damage is taken in turn: block takes what it can, barrier takes what it can of the rest, and what is
left then takes health, of which there is never less than none. What each of the three gives up is a
minimum of what there is and what is left, so the three together give up all of the damage or all
that there is. Nothing of this leaves its range, even where the sum of the three would: every
difference that is formed lies between two quantities that are in range.

## Main definitions

* `Combatant.Sturdy` -- health and guards are in their range and not negative.
* `Combatant.fromBlock`, `.fromBarrier`, `.fromHealth` -- the shares of the three in damage.
* `Combatant.reported`, `.damaged` -- what is reported of damage, and what it leaves.
* `DamageReport.Accounts` -- a report tells exactly what the combatant has lost.

## Main results

* `Combatant.Sturdy.shares`, `.sum_shares`, `.order_of_shares` -- how the shares lie.
* `Combatant.takeDamage_eq_shares` -- damage takes the three shares.
* `Combatant.takeDamage_conserves` -- nothing of the damage is lost, and nothing is added to it.
-/

namespace CardCombat

/-- A quantity in its range that is not negative. -/
def Signed.IsStock (n : Int) : Prop := 0 ≤ n ∧ n ≤ Signed.greatest

instance (n : Int) : Decidable (Signed.IsStock n) :=
  inferInstanceAs (Decidable (0 ≤ n ∧ n ≤ Signed.greatest))

theorem Signed.IsStock.fits {n : Int} (h : Signed.IsStock n) : Signed.Fits n := by
  obtain ⟨hlow, hhigh⟩ := h
  unfold Signed.Fits Signed.least Signed.greatest at *
  omega

/-- What is left of a quantity without a part of it. -/
theorem Signed.sub_eq_ok {a b : Int} (ha : Signed.IsStock a) (hb : 0 ≤ b) (hba : b ≤ a) :
    Signed.sub a b = .ok (a - b) := by
  refine Signed.sub_eq_ok_iff.mpr ⟨Signed.IsStock.fits ⟨?_, ?_⟩, rfl⟩
  · omega
  · exact Int.le_trans (Int.sub_le_self a hb) ha.2

namespace Combatant

variable {combatant : Combatant} {amount guard remaining : Int} {piercing : Bool}

/-- Health, block and barrier are in their range, and none of them is negative. -/
structure Sturdy (combatant : Combatant) : Prop where
  health : Signed.IsStock combatant.health
  block : Signed.IsStock combatant.block
  barrier : Signed.IsStock combatant.barrier

/-! ## Shares -/

/-- What a guard takes of what remains of damage, unless that pierces. -/
def share (piercing : Bool) (guard remaining : Int) : Int :=
  if piercing then 0 else min remaining guard

/-- What block takes of damage. -/
def fromBlock (combatant : Combatant) (amount : Int) (piercing : Bool) : Int :=
  share piercing combatant.block (max amount 0)

/-- What barrier takes of the damage that block has left. -/
def fromBarrier (combatant : Combatant) (amount : Int) (piercing : Bool) : Int :=
  share piercing combatant.barrier (max amount 0 - combatant.fromBlock amount piercing)

/-- The damage that both have left. -/
def past (combatant : Combatant) (amount : Int) (piercing : Bool) : Int :=
  max amount 0 - combatant.fromBlock amount piercing - combatant.fromBarrier amount piercing

/-- What health loses to it. -/
def fromHealth (combatant : Combatant) (amount : Int) (piercing : Bool) : Int :=
  min (combatant.past amount piercing) combatant.health

/-- What is reported of damage: the shares, added up. -/
def reported (combatant : Combatant) (amount : Int) (piercing : Bool) : DamageReport where
  blocked := combatant.fromBlock amount piercing + combatant.fromBarrier amount piercing
  healthLost := combatant.fromHealth amount piercing
  killed := combatant.isAlive &&
    !decide (0 < combatant.health - combatant.fromHealth amount piercing)

/-- What damage leaves of a combatant. -/
def damaged (combatant : Combatant) (amount : Int) (piercing : Bool) : Combatant :=
  { combatant with
    block := combatant.block - combatant.fromBlock amount piercing
    barrier := combatant.barrier - combatant.fromBarrier amount piercing
    health := combatant.health - combatant.fromHealth amount piercing }

/-- Damage that pierces takes health only. -/
theorem shares_of_piercing (combatant : Combatant) (amount : Int) :
    combatant.fromBlock amount true = 0 ∧ combatant.fromBarrier amount true = 0 ∧
      combatant.fromHealth amount true = min (max amount 0) combatant.health := by
  refine ⟨rfl, rfl, ?_⟩
  show min (max amount 0 - 0 - 0) combatant.health = _
  rw [Int.sub_zero, Int.sub_zero]

/-- No share is negative, none is more than there is, and together they are no more than the
damage. -/
theorem Sturdy.shares (h : combatant.Sturdy) (amount : Int) (piercing : Bool) :
    (0 ≤ combatant.fromBlock amount piercing ∧
      combatant.fromBlock amount piercing ≤ combatant.block) ∧
    (0 ≤ combatant.fromBarrier amount piercing ∧
      combatant.fromBarrier amount piercing ≤ combatant.barrier) ∧
    (0 ≤ combatant.fromHealth amount piercing ∧
      combatant.fromHealth amount piercing ≤ combatant.health) ∧
    combatant.fromBlock amount piercing + combatant.fromBarrier amount piercing +
      combatant.fromHealth amount piercing ≤ max amount 0 := by
  obtain ⟨⟨hhealth, -⟩, ⟨hblock, -⟩, hbarrier, -⟩ := h
  cases piercing <;>
    simp only [fromHealth, past, fromBarrier, fromBlock, share, if_true,
      Bool.false_eq_true, if_false] <;>
    omega

/-- Of damage that does not pierce, the shares are all there is of it, or all that there is to
take. -/
theorem Sturdy.sum_shares (h : combatant.Sturdy) (amount : Int) :
    combatant.fromBlock amount false + combatant.fromBarrier amount false +
        combatant.fromHealth amount false =
      min (max amount 0) (combatant.block + combatant.barrier + combatant.health) := by
  obtain ⟨⟨hhealth, -⟩, ⟨hblock, -⟩, hbarrier, -⟩ := h
  simp only [fromHealth, past, fromBarrier, fromBlock, share, Bool.false_eq_true, if_false]
  omega

/-- Barrier gives nothing as long as block has something left, and health gives nothing as long as
one of the two has. -/
theorem Sturdy.order_of_shares (h : combatant.Sturdy) (amount : Int) :
    (0 < combatant.fromBarrier amount false →
      combatant.fromBlock amount false = combatant.block) ∧
    (0 < combatant.fromHealth amount false →
      combatant.fromBlock amount false = combatant.block ∧
        combatant.fromBarrier amount false = combatant.barrier) := by
  obtain ⟨⟨hhealth, -⟩, ⟨hblock, -⟩, hbarrier, -⟩ := h
  simp only [fromHealth, past, fromBarrier, fromBlock, share, Bool.false_eq_true, if_false]
  omega

/-! ## Taking damage -/

/-- What a guard takes is a minimum, and the rest goes on; damage that pierces goes on whole. -/
theorem guard_eq {α : Type} {next : Int × Int → Except Fault α} (hguard : Signed.IsStock guard)
    (hremaining : Signed.IsStock remaining) :
    (if piercing then pure (0, remaining) >>= next else absorb guard remaining >>= next) =
      next (share piercing guard remaining, remaining - share piercing guard remaining) := by
  have hlow := hremaining.1
  have hguardLow := hguard.1
  cases piercing with
  | true =>
      show next (0, remaining) = next (0, remaining - 0)
      rw [Int.sub_zero]
  | false =>
      have hsub := Signed.sub_eq_ok hremaining (b := min remaining guard) (by omega) (by omega)
      have habsorb : absorb guard remaining =
          .ok (min remaining guard, remaining - min remaining guard) :=
        bind_eq_ok.mpr ⟨_, hsub, rfl⟩
      rw [if_neg Bool.false_ne_true, habsorb]
      rfl

/-- **Damage takes its shares** of block, barrier and health, and the report adds them up. -/
theorem takeDamage_eq_shares (hc : combatant.Sturdy) (hamount : Signed.Fits amount) :
    combatant.takeDamage amount piercing =
      .ok (combatant.reported amount piercing, combatant.damaged amount piercing) := by
  obtain ⟨⟨hblockLow, hblock⟩, ⟨hbarrierLow, hbarrier⟩, ⟨hhealthLow, hhealth⟩, hsum⟩ :=
    hc.shares amount piercing
  have hdamage : Signed.IsStock (max amount 0) := by
    unfold Signed.Fits Signed.IsStock Signed.least Signed.greatest at *
    omega
  -- what is left behind each guard is in range because the damage is
  have hbehind : Signed.IsStock (max amount 0 - combatant.fromBlock amount piercing) := by
    unfold Signed.IsStock at *
    omega
  have hleft : Signed.Fits (combatant.health - combatant.past amount piercing) := by
    have hstock := hc.health
    unfold past Signed.Fits Signed.IsStock Signed.least Signed.greatest at *
    omega
  have hblocked : Signed.Fits
      (combatant.fromBlock amount piercing + combatant.fromBarrier amount piercing) := by
    unfold Signed.Fits Signed.IsStock Signed.least Signed.greatest at *
    omega
  have hlost : min (combatant.past amount piercing) (max combatant.health 0) =
      combatant.fromHealth amount piercing := by
    rw [Int.max_eq_left hc.health.1]
    rfl
  have hspared : max (combatant.health - combatant.past amount piercing) 0 =
      combatant.health - combatant.fromHealth amount piercing := by
    have hhealth₀ := hc.health.1
    unfold fromHealth
    omega
  unfold takeDamage reported damaged
  refine (guard_eq hc.block hdamage).trans ((guard_eq hc.barrier hbehind).trans ?_)
  refine bind_eq_ok.mpr ⟨_, Signed.add_eq_ok_iff.mpr ⟨hblocked, rfl⟩, ?_⟩
  refine bind_eq_ok.mpr ⟨_, Signed.sub_eq_ok hc.block hblockLow hblock, ?_⟩
  refine bind_eq_ok.mpr ⟨_, Signed.sub_eq_ok hc.barrier hbarrierLow hbarrier, ?_⟩
  refine bind_eq_ok.mpr ⟨_, Signed.sub_eq_ok_iff.mpr ⟨hleft, rfl⟩, ?_⟩
  rw [← hspared, ← hlost]
  rfl

end Combatant

namespace DamageReport

/-- The report tells exactly what the combatant has lost to damage, and nothing else of it has
changed: what block and barrier lost was blocked, and it was killed if its health went down to
nothing from something. -/
structure Accounts (report : DamageReport) (before after : Combatant) : Prop where
  frame : after =
    { before with block := after.block, barrier := after.barrier, health := after.health }
  blocked : report.blocked = (before.block - after.block) + (before.barrier - after.barrier)
  healthLost : report.healthLost = before.health - after.health
  block : 0 ≤ after.block ∧ after.block ≤ before.block
  barrier : 0 ≤ after.barrier ∧ after.barrier ≤ before.barrier
  health : 0 ≤ after.health ∧ after.health ≤ before.health
  killed : report.killed = true ↔ 0 < before.health ∧ after.health = 0

end DamageReport

namespace Combatant

variable {combatant : Combatant} {amount : Int}

/-- What is reported of damage accounts for what it leaves. -/
theorem Sturdy.accounts (h : combatant.Sturdy) (amount : Int) (piercing : Bool) :
    (combatant.reported amount piercing).Accounts combatant
      (combatant.damaged amount piercing) := by
  obtain ⟨hblock, hbarrier, hhealth, -⟩ := h.shares amount piercing
  unfold reported damaged
  constructor
  case frame => rfl
  case killed =>
    dsimp only
    rw [Bool.and_eq_true, isAlive_iff, Bool.not_eq_true', decide_eq_false_iff_not]
    omega
  all_goals
    dsimp only
    omega

/-- **Nothing of damage is lost, and nothing is added to it.** For every combatant as it is in
combat, up to the ends of the range of its health and guards, damage of any amount is taken without
leaving that range, and the report accounts for what was lost. Damage that does not pierce takes all
of itself or all that there is: barrier after block is used up, and health after both are. Damage
that pierces takes health only. -/
theorem takeDamage_conserves (hc : combatant.Sturdy) (hamount : Signed.Fits amount)
    (piercing : Bool) :
    ∃ report after, combatant.takeDamage amount piercing = .ok (report, after) ∧
      report.Accounts combatant after ∧
      (piercing = false →
        report.blocked + report.healthLost =
            min (max amount 0) (combatant.block + combatant.barrier + combatant.health) ∧
          (after.barrier < combatant.barrier → after.block = 0) ∧
          (after.health < combatant.health → after.block = 0 ∧ after.barrier = 0)) ∧
      (piercing = true →
        after.block = combatant.block ∧ after.barrier = combatant.barrier ∧ report.blocked = 0 ∧
          report.healthLost = min (max amount 0) combatant.health) := by
  refine ⟨_, _, takeDamage_eq_shares hc hamount, hc.accounts amount piercing, ?_, ?_⟩
  · rintro rfl
    have hsum := hc.sum_shares amount
    obtain ⟨hfirst, hsecond⟩ := hc.order_of_shares amount
    unfold reported damaged
    dsimp only
    refine ⟨hsum, fun hlt => ?_, fun hlt => ?_⟩
    · have hused := hfirst (by omega)
      omega
    · have hused := hsecond (by omega)
      omega
  · rintro rfl
    obtain ⟨hnone, hnone', hlost⟩ := shares_of_piercing combatant amount
    unfold reported damaged
    dsimp only
    rw [hnone, hnone', hlost]
    refine ⟨?_, ?_, rfl, rfl⟩ <;> omega

/-- A combatant with the greatest health and the greatest barrier that there are, and some block. -/
def bulwark : Combatant where
  id := .player
  name := ""
  health := Signed.greatest
  maxHealth := Signed.greatest
  block := 5
  barrier := Signed.greatest

theorem sturdy_bulwark : bulwark.Sturdy where
  health := by decide
  block := by decide
  barrier := by decide

/-- The greatest damage there is uses up the block and leaves five of the barrier, although there is
more of block, barrier and health together than can be told in range. -/
theorem takeDamage_conserves_bulwark :
    bulwark.takeDamage Signed.greatest false =
        .ok ({ blocked := Signed.greatest, healthLost := 0, killed := false },
          { bulwark with block := 0, barrier := 5 }) ∧
      ∃ report after, bulwark.takeDamage Signed.greatest false = .ok (report, after) ∧
        report.Accounts bulwark after ∧
        report.blocked + report.healthLost =
          min (max Signed.greatest 0) (bulwark.block + bulwark.barrier + bulwark.health) := by
  refine ⟨rfl, ?_⟩
  obtain ⟨report, after, h, haccounts, hplain, -⟩ :=
    takeDamage_conserves sturdy_bulwark (show Signed.Fits Signed.greatest by decide) false
  exact ⟨report, after, h, haccounts, (hplain rfl).1⟩

end Combatant

end CardCombat
