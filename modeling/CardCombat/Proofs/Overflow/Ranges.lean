import CardCombat.Proofs.Card.Changes
import CardCombat.Proofs.Overflow.Arithmetic
import CardCombat.Proofs.Resolution.Cards

/-!
# Where quantities stay in their range

The other side of overflows: for the arithmetic on which a combat rests, the exact results that have
to be in their range for it to succeed. A rule that computes in several steps succeeds exactly if
every step does, each with the exact results of the steps before it.

## Main definitions

* `Value.InRange`, `Combatant.ScalesInRange`, `Combatant.MaxHealthInRange`, `Change.InRange`,
  `Resolution.CostsInRange`, `Card.CostInRange` -- what has to be in range for an amount, for
  modifiers, for changes of the greatest health, of a resource and of costs, and for a cost.
* `Rules.Computes` -- each mechanism succeeds exactly if its results are in range.

## Main results

* `Rules.computes` -- all mechanisms together.
-/

namespace CardCombat

variable {α β : Type}

/-- The computation gives a result. -/
def Succeeds (x : Except Fault α) : Prop := ∃ a, x = .ok a

theorem succeeds_pure (a : α) : Succeeds (pure a) := ⟨a, rfl⟩

/-- What fails by overflow only succeeds unless it overflows. -/
theorem OnlyOverflows.succeeds_iff {x : Except Fault α} (hx : OnlyOverflows x) :
    Succeeds x ↔ ∀ operation, x ≠ .error (.overflow operation) := by
  cases x with
  | ok a => exact iff_of_true ⟨a, rfl⟩ fun _ => nofun
  | error cause =>
      obtain ⟨operation, rfl⟩ := hx cause rfl
      exact iff_of_false (fun ⟨_, h⟩ => absurd h nofun) fun h => h operation rfl

theorem succeeds_bind {x : Except Fault α} {f : α → Except Fault β} :
    Succeeds (x >>= f) ↔ ∃ a, x = .ok a ∧ Succeeds (f a) := by
  constructor
  · rintro ⟨b, h⟩
    obtain ⟨a, ha, hb⟩ := bind_eq_ok.mp h
    exact ⟨a, ha, b, hb⟩
  · rintro ⟨a, ha, b, hb⟩
    exact ⟨b, bind_eq_ok.mpr ⟨a, ha, hb⟩⟩

theorem pure_eq_ok_iff {a b : α} : (pure a : Except Fault α) = .ok b ↔ b = a :=
  ⟨fun h => (Except.ok.inj h).symm, fun h => congrArg Except.ok h.symm⟩

/-- What follows a step that gives `a` if it gives anything. -/
theorem step_eq_ok_iff {x : Except Fault α} {f : α → Except Fault β} {p : Prop} {a : α} {c : β}
    (hx : ∀ {b}, x = .ok b ↔ p ∧ b = a) : x >>= f = .ok c ↔ p ∧ f a = .ok c := by
  rw [bind_eq_ok]
  constructor
  · rintro ⟨b, hb, hc⟩
    obtain ⟨hp, rfl⟩ := hx.mp hb
    exact ⟨hp, hc⟩
  · rintro ⟨hp, hc⟩
    exact ⟨a, hx.mpr ⟨hp, rfl⟩, hc⟩

theorem succeeds_step {x : Except Fault α} {f : α → Except Fault β} {p : Prop} {a : α}
    (hx : ∀ {b}, x = .ok b ↔ p ∧ b = a) : Succeeds (x >>= f) ↔ p ∧ Succeeds (f a) :=
  (exists_congr fun _ => step_eq_ok_iff hx).trans exists_and_left

/-- What always goes on succeeds where it begins to. -/
theorem succeeds_bind_iff {x : Except Fault α} {f : α → Except Fault β}
    (hf : ∀ a, Succeeds (f a)) : Succeeds (x >>= f) ↔ Succeeds x := by
  rw [succeeds_bind]
  exact exists_congr fun a => and_iff_left (hf a)

theorem succeeds_bind_pure {x : Except Fault α} {f : α → β} :
    Succeeds (do return f (← x)) ↔ Succeeds x := succeeds_bind_iff fun a => succeeds_pure (f a)

theorem succeeds_check_iff {operation : Operation} {n : Int} :
    Succeeds (Signed.check operation n) ↔ Signed.Fits n := by
  simp [Succeeds, Signed.check_eq_ok_iff]

theorem Signed.percentOf_succeeds_iff {n percent : Int} :
    Succeeds (Signed.percentOf n percent) ↔ Signed.Fits (n * percent) :=
  succeeds_bind_pure.trans succeeds_check_iff

/-- A search succeeds exactly if every element can be looked at. -/
theorem succeeds_filterM_iff {f : α → Except Fault Bool} {xs : List α} :
    Succeeds (xs.filterM f) ↔ ∀ x ∈ xs, Succeeds (f x) := by
  induction xs with
  | nil => exact iff_of_true (succeeds_pure []) (by simp)
  | cons x xs ih =>
      rw [filterM_cons, List.forall_mem_cons, ← ih]
      refine succeeds_bind.trans ?_
      simp only [succeeds_bind_pure, exists_and_right]
      rfl

/-- A fold succeeds exactly if every step succeeds with what the steps before it have come to. -/
theorem foldlM_eq_ok_iff {f : β → α → Except Fault β} {g : β → α → β} {fits : β → α → Prop}
    (hf : ∀ {b x c}, f b x = .ok c ↔ fits b x ∧ c = g b x) {xs : List α} {b c : β} :
    xs.foldlM f b = .ok c ↔
      (∀ front x back, xs = front ++ x :: back → fits (front.foldl g b) x) ∧ c = xs.foldl g b := by
  induction xs generalizing b with
  | nil =>
      constructor
      · intro h
        exact ⟨fun front x back hnil => absurd hnil (by simp), (Except.ok.inj h).symm⟩
      · rintro ⟨-, rfl⟩
        rfl
  | cons x xs ih =>
      rw [List.foldlM_cons, bind_eq_ok]
      simp only [hf, ih, List.foldl_cons]
      constructor
      · rintro ⟨_, ⟨hx, rfl⟩, hrest, rfl⟩
        refine ⟨fun front y back h => ?_, rfl⟩
        cases front with
        | nil =>
            obtain ⟨rfl, -⟩ := List.cons.inj h
            exact hx
        | cons first front =>
            obtain ⟨rfl, htail⟩ := List.cons.inj h
            exact hrest front y back htail
      · rintro ⟨hall, rfl⟩
        refine ⟨_, ⟨hall [] x xs rfl, rfl⟩, fun front y back h => ?_, rfl⟩
        exact hall (x :: front) y back (congrArg (x :: ·) h)

/-! ## Amounts -/

section Amounts

variable {combat : Combat} {ctx : Context}

/-- What has to be in range for an amount: the sum of which the middle is taken, and the health that
is missing if that is counted. -/
def Value.InRange (combat : Combat) (ctx : Context) : Value → Prop
  | .range min max => Signed.Fits (min + max)
  | .scaled _ _ .missingHealth _ => ∀ combatant, combat.combatant? ctx.source = some combatant →
      Signed.Fits (combatant.maxHealth - combatant.health)
  | _ => True

theorem Measure.units_succeeds_iff {source : Measure} : Succeeds (source.units combat ctx) ↔
    (source = .missingHealth → ∀ combatant, combat.combatant? ctx.source = some combatant →
      Signed.Fits (combatant.maxHealth - combatant.health)) := by
  cases source with
  | missingHealth =>
      dsimp only [units]
      split
      case h_1 combatant hc =>
        rw [succeeds_bind_pure, Combatant.missingHealth, succeeds_bind_pure, Signed.sub,
          succeeds_check_iff]
        simp [hc]
      case h_2 hnone => simp [hnone, succeeds_pure]
  | _ => exact iff_of_true (succeeds_pure _) nofun

theorem Value.resolve_succeeds_iff {value : Value} :
    Succeeds (value.resolve combat ctx) ↔ value.InRange combat ctx := by
  cases value with
  | fixed | powerAmount => exact iff_of_true (succeeds_pure _) trivial
  | range min max => exact succeeds_bind_pure.trans succeeds_check_iff
  | scaled base perUnit source max =>
      refine succeeds_bind_pure.trans (Measure.units_succeeds_iff.trans ?_)
      cases source <;> simp [InRange]

end Amounts

/-! ## Modifiers and health -/

namespace Combatant

/-- The flat parts of modifiers together. -/
def exactSum (modifiers : List (Int × Modifier)) : Int :=
  modifiers.foldl (fun sum m => sum + m.2.flat * m.1) 0

/-- An amount with a percentage of a modifier. -/
def exactScale (amount : Int) (m : Int × Modifier) : Int :=
  if m.2.percent ≠ 0 ∧ 0 < m.1 then max (amount * (100 + m.2.percent) / 100) 0 else amount

/-- What has to be in range for an amount under modifiers: the flat part of each modifier and their
sum up to there, the amount with all of them, and each product with a percentage. -/
structure ScalesInRange (amount : Int) (modifiers : List (Int × Modifier)) : Prop where
  flat : ∀ front m back, modifiers = front ++ m :: back →
    Signed.Fits (m.2.flat * m.1) ∧ Signed.Fits (exactSum front + m.2.flat * m.1)
  sum : Signed.Fits (amount + exactSum modifiers)
  percent : ∀ front m back, modifiers = front ++ m :: back → m.2.percent ≠ 0 ∧ 0 < m.1 →
    Signed.Fits (100 + m.2.percent) ∧
      Signed.Fits (front.foldl exactScale (max (amount + exactSum modifiers) 0) *
        (100 + m.2.percent))

theorem flatSum_eq_ok_iff {modifiers : List (Int × Modifier)} {sum : Int} :
    flatSum modifiers = .ok sum ↔
      (∀ front m back, modifiers = front ++ m :: back →
        Signed.Fits (m.2.flat * m.1) ∧ Signed.Fits (exactSum front + m.2.flat * m.1)) ∧
          sum = exactSum modifiers := by
  have hstep {sum : Int} {m : Int × Modifier} {next : Int} :
      (do Signed.add sum (← Signed.mul m.2.flat m.1)) = .ok next ↔
        (Signed.Fits (m.2.flat * m.1) ∧ Signed.Fits (sum + m.2.flat * m.1)) ∧
          next = sum + m.2.flat * m.1 := by
    rw [step_eq_ok_iff Signed.mul_eq_ok_iff, Signed.add_eq_ok_iff, and_assoc]
  exact foldlM_eq_ok_iff hstep

theorem scaleBy_eq_ok_iff {amount scaled : Int} {m : Int × Modifier} :
    scaleBy amount m = .ok scaled ↔
      (m.2.percent ≠ 0 ∧ 0 < m.1 →
        Signed.Fits (100 + m.2.percent) ∧ Signed.Fits (amount * (100 + m.2.percent))) ∧
          scaled = exactScale amount m := by
  unfold scaleBy exactScale
  split
  case isTrue hscales =>
    unfold withPercent
    rw [step_eq_ok_iff Signed.add_eq_ok_iff, step_eq_ok_iff Signed.mul_eq_ok_iff,
      forall_prop_of_true hscales, and_assoc]
    exact and_congr_right fun _ => and_congr_right fun _ => pure_eq_ok_iff
  case isFalse hplain =>
    exact pure_eq_ok_iff.trans (and_iff_right fun hscales => absurd hscales hplain).symm

/-- **An amount comes out under modifiers** exactly if all that is computed on the way is in
range. -/
theorem underModifiers_succeeds_iff {amount : Int} {modifiers : List (Int × Modifier)} :
    Succeeds (underModifiers amount modifiers) ↔ ScalesInRange amount modifiers := by
  unfold underModifiers
  rw [succeeds_step flatSum_eq_ok_iff, succeeds_step Signed.add_eq_ok_iff]
  constructor
  · rintro ⟨hflat, hsum, _, hscaled⟩
    exact ⟨hflat, hsum, ((foldlM_eq_ok_iff scaleBy_eq_ok_iff).mp hscaled).1⟩
  · rintro ⟨hflat, hsum, hpercent⟩
    exact ⟨hflat, hsum, _, (foldlM_eq_ok_iff scaleBy_eq_ok_iff).mpr ⟨hpercent, rfl⟩⟩

theorem healthPercent_succeeds_iff {combatant : Combatant} : Succeeds combatant.healthPercent ↔
    (0 < combatant.maxHealth → Signed.Fits (combatant.health * 100)) := by
  unfold healthPercent
  split
  case isTrue hempty =>
    exact iff_of_true (succeeds_pure 0) fun hpos => absurd hempty (Int.not_le.mpr hpos)
  case isFalse hfull =>
    have hpos : 0 < combatant.maxHealth := Int.not_le.mp hfull
    rw [succeeds_bind_pure, Signed.mul, succeeds_check_iff]
    exact ⟨fun h _ => h, fun h => h hpos⟩

/-- What has to be in range for a change of the greatest health: it, and health if that is gained
too. -/
def MaxHealthInRange (combatant : Combatant) (delta : Int) : Prop :=
  Signed.Fits (combatant.maxHealth + delta) ∧
    (0 < delta → combatant.isAlive = true → Signed.Fits (combatant.health + delta))

theorem changeMaxHealth_succeeds_iff {combatant : Combatant} {delta : Int} :
    Succeeds (combatant.changeMaxHealth delta) ↔ combatant.MaxHealthInRange delta := by
  -- The bounds of health do not cross, the greatest health stays positive.
  have hclamp (health maxHealth : Int) : Succeeds (do
      return { combatant with
        maxHealth := max maxHealth 1, health := ← Signed.clamp health 0 (max maxHealth 1) }) := by
    have hbounds : 0 ≤ max maxHealth 1 := by omega
    rw [succeeds_bind_pure, Signed.clamp, if_pos hbounds]
    exact ⟨_, rfl⟩
  unfold changeMaxHealth MaxHealthInRange
  rw [succeeds_step Signed.add_eq_ok_iff]
  refine and_congr_right fun _ => ?_
  split
  case isTrue hgains =>
    simp only [Bool.and_eq_true, decide_eq_true_eq] at hgains
    rw [succeeds_step Signed.add_eq_ok_iff]
    exact ⟨fun h _ _ => h.1, fun h => ⟨h hgains.1 hgains.2, hclamp _ _⟩⟩
  case isFalse hnot =>
    exact iff_of_true (hclamp _ _) fun hpos halive => absurd (by simp [hpos, halive]) hnot

end Combatant

/-! ## Resources -/

/-- A resource after a change, whatever the range. -/
def Change.exact (change : Change) (before amount : Int) : Int :=
  match change with
  | .gain => before + amount
  | .lose => max (before - amount) 0
  | .set => amount

/-- What has to be in range for the change of a resource. -/
def Change.InRange (change : Change) (before amount : Int) : Prop :=
  match change with
  | .gain => Signed.Fits (before + amount)
  | .lose => Signed.Fits (before - amount)
  | .set => True

theorem Change.of_eq_ok_iff {change : Change} {before amount after : Int} :
    change.of before amount = .ok after ↔
      change.InRange before amount ∧ after = change.exact before amount := by
  cases change with
  | gain => exact Signed.add_eq_ok_iff
  | lose =>
      unfold Change.of
      rw [step_eq_ok_iff Signed.sub_eq_ok_iff]
      exact and_congr_right fun _ => pure_eq_ok_iff
  | set => exact pure_eq_ok_iff.trans (and_iff_right trivial).symm

namespace Resolution

variable {ctx : Context} {s : Scene} {value : Value} {n : Int}

/-- A step that gives what it gives exactly if that is in range. -/
theorem succeeds_lift_bind {x : Except Fault α} {f : α → Resolution β} {p : Prop} {a : α}
    (hx : ∀ {b}, x = .ok b ↔ p ∧ b = a) :
    Succeeds ((liftM x >>= f).run s) ↔ p ∧ Succeeds ((f a).run s) := by
  constructor
  · rintro ⟨⟨b, t⟩, h⟩
    obtain ⟨_, _, hlift, h⟩ := run_bind_iff.mp h
    obtain ⟨hb, rfl⟩ := run_lift_iff.mp hlift
    obtain ⟨hp, rfl⟩ := hx.mp hb
    exact ⟨hp, _, h⟩
  · rintro ⟨hp, ⟨b, t⟩, h⟩
    exact ⟨(b, t), run_bind_iff.mpr ⟨a, s, run_lift_iff.mpr ⟨hx.mpr ⟨hp, rfl⟩, rfl⟩, h⟩⟩

theorem succeeds_combat_bind {f : Combat → Resolution β} :
    Succeeds ((combat >>= f).run s) ↔ Succeeds ((f s.combat).run s) := Iff.rfl

theorem succeeds_get_bind {f : Scene → Resolution β} :
    Succeeds ((get >>= f).run s) ↔ Succeeds ((f s).run s) := Iff.rfl

theorem succeeds_run_bind {x : Resolution α} {f : α → Resolution β} {a : α} {t : Scene}
    (h : x.run s = .ok (a, t)) : Succeeds ((x >>= f).run s) ↔ Succeeds ((f a).run t) := by
  rw [StateT.run_bind, h]
  rfl

theorem succeeds_amount_bind {f : Int → Resolution β} (hn : value.resolve s.combat ctx = .ok n) :
    Succeeds ((amount value ctx >>= f).run s) ↔ Succeeds ((f n).run s) :=
  succeeds_run_bind (run_amount_iff.mpr ⟨hn, rfl⟩)

theorem succeeds_report (event : Event) : Succeeds ((report event).run s) := ⟨_, rfl⟩

/-- What is reported if it is not zero is in range. -/
theorem succeeds_reportDifference_iff {before after : Int} {event : Int → Event} :
    Succeeds ((do if after != before then report (event (← Signed.sub after before)) :
      Resolution Unit).run s) ↔ Signed.Fits (after - before) := by
  split
  case isTrue =>
    rw [succeeds_lift_bind Signed.sub_eq_ok_iff]
    exact and_iff_left (succeeds_report _)
  case isFalse hsame =>
    have hzero : after - before = 0 := by simpa [Int.sub_eq_zero] using hsame
    rw [hzero]
    exact iff_of_true ⟨_, rfl⟩ (by decide)

/-- **Energy changes** exactly if it and the difference that is reported are in range. -/
theorem energy_succeeds_iff {change : Change} (hn : value.resolve s.combat ctx = .ok n) :
    Succeeds ((energy value change ctx).run s) ↔
      change.InRange s.combat.resources.energy n ∧
        Signed.Fits (change.exact s.combat.resources.energy n - s.combat.resources.energy) := by
  unfold energy
  rw [succeeds_amount_bind hn, succeeds_combat_bind]
  dsimp only
  rw [succeeds_lift_bind Change.of_eq_ok_iff]
  exact and_congr_right fun _ => succeeds_reportDifference_iff

/-- **Gold changes** exactly if it, the difference that is reported and the total that was earned
are in range. -/
theorem gold_succeeds_iff {change : Change} (hn : value.resolve s.combat ctx = .ok n) :
    Succeeds ((gold value change ctx).run s) ↔
      change.InRange s.gold n ∧
        let delta := max (change.exact s.gold n) 0 - s.gold
        Signed.Fits delta ∧ (0 < delta → s.stats.goldEarned + delta.toNat < 1 <<< 64) := by
  unfold gold
  rw [succeeds_amount_bind hn, succeeds_get_bind]
  dsimp only
  rw [succeeds_lift_bind Change.of_eq_ok_iff]
  refine and_congr_right fun _ => ?_
  rw [succeeds_lift_bind Signed.sub_eq_ok_iff]
  refine and_congr_right fun _ => ?_
  split
  case isTrue hpos =>
    rw [succeeds_lift_bind Unsigned.add_eq_ok_iff, forall_prop_of_true hpos]
    refine and_iff_left ?_
    split <;> exact ⟨_, rfl⟩
  case isFalse hnot =>
    refine iff_of_true ?_ fun hpos => absurd hpos hnot
    split <;> exact ⟨_, rfl⟩

theorem energyNextTurn_succeeds_iff (hn : value.resolve s.combat ctx = .ok n) :
    Succeeds ((energyNextTurn value ctx).run s) ↔
      (n ≠ 0 → Signed.Fits (s.combat.resources.energyNextTurn + n)) := by
  unfold energyNextTurn
  rw [succeeds_amount_bind hn]
  split
  case isTrue hne =>
    have hn : n ≠ 0 := by simpa using hne
    rw [succeeds_combat_bind]
    dsimp only
    rw [succeeds_lift_bind Signed.add_eq_ok_iff, forall_prop_of_true hn]
    exact and_iff_left ⟨_, rfl⟩
  case isFalse hzero =>
    exact iff_of_true ⟨_, rfl⟩ fun hne => absurd (by simpa using hne) hzero

/-- **The energy of a new turn is given** exactly if it is in range with what was saved for it. -/
theorem refresh_succeeds_iff : Succeeds (refresh.run s) ↔
    Signed.Fits (s.combat.resources.maxEnergy + s.combat.resources.energyNextTurn) := by
  unfold refresh
  rw [succeeds_combat_bind]
  dsimp only
  rw [succeeds_lift_bind Signed.add_eq_ok_iff]
  exact and_iff_left ⟨_, rfl⟩

/-- **The ability is charged** exactly if the charge is in range before it is cut off. -/
theorem charge_succeeds_iff {rules : Rules} : Succeeds ((charge rules).run s) ↔
    s.combat.resources.abilityCharge + rules.config.chargePerCard < 1 <<< 32 := by
  unfold charge
  rw [succeeds_combat_bind]
  dsimp only
  rw [succeeds_lift_bind Unsigned.add_eq_ok_iff]
  exact and_iff_left ⟨_, rfl⟩

/-- What has to be in range for the change of costs: the modifier of each card after every time that
it is found. -/
def CostsInRange (combat : Combat) (found : List Card) (delta : Int) : Prop :=
  ∀ uid card, combat.card? uid = some card → ∀ times : Nat, 0 < times →
    times ≤ Piles.countIn uid found → Signed.Fits (card.costModifier + times * delta)

theorem costsInRange_cons_of_none {combat : Combat} {card : Card} {cards : List Card} {delta : Int}
    (hnone : combat.card? card.uid = none) :
    CostsInRange combat (card :: cards) delta ↔ CostsInRange combat cards delta := by
  refine forall₂_congr fun uid found => forall_congr' fun hsome => ?_
  have hother : card.uid ≠ uid := by
    rintro rfl
    exact absurd (hnone.symm.trans hsome) nofun
  rw [Piles.countIn_cons, if_neg hother, Nat.add_zero]

/-- A card that is found has its modifier changed before the cards that come after it. -/
theorem costsInRange_cons_of_some {combat : Combat} {card found : Card} {cards : List Card}
    {delta : Int} (hsome : combat.card? card.uid = some found) :
    CostsInRange combat (card :: cards) delta ↔ Signed.Fits (found.costModifier + delta) ∧
      CostsInRange (combat.modifyCard card.uid fun _ =>
        { found with costModifier := found.costModifier + delta }) cards delta := by
  have huid : found.uid = card.uid := uid_of_card? hsome
  have hmeans := @Combat.card?_modifyCard combat card.uid
    (fun _ => { found with costModifier := found.costModifier + delta })
    fun _ _ => huid
  have hnext (times : Nat) : found.costModifier + delta + times * delta =
      found.costModifier + (times + 1 : Nat) * delta := by
    rw [Int.natCast_add, Int.add_mul]
    omega
  constructor
  · intro h
    refine ⟨?_, fun u other hother times hpos hle => ?_⟩
    · have honce := h card.uid found hsome 1 Nat.one_pos (by simp [Piles.countIn_cons])
      rwa [Int.natCast_one, Int.one_mul] at honce
    · rw [hmeans] at hother
      by_cases hu : u = card.uid
      · subst hu
        rw [hsome] at hother
        obtain rfl : _ = other := by simpa using hother
        rw [hnext]
        refine h card.uid found hsome (times + 1) (Nat.succ_pos _) ?_
        rw [Piles.countIn_cons, if_pos rfl]
        omega
      · refine h u other (by simpa [hu] using hother) times hpos ?_
        rw [Piles.countIn_cons]
        omega
  · rintro ⟨honce, hrest⟩ u other hother times hpos hle
    rw [Piles.countIn_cons] at hle
    by_cases hu : u = card.uid
    · subst hu
      obtain rfl := Option.some.inj (hsome.symm.trans hother)
      rw [if_pos rfl] at hle
      cases times with
      | zero => omega
      | succ times =>
          by_cases hlast : times = 0
          · rw [hlast, Int.natCast_one, Int.one_mul]
            exact honce
          · rw [← hnext]
            refine hrest card.uid { found with costModifier := found.costModifier + delta } ?_ times
              (by omega) (by omega)
            rw [hmeans, hsome]
            simp
    · rw [if_neg (Ne.symm hu)] at hle
      exact hrest u other (by rw [hmeans, hother]; simp [hu]) times hpos hle

/-- Changes the cost of one card, if it is still in the combat. -/
def changeCost (delta : Int) (card : Card) : Resolution Unit := do
  match ((← combat).card? card.uid).filter fun _ => true with
  | none => return
  | some found =>
    let changed ← (do return { found with costModifier := ← Signed.add found.costModifier delta } :
      Except Fault Card)
    putChanged card.uid changed
    report (.costChange card.uid delta)

theorem run_changeCost_of_none {card : Card} (hnone : s.combat.card? card.uid = none) :
    (changeCost n card).run s = .ok ((), s) := by
  unfold changeCost
  simp only [run_bind_iff, run_combat_iff]
  refine ⟨s.combat, s, ⟨rfl, rfl⟩, ?_⟩
  rw [hnone]
  rfl

theorem run_changeCost_iff {card found : Card} {t : Scene}
    (hsome : s.combat.card? card.uid = some found) :
    (changeCost n card).run s = .ok ((), t) ↔ Signed.Fits (found.costModifier + n) ∧
      t = (s.alter card.uid { found with costModifier := found.costModifier + n }).report
        (.costChange card.uid n) := by
  have hfilter : (s.combat.card? card.uid).filter (fun _ => true) = some found := by
    rw [hsome]
    rfl
  unfold changeCost
  simp only [run_bind_iff, run_combat_iff]
  constructor
  · rintro ⟨_, _, ⟨rfl, rfl⟩, h⟩
    rw [hfilter] at h
    simp only [run_bind_iff, run_lift_iff, run_putChanged_iff, run_report_iff, bind_eq_ok,
      Signed.add_eq_ok_iff] at h
    obtain ⟨_, _, ⟨⟨_, ⟨hfits, rfl⟩, hchanged⟩, rfl⟩, _, _, rfl, rfl⟩ := h
    obtain rfl := Except.ok.inj hchanged
    exact ⟨hfits, rfl⟩
  · rintro ⟨hfits, rfl⟩
    refine ⟨_, _, ⟨rfl, rfl⟩, ?_⟩
    rw [hfilter]
    simp only [run_bind_iff, run_lift_iff, run_putChanged_iff, run_report_iff, bind_eq_ok,
      Signed.add_eq_ok_iff]
    exact ⟨_, _, ⟨⟨_, ⟨hfits, rfl⟩, rfl⟩, rfl⟩, (), _, rfl, rfl⟩

/-- One card after the other has its cost changed. -/
theorem forM_changeCost_succeeds_iff {cards : List Card} :
    Succeeds ((cards.forM (changeCost n)).run s) ↔ CostsInRange s.combat cards n := by
  induction cards generalizing s with
  | nil =>
      refine iff_of_true ⟨_, rfl⟩ fun _ _ _ times hpos hle => ?_
      rw [Piles.countIn_nil] at hle
      omega
  | cons card cards ih =>
      show Succeeds ((changeCost n card >>= fun _ => cards.forM (changeCost n)).run s) ↔ _
      cases hfound : s.combat.card? card.uid with
      | none =>
          rw [costsInRange_cons_of_none hfound, succeeds_run_bind (run_changeCost_of_none hfound), ih]
      | some found =>
          rw [costsInRange_cons_of_some hfound]
          constructor
          · rintro ⟨⟨_, u⟩, h⟩
            obtain ⟨_, t, hchange, hrest⟩ := run_bind_iff.mp h
            obtain ⟨hfits, rfl⟩ := (run_changeCost_iff hfound).mp hchange
            exact ⟨hfits, ih.mp ⟨_, hrest⟩⟩
          · rintro ⟨hfits, hrest⟩
            rw [succeeds_run_bind ((run_changeCost_iff hfound).mpr ⟨hfits, rfl⟩), ih]
            exact hrest

/-- **Costs change** exactly if the modifier of each card that is found stays in range. -/
theorem modifyCost_succeeds_iff {rules : Rules} {aim : CardAim} {found : List Card} {t : Scene}
    (hn : value.resolve s.combat ctx = .ok n) (hne : n ≠ 0)
    (hfound : (cards rules aim none ctx).run s = .ok (found, t)) :
    Succeeds ((modifyCost rules value aim ctx).run s) ↔ CostsInRange s.combat found n := by
  have hcombat : t.combat = s.combat := by
    obtain ⟨rng, -, rfl⟩ := run_cards_iff.mp hfound
    rfl
  unfold modifyCost changeCards forCards
  rw [succeeds_amount_bind hn, if_pos (by simpa using hne), succeeds_run_bind hfound, ← hcombat]
  exact forM_changeCost_succeeds_iff

end Resolution

/-! ## Costs and stacks -/

/-- What has to be in range for the cost of a card: a fixed cost with its modifier. -/
def Card.CostInRange (card : Card) (definition : CardDefinition) : Prop :=
  ∀ cost, definition.costWhen card.upgraded = .fixed cost → Signed.Fits (cost + card.costModifier)

theorem Card.costToPlay_succeeds_iff {card : Card} {definition : CardDefinition} {energy : Int} :
    Succeeds (card.costToPlay definition energy) ↔ card.CostInRange definition := by
  unfold costToPlay CostInRange
  split
  case h_1 cost hcost =>
    rw [succeeds_bind_pure, Signed.add, succeeds_check_iff, hcost]
    simp
  case h_2 hcost =>
    rw [hcost]
    exact iff_of_true (succeeds_pure _) nofun

/-- **The cards that can be played are found** exactly if the costs of the hand are in range. -/
theorem Rules.playableCards_succeeds_iff {rules : Rules} {run : Run} :
    Succeeds (rules.playableCards run) ↔ ∀ combat, run.readyCombat = .ok combat →
      ∀ card ∈ combat.piles.hand, ∀ definition, rules.content.cards.find? card.definition =
        some definition → card.cannotBePlayed definition = false → card.CostInRange definition := by
  have hplayable (combat : Combat) (card : Card) : Succeeds (rules.isPlayable combat card) ↔
      ∀ definition, rules.content.cards.find? card.definition = some definition →
        card.cannotBePlayed definition = false → card.CostInRange definition := by
    unfold Rules.isPlayable
    split
    case h_1 hnone => simp [hnone, succeeds_pure]
    case h_2 definition hfind =>
      split
      case isTrue hcannot => simp [hfind, hcannot, succeeds_pure]
      case isFalse hcan =>
        rw [succeeds_bind_pure, Card.costToPlay_succeeds_iff]
        simp [hfind, hcan]
  unfold Rules.playableCards
  split
  case h_1 reason hunready => simp [hunready, succeeds_pure]
  case h_2 combat hready =>
    rw [succeeds_bind_pure, succeeds_filterM_iff]
    simp [hready, hplayable]

theorem Stacking.join_succeeds_iff {stacking : Stacking} {held : Option Power} {amount : Int}
    {duration : Option Int} : Succeeds (stacking.join held amount duration) ↔
      ∀ power, held = some power → stacking ≠ .duration → Signed.Fits (power.amount + amount) := by
  cases held with
  | none => exact iff_of_true (succeeds_pure _) nofun
  | some power =>
      cases stacking with
      | intensity | both =>
          refine succeeds_bind_pure.trans (succeeds_check_iff.trans ?_)
          simp
      | duration => exact iff_of_true (succeeds_pure _) fun _ _ h => absurd rfl h

/-- **A power is given** exactly if the stacks that are added are in range. -/
theorem Combatant.applyPower_succeeds_iff {combatant : Combatant}
    {powers : Catalog PowerDefinition} {id : PowerId} {amount : Int} {duration : Option Int} :
    Succeeds (combatant.applyPower powers id amount duration) ↔
      ∀ definition power, powers.find? id = some definition →
        combatant.powers.get? id = some power → definition.stacking ≠ .duration →
          Signed.Fits (power.amount + amount) := by
  unfold applyPower
  split
  case h_1 hnone => simp [hnone, succeeds_pure]
  case h_2 definition hfind =>
    rw [succeeds_bind_iff, Stacking.join_succeeds_iff]
    · constructor
      · rintro h _ power hsame
        obtain rfl := Option.some.inj (hfind.symm.trans hsame)
        exact h power
      · exact fun h power => h definition power hfind
    · intro joined
      dsimp only
      split <;> exact succeeds_pure _

theorem Combatant.removePower_succeeds_iff {combatant : Combatant}
    {powers : Catalog PowerDefinition} {id : PowerId} {amount : Int} :
    Succeeds (combatant.removePower powers id (some amount)) ↔
      ∀ held, combatant.powers.get? id = some held → Signed.Fits (held.amount - amount) := by
  unfold removePower
  dsimp only
  split
  case h_1 hnone => simp [hnone, succeeds_pure]
  case h_2 held hheld =>
    rw [succeeds_step Signed.sub_eq_ok_iff, hheld]
    have hleft (left : Int) : Succeeds (if left ≤ 0 && (powers.find? id).any (·.removeAtZero) then
        pure (none, { combatant with powers := combatant.powers.remove id })
      else
        pure (some left, { combatant with
          powers := combatant.powers.modify id ({ · with amount := left }) })) := by
      split <;> exact succeeds_pure _
    constructor
    · rintro ⟨hfits, -⟩ _ hsame
      exact Option.some.inj hsame ▸ hfits
    · exact fun h => ⟨h held rfl, hleft _⟩

/-! ## All together -/

/-- Each mechanism of the rules gives a result exactly if what it computes is in range. -/
structure Rules.Computes (rules : Rules) : Prop where
  value : ∀ (value : Value) combat ctx,
    Succeeds (value.resolve combat ctx) ↔ value.InRange combat ctx
  /-- Damage that is dealt or taken, and block, under the modifiers of powers. -/
  scaling : ∀ amount modifiers, Succeeds (Combatant.underModifiers amount modifiers) ↔
    Combatant.ScalesInRange amount modifiers
  combo : ∀ (combo : Combo) damage, Succeeds (combo.scale damage) ↔
    Signed.Fits (combo.multiplier.scale damage + combo.bonus)
  share : ∀ n percent, Succeeds (Signed.percentOf n percent) ↔ Signed.Fits (n * percent)
  healthPercent : ∀ combatant : Combatant, Succeeds combatant.healthPercent ↔
    (0 < combatant.maxHealth → Signed.Fits (combatant.health * 100))
  maxHealth : ∀ (combatant : Combatant) delta,
    Succeeds (combatant.changeMaxHealth delta) ↔ combatant.MaxHealthInRange delta
  energy : ∀ value change ctx s n, value.resolve s.combat ctx = .ok n →
    (Succeeds ((Resolution.energy value change ctx).run s) ↔
      change.InRange s.combat.resources.energy n ∧
        Signed.Fits (change.exact s.combat.resources.energy n - s.combat.resources.energy))
  gold : ∀ value change ctx s n, value.resolve s.combat ctx = .ok n →
    (Succeeds ((Resolution.gold value change ctx).run s) ↔
      change.InRange s.gold n ∧
        let delta := max (change.exact s.gold n) 0 - s.gold
        Signed.Fits delta ∧ (0 < delta → s.stats.goldEarned + delta.toNat < 1 <<< 64))
  energyNextTurn : ∀ value ctx s n, value.resolve s.combat ctx = .ok n →
    (Succeeds ((Resolution.energyNextTurn value ctx).run s) ↔
      (n ≠ 0 → Signed.Fits (s.combat.resources.energyNextTurn + n)))
  refresh : ∀ s, Succeeds (Resolution.refresh.run s) ↔
    Signed.Fits (s.combat.resources.maxEnergy + s.combat.resources.energyNextTurn)
  cost : ∀ (card : Card) definition energy,
    Succeeds (card.costToPlay definition energy) ↔ card.CostInRange definition
  costChange : ∀ value aim ctx s n found t, value.resolve s.combat ctx = .ok n → n ≠ 0 →
    (Resolution.cards rules aim none ctx).run s = .ok (found, t) →
      (Succeeds ((Resolution.modifyCost rules value aim ctx).run s) ↔
        Resolution.CostsInRange s.combat found n)
  stacking : ∀ (combatant : Combatant) id amount duration,
    Succeeds (combatant.applyPower rules.content.powers id amount duration) ↔
      ∀ definition power, rules.content.powers.find? id = some definition →
        combatant.powers.get? id = some power → definition.stacking ≠ .duration →
          Signed.Fits (power.amount + amount)
  removal : ∀ (combatant : Combatant) id amount,
    Succeeds (combatant.removePower rules.content.powers id (some amount)) ↔
      ∀ held, combatant.powers.get? id = some held → Signed.Fits (held.amount - amount)
  charge : ∀ s, Succeeds ((Resolution.charge rules).run s) ↔
    s.combat.resources.abilityCharge + rules.config.chargePerCard < 1 <<< 32

/-- **Each mechanism fails at the ends of the ranges, and nowhere else.** -/
theorem Rules.computes (rules : Rules) : rules.Computes where
  value _ _ _ := Value.resolve_succeeds_iff
  scaling _ _ := Combatant.underModifiers_succeeds_iff
  combo _ _ := succeeds_check_iff
  share _ _ := Signed.percentOf_succeeds_iff
  healthPercent _ := Combatant.healthPercent_succeeds_iff
  maxHealth _ _ := Combatant.changeMaxHealth_succeeds_iff
  energy _ _ _ _ _ := Resolution.energy_succeeds_iff
  gold _ _ _ _ _ := Resolution.gold_succeeds_iff
  energyNextTurn _ _ _ _ := Resolution.energyNextTurn_succeeds_iff
  refresh _ := Resolution.refresh_succeeds_iff
  cost _ _ _ := Card.costToPlay_succeeds_iff
  costChange _ _ _ _ _ _ _ := Resolution.modifyCost_succeeds_iff
  stacking _ _ _ _ := Combatant.applyPower_succeeds_iff
  removal _ _ _ := Combatant.removePower_succeeds_iff
  charge _ := Resolution.charge_succeeds_iff

end CardCombat
