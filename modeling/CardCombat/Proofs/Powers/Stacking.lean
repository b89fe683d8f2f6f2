import CardCombat.Proofs.Overflow.Ranges
import CardCombat.Proofs.Powers.Stacks

/-!
# Giving a power again and again

A power that is given several times makes one pile. Where stacks are added it is what was held and
the sum of what is given; where the larger stack stays it is the greatest of all of these; and a
duration, where the longer one stays, is the longest of those that were told. So nothing but the
sizes of the gifts matters, and not their order. A pile keeps the place of the power that was held,
and its silence, or else lies behind all other powers, and these are as they were.

Stacks that are positive never take a power away: a power that goes when its stack is not positive
is held with a positive stack or not at all, and the pile is not smaller than that.

## Main definitions

* `Gift` -- stacks of a power that are given, and how long they last.
* `Combatant.giveAll` -- gifts of one power, one after another.
* `Power.raised`, `Power.raisedBy` -- a power after one gift, and after several.
* `Power.joined` -- a power after a gift to someone who may hold it.
* `Power.PiledOn`, `PowerSet.Placed` -- what becomes of the power, and of all the others.

## Main results

* `Combatant.applyPower_eq` -- one gift.
* `Combatant.giveAll_of_held` -- gifts to a holder.
* `Combatant.giveAll_piles` -- gifts to anyone.
-/

namespace CardCombat

/-- Stacks of a power that are given. -/
structure Gift where
  amount : Int
  duration : Option Int := none
  deriving DecidableEq

namespace Gift

/-- How much is given in all. -/
def total : List Gift → Int
  | [] => 0
  | gift :: gifts => gift.amount + total gifts

theorem total_perm {gifts gifts' : List Gift} (h : gifts.Perm gifts') :
    total gifts = total gifts' := by
  induction h with
  | nil => rfl
  | cons gift _ ih => exact congrArg (gift.amount + ·) ih
  | swap first second gifts => exact Int.add_left_comm _ _ _
  | trans _ _ ih₁ ih₂ => exact ih₁.trans ih₂

theorem total_nonneg {gifts : List Gift} (h : ∀ gift ∈ gifts, 0 < gift.amount) :
    0 ≤ total gifts := by
  induction gifts with
  | nil => exact Int.le_refl 0
  | cons gift gifts ih =>
      have hfirst := h gift List.mem_cons_self
      have hrest := ih fun other hmem => h other (List.mem_cons_of_mem _ hmem)
      exact Int.add_nonneg (Int.le_of_lt hfirst) hrest

/-- The power that a gift makes where there was none. -/
def start (id : PowerId) (gift : Gift) : Power :=
  { id, amount := gift.amount, duration := gift.duration }

end Gift

/-- The greatest of some quantities does not depend on their order. -/
theorem max?_perm {quantities quantities' : List Int} (h : quantities.Perm quantities') :
    quantities.max? = quantities'.max? := by
  refine Option.ext fun greatest => ?_
  rw [List.max?_eq_some_iff, List.max?_eq_some_iff, h.mem_iff]
  exact and_congr_right fun _ => forall_congr' fun _ => by rw [h.mem_iff]

/-! ## One stack on another -/

namespace Stacking

variable {stacking : Stacking}

/-- A stack on another one. -/
def stack : Stacking → Int → Int → Int
  | duration, held, given => max held given
  | intensity, held, given | both, held, given => held + given

/-- A duration beside another one. -/
def lasting : Stacking → Option Int → Option Int → Option Int
  | both, held, given => joinDuration held given
  | intensity, held, _ | duration, held, _ => held

end Stacking

namespace Power

variable {power : Power} {stacking : Stacking} {gift : Gift} {gifts : List Gift}

/-- A power after a gift. -/
def raised (stacking : Stacking) (power : Power) (gift : Gift) : Power :=
  { power with
    amount := stacking.stack power.amount gift.amount
    duration := stacking.lasting power.duration gift.duration }

/-- A power after a gift to someone who may hold it. -/
def joined (stacking : Stacking) (id : PowerId) (held : Option Power) (gift : Gift) : Power :=
  held.elim (gift.start id) (·.raised stacking gift)

/-- Joining fails only if the sum of two stacks leaves its range. -/
theorem join_eq (id : PowerId) {held : Option Power}
    (hfits : ∀ power, held = some power → stacking ≠ .duration →
      Signed.Fits (power.amount + gift.amount)) :
    stacking.join held gift.amount gift.duration =
      .ok ((joined stacking id held gift).amount, (joined stacking id held gift).duration) := by
  cases held with
  | none => rfl
  | some power =>
      cases stacking with
      | intensity | both =>
          exact bind_eq_ok.mpr ⟨_, Signed.add_eq_ok_iff.mpr ⟨hfits power rfl nofun, rfl⟩, rfl⟩
      | duration => rfl

/-- No positive gift makes a stack smaller. -/
theorem le_amount_raised (hpos : 0 < gift.amount) :
    power.amount ≤ (power.raised stacking gift).amount := by
  cases stacking with
  | intensity | both => exact Int.le_add_of_nonneg_right (Int.le_of_lt hpos)
  | duration => exact Int.le_max_left _ _

/-- A power after gifts. -/
def raisedBy (power : Power) (stacking : Stacking) (gifts : List Gift) : Power :=
  gifts.foldl (raised stacking) power

/-- Gifts change neither the name of a power nor its silence. -/
theorem raisedBy_frame :
    (power.raisedBy stacking gifts).id = power.id ∧
      (power.raisedBy stacking gifts).silencedTurns = power.silencedTurns := by
  induction gifts generalizing power with
  | nil => exact ⟨rfl, rfl⟩
  | cons gift gifts ih => exact @ih (power.raised stacking gift)

/-- Stacks that are added make a sum. -/
theorem amount_raised_of_sum (h : stacking ≠ .duration) :
    (power.raised stacking gift).amount = power.amount + gift.amount := by
  cases stacking with
  | intensity | both => rfl
  | duration => exact absurd rfl h

theorem amount_raisedBy_of_sum (h : stacking ≠ .duration) :
    (power.raisedBy stacking gifts).amount = power.amount + Gift.total gifts := by
  induction gifts generalizing power with
  | nil => exact (Int.add_zero _).symm
  | cons gift gifts ih =>
      refine (@ih (power.raised stacking gift)).trans ?_
      rw [amount_raised_of_sum h, Int.add_assoc]
      rfl

/-- Of stacks of which the larger one stays, the greatest is left. -/
theorem amount_raisedBy_of_duration :
    some (power.raisedBy .duration gifts).amount =
      (power.amount :: gifts.map (·.amount)).max? := by
  rw [List.max?_cons', List.foldl_map]
  congr 1
  induction gifts generalizing power with
  | nil => rfl
  | cons gift gifts ih => exact @ih (power.raised .duration gift)

/-- A duration counts only where the longer one stays. -/
theorem duration_raisedBy_of_ne (h : stacking ≠ .both) :
    (power.raisedBy stacking gifts).duration = power.duration := by
  have hsame (held given : Option Int) : stacking.lasting held given = held := by
    cases stacking with
    | intensity | duration => rfl
    | both => exact absurd rfl h
  induction gifts generalizing power with
  | nil => rfl
  | cons gift gifts ih => exact ih.trans (hsame _ _)

/-- Of the durations that are told, the longest is left. -/
theorem duration_raisedBy_of_both :
    (power.raisedBy .both gifts).duration =
      (power.duration.toList ++ gifts.filterMap (·.duration)).max? := by
  induction gifts generalizing power with
  | nil => cases h : power.duration <;> simp [raisedBy, h]
  | cons gift gifts ih =>
      refine (@ih (power.raised .both gift)).trans ?_
      show ((Stacking.joinDuration power.duration gift.duration).toList ++ _).max? = _
      rw [List.filterMap_cons]
      cases power.duration with
      | none => cases gift.duration <;> rfl
      | some held =>
          cases gift.duration with
          | none => rfl
          | some given =>
              show (max held given :: gifts.filterMap (·.duration)).max? =
                (held :: given :: gifts.filterMap (·.duration)).max?
              rw [List.max?_cons', List.max?_cons', List.foldl_cons]

/-- What a power is after gifts, if it was held so before, or not at all. -/
structure PiledOn (stacking : Stacking) (held : Option Power) (gifts : List Gift)
    (power : Power) : Prop where
  /-- Stacks that are added make a sum. -/
  sum : stacking ≠ .duration →
    power.amount = (held.map (·.amount)).getD 0 + Gift.total gifts
  /-- Of stacks of which the larger one stays, the greatest is left. -/
  greatest : stacking = .duration →
    some power.amount = ((held.map (·.amount)).toList ++ gifts.map (·.amount)).max?
  /-- Of durations of which the longer one stays, the longest that was told is left. -/
  longest : stacking = .both →
    power.duration = ((held.bind (·.duration)).toList ++ gifts.filterMap (·.duration)).max?
  /-- Other durations stay as they were. -/
  lasting : stacking ≠ .both → ∀ before, held = some before → power.duration = before.duration
  silenced : power.silencedTurns = (held.map (·.silencedTurns)).getD 0

/-- A power that is held. -/
theorem piledOn_raisedBy (power : Power) (stacking : Stacking) (gifts : List Gift) :
    (power.raisedBy stacking gifts).PiledOn stacking (some power) gifts where
  sum := amount_raisedBy_of_sum
  greatest h := h ▸ amount_raisedBy_of_duration
  longest h := h ▸ duration_raisedBy_of_both
  lasting h _ hbefore := Option.some.inj hbefore ▸ duration_raisedBy_of_ne h
  silenced := raisedBy_frame.2

/-- A power that was not held: the first gift makes it, and the others come on top of that. -/
theorem piledOn_start (id : PowerId) (stacking : Stacking) (gift : Gift) (gifts : List Gift) :
    ((gift.start id).raisedBy stacking gifts).PiledOn stacking none (gift :: gifts) where
  sum h := (amount_raisedBy_of_sum h).trans (Int.zero_add _).symm
  greatest h := h ▸ amount_raisedBy_of_duration
  longest h := by
    subst h
    rw [duration_raisedBy_of_both, List.filterMap_cons]
    cases hduration : gift.duration <;> simp [Gift.start, hduration]
  lasting _ _ hbefore := absurd hbefore nofun
  silenced := raisedBy_frame.2

/-- A power is what it says. -/
theorem eq_of_parts {power' : Power} (hid : power'.id = power.id)
    (hamount : power'.amount = power.amount) (hduration : power'.duration = power.duration)
    (hsilenced : power'.silencedTurns = power.silencedTurns) : power' = power := by
  obtain ⟨id, amount, duration, silencedTurns⟩ := power
  obtain ⟨id', amount', duration', silencedTurns'⟩ := power'
  obtain rfl : id' = id := hid
  obtain rfl : amount' = amount := hamount
  obtain rfl : duration' = duration := hduration
  obtain rfl : silencedTurns' = silencedTurns := hsilenced
  rfl

/-- The order of the gifts does not matter for the stack, and for a duration of which the longer one
stays. -/
theorem PiledOn.eq_of_perm {held : Option Power} {gifts' : List Gift} {power' : Power}
    (h : power.PiledOn stacking held gifts) (h' : power'.PiledOn stacking held gifts')
    (hperm : gifts'.Perm gifts) : power'.amount = power.amount ∧
      (stacking = .both → power'.duration = power.duration) := by
  refine ⟨?_, fun hboth => ?_⟩
  · by_cases hstacking : stacking = .duration
    · refine Option.some.inj ((h'.greatest hstacking).trans (.trans ?_ (h.greatest hstacking).symm))
      exact max?_perm ((hperm.map _).append_left _)
    · rw [h.sum hstacking, h'.sum hstacking, Gift.total_perm hperm]
  · rw [h.longest hboth, h'.longest hboth]
    exact max?_perm ((hperm.filterMap _).append_left _)

end Power

/-! ## In its place -/

namespace PowerSet

variable {power power' : Power} {powers : PowerSet}

/-- Where a power came to lie: in the place of the one with its name, or behind all others if there
was none; and all others are as they were. -/
structure Placed (power : Power) (before after : PowerSet) : Prop where
  found : after.get? power.id = some power
  inPlace : ∀ held, before.get? power.id = some held →
    ∃ front back, before = front ++ held :: back ∧ after = front ++ power :: back
  behind : before.get? power.id = none → after = before ++ [power]

theorem placed_insert (power : Power) (powers : PowerSet) :
    Placed power powers (insert power powers) := by
  refine ⟨get?_insert_self powers power, ?_, ?_⟩
  · intro held hheld
    induction powers with
    | nil => simp [get?] at hheld
    | cons first powers ih =>
        unfold get? at hheld ih
        by_cases hfirst : first.id = power.id
        · rw [List.find?_cons_of_pos (by simp [hfirst])] at hheld
          obtain rfl := Option.some.inj hheld
          exact ⟨[], powers, rfl, by simp [insert, hfirst]⟩
        · rw [List.find?_cons_of_neg (by simp [hfirst])] at hheld
          obtain ⟨front, back, rfl, hafter⟩ := ih hheld
          exact ⟨first :: front, back, rfl, by simp [insert, hfirst, hafter]⟩
  · intro hnone
    induction powers with
    | nil => rfl
    | cons first powers ih =>
        unfold get? at hnone ih
        rw [List.find?_eq_none] at hnone ih
        have hfirst : first.id ≠ power.id := by simpa using hnone first List.mem_cons_self
        have hrest := ih fun other hmem => hnone other (List.mem_cons_of_mem first hmem)
        simp [insert, hfirst, hrest]

/-- A power that is there is in its place already. -/
theorem insert_of_get? (h : powers.get? power.id = some power) : insert power powers = powers := by
  obtain ⟨front, back, hbefore, hafter⟩ := (placed_insert power powers).inPlace power h
  exact hafter.trans hbefore.symm

/-- Of two powers of one name, the one that comes later counts. -/
theorem insert_insert (h : power'.id = power.id) :
    insert power' (insert power powers) = insert power' powers := by
  induction powers with
  | nil => simp [insert, h]
  | cons first powers ih =>
      by_cases hfirst : first.id = power.id
      · simp [insert, hfirst, h]
      · simp [insert, hfirst, h, ih]

end PowerSet

/-! ## Giving -/

namespace Combatant

variable {catalog : Catalog PowerDefinition} {combatant : Combatant} {id : PowerId}
  {definition : PowerDefinition} {held : Power} {gift : Gift} {gifts : List Gift}

/-- A combatant is given stacks of a power. -/
def give (catalog : Catalog PowerDefinition) (id : PowerId) (combatant : Combatant) (gift : Gift) :
    Except Fault Combatant := do
  return (← combatant.applyPower catalog id gift.amount gift.duration).2

/-- A combatant is given stacks of a power again and again. -/
def giveAll (catalog : Catalog PowerDefinition) (id : PowerId) (combatant : Combatant)
    (gifts : List Gift) : Except Fault Combatant :=
  gifts.foldlM (give catalog id) combatant

/-- The combatant with a power put in its place. -/
def withPower (combatant : Combatant) (power : Power) : Combatant :=
  { combatant with powers := combatant.powers.insert power }

theorem withPower_withPower {power power' : Power} (h : power'.id = power.id) :
    (combatant.withPower power).withPower power' = combatant.withPower power' := by
  unfold withPower
  rw [PowerSet.insert_insert h]

/-- **A gift** is joined to what is held. The power is put in its place, or taken out if its stack
is not positive then and it goes. -/
theorem applyPower_eq (hfind : catalog.find? id = some definition)
    (hfits : ∀ power, combatant.powers.get? id = some power → definition.stacking ≠ .duration →
      Signed.Fits (power.amount + gift.amount)) :
    combatant.applyPower catalog id gift.amount gift.duration =
      let pile := Power.joined definition.stacking id (combatant.powers.get? id) gift
      if pile.amount ≤ 0 && definition.removeAtZero then
        .ok (none, { combatant with powers := combatant.powers.remove id })
      else .ok (some pile.amount, combatant.withPower pile) := by
  have hid : ∀ held, combatant.powers.get? id = some held → held.id = id :=
    fun _ hheld => PowerSet.id_of_get? hheld
  unfold applyPower withPower
  rw [hfind]
  dsimp only
  rw [Power.join_eq id hfits]
  cases hheld : combatant.powers.get? id with
  | none => rfl
  | some held =>
      obtain rfl := hid held hheld
      rfl

/-- A gift to a holder raises the power in its place. -/
theorem applyPower_of_held (hfind : catalog.find? id = some definition)
    (hheld : combatant.powers.get? id = some held) (hpos : 0 < gift.amount)
    (hfits : definition.stacking ≠ .duration → Signed.Fits (held.amount + gift.amount))
    (hkeeps : definition.removeAtZero = true → 0 < held.amount) :
    combatant.applyPower catalog id gift.amount gift.duration =
      .ok (some (held.raised definition.stacking gift).amount,
        combatant.withPower (held.raised definition.stacking gift)) := by
  have hraised : held.amount ≤ (held.raised definition.stacking gift).amount :=
    Power.le_amount_raised hpos
  have hstays : ¬(decide ((held.raised definition.stacking gift).amount ≤ 0) &&
      definition.removeAtZero) = true := by
    rw [Bool.and_eq_true, decide_eq_true_iff]
    rintro ⟨hnone, hgoes⟩
    have hsome := hkeeps hgoes
    omega
  rw [applyPower_eq hfind fun power hpower => Option.some.inj (hheld.symm.trans hpower) ▸ hfits]
  rw [hheld]
  exact if_neg hstays

/-- A gift to anyone else comes to lie behind all other powers. -/
theorem applyPower_of_absent (hfind : catalog.find? id = some definition)
    (hnone : combatant.powers.get? id = none) (hpos : 0 < gift.amount) :
    combatant.applyPower catalog id gift.amount gift.duration =
      .ok (some gift.amount, combatant.withPower (gift.start id)) := by
  have hstays : ¬(decide (gift.amount ≤ 0) && definition.removeAtZero) = true := by
    rw [Bool.and_eq_true, decide_eq_true_iff]
    exact fun h => Int.not_le.mpr hpos h.1
  rw [applyPower_eq hfind fun power hpower => absurd (hnone.symm.trans hpower) nofun]
  rw [hnone]
  exact if_neg hstays

/-- **Gifts to a holder** raise the power in its place, one after another. Between what was held and
the last sum no sum leaves the range. -/
theorem giveAll_of_held (hfind : catalog.find? id = some definition)
    (hheld : combatant.powers.get? id = some held) (hpos : ∀ gift ∈ gifts, 0 < gift.amount)
    (hfits : definition.stacking ≠ .duration →
      Signed.Fits held.amount ∧ Signed.Fits (held.amount + Gift.total gifts))
    (hkeeps : definition.removeAtZero = true → 0 < held.amount) :
    combatant.giveAll catalog id gifts =
      .ok (combatant.withPower (held.raisedBy definition.stacking gifts)) := by
  have hid := PowerSet.id_of_get? hheld
  unfold giveAll
  induction gifts generalizing combatant held with
  | nil =>
      subst hid
      show Except.ok combatant = .ok (combatant.withPower held)
      unfold withPower
      rw [PowerSet.insert_of_get? hheld]
  | cons gift gifts ih =>
      have hgift : 0 < gift.amount := hpos gift List.mem_cons_self
      have hgifts : ∀ gift ∈ gifts, 0 < gift.amount :=
        fun other hmem => hpos other (List.mem_cons_of_mem _ hmem)
      have hrest := Gift.total_nonneg hgifts
      have hnext : definition.stacking ≠ .duration → Signed.Fits (held.amount + gift.amount) := by
        intro hsum
        obtain ⟨hfirst, hlast⟩ := hfits hsum
        rw [Gift.total] at hlast
        unfold Signed.Fits at *
        omega
      have hraised : held.amount ≤ (held.raised definition.stacking gift).amount :=
        Power.le_amount_raised hgift
      rw [List.foldlM_cons]
      refine bind_eq_ok.mpr ⟨combatant.withPower (held.raised definition.stacking gift), ?_, ?_⟩
      · exact bind_eq_ok.mpr ⟨_, applyPower_of_held hfind hheld hgift hnext hkeeps, rfl⟩
      · have hfound : (combatant.withPower (held.raised definition.stacking gift)).powers.get? id =
            some (held.raised definition.stacking gift) :=
          hid ▸ PowerSet.get?_insert_self _ (held.raised definition.stacking gift)
        refine (ih hfound hgifts (fun hsum => ?_) (fun hgoes => ?_) hid).trans ?_
        · rw [Power.amount_raised_of_sum hsum, Int.add_assoc]
          exact ⟨hnext hsum, (hfits hsum).2⟩
        · exact Int.lt_of_lt_of_le (hkeeps hgoes) hraised
        · rw [withPower_withPower Power.raisedBy_frame.1]
          rfl

/-- Gifts to anyone make a pile in the place of the power. -/
theorem exists_giveAll (hfind : catalog.find? id = some definition)
    (hsound : combatant.powers.Sound catalog) (hgifts : gifts ≠ [])
    (hpos : ∀ gift ∈ gifts, 0 < gift.amount)
    (hfits : definition.stacking ≠ .duration → Signed.Fits (combatant.powers.amount id) ∧
      Signed.Fits (combatant.powers.amount id + Gift.total gifts)) :
    ∃ pile : Power, pile.id = id ∧
      pile.PiledOn definition.stacking (combatant.powers.get? id) gifts ∧
        combatant.giveAll catalog id gifts = .ok (combatant.withPower pile) := by
  cases hheld : combatant.powers.get? id with
  | some held =>
      have hid := PowerSet.id_of_get? hheld
      rw [PowerSet.amount_of_get? hheld] at hfits
      refine ⟨held.raisedBy definition.stacking gifts, Power.raisedBy_frame.1.trans hid,
        Power.piledOn_raisedBy held definition.stacking gifts, ?_⟩
      refine giveAll_of_held hfind hheld hpos hfits fun hgoes => ?_
      obtain ⟨definition', hfind', hsustained⟩ :=
        hsound.sustained held (List.mem_of_find?_eq_some hheld)
      obtain rfl : definition = definition' :=
        Option.some.inj (hfind.symm.trans (hid ▸ hfind'))
      exact hsustained hgoes
  | none =>
      obtain ⟨gift, gifts, rfl⟩ := List.exists_cons_of_ne_nil hgifts
      rw [PowerSet.amount_of_get?_eq_none hheld, Int.zero_add, Gift.total] at hfits
      have hgift : 0 < gift.amount := hpos gift List.mem_cons_self
      have hrest : ∀ gift ∈ gifts, 0 < gift.amount :=
        fun other hmem => hpos other (List.mem_cons_of_mem _ hmem)
      have htotal := Gift.total_nonneg hrest
      have hstarted : (combatant.withPower (gift.start id)).powers.get? id =
          some (gift.start id) := PowerSet.get?_insert_self _ (gift.start id)
      refine ⟨(gift.start id).raisedBy definition.stacking gifts, Power.raisedBy_frame.1,
        Power.piledOn_start id definition.stacking gift gifts, ?_⟩
      unfold giveAll
      rw [List.foldlM_cons]
      refine bind_eq_ok.mpr ⟨combatant.withPower (gift.start id), ?_, ?_⟩
      · exact bind_eq_ok.mpr ⟨_, applyPower_of_absent hfind hheld hgift, rfl⟩
      · refine (giveAll_of_held hfind hstarted hrest (fun hsum => ?_) fun _ => hgift).trans ?_
        · obtain ⟨-, hlast⟩ := hfits hsum
          refine ⟨?_, hlast⟩
          show Signed.Fits gift.amount
          unfold Signed.Fits Signed.least Signed.greatest at *
          omega
        · rw [withPower_withPower Power.raisedBy_frame.1]

/-- **The laws of stacking.** Positive gifts of a power that the content knows, to anyone whose
powers are sound, with no sum out of range: they make one pile, of what was held and all that is
given, which lies in the place of the power that was held and keeps its silence, or else behind all
others; these are as they were, and so is everything else. In any other order the gifts make a pile
of the same size, and the same pile if the longer duration stays. -/
theorem giveAll_piles (hfind : catalog.find? id = some definition)
    (hsound : combatant.powers.Sound catalog) (hgifts : gifts ≠ [])
    (hpos : ∀ gift ∈ gifts, 0 < gift.amount)
    (hfits : definition.stacking ≠ .duration → Signed.Fits (combatant.powers.amount id) ∧
      Signed.Fits (combatant.powers.amount id + Gift.total gifts)) :
    ∃ pile : Power, pile.id = id ∧
      pile.PiledOn definition.stacking (combatant.powers.get? id) gifts ∧
      (∃ powers, combatant.giveAll catalog id gifts = .ok { combatant with powers } ∧
        PowerSet.Placed pile combatant.powers powers) ∧
      ∀ gifts', gifts'.Perm gifts →
        ∃ powers' pile',
          combatant.giveAll catalog id gifts' = .ok { combatant with powers := powers' } ∧
            PowerSet.Placed pile' combatant.powers powers' ∧ pile'.id = id ∧
              pile'.amount = pile.amount ∧ (definition.stacking = .both → pile' = pile) := by
  obtain ⟨pile, hid, hpile, hgive⟩ := exists_giveAll hfind hsound hgifts hpos hfits
  refine ⟨pile, hid, hpile, ⟨_, hgive, PowerSet.placed_insert _ _⟩, fun gifts' hperm => ?_⟩
  have hgifts' : gifts' ≠ [] := fun hnil => hgifts (List.nil_perm.mp (hnil ▸ hperm))
  have hpos' : ∀ gift ∈ gifts', 0 < gift.amount :=
    fun gift hmem => hpos gift (hperm.mem_iff.mp hmem)
  obtain ⟨pile', hid', hpile', hgive'⟩ :=
    exists_giveAll hfind hsound hgifts' hpos' (Gift.total_perm hperm ▸ hfits)
  obtain ⟨hamount, hduration⟩ := hpile.eq_of_perm hpile' hperm
  refine ⟨_, pile', hgive', PowerSet.placed_insert _ _, hid', hamount, fun hboth => ?_⟩
  have hsilenced : pile'.silencedTurns = pile.silencedTurns :=
    hpile'.silenced.trans hpile.silenced.symm
  exact Power.eq_of_parts (hid'.trans hid.symm) hamount (hduration hboth) hsilenced

/-- Two powers, of which haste is known to add its stacks and to stay for the longer duration. -/
def hasteCatalog : Catalog PowerDefinition :=
  (Catalog.empty.put "guard" (.plain "guard" .buff .duration)).put "haste"
    (.plain "haste" .buff .both)

/-- Someone who holds both, and haste in silence. -/
def hasty : Combatant where
  id := .player
  name := ""
  health := 10
  maxHealth := 10
  powers :=
    [{ id := "haste", amount := 2, duration := some 3, silencedTurns := 1 },
      { id := "guard", amount := 1 }]

theorem sound_hasty : hasty.powers.Sound hasteCatalog where
  nodup := by decide
  sustained power hmem := by
    rcases List.mem_cons.mp hmem with rfl | hmem
    · exact ⟨_, rfl, nofun⟩
    · obtain rfl := List.mem_singleton.mp hmem
      exact ⟨_, rfl, nofun⟩

/-- Three gifts of haste, two of which tell how long they last. -/
def hasteGifts : List Gift := [⟨4, some 1⟩, ⟨1, none⟩, ⟨2, some 5⟩]

/-- The gifts in two orders. -/
theorem giveAll_piles_hasty :
    hasty.giveAll hasteCatalog "haste" hasteGifts =
        .ok (hasty.withPower
          { id := "haste", amount := 9, duration := some 5, silencedTurns := 1 }) ∧
      ∃ pile : Power, pile.id = "haste" ∧ pile.amount = 9 ∧
        ∃ powers', hasty.giveAll hasteCatalog "haste" [⟨1, none⟩, ⟨4, some 1⟩, ⟨2, some 5⟩] =
            .ok { hasty with powers := powers' } ∧ PowerSet.Placed pile hasty.powers powers' := by
  have hfind : hasteCatalog.find? "haste" = some (.plain "haste" .buff .both) := rfl
  have hgifts : hasteGifts ≠ [] := nofun
  refine ⟨rfl, ?_⟩
  obtain ⟨pile, hid, hpile, -, hperm⟩ :=
    giveAll_piles hfind sound_hasty hgifts (by decide) fun _ => by decide
  obtain ⟨powers', pile', hgive', hplaced, -, -, hsame⟩ := hperm _ (.swap _ _ _)
  exact ⟨pile, hid, hpile.sum nofun, powers', hgive', hsame rfl ▸ hplaced⟩

end Combatant

end CardCombat
