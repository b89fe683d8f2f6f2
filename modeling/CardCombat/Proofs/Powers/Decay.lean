import CardCombat.Combat.Powers
import Mathlib.Data.List.Nodup

/-!
# Powers that wear off

At the boundary of a turn each power that decays there loses a stack, or all of its stacks, and goes
if nothing is left of it. This is done in two rounds: first all stacks are lowered and a tick is
noted for each of them, then the powers of which a tick says that nothing is left are taken out by
their names. For powers of different names it comes to the same as one walk along the powers that
deals with each of them for itself.

The second round would take out another power than the one that has worn off if two powers had the
same name. With different names a tick of a later power never names an earlier one, so that the
earlier one stays where it is while the later ones are taken out.

## Main definitions

* `Power.DecaysAt` -- how a power decays at a boundary, by what its definition says.
* `Power.Underflows` -- there is no quantity for what would be left of a power.
* `PowerSet.WearsOff` -- what becomes of powers one after another, and the ticks that tell of it.

## Main results

* `PowerSet.withoutGone_cons` -- powers of other names are taken out.
* `PowerSet.exists_wearsOff` -- both rounds together are one walk along the powers.
* `PowerSet.WearsOff.sublist`, `PowerSet.WearsOff.mem` -- what is left of the powers.
* `Combatant.decay_wearsOff` -- powers wear off, unless a stack would leave its range.
-/

namespace CardCombat

namespace Power

/-- The power is known, and by its definition it decays at the boundary. -/
def DecaysAt (catalog : Catalog PowerDefinition) (boundary : Boundary) (power : Power)
    (decay : Decay) : Prop :=
  ∃ definition, catalog.find? power.id = some definition ∧
    definition.decay = some decay ∧ decay.boundary = boundary

/-- The power after it has decayed: with one stack less, or with none. -/
def worn (power : Power) (decay : Decay) : Power :=
  { power with amount := if decay.removeAll then 0 else power.amount - 1 }

/-- One stack less of the power would be less than the least quantity. -/
def Underflows (catalog : Catalog PowerDefinition) (boundary : Boundary) (power : Power) : Prop :=
  ∃ decay, power.DecaysAt catalog boundary decay ∧ decay.removeAll = false ∧
    ¬Signed.Fits (power.amount - 1)

end Power

/-! ## One power -/

namespace Combatant

variable {catalog : Catalog PowerDefinition} {boundary : Boundary} {power : Power} {decay : Decay}

theorem decayOf?_eq_some_iff :
    decayOf? catalog boundary power = some decay ↔ power.DecaysAt catalog boundary decay := by
  simp [decayOf?, Power.DecaysAt, Option.filter_eq_some_iff, Option.bind_eq_some_iff, and_assoc,
    ← exists_and_right]

/-- A power that does not decay at the boundary is left as it is. -/
theorem decayPower_of_idle (h : ∀ decay, ¬power.DecaysAt catalog boundary decay) :
    decayPower catalog boundary power = .ok (power, none) := by
  have hnone : decayOf? catalog boundary power = none := by
    rw [Option.eq_none_iff_forall_ne_some]
    intro decay hdecay
    exact h decay (decayOf?_eq_some_iff.mp hdecay)
  simp [decayPower, hnone, pure, Except.pure]

/-- A power that decays is lowered, with a tick for what is left of it. -/
theorem decayPower_of_decaysAt (h : power.DecaysAt catalog boundary decay)
    (hfits : ¬power.Underflows catalog boundary) :
    decayPower catalog boundary power = .ok (power.worn decay,
      some ⟨power.id,
        if 0 < (power.worn decay).amount then some (power.worn decay).amount else none⟩) := by
  have hsome : decayOf? catalog boundary power = some decay := decayOf?_eq_some_iff.mpr h
  unfold decayPower Power.worn
  rw [hsome]
  cases hall : decay.removeAll with
  | true => simp [hall, pure, Except.pure, bind, Except.bind]
  | false =>
      have hrange : Signed.Fits (power.amount - 1) := by
        by_contra hout
        exact hfits ⟨decay, h, hall, hout⟩
      have hsub : Signed.sub power.amount 1 = .ok (power.amount - 1) :=
        Signed.sub_eq_ok_iff.mpr ⟨hrange, rfl⟩
      simp [hall, hsub, pure, Except.pure, bind, Except.bind]

/-- Any power can be dealt with of which one stack less has a quantity, or no stack goes. -/
theorem exists_decayPower (hfits : ¬power.Underflows catalog boundary) :
    ∃ row, decayPower catalog boundary power = .ok row := by
  by_cases hidle : ∀ decay, ¬power.DecaysAt catalog boundary decay
  · exact ⟨_, decayPower_of_idle hidle⟩
  · simp only [not_forall, not_not] at hidle
    obtain ⟨decay, hdecays⟩ := hidle
    exact ⟨_, decayPower_of_decaysAt hdecays hfits⟩

theorem decayPower_of_underflows (h : power.Underflows catalog boundary) :
    decayPower catalog boundary power = .error (.overflow .subtract) := by
  obtain ⟨decay, hdecay, hone, hout⟩ := h
  have hsome : decayOf? catalog boundary power = some decay := decayOf?_eq_some_iff.mpr hdecay
  have hsub : Signed.sub power.amount 1 = .error (.overflow .subtract) := if_neg hout
  simp [decayPower, hsome, hone, hsub, bind, Except.bind]

end Combatant

/-! ## All powers -/

namespace PowerSet

variable {catalog : Catalog PowerDefinition} {boundary : Boundary} {power : Power}
  {powers left : PowerSet} {ticks : List Decayed}

/-- What becomes of powers at a boundary, in their order, and the ticks that tell of it: a power
that does not decay stays as it is and nothing is told of it; one that decays is lowered, or it goes
if nothing is left of it, and its tick tells which. -/
inductive WearsOff (catalog : Catalog PowerDefinition) (boundary : Boundary) :
    PowerSet → List Decayed → PowerSet → Prop
  | nil : WearsOff catalog boundary [] [] []
  | stays {power : Power} {powers left : PowerSet} {ticks : List Decayed}
      (hidle : ∀ decay, ¬power.DecaysAt catalog boundary decay)
      (hrest : WearsOff catalog boundary powers ticks left) :
      WearsOff catalog boundary (power :: powers) ticks (power :: left)
  | lowered {power : Power} {decay : Decay} {powers left : PowerSet} {ticks : List Decayed}
      (hdecays : power.DecaysAt catalog boundary decay) (hsome : 0 < (power.worn decay).amount)
      (hrest : WearsOff catalog boundary powers ticks left) :
      WearsOff catalog boundary (power :: powers)
        (⟨power.id, some (power.worn decay).amount⟩ :: ticks) (power.worn decay :: left)
  | gone {power : Power} {decay : Decay} {powers left : PowerSet} {ticks : List Decayed}
      (hdecays : power.DecaysAt catalog boundary decay) (hnone : (power.worn decay).amount ≤ 0)
      (hrest : WearsOff catalog boundary powers ticks left) :
      WearsOff catalog boundary (power :: powers) (⟨power.id, none⟩ :: ticks) left

/-- Every tick tells of one of the powers. -/
theorem WearsOff.tick_mem (h : WearsOff catalog boundary powers ticks left) :
    ∀ tick ∈ ticks, tick.power ∈ powers.map (·.id) := by
  induction h with
  | nil => simp
  | stays _ _ ih =>
      intro tick hmem
      exact List.mem_cons_of_mem _ (ih tick hmem)
  | lowered _ _ _ ih | gone _ _ _ ih =>
      intro tick hmem
      rcases List.mem_cons.mp hmem with rfl | hmem
      · exact List.mem_cons_self
      · exact List.mem_cons_of_mem _ (ih tick hmem)

/-- What is left of the powers is in their order. -/
theorem WearsOff.sublist (h : WearsOff catalog boundary powers ticks left) :
    (left.map (·.id)).Sublist (powers.map (·.id)) := by
  induction h with
  | nil => exact List.Sublist.refl _
  | stays _ _ ih | lowered _ _ _ ih => exact ih.cons_cons _
  | gone _ _ _ ih => exact ih.cons _

/-- A power that is left is one of the powers, or what is left of one of them. -/
theorem WearsOff.mem (h : WearsOff catalog boundary powers ticks left) (hmem : power ∈ left) :
    power ∈ powers ∨ ∃ held ∈ powers, ∃ decay, power = held.worn decay ∧ 0 < power.amount := by
  have hcons {first : Power} {others : PowerSet}
      (h : power ∈ others ∨ ∃ held ∈ others, ∃ decay, power = held.worn decay ∧ 0 < power.amount) :
      power ∈ first :: others ∨
        ∃ held ∈ first :: others, ∃ decay, power = held.worn decay ∧ 0 < power.amount := by
    refine h.imp (List.mem_cons_of_mem _) ?_
    rintro ⟨held, hheld, hworn⟩
    exact ⟨held, List.mem_cons_of_mem _ hheld, hworn⟩
  induction h with
  | nil => exact .inl hmem
  | stays _ _ ih =>
      rcases List.mem_cons.mp hmem with rfl | hmem
      · exact .inl List.mem_cons_self
      · exact hcons (ih hmem)
  | lowered _ hsome _ ih =>
      rcases List.mem_cons.mp hmem with rfl | hmem
      · exact .inr ⟨_, List.mem_cons_self, _, rfl, hsome⟩
      · exact hcons (ih hmem)
  | gone _ _ _ ih => exact hcons (ih hmem)

/-- The second round: the powers of which a tick says that nothing is left are taken out by their
names. -/
def withoutGone (powers : PowerSet) (ticks : List Decayed) : PowerSet :=
  (ticks.filter (·.remaining.isNone)).foldl (·.remove ·.power) powers

/-- A power stays where it is while powers of other names are taken out. -/
theorem withoutGone_cons (h : ∀ tick ∈ ticks, tick.power ≠ power.id) :
    withoutGone (power :: powers) ticks = power :: powers.withoutGone ticks := by
  unfold withoutGone
  induction ticks generalizing powers with
  | nil => rfl
  | cons tick ticks ih =>
      have hother : power.id ≠ tick.power := Ne.symm (h tick List.mem_cons_self)
      have hrest : ∀ other ∈ ticks, other.power ≠ power.id := by
        intro other hmem
        exact h other (List.mem_cons_of_mem _ hmem)
      have hfirst : remove (power :: powers) tick.power = power :: powers.remove tick.power := by
        simp [remove, hother]
      by_cases hnone : tick.remaining.isNone = true
      · simp only [List.filter_cons, hnone, if_true, List.foldl_cons, hfirst, ih hrest]
      · simp only [List.filter_cons, hnone, Bool.false_eq_true, if_false, ih hrest]

/-- Nothing is taken out for a tick that says what is left. -/
theorem withoutGone_some {id : PowerId} {amount : Int} :
    powers.withoutGone (⟨id, some amount⟩ :: ticks) = powers.withoutGone ticks := rfl

/-- The first power goes if its tick says that nothing is left of it. -/
theorem withoutGone_none {id : PowerId} (h : power.id = id) :
    withoutGone (power :: powers) (⟨id, none⟩ :: ticks) = powers.withoutGone ticks := by
  simp [withoutGone, remove, h]

/-- **Both rounds together** are one walk along the powers, if they have different names and each of
them can be lowered. -/
theorem exists_wearsOff (hdistinct : (powers.map (·.id)).Nodup)
    (hfits : ∀ power ∈ powers, ¬power.Underflows catalog boundary) :
    ∃ lowered, powers.mapM (Combatant.decayPower catalog boundary) = .ok lowered ∧
      WearsOff catalog boundary powers (lowered.filterMap (·.2))
        (withoutGone (lowered.map (·.1)) (lowered.filterMap (·.2))) := by
  induction powers with
  | nil => exact ⟨[], rfl, .nil⟩
  | cons power powers ih =>
      have hnew : power.id ∉ powers.map (·.id) := (List.nodup_cons.mp hdistinct).1
      obtain ⟨lowered, hlowered, hwears⟩ := ih (List.nodup_cons.mp hdistinct).2
        fun other hmem => hfits other (List.mem_cons_of_mem _ hmem)
      have hothers : ∀ tick ∈ lowered.filterMap (·.2), tick.power ≠ power.id := by
        intro tick hmem hsame
        exact hnew (hsame ▸ hwears.tick_mem tick hmem)
      have hmapM {row : Power × Option Decayed}
          (hrow : Combatant.decayPower catalog boundary power = .ok row) :
          (power :: powers).mapM (Combatant.decayPower catalog boundary) =
            .ok (row :: lowered) := by
        simp [List.mapM_cons, hrow, hlowered, bind, Except.bind, pure, Except.pure]
      by_cases hidle : ∀ decay, ¬power.DecaysAt catalog boundary decay
      · refine ⟨_, hmapM (Combatant.decayPower_of_idle hidle), ?_⟩
        simp only [List.map_cons, List.filterMap_cons, withoutGone_cons hothers]
        exact .stays hidle hwears
      · simp only [not_forall, not_not] at hidle
        obtain ⟨decay, hdecays⟩ := hidle
        have hrow := Combatant.decayPower_of_decaysAt hdecays (hfits power List.mem_cons_self)
        have hothers' : ∀ tick ∈ lowered.filterMap (·.2), tick.power ≠ (power.worn decay).id :=
          hothers
        by_cases hsome : 0 < (power.worn decay).amount
        · rw [if_pos hsome] at hrow
          refine ⟨_, hmapM hrow, ?_⟩
          simp only [List.map_cons, List.filterMap_cons, withoutGone_some,
            withoutGone_cons hothers']
          exact .lowered hdecays hsome hwears
        · rw [if_neg hsome] at hrow
          refine ⟨_, hmapM hrow, ?_⟩
          have hid : (power.worn decay).id = power.id := rfl
          simp only [List.map_cons, List.filterMap_cons, withoutGone_none hid]
          exact .gone hdecays (Int.not_lt.mp hsome) hwears

/-- The first round fails if there is a power that cannot be lowered: nothing but such a power can
stop it before. -/
theorem mapM_decayPower_of_underflows
    (h : ∃ power ∈ powers, power.Underflows catalog boundary) :
    powers.mapM (Combatant.decayPower catalog boundary) = .error (.overflow .subtract) := by
  induction powers with
  | nil => simp at h
  | cons power powers ih =>
      rw [List.mapM_cons]
      by_cases hfirst : power.Underflows catalog boundary
      · rw [Combatant.decayPower_of_underflows hfirst]
        rfl
      · have hrest : ∃ other ∈ powers, other.Underflows catalog boundary := by
          simpa [hfirst] using h
        obtain ⟨row, hrow⟩ := Combatant.exists_decayPower hfirst
        rw [hrow, ih hrest]
        rfl

end PowerSet

namespace Combatant

variable {catalog : Catalog PowerDefinition} {boundary : Boundary} {combatant after : Combatant}
  {ticks : List Decayed}

theorem exists_decay (hdistinct : (combatant.powers.map (·.id)).Nodup)
    (hfits : ∀ power ∈ combatant.powers, ¬power.Underflows catalog boundary) :
    ∃ ticks left, combatant.decay catalog boundary = .ok (ticks, { combatant with powers := left }) ∧
      PowerSet.WearsOff catalog boundary combatant.powers ticks left := by
  obtain ⟨lowered, hlowered, hwears⟩ := PowerSet.exists_wearsOff hdistinct hfits
  unfold decay
  rw [hlowered]
  exact ⟨_, _, rfl, hwears⟩

theorem decay_of_underflows (h : ∃ power ∈ combatant.powers, power.Underflows catalog boundary) :
    combatant.decay catalog boundary = .error (.overflow .subtract) := by
  unfold decay
  rw [PowerSet.mapM_decayPower_of_underflows h]
  rfl

/-- What has become of powers of different names. -/
theorem wearsOff_of_decay (hdistinct : (combatant.powers.map (·.id)).Nodup)
    (h : combatant.decay catalog boundary = .ok (ticks, after)) :
    PowerSet.WearsOff catalog boundary combatant.powers ticks after.powers := by
  by_cases hunder : ∃ power ∈ combatant.powers, power.Underflows catalog boundary
  · exact absurd (h.symm.trans (decay_of_underflows hunder)) nofun
  · obtain ⟨ticks', left, hdecay, hwears⟩ := exists_decay hdistinct
      fun power hmem hpower => hunder ⟨power, hmem, hpower⟩
    obtain ⟨rfl, rfl⟩ := Prod.mk.inj (Except.ok.inj (h.symm.trans hdecay))
    exact hwears

/-- **Powers wear off.** Powers of different names that decay at a boundary are lowered or go, each
with one tick, and all else about the combatant stays as it is; or there is no quantity for what
would be left of one of them, and nothing is done. -/
theorem decay_wearsOff (hdistinct : (combatant.powers.map (·.id)).Nodup) :
    ((∀ power ∈ combatant.powers, ¬power.Underflows catalog boundary) ∧
      ∃ ticks left,
        combatant.decay catalog boundary = .ok (ticks, { combatant with powers := left }) ∧
          PowerSet.WearsOff catalog boundary combatant.powers ticks left) ∨
    (∃ power ∈ combatant.powers, power.Underflows catalog boundary) ∧
      combatant.decay catalog boundary = .error (.overflow .subtract) := by
  by_cases hunder : ∃ power ∈ combatant.powers, power.Underflows catalog boundary
  · exact .inr ⟨hunder, decay_of_underflows hunder⟩
  · left
    have hfits : ∀ power ∈ combatant.powers, ¬power.Underflows catalog boundary := by
      intro power hmem hpower
      exact hunder ⟨power, hmem, hpower⟩
    exact ⟨hfits, exists_decay hdistinct hfits⟩

/-- Powers that wear off at the end of a turn, of which daze goes at once, one that does so at the
start of a turn, and one that stays. -/
def wearyCatalog : Catalog PowerDefinition :=
  ((((Catalog.empty.put "venom"
    { PowerDefinition.plain "venom" .debuff .intensity with
      decay := some { boundary := .turnEnd } }).put "daze"
    { PowerDefinition.plain "daze" .debuff .duration with
      decay := some { boundary := .turnEnd, removeAll := true } }).put "chill"
    { PowerDefinition.plain "chill" .debuff .both with
      decay := some { boundary := .turnEnd } }).put "bloom"
    { PowerDefinition.plain "bloom" .buff .intensity with
      decay := some { boundary := .turnStart } }).put "guard" (.plain "guard" .buff .intensity)

/-- Someone who holds all of them, venom in silence and less than no chill, and a power that nobody
knows. -/
def weary : Combatant where
  id := .player
  name := ""
  health := 10
  maxHealth := 10
  powers :=
    [{ id := "venom", amount := 3, silencedTurns := 2 }, { id := "ghost", amount := 1 },
      { id := "daze", amount := 4 }, { id := "bloom", amount := 1 },
      { id := "chill", amount := -2, duration := some 3 }, { id := "guard", amount := 5 }]

/-- What is left of the powers at the end of a turn. -/
def wearyLeft : PowerSet :=
  [{ id := "venom", amount := 2, silencedTurns := 2 }, { id := "ghost", amount := 1 },
    { id := "bloom", amount := 1 }, { id := "guard", amount := 5 }]

/-- Of three powers that decay one is left. -/
theorem decay_wearsOff_weary :
    weary.decay wearyCatalog .turnEnd =
        .ok ([⟨"venom", some 2⟩, ⟨"daze", none⟩, ⟨"chill", none⟩],
          { weary with powers := wearyLeft }) ∧
      PowerSet.WearsOff wearyCatalog .turnEnd weary.powers
        [⟨"venom", some 2⟩, ⟨"daze", none⟩, ⟨"chill", none⟩] wearyLeft := by
  have hdecay : weary.decay wearyCatalog .turnEnd =
      .ok ([⟨"venom", some 2⟩, ⟨"daze", none⟩, ⟨"chill", none⟩],
        { weary with powers := wearyLeft }) := rfl
  refine ⟨hdecay, ?_⟩
  rcases @decay_wearsOff wearyCatalog .turnEnd weary (by decide) with
    ⟨-, ticks, left, hok, hwears⟩ | ⟨-, herror⟩
  · obtain ⟨rfl, hweary⟩ := Prod.mk.inj (Except.ok.inj (hok.symm.trans hdecay))
    obtain rfl : left = wearyLeft := congrArg Combatant.powers hweary
    exact hwears
  · exact absurd (hdecay.symm.trans herror) nofun

end Combatant

end CardCombat
