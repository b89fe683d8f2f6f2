import CardCombat.Form.Aim
import CardCombat.Proofs.Form.Ranges

/-!
# Written choices, amounts, aims and conditions are read back

A name is read back because no two values of a type have one name. An amount is read back as a
number or by its tag, an aim by its name or as the object of its only part, and a condition by its
tag, through the conditions inside it.

## Main results

* `Value.denotes`, `CardAim.denotes`, `Subject.denotes`, `Condition.denotes`.
-/

namespace CardCombat

open Json

variable (wide : Float32 → Option Float) (inner : Bool)

/-! ## Names -/

theorem Theme.denotes (theme : Theme) : Denotes wide (Theme.read inner) theme.toJson theme :=
  denotes_named (by cases theme <;> rfl)

theorem CardFlag.denotes (flag : CardFlag) : Denotes wide (CardFlag.read inner) flag.toJson flag :=
  denotes_named (by cases flag <;> rfl)

theorem Pile.denotes (pile : Pile) : Denotes wide (Pile.read inner) pile.toJson pile :=
  denotes_named (by cases pile <;> rfl)

theorem Placement.denotes (placement : Placement) :
    Denotes wide (Placement.read inner) placement.toJson placement :=
  denotes_named (by cases placement <;> rfl)

theorem Measure.denotes (source : Measure) :
    Denotes wide (Measure.read inner) source.toJson source :=
  denotes_named (by cases source <;> rfl)

theorem Aim.denotes (target : Aim) : Denotes wide (Aim.read inner) target.toJson target :=
  denotes_named (by cases target <;> rfl)

theorem Comparison.denotes (op : Comparison) :
    Denotes wide (Comparison.read inner) op.toJson op :=
  .orElse (denotes_named (by cases op <;> rfl)) _

theorem HealthMeasure.denotes (form : HealthMeasure) :
    Denotes wide (HealthMeasure.read inner) form.toJson form :=
  denotes_named (by cases form <;> rfl)

theorem Resource.denotes (resource : Resource) :
    Denotes wide (Resource.read inner) resource.toJson resource :=
  denotes_named (by cases resource <;> rfl)

theorem Element.denotes (element : Element) :
    Denotes wide (Element.read inner) element.toJson element :=
  denotes_named (by cases element <;> rfl)

theorem Change.denotes (change : Change) :
    Denotes wide (Change.read inner) change.toJson change :=
  .orElse (denotes_named (by cases change <;> rfl)) _

theorem IntentKind.denotes (kind : IntentKind) :
    Denotes wide IntentKind.ofJson? kind.toJson kind :=
  denotes_named (by cases kind <;> rfl)

theorem Phase.denotes (phase : Phase) : Denotes wide Phase.ofJson? phase.toJson phase :=
  denotes_named (by cases phase <;> rfl)

theorem Route.denotes (route : Route) : Denotes wide Route.ofJson? route.toJson route :=
  denotes_named (by cases route <;> rfl)

theorem CombatantId.denotes {id : CombatantId} (h : id.Fits) :
    Denotes wide CombatantId.ofJson? id.toJson id :=
  (denotes_unsigned wide (by decide) h).map CombatantId.mk

theorem CardUid.denotes {uid : CardUid} (h : uid.Fits) :
    Denotes wide CardUid.ofJson? uid.toJson uid :=
  (denotes_unsigned wide (by decide) h).map CardUid.mk

/-! ## Optional values -/

theorem Signed.OptionFits.denotes {value : Option Int} (h : Signed.OptionFits value) :
    Denotes wide (nullable? signed?) (ofOption .int value) value :=
  denotes_nullable rfl fun n hn => denotes_signed wide (h n hn)

theorem Unsigned.OptionFits.denotes {bits : Nat} {value : Option Nat} (hbits : bits ≤ 64)
    (h : Unsigned.OptionFits bits value) :
    Denotes wide (nullable? (unsigned? bits)) (ofOption .ofNat value) value :=
  denotes_nullable rfl fun n hn => denotes_unsigned wide hbits (h n hn)

theorem Theme.denotes_option (theme : Option Theme) :
    Denotes wide (nullable? (Theme.read inner)) (ofOption Theme.toJson theme) theme :=
  denotes_nullable rfl fun theme _ => Theme.denotes wide inner theme

/-! ## Amounts -/

variable {wide} in
/-- A rule for an amount is no number. -/
theorem Value.denotes_of_tagged {value : Value} {members : Members}
    (h : Denotes wide (fun json => (json.tagged? "type" tags true).bind ofTagged?)
      (.object members) value) : Denotes wide Value.ofJson? (.object members) value := by
  refine ⟨h.writable, .trans ?_ h.read⟩
  rw [ofJson?, widen_object]
  rfl

theorem Value.denotes {value : Value} (h : value.Fits) :
    Denotes wide Value.ofJson? value.toJson value := by
  cases value with
  | fixed amount =>
    refine ⟨writable_int h, ?_⟩
    rw [ofJson?, toJson, widen_int, signed?_int h]
  | range min max =>
    refine denotes_of_tagged (denotes_tagged (by decide) (by simp) ?_ ?_)
    · simp [h.1, h.2]
    · refine (denotes_signed wide h.1).required rfl ?_
      exact (denotes_signed wide h.2).required rfl rfl
  | scaled base perUnit source max =>
    have hsource := Measure.denotes wide true source
    have hmax := h.2.denotes wide
    refine denotes_of_tagged (denotes_tagged (by decide) (by simp) ?_ ?_)
    · simp [h.1, hsource.writable, hmax.writable]
    · refine (denotes_signed wide h.1).withDefault rfl ?_
      refine (denotes_double wide perUnit).required rfl ?_
      refine hsource.required rfl ?_
      exact hmax.optional rfl rfl
  | powerAmount =>
    exact denotes_of_tagged (denotes_tagged (by decide) (by simp) (by simp) rfl)

/-! ## Aims at cards -/

namespace CardAim

/-- **A filter** is read back if its base is. -/
theorem denotes_filter {read : Json → Option CardAim} {filter : CardFilter} (h : filter.Fits)
    (hbase : Denotes wide read filter.base.toJson filter.base) :
    Denotes wide (readFilter inner read) (filterToJson filter) filter := by
  obtain ⟨base, count, random, theme, maxCost⟩ := filter
  rw [CardFilter.Fits] at h
  rw [CardFilter.base] at hbase
  have hcount := h.2.1.denotes wide (by decide)
  have htheme := Theme.denotes_option wide inner theme
  have hmax := h.2.2.denotes wide
  refine denotes_record ?_ ?_
  · simp [hbase.writable, hcount.writable, htheme.writable, hmax.writable]
  · refine hbase.required rfl ?_
    refine hcount.optional rfl ?_
    refine (denotes_bool wide random).withDefault rfl ?_
    refine htheme.optional rfl ?_
    exact hmax.optional rfl rfl

/-- **An aim** is read back from a value that is not nested too deeply. -/
theorem denotes_within : (target : CardAim) → target.Fits → (depth : Nat) →
    (target.toJson.widen wide).depth ≤ depth →
    Denotes wide (readWithin inner depth) target.toJson target
  | hand, _, depth, _ | drawPile, _, depth, _ | discardPile, _, depth, _
  | exhaustPile, _, depth, _ | leftmostHand, _, depth, _ | rightmostHand, _, depth, _
  | topOfDraw, _, depth, _ | thisCard, _, depth, _ | lastPlayed, _, depth, _
  | current, _, depth, _ => ⟨.string _, by cases depth <;> rfl⟩
  | randomFrom pile, _, depth, hdepth => by
    have hpile := Pile.denotes wide inner pile
    refine ⟨by simp [toJson, hpile.writable], ?_⟩
    obtain ⟨depth, rfl⟩ : ∃ n, depth = n + 1 := ⟨depth - 1, by
      rw [toJson, widen_object, Json.depth] at hdepth
      omega⟩
    show ((Pile.read inner (pile.toJson.widen wide)).map randomFrom <|> _) = _
    rw [hpile.read]
    rfl
  | filtered (.mk base count random theme maxCost), h, depth, hdepth => by
    have hbase : (base.toJson.widen wide).depth <
        ((filterToJson (.mk base count random theme maxCost)).widen wide).depth := by
      rw [filterToJson]
      exact depth_lt_of_member List.mem_cons_self
    have hfiltered : ((filterToJson (.mk base count random theme maxCost)).widen wide).depth <
        ((filtered (.mk base count random theme maxCost)).toJson.widen wide).depth := by
      rw [toJson]
      exact depth_lt_of_member List.mem_cons_self
    obtain ⟨depth, rfl⟩ : ∃ n, depth = n + 1 := ⟨depth - 1, by omega⟩
    have hfilter := denotes_filter wide inner h
      (denotes_within base h.1 depth (by omega))
    refine ⟨by simp [toJson, hfilter.writable], ?_⟩
    show ((readFilter inner (readWithin inner depth)
      ((filterToJson (.mk base count random theme maxCost)).widen wide)).map filtered) = _
    rw [hfilter.read]
    rfl

/-- **An aim at cards** is read back. -/
theorem denotes {target : CardAim} (h : target.Fits) :
    Denotes wide (CardAim.read inner) target.toJson target :=
  have hwithin := denotes_within wide inner target h _ (Nat.le_refl _)
  ⟨hwithin.writable, hwithin.read⟩

end CardAim

theorem CardFilter.denotes {filter : CardFilter} (h : filter.Fits) :
    Denotes wide (CardFilter.read inner) filter.toJson filter := by
  refine CardAim.denotes_filter wide inner h (CardAim.denotes wide inner ?_)
  obtain ⟨base, count, random, theme, maxCost⟩ := filter
  exact h.1

/-- **A subject** is read back: no aim at cards has the name of an aim at combatants. -/
theorem Subject.denotes {subject : Subject} (h : subject.Fits) :
    Denotes wide Subject.ofJson? subject.toJson subject := by
  cases subject with
  | combatant target =>
    have htarget := Aim.denotes wide false target
    refine ⟨htarget.writable, ?_⟩
    rw [ofJson?, toJson, if_pos htarget.writable.readable, Aim.ofJson?, htarget.read]
    rfl
  | card target =>
    have htarget : Denotes wide CardAim.ofJson? target.toJson target :=
      CardAim.denotes wide false h
    have hother : Aim.ofJson? (target.toJson.widen wide) = none := by
      cases target with
      | randomFrom pile => rfl
      | filtered filter =>
        obtain ⟨base, count, random, theme, maxCost⟩ := filter
        rfl
      | _ => rfl
    refine ⟨htarget.writable, ?_⟩
    rw [ofJson?, toJson, if_pos htarget.writable.readable, hother, htarget.read]
    rfl

/-! ## Conditions -/

namespace Condition

theorem listToJson_eq (conditions : List Condition) :
    listToJson conditions = conditions.map toJson := by
  induction conditions with
  | nil => rfl
  | cons condition conditions ih => rw [listToJson, ih, List.map_cons]

/-- The conditions directly inside a condition. -/
def parts : Condition → List Condition
  | and conditions | or conditions => conditions
  | not condition => [condition]
  | _ => []

theorem Fits.part {condition part : Condition} (h : condition.Fits)
    (hmem : part ∈ condition.parts) : part.Fits := by
  cases h with
  | and h | or h => exact h part hmem
  | not h => exact List.mem_singleton.mp hmem ▸ h
  | health | resource | pileCount | turn | enemyCount | hasPower =>
    exact absurd hmem List.not_mem_nil

theorem depth_lt_of_part {condition part : Condition} (hmem : part ∈ condition.parts) :
    (part.toJson.widen wide).depth < (condition.toJson.widen wide).depth := by
  cases condition with
  | and conditions | or conditions =>
    rw [toJson, listToJson_eq]
    exact Nat.lt_trans (depth_lt_of_item (List.mem_map_of_mem hmem))
      (depth_lt_of_member (.tail _ List.mem_cons_self))
  | not condition =>
    rw [List.mem_singleton.mp hmem, toJson]
    exact depth_lt_of_member (.tail _ List.mem_cons_self)
  | health | resource | pileCount | turn | enemyCount | hasPower =>
    exact absurd hmem List.not_mem_nil

/-- **A condition** is read back by its tag if the conditions inside it are read back. -/
theorem denotes_tag {read : Json → Option Condition} {condition : Condition} (h : condition.Fits)
    (hparts : ∀ part ∈ condition.parts, Denotes wide read part.toJson part) :
    Denotes wide (fun json => (json.tagged? "type" tags inner).bind (ofTagged? read))
      condition.toJson condition := by
  have haim (target : Aim) := Aim.denotes wide true target
  have hop (op : Comparison) := Comparison.denotes wide true op
  cases h with
  | @health target form op value h =>
    have hform := HealthMeasure.denotes wide true form
    refine denotes_tagged (by decide) (by simp) ?_ ?_
    · simp [(haim target).writable, hform.writable, (hop op).writable, h]
    · refine (haim target).withDefault rfl ?_
      refine hform.withDefault rfl ?_
      refine (hop op).required rfl ?_
      exact (denotes_signed wide h).required rfl rfl
  | @resource quantity op value h =>
    have hquantity := Resource.denotes wide true quantity
    refine denotes_tagged (by decide) (by simp) ?_ ?_
    · simp [hquantity.writable, (hop op).writable, h]
    · refine hquantity.required rfl ?_
      refine (hop op).required rfl ?_
      exact (denotes_signed wide h).required rfl rfl
  | @pileCount pile op value h =>
    have hpile := Pile.denotes wide true pile
    refine denotes_tagged (by decide) (by simp) ?_ ?_
    · simp [hpile.writable, (hop op).writable, h]
    · refine hpile.required rfl ?_
      refine (hop op).required rfl ?_
      exact (denotes_signed wide h).required rfl rfl
  | @turn op value h | @enemyCount op value h =>
    refine denotes_tagged (by decide) (by simp) ?_ ?_
    · simp [(hop op).writable, h]
    · refine (hop op).required rfl ?_
      exact (denotes_signed wide h).required rfl rfl
  | @hasPower target power min h =>
    refine denotes_tagged (by decide) (by simp) ?_ ?_
    · simp [(haim target).writable, h]
    · refine (haim target).withDefault rfl ?_
      refine (denotes_string wide power).required rfl ?_
      exact (denotes_signed wide h).withDefault rfl rfl
  | @and conditions | @or conditions =>
    have hconditions : Denotes wide (list? read) (.array (listToJson conditions)) conditions :=
      listToJson_eq conditions ▸ denotes_list hparts
    refine denotes_tagged (by decide) (by simp) ?_ ?_
    · simp [hconditions.writable]
    · exact hconditions.required rfl rfl
  | @not condition =>
    have hcondition := hparts condition List.mem_cons_self
    refine denotes_tagged (by decide) (by simp) ?_ ?_
    · simp [hcondition.writable]
    · exact hcondition.required rfl rfl

/-- **A condition** is read back from a value that is not nested too deeply. -/
theorem denotes_within {condition : Condition} (h : condition.Fits) {depth : Nat}
    (hdepth : (condition.toJson.widen wide).depth ≤ depth) :
    Denotes wide (Condition.read depth inner) condition.toJson condition := by
  induction depth generalizing condition inner with
  | zero =>
    have hpos : 0 < (condition.toJson.widen wide).depth := by
      cases condition <;>
      · rw [toJson]
        exact Nat.zero_lt_of_lt (depth_lt_of_member List.mem_cons_self)
    omega
  | succ depth ih =>
    refine denotes_tag wide inner h fun part hmem => ih true (h.part hmem) ?_
    have hlt := depth_lt_of_part wide hmem
    omega

/-- **A condition inside another value** is read back. -/
theorem denotes_inner {condition : Condition} (h : condition.Fits) :
    Denotes wide ofInner? condition.toJson condition :=
  have hwithin := denotes_within wide true h (Nat.le_refl _)
  ⟨hwithin.writable, hwithin.read⟩

end Condition

end CardCombat
