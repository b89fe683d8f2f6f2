import CardCombat.Form.Effect
import CardCombat.Proofs.Form.Choices

/-!
# Written effects are read back

An effect is read back by its tag, through the effects inside it. The readers of the tags are asked
one after another; each knows only its own tags, so all before the right one find nothing.

## Main results

* `Effect.denotes` -- an effect of which all numbers fit is read back.
-/

namespace CardCombat

open Json

namespace Effect

variable {wide : Float32 → Option Float} {inner : Bool}

theorem listToJson_eq (effects : List Effect) : listToJson effects = effects.map toJson := by
  induction effects with
  | nil => rfl
  | cons effect effects ih => rw [listToJson, ih, List.map_cons]

theorem branchesToJson_eq (choices : List Branch) :
    branchesToJson choices = choices.map Branch.toJson := by
  induction choices with
  | nil => rfl
  | cons branch choices ih =>
    obtain ⟨weight, effects⟩ := branch
    rw [branchesToJson, ih, List.map_cons]
    rfl

/-! ## The readers of the tags -/

section Tags

variable {read : Json → Option Effect} {tag : String} {members : Members} {effect : Effect}

/-- An effect is read back if the readers of the tags find it. -/
theorem denotes_members (htag : tag ∈ tags) (hkey : ∀ member ∈ members, member.1 ≠ "type")
    (hwritable : ∀ member ∈ members, member.2.Writable)
    (hread : ofTagged? read (tag, ("type", .string tag) ::
      members.map fun member => (member.1, member.2.widen wide)) = some effect) :
    Denotes wide (fun json => (json.tagged? "type" tags inner).bind (ofTagged? read))
      (tagged tag members) effect :=
  denotes_tagged htag hkey hwritable hread

variable {json : String × Members}

theorem ofTagged?_of_combat (h : ofCombatTag? read json = some effect) :
    ofTagged? read json = some effect := by
  rw [ofTagged?, h]
  rfl

theorem ofTagged?_of_resource (hcombat : ofCombatTag? read json = none)
    (h : ofResourceTag? json = some effect) : ofTagged? read json = some effect := by
  rw [ofTagged?, hcombat, h]
  rfl

theorem ofTagged?_of_card (hcombat : ofCombatTag? read json = none)
    (hresource : ofResourceTag? json = none) (h : ofCardTag? json = some effect) :
    ofTagged? read json = some effect := by
  rw [ofTagged?, hcombat, hresource, h]
  rfl

theorem ofTagged?_of_craft (hcombat : ofCombatTag? read json = none)
    (hresource : ofResourceTag? json = none) (hcard : ofCardTag? json = none)
    (h : ofCraftTag? json = some effect) : ofTagged? read json = some effect := by
  rw [ofTagged?, hcombat, hresource, hcard, h]
  rfl

theorem ofTagged?_of_power (hcombat : ofCombatTag? read json = none)
    (hresource : ofResourceTag? json = none) (hcard : ofCardTag? json = none)
    (hcraft : ofCraftTag? json = none) (h : ofPowerTag? json = some effect) :
    ofTagged? read json = some effect := by
  rw [ofTagged?, hcombat, hresource, hcard, hcraft, h]
  rfl

end Tags

/-! ## Effects by their tags -/

/-- **A branch** is read back if its weight and its effects are. -/
theorem denotes_branch {read : Json → Option Effect} {branch : Branch}
    (hkept : Kept wide branch.toJson)
    (hparts : ∀ part ∈ branch.effects, Denotes wide read part.toJson part) :
    Denotes wide (readBranch read) branch.toJson branch := by
  obtain ⟨weight, effects⟩ := branch
  have hweight := denotes_single (hkept.member List.mem_cons_self)
  have heffects : Denotes wide (list? read) (.array (listToJson effects)) effects :=
    listToJson_eq effects ▸ Json.denotes_list hparts
  refine denotes_record ?_ ?_
  · simp [hweight.writable, Branch.effects, heffects.writable]
  · refine hweight.required rfl ?_
    exact heffects.required rfl rfl

/-- **An effect** is read back by its tag if the effects inside it and its weights are read back. -/
theorem denotes_tag {read : Json → Option Effect} {effect : Effect} (h : effect.NumbersFit)
    (hkept : Kept wide effect.toJson)
    (hparts : ∀ part, Inside part effect → Denotes wide read part.toJson part) :
    Denotes wide (fun json => (json.tagged? "type" tags inner).bind (ofTagged? read))
      effect.toJson effect := by
  have hbool (value : Bool) := denotes_bool wide value
  have haim (target : Aim) := Aim.denotes wide true target
  have helement (element : Element) :=
    Element.denotes wide true element
  have hchange (change : Change) := Change.denotes wide true change
  have hpile (pile : Pile) := Pile.denotes wide true pile
  have hplacement (placement : Placement) :=
    Placement.denotes wide true placement
  have hflag (flag : CardFlag) := CardFlag.denotes wide true flag
  have htheme (theme : Option Theme) :=
    Theme.denotes_option wide true theme
  have hvalue {value : Value} (h : value.Fits) := Value.denotes wide h
  have hoptional {value : Option Value} (h : Value.OptionFits value) :
      Denotes wide (nullable? Value.ofJson?) (ofOption Value.toJson value) value :=
    denotes_nullable rfl fun inner hmem => Value.denotes wide (h inner hmem)
  have hpower (power : Option PowerId) :
      Denotes wide (nullable? string?) (ofOption .string power) power :=
    denotes_nullable rfl fun inner _ => denotes_string wide inner
  have hcards {target : CardAim} (h : target.Fits) :=
    CardAim.denotes wide true h
  have hlist {effects : List Effect} (h : ∀ part ∈ effects, Inside part effect) :
      Denotes wide (list? read) (.array (listToJson effects)) effects :=
    listToJson_eq effects ▸ Json.denotes_list fun part hmem => hparts part (h part hmem)
  cases effect with
  | damage amount target element piercing onHit =>
    have honHit := hlist fun part => .onHit
    refine denotes_members (by decide) (by simp) ?_ (ofTagged?_of_combat ?_)
    · simp [(hvalue h).writable, (haim target).writable, (helement element).writable,
        honHit.writable]
    · refine (hvalue h).required rfl ?_
      refine (haim target).withDefault rfl ?_
      refine (helement element).withDefault rfl ?_
      refine (hbool piercing).withDefault rfl ?_
      exact honHit.withDefault rfl rfl
  | block amount target | barrier amount target | maxHealth amount target | setHealth amount target
  | counter amount target | weakenIntent amount target | mark amount target
  | reflect amount target | amplify amount target =>
    refine denotes_members (by decide) (by simp) ?_ (ofTagged?_of_combat ?_)
    · simp [(hvalue h).writable, (haim target).writable]
    · refine (hvalue h).required rfl ?_
      exact (haim target).withDefault rfl rfl
  | heal amount target overheal =>
    refine denotes_members (by decide) (by simp) ?_ (ofTagged?_of_combat ?_)
    · simp [(hvalue h).writable, (haim target).writable]
    · refine (hvalue h).required rfl ?_
      refine (haim target).withDefault rfl ?_
      exact (hbool overheal).withDefault rfl rfl
  | lifesteal amount target element percent | splash amount target element percent =>
    refine denotes_members (by decide) (by simp) ?_ (ofTagged?_of_combat ?_)
    · simp [(hvalue h.1).writable, (haim target).writable, (helement element).writable, h.2]
    · refine (hvalue h.1).required rfl ?_
      refine (haim target).withDefault rfl ?_
      refine (helement element).withDefault rfl ?_
      exact (denotes_signed wide h.2).withDefault rfl rfl
  | destroyBlock target includeBarrier =>
    refine denotes_members (by decide) (by simp) ?_ (ofTagged?_of_combat ?_)
    · simp [(haim target).writable]
    · refine (haim target).withDefault rfl ?_
      exact (hbool includeBarrier).withDefault rfl rfl
  | execute threshold target =>
    refine denotes_members (by decide) (by simp) ?_ (ofTagged?_of_combat ?_)
    · simp [(haim target).writable, show Signed.Fits threshold from h]
    · refine (denotes_signed wide h).required rfl ?_
      exact (haim target).withDefault rfl rfl
  | recoil amount target element cost =>
    refine denotes_members (by decide) (by simp) ?_ (ofTagged?_of_combat ?_)
    · simp [(hvalue h.1).writable, (haim target).writable, (helement element).writable,
        (hvalue h.2).writable]
    · refine (hvalue h.1).required rfl ?_
      refine (haim target).withDefault rfl ?_
      refine (helement element).withDefault rfl ?_
      exact (hvalue h.2).required rfl rfl
  | chain amount target element bounces falloffPercent =>
    have hbounces := denotes_unsigned wide (by decide) h.2.1
    refine denotes_members (by decide) (by simp) ?_ (ofTagged?_of_combat ?_)
    · simp [(hvalue h.1).writable, (haim target).writable, (helement element).writable,
        hbounces.writable, h.2.2]
    · refine (hvalue h.1).required rfl ?_
      refine (haim target).withDefault rfl ?_
      refine (helement element).withDefault rfl ?_
      refine hbounces.required rfl ?_
      exact (denotes_signed wide h.2.2).withDefault rfl rfl
  | energy amount operation | gold amount operation =>
    refine denotes_members (by decide) (by simp) ?_ (ofTagged?_of_resource rfl ?_)
    · simp [(hvalue h).writable, (hchange operation).writable]
    · refine (hvalue h).required rfl ?_
      exact (hchange operation).withDefault rfl rfl
  | energyNextTurn amount =>
    exact denotes_members (by decide) (by simp) (by simp [(hvalue h).writable])
      (ofTagged?_of_resource rfl ((hvalue h).required rfl rfl))
  | draw amount | scry amount | mill amount =>
    exact denotes_members (by decide) (by simp) (by simp [(hvalue h).writable])
      (ofTagged?_of_card rfl rfl ((hvalue h).required rfl rfl))
  | playTopCard amount =>
    exact denotes_members (by decide) (by simp) (by simp [(hvalue h).writable])
      (ofTagged?_of_card rfl rfl ((hvalue h).withDefault rfl rfl))
  | discard amount target playerChoice | banish amount target playerChoice =>
    refine denotes_members (by decide) (by simp) ?_ (ofTagged?_of_card rfl rfl ?_)
    · simp [(hvalue h.1).writable, (hcards h.2).writable]
    · refine (hvalue h.1).withDefault rfl ?_
      refine (hcards h.2).withDefault rfl ?_
      exact (hbool playerChoice).withDefault rfl rfl
  | exhaust amount target =>
    refine denotes_members (by decide) (by simp) ?_ (ofTagged?_of_card rfl rfl ?_)
    · simp [(hvalue h.1).writable, (hcards h.2).writable]
    · refine (hvalue h.1).withDefault rfl ?_
      exact (hcards h.2).withDefault rfl rfl
  | shuffle includeDiscard =>
    exact denotes_members (by decide) (by simp) (by simp)
      (ofTagged?_of_card rfl rfl rfl)
  | putOnDeck target position =>
    refine denotes_members (by decide) (by simp) ?_ (ofTagged?_of_card rfl rfl ?_)
    · simp [(hcards h).writable, (hplacement position).writable]
    · refine (hcards h).withDefault rfl ?_
      exact (hplacement position).withDefault rfl rfl
  | replayCard target times =>
    refine denotes_members (by decide) (by simp) ?_ (ofTagged?_of_card rfl rfl ?_)
    · simp [(hvalue h.1).writable, (hcards h.2).writable]
    · refine (hcards h.2).withDefault rfl ?_
      exact (hvalue h.1).withDefault rfl rfl
  | tutor filter destination playerChoice =>
    have hfilter : Denotes wide (nullable? (CardFilter.read true))
        (ofOption CardFilter.toJson filter) filter :=
      denotes_nullable rfl fun inner hmem => CardFilter.denotes wide true (h inner hmem)
    refine denotes_members (by decide) (by simp) ?_ (ofTagged?_of_card rfl rfl ?_)
    · simp [hfilter.writable, (hpile destination).writable]
    · refine hfilter.optional rfl ?_
      refine (hpile destination).withDefault rfl ?_
      exact (hbool playerChoice).withDefault rfl rfl
  | addCard cardId destination count upgraded position =>
    refine denotes_members (by decide) (by simp) ?_ (ofTagged?_of_craft rfl rfl rfl ?_)
    · simp [(hpile destination).writable, (hvalue h).writable, (hplacement position).writable]
    · refine (hpile destination).withDefault rfl ?_
      refine (hvalue h).withDefault rfl ?_
      refine (hbool upgraded).withDefault rfl ?_
      exact (hplacement position).withDefault rfl rfl
  | retain target | upgrade target =>
    exact denotes_members (by decide) (by simp) (by simp [(hcards h).writable])
      (ofTagged?_of_craft rfl rfl rfl ((hcards h).withDefault rfl rfl))
  | copyCard target destination count =>
    refine denotes_members (by decide) (by simp) ?_ (ofTagged?_of_craft rfl rfl rfl ?_)
    · simp [(hvalue h.1).writable, (hcards h.2).writable, (hpile destination).writable]
    · refine (hcards h.2).withDefault rfl ?_
      refine (hpile destination).withDefault rfl ?_
      exact (hvalue h.1).withDefault rfl rfl
  | modifyCost amount target =>
    refine denotes_members (by decide) (by simp) ?_ (ofTagged?_of_craft rfl rfl rfl ?_)
    · simp [(hvalue h.1).writable, (hcards h.2).writable]
    · refine (hvalue h.1).required rfl ?_
      exact (hcards h.2).withDefault rfl rfl
  | discover theme choices destination upgraded =>
    have hchoices := Unsigned.OptionFits.denotes wide (by decide) h
    refine denotes_members (by decide) (by simp) ?_ (ofTagged?_of_craft rfl rfl rfl ?_)
    · simp [(htheme theme).writable, hchoices.writable, (hpile destination).writable]
    · refine (htheme theme).optional rfl ?_
      refine hchoices.optional rfl ?_
      refine (hpile destination).withDefault rfl ?_
      exact (hbool upgraded).withDefault rfl rfl
  | transform target theme =>
    refine denotes_members (by decide) (by simp) ?_ (ofTagged?_of_craft rfl rfl rfl ?_)
    · simp [(hcards h).writable, (htheme theme).writable]
    · refine (hcards h).withDefault rfl ?_
      exact (htheme theme).optional rfl rfl
  | createRandomCard theme destination count free upgraded =>
    refine denotes_members (by decide) (by simp) ?_ (ofTagged?_of_craft rfl rfl rfl ?_)
    · simp [(htheme theme).writable, (hpile destination).writable, (hvalue h).writable]
    · refine (htheme theme).optional rfl ?_
      refine (hpile destination).withDefault rfl ?_
      refine (hvalue h).withDefault rfl ?_
      refine (hbool free).withDefault rfl ?_
      exact (hbool upgraded).withDefault rfl rfl
  | setCardFlag target flag value =>
    refine denotes_members (by decide) (by simp) ?_ (ofTagged?_of_craft rfl rfl rfl ?_)
    · simp [(hcards h).writable, (hflag flag).writable]
    · refine (hcards h).withDefault rfl ?_
      refine (hflag flag).required rfl ?_
      exact (hbool value).withDefault rfl rfl
  | addStatusCard cardId destination count =>
    refine denotes_members (by decide) (by simp) ?_ (ofTagged?_of_craft rfl rfl rfl ?_)
    · simp [(hpile destination).writable, (hvalue h).writable]
    · refine (hpile destination).withDefault rfl ?_
      exact (hvalue h).withDefault rfl rfl
  | applyPower power amount target duration =>
    have hduration := Signed.OptionFits.denotes wide h.2
    refine denotes_members (by decide) (by simp) ?_ (ofTagged?_of_power rfl rfl rfl rfl ?_)
    · simp [(hvalue h.1).writable, (haim target).writable, hduration.writable]
    · refine (hvalue h.1).required rfl ?_
      refine (haim target).withDefault rfl ?_
      exact hduration.optional rfl rfl
  | removePower power amount target =>
    refine denotes_members (by decide) (by simp) ?_ (ofTagged?_of_power rfl rfl rfl rfl ?_)
    · simp [(hoptional h).writable, (haim target).writable]
    · refine (hoptional h).optional rfl ?_
      exact (haim target).withDefault rfl rfl
  | transferPower power amount giver receiver =>
    refine denotes_members (by decide) (by simp) ?_ (ofTagged?_of_power rfl rfl rfl rfl ?_)
    · simp [(hoptional h).writable, (haim giver).writable, (haim receiver).writable]
    · refine (hoptional h).optional rfl ?_
      refine (haim giver).withDefault rfl ?_
      exact (haim receiver).withDefault rfl rfl
  | stealPower power amount target =>
    refine denotes_members (by decide) (by simp) ?_ (ofTagged?_of_power rfl rfl rfl rfl ?_)
    · simp [(hpower power).writable, (hoptional h).writable, (haim target).writable]
    · refine (hpower power).optional rfl ?_
      refine (hoptional h).optional rfl ?_
      exact (haim target).withDefault rfl rfl
  | silencePower power turns target =>
    have hturns := denotes_unsigned wide (by decide) h
    refine denotes_members (by decide) (by simp) ?_ (ofTagged?_of_power rfl rfl rfl rfl ?_)
    · simp [(hpower power).writable, hturns.writable, (haim target).writable]
    · refine (hpower power).optional rfl ?_
      refine hturns.withDefault rfl ?_
      exact (haim target).withDefault rfl rfl
  | conditional condition yes no =>
    have hcondition := Condition.denotes_inner wide h
    have hyes := hlist fun part => .yes
    have hno := hlist fun part => .no
    refine denotes_members (by decide) (by simp) ?_ ?_
    · simp [hcondition.writable, hyes.writable, hno.writable]
    · refine hcondition.required rfl ?_
      refine hyes.required rfl ?_
      exact hno.withDefault rfl rfl
  | repeated times effects =>
    have heffects := hlist fun part => .repeated
    refine denotes_members (by decide) (by simp) ?_ ?_
    · simp [(hvalue h).writable, heffects.writable]
    · refine (hvalue h).required rfl ?_
      exact heffects.required rfl rfl
  | randomChoice choices =>
    have hkept : Kept wide (.array (choices.map Branch.toJson)) :=
      branchesToJson_eq choices ▸ hkept.member (.tail _ List.mem_cons_self)
    have hchoices : Denotes wide (list? (readBranch read)) (.array (branchesToJson choices))
        choices :=
      branchesToJson_eq choices ▸ Json.denotes_list fun branch hmem =>
        denotes_branch (hkept.item (List.mem_map_of_mem hmem)) fun part hpart =>
          hparts part (.choice branch hmem hpart)
    refine denotes_members (by decide) (by simp) ?_ (hchoices.required rfl rfl)
    simp [hchoices.writable]
  | sequence effects =>
    have heffects := hlist fun part => .sequence
    refine denotes_members (by decide) (by simp) ?_ (heffects.required rfl rfl)
    simp [heffects.writable]
  | forEach target effects =>
    have htarget := Subject.denotes wide h
    have heffects := hlist fun part => .forEach
    refine denotes_members (by decide) (by simp) ?_ ?_
    · simp [htarget.writable, heffects.writable]
    · refine htarget.required rfl ?_
      exact heffects.required rfl rfl

/-! ## Effects inside effects -/

/-- What is written of an effect inside another one is part of a member. -/
theorem exists_member_of_inside {part effect : Effect} (h : Inside part effect) :
    ∃ key value members, effect.toJson = .object members ∧ (key, value) ∈ members ∧
      Part part.toJson value := by
  have hitem {effects : List Effect} (hmem : part ∈ effects) :
      Part part.toJson (.array (listToJson effects)) :=
    .item (listToJson_eq effects ▸ List.mem_map_of_mem hmem) .self
  cases h with
  | onHit hmem => exact ⟨"onHit", _, _, rfl, by simp, hitem hmem⟩
  | yes hmem => exact ⟨"then", _, _, rfl, by simp, hitem hmem⟩
  | no hmem => exact ⟨"else", _, _, rfl, by simp, hitem hmem⟩
  | repeated hmem | sequence hmem | forEach hmem =>
    exact ⟨"effects", _, _, rfl, by simp, hitem hmem⟩
  | @choice choices branch hb hmem =>
    refine ⟨_, _, _, rfl, .tail _ List.mem_cons_self, ?_⟩
    rw [branchesToJson_eq]
    exact .item (List.mem_map_of_mem hb) (.member (.tail _ List.mem_cons_self) (hitem hmem))

variable (wide) in
theorem depth_lt_of_inside {part effect : Effect} (h : Inside part effect) :
    (part.toJson.widen wide).depth < (effect.toJson.widen wide).depth := by
  obtain ⟨key, value, members, hjson, hmem, hpart⟩ := exists_member_of_inside h
  rw [hjson]
  exact Nat.lt_of_le_of_lt hpart.depth_le (depth_lt_of_member hmem)

theorem part_of_inside {part effect : Effect} (h : Inside part effect) :
    Part part.toJson effect.toJson := by
  obtain ⟨key, value, members, hjson, hmem, hpart⟩ := exists_member_of_inside h
  rw [hjson]
  exact .member hmem hpart

/-- **An effect** is read back from a value that is not nested too deeply. -/
theorem denotes_within {effect : Effect} (h : effect.Fits) (hkept : Kept wide effect.toJson)
    {depth : Nat} {inner : Bool} (hdepth : (effect.toJson.widen wide).depth ≤ depth) :
    Denotes wide (Effect.read depth inner) effect.toJson effect := by
  induction depth generalizing effect inner with
  | zero =>
    have hpos : 0 < (effect.toJson.widen wide).depth := by
      cases effect <;>
      · rw [toJson]
        exact Nat.zero_lt_of_lt (depth_lt_of_member List.mem_cons_self)
    omega
  | succ depth ih =>
    obtain ⟨hown, hinside⟩ := h
    refine denotes_tag hown hkept fun part hpart =>
      ih (hinside part hpart) (hkept.of_part (part_of_inside hpart)) ?_
    have hlt := depth_lt_of_inside wide hpart
    omega

/-- **An effect of which all numbers fit is read back** if its weights are. -/
theorem denotes {effect : Effect} (h : effect.Fits) (hkept : Kept wide effect.toJson) :
    Denotes wide Effect.ofJson? effect.toJson effect :=
  have hwithin : Denotes wide (Effect.read _ false) effect.toJson effect :=
    denotes_within h hkept (Nat.le_refl _)
  ⟨hwithin.writable, hwithin.read⟩

theorem denotes_list {effects : List Effect} (h : ∀ effect ∈ effects, effect.Fits)
    (hkept : Kept wide (ofList Effect.toJson effects)) :
    Denotes wide (list? Effect.ofJson?) (ofList Effect.toJson effects) effects :=
  Json.denotes_list fun effect hmem => Effect.denotes (h effect hmem) (hkept.element hmem)

end Effect

end CardCombat
