import CardCombat.Proofs.Overflow.Secure
import CardCombat.Resolve.Dispatch

/-!
# Plain effects are secure anywhere

An effect that neither hits, nor sets health, nor causes other effects can fail by an overflow only,
whatever the combat is like. Most of them move or change cards, which cannot fail at all but for the
numbers of new cards, the costs that a filter asks for, and the amounts.

## Main results

* `heal_secure`, `energy_secure`, `stealPower_secure`, `discover_secure` and the like -- the effects,
  one by one.
-/

namespace CardCombat.Resolution

variable {rules : Rules} {ctx : Context} (amount : Value) (target : Aim)

/-! ## Health and guards -/

theorem barrier_secure : Secure Anywhere (barrier amount target ctx) := by
  refine .bind (.amount amount) fun gained => ?_
  dsimp only
  split
  · exact .forTargets fun _ _ => .bind (.lift (.add _ _)) fun _ =>
      .bind (.setCombatant _ _) fun _ => .report _
  · exact .pure ()

theorem heal_secure (overheal : Bool) : Secure Anywhere (heal amount target overheal ctx) :=
  .bind (.amount amount) fun amount => .forTargets fun _ _ =>
    .bind (.lift (.heal amount overheal)) fun _ => .bind (.setCombatant _ _) fun _ => .reportIf _

theorem destroyBlock_secure (includeBarrier : Bool) :
    Secure Anywhere (destroyBlock target includeBarrier ctx) := by
  refine .forTargets fun _ _ => ?_
  split
  · exact .bind (.lift (.add _ _)) fun _ => .bind (.setCombatant _ _) fun _ => .reportIf _
  · exact .bind (.pure _) fun _ => .bind (.setCombatant _ _) fun _ => .reportIf _

theorem changeMaxHealth_secure : Secure Anywhere (changeMaxHealth amount target ctx) := by
  refine .bind (.amount amount) fun delta => ?_
  split
  · exact .forTargets fun _ _ => .bind (.lift (.changeMaxHealth delta)) fun _ =>
      .bind (.setCombatant _ _) fun _ => .bind (.lift (.sub _ _)) fun _ => .reportIf _
  · exact .pure ()

theorem blockGained_secure {Q : Combat → Prop} (base : Int) :
    Secure Q (blockGained rules base ctx) := by
  refine .combatant? fun c _ => ?_
  split
  · split
    · exact .pure _
    · exact .lift (.blockGiven _)
  · exact .pure _

theorem weakenIntent_secure : Secure Anywhere (weakenIntent amount target ctx) := by
  refine .bind (.amount amount) fun amount => ?_
  split
  · refine .forTargets fun _ _ => ?_
    split
    · exact .bind (.lift (.add _ _)) fun _ => .bind (.setCombatant _ _) fun _ => .report _
    · exact .pure ()
  · exact .pure ()

/-! ## Resources -/

theorem energy_secure (change : Change) : Secure Anywhere (energy amount change ctx) := by
  refine .bind (.amount amount) fun amount => .combat fun _ _ =>
    .bind (.lift (.change _ _ _)) fun _ => .bind (.setResources _) fun _ => ?_
  split
  · exact .bind (.lift (.sub _ _)) fun _ => .report _
  · exact .pure ()

theorem gold_secure (change : Change) : Secure Anywhere (gold amount change ctx) := by
  refine .bind (.amount amount) fun amount => .get fun s _ =>
    .bind (.lift (.change _ _ _)) fun _ => .bind (.lift (.sub _ _)) fun _ => ?_
  dsimp only
  split
  · exact .bind (.lift (.unsigned _ _ _)) fun _ => .bind (.of_total (.modify _)) fun _ => .reportIf _
  · exact .bind (.pure _) fun _ => .bind (.of_total (.modify _)) fun _ => .reportIf _

theorem energyNextTurn_secure : Secure Anywhere (energyNextTurn amount ctx) := by
  refine .bind (.amount amount) fun amount => ?_
  split
  · exact .combat fun _ _ => .bind (.lift (.add _ _)) fun _ =>
      .bind (.setResources _) fun _ => .report _
  · exact .pure ()

/-! ## Powers -/

theorem givePower_secure (id : CombatantId) (power : PowerId) (amount : Int)
    (duration : Option Int) : Secure Anywhere (givePower rules id power amount duration) := by
  refine .combatant? fun _ _ => ?_
  split
  · exact .pure ()
  · refine .bind (.lift (.applyPower _ _ _)) fun ⟨applied, _⟩ =>
      .bind (.setCombatant _ _) fun _ => ?_
    split
    · exact .report _
    · exact .reportIf _

theorem takePower_secure (id : CombatantId) (power : PowerId) (amount : Option Int) :
    Secure Anywhere (takePower rules id power amount) := by
  refine .combatant? fun _ _ => ?_
  split
  · exact .pure _
  · split
    · exact .pure _
    · refine .bind (.lift (.removePower _ _)) fun ⟨left, _⟩ => .bind (.setCombatant _ _) fun _ =>
        .bind ?_ fun _ => .pure _
      cases left with
      | none => exact .report _
      | some left => exact .reportIf _

theorem amount?_secure (value : Option Value) : Secure Anywhere (amount? value ctx) := by
  cases value with
  | none => exact .pure _
  | some value => exact .bind (.amount value) fun _ => .pure _

theorem applyPower_secure (power : PowerId) (duration : Option Int) :
    Secure Anywhere (applyPower rules power amount target duration ctx) := by
  refine .bind (.amount amount) fun amount => ?_
  split
  · exact .bind (.targets target) fun _ => .forM fun _ => givePower_secure _ _ _ _
  · exact .pure ()

theorem removePower_secure (power : PowerId) (amount : Option Value) :
    Secure Anywhere (removePower rules power amount target ctx) :=
  .bind (amount?_secure amount) fun _ => .bind (.targets target) fun _ =>
    .forM fun _ => .discard (takePower_secure _ _ _)

theorem transferPower_secure (power : PowerId) (amount : Option Value) (giver receiver : Aim) :
    Secure Anywhere (transferPower rules power amount giver receiver ctx) := by
  refine .bind (amount?_secure amount) fun _ => .bind (.targets giver) fun owners => ?_
  split
  · exact .pure ()
  · refine .combatant? fun _ _ => ?_
    split
    · exact .pure ()
    · dsimp only
      split
      · exact .bind (.discard (takePower_secure _ _ _)) fun _ =>
          .bind (.targets receiver) fun _ => .forM fun _ => givePower_secure _ _ _ _
      · exact .pure ()

theorem stealPower_secure (power : Option PowerId) (amount : Option Value) :
    Secure Anywhere (stealPower rules power amount target ctx) := by
  have hchosen (combatant : Combatant) :
      Secure Anywhere (powerToSteal rules power combatant) := by
    cases power with
    | none => exact .draw _
    | some power => exact .pure _
  refine .bind (amount?_secure amount) fun _ => .forTargets fun _ _ => .bind (hchosen _) fun _ => ?_
  split
  · exact .pure ()
  · refine .bind (takePower_secure _ _ _) fun _ => ?_
    split
    · exact givePower_secure _ _ _ _
    · exact .pure ()

theorem silencePower_secure (power : Option PowerId) (turns : Nat) :
    Secure Anywhere (silencePower power turns target ctx) := by
  unfold silencePower
  split
  · exact .forTargets fun _ _ => .bind (.setCombatant _ _) fun _ => .forM fun _ => .report _
  · exact .pure ()

/-! ## Moving cards -/

theorem place_secure (card : Card) (pile : Pile) (placement : Placement) :
    Secure Anywhere (place rules card pile placement) := .of_total (place_total _ _ _)

theorem placeNew_secure (card : Card) (pile : Pile) (placement : Placement) :
    Secure Anywhere (placeNew rules card pile placement) :=
  .bind (place_secure _ _ _) fun _ => .report _

theorem newUid_secure : Secure Anywhere newUid :=
  .combat fun _ _ => .bind (.lift (.bind (.unsigned _ _ _) fun _ => .pure _)) fun _ =>
    .bind (.modifyCombat _) fun _ => .pure _

theorem makeCard_secure (definition : CardId) (upgraded : Bool) :
    Secure Anywhere (makeCard definition upgraded) := .bind newUid_secure fun _ => .pure _

/-- A card is sent away, and an event is reported if there was one. -/
theorem sendAway_secure (uid : CardUid) (route : Route) {ofPile : Resolution Bool} (event : Event)
    (h : Total ofPile) :
    Secure Anywhere (do if ← sendAway uid route ofPile then report event) :=
  .of_total (.reportIf (sendAway_total uid route h) event)

theorem discardCard_secure (uid : CardUid) : Secure Anywhere (discardCard uid) :=
  sendAway_secure _ _ _ (retireTo_total _ _)

theorem exhaustCard_secure (uid : CardUid) : Secure Anywhere (exhaustCard uid) :=
  sendAway_secure _ _ _ (retireTo_total _ _)

theorem banishCard_secure (uid : CardUid) : Secure Anywhere (banishCard uid) :=
  sendAway_secure _ _ _ (remove_total _)

theorem ask_secure (kind : SelectionKind) (candidates : List Card) (min max : Nat) :
    Secure Anywhere (ask kind candidates min max) := by
  refine .combat fun _ _ => ?_
  split
  · exact .bind (.modifyCombat _) fun _ => .report _
  · exact .pure ()

theorem bring_secure (uid : CardUid) (pile : Pile) (placement : Placement) :
    Secure Anywhere (bring rules uid pile placement) := .of_total (bring_total _ _ _)

theorem fetch_secure (card : Card) (pile : Pile) : Secure Anywhere (fetch rules card pile) := by
  refine .bind (bring_secure _ _ _) fun _ => ?_
  split
  · exact .report _
  · exact .pure ()

theorem endPlay_secure (uid : CardUid) : Secure Anywhere (endPlay rules uid) := by
  refine .combat fun _ _ => ?_
  split
  · exact .pure ()
  · refine .bind (.modifyCombat _) fun _ => .combat fun _ _ => ?_
    split
    · exact .bind (.setPiles _) fun _ => .record _
    · exact .bind (.setPiles _) fun _ => .bind (.record _) fun _ => .report _
    · exact .pure ()
    · exact .pure ()

variable (aim : CardAim)

theorem discardCards_secure (playerChoice : Bool) :
    Secure Anywhere (discardCards rules amount aim playerChoice ctx) := by
  refine .bind (.count amount) fun _ => ?_
  split
  · split
    · exact .combat fun _ _ => ask_secure _ _ _ _
    · exact .forCards fun card => discardCard_secure card.uid
  · exact .pure ()

theorem exhaustCards_secure : Secure Anywhere (exhaustCards rules amount aim ctx) := by
  refine .bind (.count amount) fun _ => ?_
  split
  · exact .forCards fun card => exhaustCard_secure card.uid
  · exact .pure ()

theorem banishCards_secure (playerChoice : Bool) :
    Secure Anywhere (banishCards rules amount aim playerChoice ctx) := by
  refine .bind (.count amount) fun _ => ?_
  split
  · split
    · exact .bind (.cards aim none) fun _ => ask_secure _ _ _ _
    · exact .forCards fun card => banishCard_secure card.uid
  · exact .pure ()

theorem putOnDeck_secure (placement : Placement) :
    Secure Anywhere (putOnDeck rules aim placement ctx) := by
  refine .forCards fun card => .bind (bring_secure _ _ _) fun _ => ?_
  split
  · exact .report _
  · exact .pure ()

theorem tutor_secure (filter : Option CardFilter) (destination : Pile) (playerChoice : Bool) :
    Secure Anywhere (tutor rules filter destination playerChoice ctx) := by
  refine .bind (.cards _ none) fun found => ?_
  split
  · exact .pure ()
  · split
    · exact ask_secure _ _ _ _
    · exact fetch_secure _ _

/-! ## The draw pile -/

theorem reshuffle_secure : Secure Anywhere reshuffle :=
  .combat fun _ _ => .bind (.draw _) fun _ => .bind (.setPiles _) fun _ =>
    .bind (.record _) fun _ => .pure _

theorem popDraw?_secure : Secure Anywhere popDraw? := by
  refine .combat fun _ _ => ?_
  split
  · exact .pure _
  · exact .bind (.setPiles _) fun _ => .pure _

theorem ontoDiscard_secure (card : Card) : Secure Anywhere (ontoDiscard card) :=
  .combat fun _ _ => .setPiles _

theorem drawCard_secure : Secure Anywhere (drawCard rules) := by
  have hrefill : Secure Anywhere refill :=
    .combat fun _ _ => .onlyIf (.bind reshuffle_secure fun _ => .onlyIf (.report _))
  refine .combat fun _ _ => ?_
  split
  · exact .pure _
  · refine .bind hrefill fun _ => .bind popDraw?_secure fun _ => ?_
    split
    · exact .pure _
    · exact .bind (.combat fun _ _ => .setPiles _) fun _ => .pure _

theorem drawCards_secure (count : Nat) : Secure Anywhere (drawCards rules count) :=
  .bind (.upTo drawCard_secure count) fun _ => .reportIf _

theorem mill_secure : Secure Anywhere (mill amount ctx) := by
  refine .bind (.count amount) fun count => .discard (.upTo (.bind popDraw?_secure fun _ => ?_) count)
  split
  · exact .pure _
  · exact .bind (ontoDiscard_secure _) fun _ => .bind (.report _) fun _ => .pure _

theorem shuffle_secure (includeDiscard : Bool) : Secure Anywhere (shuffle includeDiscard) := by
  refine .bind ?_ fun _ => .combat fun _ _ => .onlyIf (.report _)
  cases includeDiscard with
  | true => exact .discard reshuffle_secure
  | false => exact .combat fun _ _ => .bind (.draw _) fun _ => .setPiles _

theorem scry_secure : Secure Anywhere (scry amount ctx) :=
  .combat fun _ _ => .bind (.count amount) fun _ => ask_secure _ _ _ _

/-! ## Changing cards -/

theorem putChanged_secure (uid : CardUid) (card : Card) : Secure Anywhere (putChanged uid card) :=
  .combat fun _ _ => .bind (.modifyCombat _) fun _ => .record _

theorem changeCards_secure {needed : Card → Bool} {change : Card → Except Fault Card}
    (hchange : ∀ card, OnlyOverflows (change card)) (event : CardUid → Event) :
    Secure Anywhere (changeCards rules aim ctx needed change event) := by
  refine .forCards fun card => .combat fun _ _ => ?_
  split
  · exact .pure ()
  · exact .bind (.lift (hchange _)) fun _ => .bind (putChanged_secure _ _) fun _ => .report _

theorem retain_secure : Secure Anywhere (retain rules aim ctx) :=
  changeCards_secure aim (fun _ => .pure _) _

theorem upgrade_secure : Secure Anywhere (upgrade rules aim ctx) :=
  changeCards_secure aim (fun _ => .pure _) _

theorem setCardFlag_secure (flag : CardFlag) (value : Bool) :
    Secure Anywhere (setCardFlag rules aim flag value ctx) :=
  changeCards_secure aim (fun _ => .pure _) _

theorem modifyCost_secure : Secure Anywhere (modifyCost rules amount aim ctx) := by
  refine .bind (.amount amount) fun delta => ?_
  split
  · exact changeCards_secure aim (fun _ => .bind (.add _ _) fun _ => .pure _) _
  · exact .pure ()

theorem transform_secure (theme : Option Theme) :
    Secure Anywhere (transform rules aim theme ctx) := by
  refine .forCards fun card => .bind (.draw _) fun _ => ?_
  split
  · exact .pure ()
  · refine .combat fun _ _ => ?_
    split
    · exact .pure ()
    · exact .bind (putChanged_secure _ _) fun _ => .report _

/-! ## Making cards -/

theorem addCards_secure (definition : CardId) (destination : Pile) (number : Value)
    (upgraded : Bool) (placement : Placement) :
    Secure Anywhere (addCards rules definition destination number upgraded placement ctx) := by
  unfold addCards
  split
  · exact .bind (.count number) fun count =>
      .times (.bind (makeCard_secure _ _) fun _ => placeNew_secure _ _ _) count
  · exact .pure ()

theorem copyCards_secure (destination : Pile) (number : Value) :
    Secure Anywhere (copyCards rules aim destination number ctx) :=
  .bind (.count number) fun copies => .forCards fun _ =>
    .times (.bind newUid_secure fun _ => placeNew_secure _ _ _) copies

theorem createFrom_secure (pool : List CardId) (destination : Pile) (free upgraded : Bool) :
    Secure Anywhere (createFrom rules pool destination free upgraded) := by
  refine .bind (.draw _) fun _ => ?_
  split
  · exact .pure _
  · refine .bind (makeCard_secure _ _) fun card => ?_
    cases free with
    | true =>
        exact .bind (.lift (.madeFree card)) fun _ => .bind (placeNew_secure _ _ _) fun _ => .pure _
    | false => exact .bind (.pure _) fun _ => .bind (placeNew_secure _ _ _) fun _ => .pure _

theorem createRandomCards_secure (theme : Option Theme) (destination : Pile) (number : Value)
    (free upgraded : Bool) :
    Secure Anywhere (createRandomCards rules theme destination number free upgraded ctx) :=
  .bind (.count number) fun count => .discard (.upTo (createFrom_secure _ _ _ _) count)

theorem discover_secure (theme : Option Theme) (choices : Option Nat) (destination : Pile)
    (upgraded : Bool) : Secure Anywhere (discover rules theme choices destination upgraded) := by
  refine .bind (.draw _) fun picks => .bind (.mapM (fun _ => makeCard_secure _ _) picks) fun made => ?_
  split
  · exact placeNew_secure _ _ _
  · exact ask_secure _ _ _ _

end CardCombat.Resolution
