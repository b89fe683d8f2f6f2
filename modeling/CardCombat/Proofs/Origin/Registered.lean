import CardCombat.Proofs.Content.Acceptance
import CardCombat.Proofs.Origin.Creation

/-!
# No card is unknown

If the deck of a run names only cards that are registered, then so does everything that a combat
ever shows: a card comes from one that was there, or it has a definition of which cards can be made,
and those are registered, since in content that is made from a pack every card is entered under its
own name. So no play is ever rejected because nobody knows the card.

## Main definitions

* `Combat.Registered` -- the content knows every card that the combat shows.
* `Catalog.Generates` -- the registered cards that are generated for a theme.

## Main results

* `Catalog.Filed.mem_generated_iff`, `Catalog.Filed.nodup_generated` -- what is generated.
* `Rules.closed_world` -- along calls, and where cards are chosen at random.
-/

namespace CardCombat

/-! ## What is generated -/

namespace Catalog

variable {cards : Catalog CardDefinition} {theme : Option Theme} {definition : CardId}

/-- The definition is registered under its name, it is neither a status nor a curse nor special, and
it has the theme that is asked for, if any. -/
def Generates (cards : Catalog CardDefinition) (theme : Option Theme) (definition : CardId) :
    Prop :=
  ∃ found, cards.find? definition = some found ∧ found.id = definition ∧
    found.theme ≠ .status ∧ found.theme ≠ .curse ∧ found.rarity ≠ .special ∧
      ∀ requested, theme = some requested → found.theme = requested

theorem isGenerated_iff {found : CardDefinition} : found.isGenerated theme ↔
    found.theme ≠ .status ∧ found.theme ≠ .curse ∧ found.rarity ≠ .special ∧
      ∀ requested, theme = some requested → found.theme = requested := by
  unfold CardDefinition.isGenerated
  cases theme with
  | none => simp [and_assoc]
  | some requested => simp [and_assoc]

namespace Filed

variable (h : cards.Filed (·.id))

include h

/-- **What is generated** are the registered cards of the theme that can be made at random. -/
theorem mem_generated_iff :
    definition ∈ cards.generated theme ↔ cards.Generates theme definition := by
  unfold generated Generates
  rw [List.mem_map]
  constructor
  · rintro ⟨found, hmem, rfl⟩
    obtain ⟨hmem, hgenerated⟩ := List.mem_filter.mp hmem
    exact ⟨found, h.mem_values_iff.mp hmem, rfl, isGenerated_iff.mp hgenerated⟩
  · rintro ⟨found, hfind, rfl, hgenerated⟩
    exact ⟨found, List.mem_filter.mpr ⟨h.mem_values_iff.mpr hfind, isGenerated_iff.mpr hgenerated⟩,
      rfl⟩

/-- No card is generated twice. -/
theorem nodup_generated : (cards.generated theme).Nodup := by
  have hnames : cards.values.map (·.id) = cards.names := by
    unfold values names
    rw [List.map_map]
    exact List.map_congr_left fun entry hmem => (h.named entry hmem).symm
  have hnodup : (cards.values.map (·.id)).Nodup := hnames ▸ h.nodup
  exact hnodup.sublist (List.filter_sublist.map _)

/-- Cards are made only of registered definitions. -/
theorem contains_of_supplies {rules : Rules} (hcards : rules.content.cards = cards)
    (hs : rules.Supplies definition) : cards.contains definition := by
  subst hcards
  rcases hs with hs | ⟨theme, hs⟩
  · exact hs
  · obtain ⟨found, hfind, -⟩ := h.mem_generated_iff.mp hs
    unfold contains
    rw [hfind]
    rfl

end Filed

end Catalog

open Resolution

variable {rules : Rules} {run run' : Run} {call : Call} {s t : Scene}

/-! ## Combats without unknown cards -/

/-- The content knows every card that the combat shows. -/
def Combat.Registered (cards : Catalog CardDefinition) (combat : Combat) : Prop :=
  ∀ card, combat.Shows card → cards.contains card.definition

/-- The content knows the cards of the deck and all that the combat shows. -/
structure Run.Registered (cards : Catalog CardDefinition) (run : Run) : Prop where
  deck : ∀ card ∈ run.deck, cards.contains card.definition
  combat : run.InCombat (Combat.Registered cards)

/-- Leaving a combat leaves the deck. -/
theorem Run.deck_leaveCombat : run.leaveCombat.2.deck = run.deck := by
  unfold leaveCombat
  split
  · rfl
  · split <;> rfl

section Calls

variable (hfiled : rules.content.cards.Filed (·.id))

include hfiled

/-- Where the content knew all that was shown, it does so afterwards. -/
theorem Descends.registered (h : Descends rules Uncited s t)
    (hs : s.combat.Registered rules.content.cards) :
    t.combat.Registered rules.content.cards := by
  intro card hshown
  rcases (h.origin card hshown).definition with hsupplied | ⟨found, hk, hd⟩
  · exact hfiled.contains_of_supplies rfl hsupplied
  · exact hd ▸ hs found (hk.resolve_right id)

namespace Rules

/-- **An accepted call** brings no unknown card. -/
theorem registered_of_accepted (hrun : run.Registered rules.content.cards)
    (h : rules.perform run call = .ok (none, run')) : run'.Registered rules.content.cards := by
  obtain ⟨s, t, m, hm, -, hresolve, hdeck, -, hcombat⟩ := undertakes_of_accepted h
  have hs : s.combat.Registered rules.content.cards := by
    by_cases hstart : ∃ enemies, call = .start enemies
    · obtain ⟨enemies, rfl⟩ := hstart
      exact fun card hshown => hrun.deck card (mem_deck_of_start hm hshown)
    · exact hrun.combat _ (hm.combat_eq fun enemies heq => hstart ⟨enemies, heq⟩)
  refine ⟨fun card hmem => hrun.deck card (hdeck ▸ hmem), fun combat hc card hshown => ?_⟩
  obtain rfl := Option.some.inj (hcombat.symm.trans hc)
  exact (descends_of_undertakes hm hresolve).registered hfiled hs card
    (shows_of_endIfDecided hshown)

/-- **Whatever a run comes to**, nothing in it is unknown. -/
theorem registered_of_reaches (hrun : run.Registered rules.content.cards)
    (h : rules.Reaches run run') : run'.Registered rules.content.cards := by
  induction h with
  | refl => exact hrun
  | @call before after call rejection _ hperform ih =>
      cases rejection with
      | none => exact registered_of_accepted hfiled ih hperform
      | some rejection => exact run_of_rejected hperform ▸ ih
  | @leave before _ ih =>
      refine ⟨fun card hmem => ih.deck card (Run.deck_leaveCombat ▸ hmem), fun combat hc => ?_⟩
      exact absurd ((combat_leaveCombat before).symm.trans hc) nofun
  | attend _ hc events locked ih =>
      refine ⟨ih.deck, fun combat hcombat card hshown => ?_⟩
      obtain rfl := Option.some.inj hcombat
      exact ih.combat _ hc card (hshown.of_parts (fun hhas => .pile hhas)
        (fun _ hmem hc => .inPlay hmem hc) rfl rfl)

end Rules

end Calls

/-! ## Plays of unknown cards -/

section Plays

variable {uid : CardUid} {target : Option CombatantId} {definition : CardId} {combat : Combat}

/-- That the player may not act is no matter of cards. -/
theorem Run.ready_knows : run.readyCombat ≠ .error (.unknownCard definition) := by
  unfold readyCombat currentCombat Combat.checkReady Combat.checkTurn
  intro h
  rcases bind_eq_error.mp h with h | ⟨_, -, h⟩
  · split at h <;> exact absurd h nofun
  · rcases bind_eq_error.mp h with h | ⟨⟨⟩, -, h⟩
    · rcases bind_eq_error.mp h with h | ⟨⟨⟩, -, h⟩
      · split at h
        · exact absurd h nofun
        · split at h <;> exact absurd h nofun
      · split at h <;> exact absurd h nofun
    · exact absurd h nofun

namespace Rules

theorem unknown_of_checkPlay
    (h : rules.checkPlay combat uid = .error (.rejected (.unknownCard definition))) :
    ∃ card ∈ combat.piles.hand, ¬rules.content.cards.contains card.definition := by
  unfold checkPlay at h
  split at h
  case h_1 => exact absurd h nofun
  case h_2 card hcard =>
    split at h
    case h_1 hunknown =>
      refine ⟨card, List.mem_of_find?_eq_some hcard, ?_⟩
      unfold Catalog.contains
      rw [hunknown]
      exact nofun
    case h_2 =>
      split at h
      case isTrue => exact absurd h nofun
      case isFalse =>
        rcases bind_eq_error.mp h with h | ⟨_, -, h⟩
        · obtain ⟨_, -, h⟩ := mapError_eq_error.mp h
          exact absurd h nofun
        · dsimp only at h
          split at h <;> exact absurd h nofun

/-- Only the play of a card of the hand that nobody knows is rejected because it is unknown. -/
theorem unknown_of_rejected
    (h : rules.perform run (.play uid target) =
      .ok (some (.action (.unknownCard definition)), run')) :
    ∃ combat, run.combat = some combat ∧
      ∃ card ∈ combat.piles.hand, ¬rules.content.cards.contains card.definition := by
  obtain ⟨_, herror, hreason⟩ := rejected_of_reply h
  obtain rfl := Rejection.action.inj hreason
  rcases bind_eq_error.mp herror with h | ⟨combat, hready, h⟩
  · obtain ⟨_, h, hreason⟩ := mapError_eq_error.mp h
    obtain rfl := Failure.rejected.inj hreason
    exact absurd h Run.ready_knows
  · rcases bind_eq_error.mp h with h | ⟨_, -, h⟩
    · exact ⟨combat, (Run.readyCombat_eq_ok_iff.mp (mapError_eq_ok.mp hready)).1,
        unknown_of_checkPlay h⟩
    · obtain ⟨_, -, hreason⟩ := mapError_eq_error.mp h
      exact absurd hreason nofun

end Rules

end Plays

namespace Rules

/-- **Nothing is unknown.** If the content was made from a pack and knows the cards of the deck, it
knows every card that a combat ever shows, and no play is rejected because a card is unknown. What
is made at random, offered or transformed into is registered, generated for the theme that is asked
for; a discovery makes different cards, as many as the player may choose from or as there are. -/
theorem closed_world {pack : Pack} (hload : Content.ofPack pack = .ok rules.content)
    (hdeck : ∀ card ∈ run.deck, rules.content.cards.contains card.definition)
    (hnew : run.combat = none) :
    (∀ run', rules.Reaches run run' →
      run'.InCombat (Combat.Registered rules.content.cards) ∧
        ∀ uid target answer after, rules.perform run' (.play uid target) = .ok (answer, after) →
          ∀ definition, answer ≠ some (.action (.unknownCard definition))) ∧
    (∀ theme destination number free upgraded nested ctx s t,
      (dispatch rules nested ctx
        (.createRandomCard theme destination number free upgraded)).run s = .ok ((), t) →
          Making (rules.content.cards.Generates theme ·.definition) s t) ∧
    (∀ target theme nested ctx s t,
      (dispatch rules nested ctx (.transform target theme)).run s = .ok ((), t) →
        Transforms (rules.content.cards.Generates theme) s t) ∧
    ∀ theme choices destination upgraded nested ctx s t,
      (dispatch rules nested ctx (.discover theme choices destination upgraded)).run s =
        .ok ((), t) →
          ∃ (made : List Card) (pool : List CardId), Combat.Creates made s.combat t.combat ∧
            (∀ card ∈ made, rules.content.cards.Generates theme card.definition) ∧
            (made.map (·.definition)).Nodup ∧ pool.Nodup ∧
            (∀ definition, definition ∈ pool ↔ rules.content.cards.Generates theme definition) ∧
            made.length = min (choices.getD rules.config.discoverChoices) pool.length := by
  have hfiled : rules.content.cards.Filed (·.id) := Content.filed_of_ofPack hload
  have hgenerated (theme : Option Theme) : (· ∈ rules.content.cards.generated theme) =
      rules.content.cards.Generates theme := funext fun _ => propext hfiled.mem_generated_iff
  have hrun : run.Registered rules.content.cards :=
    ⟨hdeck, fun combat hc => absurd (hnew.symm.trans hc) nofun⟩
  refine ⟨fun run' hreaches => ?_, fun _ _ _ _ _ _ _ s t h => ?_, fun _ theme _ _ s t h => ?_,
    fun _ _ _ _ _ _ s t h => ?_⟩
  · have hregistered := (registered_of_reaches hfiled hrun hreaches).combat
    refine ⟨hregistered, fun uid target answer after h definition heq => ?_⟩
    subst heq
    obtain ⟨combat, hc, card, hmem, hunknown⟩ := unknown_of_rejected h
    exact hunknown (hregistered combat hc card (.pile ⟨.hand, hmem⟩))
  · obtain ⟨made, hmakes, hkind⟩ := making_of_createRandomCards.rel h
    exact ⟨made, hmakes, fun card hmem => hfiled.mem_generated_iff.mp (hkind card hmem)⟩
  · exact hgenerated theme ▸ transforms_of_transform.rel h
  · obtain ⟨made, hcreates, hkind, hlength, hnodup⟩ := creates_of_discover h
    exact ⟨made, _, hcreates, fun card hmem => hfiled.mem_generated_iff.mp (hkind card hmem),
      hnodup hfiled.nodup_generated, hfiled.nodup_generated, fun _ => hfiled.mem_generated_iff,
      hlength⟩

end Rules

/-! ## A card that makes cards at random -/

/-- A card that makes attacks, and a status, which is never made at random. -/
def forgePack : Pack where
  cards :=
    [{ id := "forge", name := "Forge", theme := .skill, cost := .fixed 0
       effects := [.createRandomCard (some .attack) .hand (.fixed 1) false false,
         .transform .hand (some .attack), .discover (some .attack) none .hand false] },
     { id := "spark", name := "Spark", theme := .attack, cost := .fixed 1 },
     { id := "flare", name := "Flare", theme := .attack, cost := .fixed 2 },
     { id := "burn", name := "Burn", theme := .status, cost := .fixed 0 }]
  enemies := [{ id := "dummy", name := "Dummy", maxHealth := 8, moves := [] }]

def forgeRules : Rules where
  content := (Content.ofPack forgePack).toOption.getD {}

/-- A run with that card and a status. -/
def forgeRun : Run where
  hero := ""
  health := 10
  maxHealth := 10
  deck := [{ uid := ⟨1⟩, definition := "forge" }, { uid := ⟨2⟩, definition := "burn" }]
  rng := .ofSeed 0

/-- The run after a combat has begun. -/
def forgeStarted : Run := forgeRules.after forgeRun (.start ["dummy"])

/-- The run after the card was played. -/
def forgePlayed : Run := forgeRules.after forgeStarted (.play ⟨1⟩ none)

/-- A scene with a status in the hand. -/
def forgeScene : Scene where
  combat :=
    { player := .ofPlayer "" 10 10, resources := {}, nextCardUid := 3
      piles := { hand := [{ uid := ⟨2⟩, definition := "burn" }] } }
  gold := 0
  stats := {}
  relics := []
  rng := .ofSeed 0

theorem forge_reaches : forgeRules.Reaches forgeRun forgePlayed := by
  have hstarts : forgeRules.perform forgeRun (.start ["dummy"]) = .ok (none, forgeStarted) :=
    Rules.perform_eq_of_answer (by decide +kernel)
  have hplayed : forgeRules.perform forgeStarted (.play ⟨1⟩ none) = .ok (none, forgePlayed) :=
    Rules.perform_eq_of_answer (by decide +kernel)
  exact .call (.call .refl hstarts) hplayed

/-- All that the play of the card has brought is registered. -/
theorem Rules.closed_world_of_forge :
    (forgePlayed.InCombat (Combat.Registered forgeRules.content.cards) ∧
      forgePlayed.combat.isSome) ∧
    (∃ t, (dispatch forgeRules skip {}
      (.createRandomCard (some .attack) .hand (.fixed 1) false false)).run forgeScene =
        .ok ((), t) ∧
      Making (forgeRules.content.cards.Generates (some .attack) ·.definition) forgeScene t) ∧
    (∃ t, (dispatch forgeRules skip {} (.transform .hand (some .attack))).run forgeScene =
        .ok ((), t) ∧
      Transforms (forgeRules.content.cards.Generates (some .attack)) forgeScene t) ∧
    ∃ t made, (dispatch forgeRules skip {}
      (.discover (some .attack) none .hand false)).run forgeScene = .ok ((), t) ∧
        Combat.Creates made forgeScene.combat t.combat ∧ (made.map (·.definition)).Nodup := by
  have hload : Content.ofPack forgePack = .ok forgeRules.content := rfl
  have hdeck : ∀ card ∈ forgeRun.deck, forgeRules.content.cards.contains card.definition := by
    decide +kernel
  obtain ⟨hreaches, hrandom, htransform, hdiscover⟩ := Rules.closed_world hload hdeck rfl
  refine ⟨⟨(hreaches _ forge_reaches).1, by decide +kernel⟩, ?_, ?_, ?_⟩
  · have hrun := run_eq_of_isSome (s := forgeScene) (m := dispatch forgeRules skip {}
      (.createRandomCard (some .attack) .hand (.fixed 1) false false)) (by decide +kernel)
    exact ⟨_, hrun, hrandom _ _ _ _ _ _ _ _ _ hrun⟩
  · have hrun := run_eq_of_isSome (s := forgeScene)
      (m := dispatch forgeRules skip {} (.transform .hand (some .attack))) (by decide +kernel)
    exact ⟨_, hrun, htransform _ _ _ _ _ _ hrun⟩
  · have hrun := run_eq_of_isSome (s := forgeScene) (m := dispatch forgeRules skip {}
      (.discover (some .attack) none .hand false)) (by decide +kernel)
    obtain ⟨made, pool, hcreates, -, hdistinct, -⟩ := hdiscover _ _ _ _ _ _ _ _ hrun
    exact ⟨_, made, hrun, hcreates, hdistinct⟩

end CardCombat
