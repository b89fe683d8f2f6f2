import CardCombat.Proofs.Outcome.Answers
import CardCombat.Proofs.Overflow.Effects
import CardCombat.Proofs.Overflow.Ranges

/-!
# Calls fail by overflow only

Turns and plays are made of effects, and calls of turns and plays, with checks before them that
reject what cannot be done. So in every run that calls lead to, a call is answered, accepted or
rejected, unless a quantity leaves its range on the way. An answer to a selection computes nothing
and is always taken or rejected. Quantities do leave their ranges: a hero with thirty million health
is more than a condition on the share of its health can take.

## Main definitions

* `Answers` -- what is asked is done or rejected, or a quantity leaves its range.
* `Rules.FailsByOverflow` -- no call on a run fails in any other way.

## Main results

* `Resolution.play_secure`, `Resolution.passTurn_secure` -- plays and turns fail by overflow only.
* `Rules.perform_onlyOverflows` -- so do calls.
* `Rules.answered_iff` -- in every run that is reached, with the exact condition for each mechanism.
* `Rules.oath_overflows` -- a card that cannot be played to its end.
-/

namespace CardCombat

variable {rules : Rules} {id : CombatantId}

namespace Resolution

/-! ## Turns -/

theorem decay_secure (boundary : Boundary) : Secure Combat.Hale (decay rules id boundary) := by
  refine .combatant? fun c hc => ?_
  split
  · exact .pure ()
  · refine .liftBind (.decay boundary) fun ⟨ticks, after⟩ hdecay => ?_
    have hafter := hc.wear ‹_› (.of_sameButPowers (Combatant.decay_sameButPowers hdecay))
    exact .bind (.setCombatant_hale hafter) fun _ => .forM fun _ => .report_hale _

theorem passSilence_secure : Secure Combat.Hale (passSilence id) := by
  refine .combatant? fun c hc => ?_
  split
  · exact .pure ()
  case h_2 hfound => exact .setCombatant_hale (hc.wear hfound (.kept rfl))

theorem putAway_secure (card : Card) : Secure Combat.Hale (putAway rules card) := by
  have hmove (pile : Pile) : Secure Combat.Hale (moveTo card.uid pile) :=
    .combat fun _ _ => .bind (.draw _) fun _ => .bind (.setPiles_hale _) fun _ =>
      .bind (.onlyIf (.record _)) fun _ => .pure _
  unfold putAway
  dsimp only
  split
  · exact .combat fun _ _ => .setPiles_hale _
  · split
    · exact .bind (hmove _) fun _ => .reportIf_hale _
    · exact .bind (hmove _) fun _ => .reportIf_hale _

theorem closeTurn_secure : Secure Combat.Hale (closeTurn rules) :=
  .bind (happen_secure _ _ _ _) fun _ => .bind (decay_secure _) fun _ =>
    .bind passSilence_secure fun _ => .combat fun _ _ => .forM putAway_secure

theorem makeMove_secure (intent : Intent) : Secure Combat.Hale (makeMove rules id intent) := by
  refine .bind (.report_hale _) fun _ => .bind (carryOut_secure _ _) fun _ =>
    .combatant? fun c hc => ?_
  split
  · exact .pure ()
  case h_2 hfound => exact .setCombatant_hale (hc.wear hfound (.kept rfl))

theorem enemyTurn_secure : Secure Combat.Hale (enemyTurn rules id) := by
  refine .combatant? fun c hc => .bind ?bare fun _ => .bind (happen_secure _ _ _ _) fun _ =>
    .bind (decay_secure _) fun _ => .combat fun c _ => ?acts
  case bare =>
    cases hfound : c.combatant? id with
    | none => exact .pure ()
    | some combatant => exact .setCombatant_hale (hc.wear hfound (.bare false))
  case acts =>
    split
    · refine .bind (.forSome makeMove_secure) fun _ => .combat fun _ _ => ?_
      split
      · exact .bind (happen_secure _ _ _ _) fun _ => .bind (decay_secure _) fun _ =>
          passSilence_secure
      · exact .pure ()
    · exact .pure ()

theorem enemiesTurn_secure : Secure Combat.Hale (enemiesTurn rules) := by
  have hphase : Secure Combat.Hale (modifyCombat ({ · with phase := .enemyTurn })) :=
    .of_anywhere (.modifyCombat _) ⟨fun hrun hs => run_modifyCombat_iff.mp hrun ▸ hs⟩
  refine .bind hphase fun _ => .combat fun _ _ => .bind (.forM fun id => .combat fun _ _ => ?_)
    fun _ => bury_secure
  split
  · exact enemyTurn_secure
  · exact .pure ()

theorem chooseIntent_secure : Secure Combat.Hale (chooseIntent rules id) := by
  refine .combatant? fun c hc => ?_
  split
  · exact .pure ()
  case h_2 combatant enemy hfound =>
    obtain ⟨before, hbefore, henemy⟩ := Option.bind_eq_some_iff.mp hfound
    obtain ⟨role, -, hrole⟩ := Option.map_eq_some_iff.mp henemy
    obtain ⟨rfl, rfl⟩ := Prod.mk.inj hrole
    split
    · exact .pure ()
    · exact .bind (.draw _) fun _ =>
        .bind (.setCombatant_hale (hc.wear hbefore (.kept rfl))) fun _ =>
          .forSome fun _ => .report_hale _

theorem openTurn_secure (first : Bool) : Secure Combat.Hale (openTurn rules first) := by
  have hnext : Secure Combat.Hale nextTurn := by
    refine .combat fun _ _ => .bind (.lift (.unsigned _ _ _)) fun _ =>
      .of_anywhere (.modifyCombat _) ⟨fun hrun hs => ?_⟩
    obtain rfl := run_modifyCombat_iff.mp hrun
    have hplayer := Combat.Hale.wear hs Combat.combatant?_player (.bare false)
    exact ⟨⟨hplayer, fun _ _ _ _ => trivial⟩, hs.2⟩
  have hrefresh : Secure Combat.Hale refresh :=
    .combat fun _ _ => .bind (.lift (.add _ _)) fun _ =>
      .of_anywhere (.modifyCombat _) ⟨fun hrun hs => run_modifyCombat_iff.mp hrun ▸ hs⟩
  have hdraw : Secure Combat.Hale (drawCards rules rules.config.drawPerTurn) :=
    .of_anywhere (drawCards_secure _) ((lasting_governs rules.content.permits_any fun hw hb =>
      hw.vital False.elim hb).of_course (drawCards_course _))
  exact .bind (.onlyIf hnext) fun _ => .bind hrefresh fun _ => .combat fun _ _ =>
    .bind (.report_hale _) fun _ => .combat fun _ _ => .bind (.forM fun _ => chooseIntent_secure)
      fun _ => .bind hdraw fun _ => .bind (happen_secure _ _ _ _) fun _ => decay_secure _

theorem unlessDecided_secure {m : Resolution Unit} (hm : Secure Combat.Hale m) :
    Secure Combat.Hale (unlessDecided m) := by
  refine .combat fun _ _ => ?_
  split
  · exact hm
  · exact .pure ()

theorem openCombat_secure : Secure Combat.Hale (openCombat rules) :=
  .bind (happen_secure _ _ _ _) fun _ => unlessDecided_secure (openTurn_secure true)

theorem passTurn_secure : Secure Combat.Hale (passTurn rules) :=
  .bind closeTurn_secure fun _ => .bind (unlessDecided_secure enemiesTurn_secure) fun _ =>
    unlessDecided_secure (openTurn_secure false)

/-! ## Plays -/

theorem payEnergy_secure (cost : Int) : Secure Combat.Hale (payEnergy cost) := by
  unfold payEnergy
  split
  · exact .combat fun _ _ => .bind (.lift (.sub _ _)) fun _ => .bind (.setResources_hale _)
      fun _ => .bind (.lift (.neg _)) fun _ => .report_hale _
  · exact .pure ()

theorem enterPlay_secure (card : Card) : Secure Combat.Hale (enterPlay card) := by
  refine .get fun s hs => .bind (.lift (.unsigned _ _ _)) fun _ =>
    .bind (.lift (.unsigned _ _ _)) fun _ => ⟨fun _ => .pure _, fun _ hrun => ?_⟩
  obtain rfl := run_set_iff.mp hrun
  exact hs

theorem charge_secure : Secure Combat.Hale (charge rules) :=
  .combat fun _ _ => .bind (.lift (.unsigned _ _ _)) fun _ => .setResources_hale _

/-- **The play of a card fails by overflow only.** -/
theorem play_secure (play : Play) (target : Option CombatantId) :
    Secure Combat.Hale (Resolution.play rules play target) := by
  refine .combat fun _ _ => ?_
  split
  · exact .pure ()
  · exact .bind (.setPiles_hale _) fun _ => .bind (payEnergy_secure _) fun _ =>
      .bind (enterPlay_secure _) fun _ => .bind (carryOut_secure _ _) fun _ =>
        .bind (happen_secure _ _ _ _) fun _ => .bind (.forSome fun _ => happen_secure _ _ _ _)
          fun _ => .bind (endPlay_hale _) fun _ => .bind (.modifyCombat_hale fun _ => rfl)
            fun _ => charge_secure

theorem useAbility_secure (ability : HeroAbility) :
    Secure Combat.Hale (Resolution.useAbility rules ability) :=
  .combat fun _ _ => .bind (.setResources_hale _) fun _ => .bind (.report_hale _) fun _ =>
    carryOut_secure _ _

end Resolution

/-! ## Actions -/

section Actions

variable {ε α β : Type}

/-- What is asked is answered: it is done or rejected, unless a quantity leaves its range. -/
def Answers (result : Except (Failure ε) α) : Prop :=
  ∀ cause, result = .error (.fault cause) → cause.IsOverflow

namespace Answers

theorem pure (a : α) : Answers (pure a : Except (Failure ε) α) := fun _ h => absurd h nofun

theorem rejected (reason : ε) : Answers (throw (.rejected reason) : Except (Failure ε) α) :=
  fun _ h => absurd (Except.error.inj h) nofun

theorem bind {x : Except (Failure ε) α} {f : α → Except (Failure ε) β} (hx : Answers x)
    (hf : ∀ a, x = .ok a → Answers (f a)) : Answers (x >>= f) := by
  cases x with
  | error failure =>
      intro cause h
      obtain rfl := Except.error.inj h
      exact hx cause rfl
  | ok a => exact hf a rfl

/-- A check rejects at most. -/
theorem check (x : Except ε α) : Answers (liftM x : Except (Failure ε) α) := by
  cases x with
  | error reason => exact rejected reason
  | ok a => exact pure a

theorem rule {x : Except Fault α} (hx : OnlyOverflows x) :
    Answers (liftM x : Except (Failure ε) α) := by
  cases x with
  | error cause => exact fun _ h => Failure.fault.inj (Except.error.inj h) ▸ hx cause rfl
  | ok a => exact pure a

theorem reply {result : Except (Failure ε) Run} (h : Answers result) (reason : ε → Rejection)
    (run : Run) : OnlyOverflows (Failure.reply reason run result) := by
  rcases result with (error | cause) | run'
  · exact .pure _
  · exact fun _ hcause => Except.error.inj hcause ▸ h cause rfl
  · exact .pure _

end Answers

end Actions

/-! ## Calls -/

variable {run run' : Run} {call : Call}

/-- A resolution that is secure in a hale combat advances the run. -/
theorem OnlyOverflows.advance {m : Resolution Unit} (hm : Resolution.Secure Combat.Hale m)
    (hrun : run.InCombat Combat.Hale) : OnlyOverflows (run.advance m) := by
  refine .bind ?_ fun resolved => .conclude
  unfold Run.resolve
  split
  · exact .pure _
  case h_2 scene hscene =>
    have hs : scene.combat.Hale := by
      obtain ⟨combat, hc, hscene⟩ := Option.bind_eq_some_iff.mp hscene
      obtain rfl := Option.some.inj hscene
      exact hrun combat hc
    exact .bind (hm.fails hs) fun _ => .pure _

namespace Rules

theorem startCombat_answers (enemies : List String) : Answers (rules.startCombat run enemies) := by
  refine .bind (.check _) fun templates _ => .bind (.rule (.gather templates)) fun combat hc => ?_
  obtain ⟨nextCardUid, -, hgathered⟩ := gather_spec (mapError_eq_ok.mp hc)
  have hfresh : combat.Hale := by
    exact (everyone_of_gathered hgathered).imp fun _ hfit => ⟨hfit.1.unbounded, hfit.2⟩
  refine .rule (.advance Resolution.openCombat_secure fun dealt hdealt => ?_)
  obtain rfl := Option.some.inj hdealt
  exact hfresh

theorem checkPlay_answers (combat : Combat) (uid : CardUid) :
    Answers (rules.checkPlay combat uid) := by
  unfold checkPlay
  split
  · exact .rejected _
  · split
    · exact .rejected _
    · split
      · exact .rejected _
      · refine .bind (.rule (.costToPlay _ _ _)) fun cost _ => ?_
        split
        · exact .rejected _
        · exact .pure _

theorem playCard_answers (hrun : run.InCombat Combat.Hale) (uid : CardUid)
    (target : Option CombatantId) : Answers (rules.playCard run uid target) :=
  .bind (.check _) fun _ _ => .bind (checkPlay_answers _ _) fun _ _ =>
    .rule (.advance (Resolution.play_secure _ _) hrun)

theorem useAbility_answers (hrun : run.InCombat Combat.Hale) : Answers (rules.useAbility run) := by
  refine .bind (.check _) fun _ _ => ?_
  dsimp only
  split
  · exact .rejected _
  · split
    · exact .rejected _
    · exact .rule (.advance (Resolution.useAbility_secure _) hrun)

theorem endTurn_answers (hrun : run.InCombat Combat.Hale) : Answers (rules.endTurn run) := by
  unfold endTurn
  cases run.readyCombat with
  | error reason => exact .rejected reason
  | ok combat => exact .rule (.advance Resolution.passTurn_secure hrun)

/-- What fails after a check has passed the check. -/
theorem passed_of_fault {ε α β : Type} {x : Except ε α} {f : α → Except (Failure ε) β}
    {cause : Fault} (h : liftM x >>= f = .error (.fault cause)) :
    ∃ a, x = .ok a ∧ f a = .error (.fault cause) := by
  cases x with
  | error reason => exact absurd (Except.error.inj h) nofun
  | ok a => exact ⟨a, rfl, h⟩

/-- An answer to a selection that fails was correct. -/
theorem correct_of_fault {chosen : List CardUid} {cause : Fault}
    (h : rules.answerSelection run chosen = .error (.fault cause)) :
    ∃ combat selection, run.combat = some combat ∧ combat.checkTurn = .ok () ∧
      combat.pending = some selection ∧ selection.check chosen = .ok () := by
  obtain ⟨combat, hc, h⟩ := passed_of_fault h
  obtain ⟨_, hturn, h⟩ := passed_of_fault h
  split at h
  · exact absurd (Except.error.inj h) nofun
  case h_2 selection hpending =>
    split at h
    · exact absurd (Except.error.inj h) nofun
    case h_2 hcheck =>
      exact ⟨combat, selection, Run.currentCombat_eq_ok_iff.mp hc, hturn, hpending, hcheck⟩

/-- **An answer to a selection is taken or rejected**, whatever it is. -/
theorem select_answered (hrun : run.InCombat Combat.Orderly) (chosen : List CardUid) :
    Succeeds (rules.perform run (.select chosen)) := by
  cases hresult : rules.answerSelection run chosen with
  | ok run' => exact ⟨(none, run'), congrArg (Failure.reply .action run) hresult⟩
  | error failure =>
      have hperform : rules.perform run (.select chosen) =
          Failure.reply .action run (.error failure) := congrArg (Failure.reply .action run) hresult
      cases failure with
      | rejected reason => exact ⟨_, hperform⟩
      | fault cause =>
          obtain ⟨combat, selection, hc, hturn, hpending, hcheck⟩ := correct_of_fault hresult
          obtain ⟨hsound, hsettled, -⟩ := hrun combat hc
          have hgoing : combat.isDecided = false :=
            hsettled.not_isDecided hsound.1.1 (Combat.checkTurn_eq_ok_iff.mp hturn).1
          exact (select_accepted hc hturn hgoing hpending hcheck).imp' (none, ·) fun _ h => h

/-- **A call is answered, unless a quantity leaves its range.** -/
theorem perform_onlyOverflows (hrun : run.InCombat Combat.Hale)
    (horderly : run.InCombat Combat.Orderly) (call : Call) :
    OnlyOverflows (rules.perform run call) := by
  cases call with
  | start enemies => exact (startCombat_answers enemies).reply _ _
  | play uid target => exact (playCard_answers hrun uid target).reply _ _
  | ability => exact (useAbility_answers hrun).reply _ _
  | select chosen =>
      intro cause hcause
      have hanswered : Succeeds (rules.perform run (.select chosen)) :=
        select_answered horderly chosen
      obtain ⟨answer, hanswer⟩ := hanswered
      exact absurd (hanswer.symm.trans hcause) nofun
  | endTurn => exact (endTurn_answers hrun).reply _ _

/-- The search for the cards that can be played fails by overflow only, in any run. -/
theorem playableCards_onlyOverflows : OnlyOverflows (rules.playableCards run) := by
  unfold playableCards
  split
  · exact .pure _
  · exact .bind (.filterM (fun _ => .isPlayable _) _) fun _ => .pure _

/-! ## Runs -/

/-- A call on the run is answered unless a quantity leaves its range, an answer to a selection in
any case, and the cards that can be played are found unless a quantity leaves its range, which is
the cost of a card in the hand. -/
structure FailsByOverflow (rules : Rules) (run : Run) : Prop where
  call : ∀ call, Succeeds (rules.perform run call) ↔
    ∀ operation, rules.perform run call ≠ .error (.overflow operation)
  select : ∀ chosen, Succeeds (rules.perform run (.select chosen))
  playable : Succeeds (rules.playableCards run) ↔
    ∀ operation, rules.playableCards run ≠ .error (.overflow operation)
  hand : Succeeds (rules.playableCards run) ↔ ∀ combat, run.readyCombat = .ok combat →
    ∀ card ∈ combat.piles.hand, ∀ definition, rules.content.cards.find? card.definition =
      some definition → card.cannotBePlayed definition = false → card.CostInRange definition

theorem failsByOverflow (hrun : run.InCombat Combat.Hale) (horderly : run.InCombat Combat.Orderly) :
    rules.FailsByOverflow run where
  call call := (perform_onlyOverflows hrun horderly call).succeeds_iff
  select := select_answered horderly
  playable := playableCards_onlyOverflows.succeeds_iff
  hand := playableCards_succeeds_iff

/-- From its start on the numbers of everyone in a combat are in their range. -/
theorem hale_of_reaches (hnone : run.combat = none) (h : rules.Reaches run run') :
    run'.InCombat Combat.Hale := by
  refine everyone_of_reaches rules.content.permits_any (fun hw => hw.vital False.elim)
    (fun hv => hv.unbounded) h fun combat hc => ?_
  exact absurd (hnone.symm.trans hc) nofun

/-- From its start on every combat is in order. -/
theorem orderly_of_reaches_of_none (hnone : run.combat = none) (h : rules.Reaches run run') :
    run'.InCombat Combat.Orderly := by
  refine h.inCombat (fun hbefore hcall => orderly_of_accepted (fun _ => hbefore) hcall)
    (fun events locked h => h.attend events locked) fun combat hc => ?_
  exact absurd (hnone.symm.trans hc) nofun

/-- **In every run that calls lead to, whatever the content and the configuration, a call fails by
overflow only**, and each mechanism overflows exactly if what it computes is not in its range. -/
theorem answered_iff (hnone : run.combat = none) (h : rules.Reaches run run') :
    rules.FailsByOverflow run' ∧ rules.Computes := by
  have hhale := hale_of_reaches hnone h
  have horderly := orderly_of_reaches_of_none hnone h
  exact ⟨failsByOverflow hhale horderly, rules.computes⟩

end Rules

/-! ## A card that overflows -/

/-- A hero with thirty million health, whose card pays who still has half of it. -/
def oathPack : Pack where
  cards :=
    [{ id := "oath", name := "Oath", theme := .skill, cost := .fixed 0
       effects := [.conditional (.health .self .percent .ge 50) [.gold (.fixed 1) .gain] []] }]
  enemies := [{ id := "dummy", name := "Dummy", maxHealth := 10, moves := [] }]
  heroes := [{ id := "giant", name := "Giant", maxHealth := 30000000, startingDeck := ["oath"] }]

def oathRules : Rules where
  content := (Content.ofPack oathPack).toOption.getD {}

/-- A run of that hero. -/
def oathRun : Run :=
  { Run.ofHero "giant" 30000000 0 with deck := [{ uid := ⟨1⟩, definition := "oath" }] }

/-- The run after a combat has begun. -/
def oathStarted : Run := oathRules.after oathRun (.start ["dummy"])

theorem newRun_oath : oathRules.newRun "giant" 0 = .ok oathRun := by rfl

theorem oath_starts : oathRules.perform oathRun (.start ["dummy"]) = .ok (none, oathStarted) :=
  Rules.perform_eq_of_answer (by decide +kernel)

theorem play_oath : oathRules.perform oathStarted (.play ⟨1⟩ none) =
    .error (.overflow .multiply) := by
  have hfault : (oathRules.perform oathStarted (.play ⟨1⟩ none)).map (fun _ => ()) =
      .error (.overflow .multiply) := by
    decide +kernel
  cases hplay : oathRules.perform oathStarted (.play ⟨1⟩ none) with
  | ok answer =>
      rw [hplay] at hfault
      exact absurd hfault nofun
  | error cause =>
      rw [hplay] at hfault
      exact congrArg Except.error (Except.error.inj hfault)

namespace Rules

/-- The oath is not paid, a hundred times the health of the hero is not in range; but answers to
selections are taken or rejected. -/
theorem answered_iff_of_oath :
    ¬Succeeds (oathRules.perform oathStarted (.play ⟨1⟩ none)) ∧
      ∀ chosen, Succeeds (oathRules.perform oathStarted (.select chosen)) := by
  have hreached : oathRules.Reaches oathRun oathStarted := .call .refl oath_starts
  have hfails := (answered_iff (by rfl) hreached).1
  exact ⟨fun h => (hfails.call _).mp h .multiply play_oath, hfails.select⟩

/-- **A call can overflow** with content that is accepted, in a run of its hero. -/
theorem oath_overflows :
    ¬∀ pack config content hero seed run run' call, Content.ofPack pack = .ok content →
      Rules.newRun { content, config } hero seed = .ok run →
        Rules.Reaches { content, config } run run' →
          ∃ answer, Rules.perform { content, config } run' call = .ok answer := by
  intro hclaim
  obtain ⟨answer, hanswer⟩ := hclaim oathPack {} oathRules.content "giant" 0 oathRun oathStarted
    (.play ⟨1⟩ none) rfl newRun_oath (.call .refl oath_starts)
  exact absurd (play_oath.symm.trans hanswer) nofun

end Rules

end CardCombat
