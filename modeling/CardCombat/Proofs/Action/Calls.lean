import CardCombat.Action.Call
import CardCombat.Proofs.Action.Upkeep

/-!
# What calls do to a run

A call that is accepted sets a resolution going: the one that opens a new combat, or one in the
combat that goes on, where it is the player's turn. When it is over the combat ends if one side is
beaten. Everything else leaves the run as it is.

In between the combat can be left, its events can be fetched, and it can be locked by whoever shows
it. What a run can come to by all of this is what it reaches.

## Main definitions

* `Undertakes` -- the resolution that a call sets going.
* `Rules.Reaches` -- what a run can come to.

## Main results

* `Rules.undertakes_of_accepted` -- what an accepted call does.
* `Governs.undertakes`, `Governs.inCombat_of_accepted` -- what governs turns and plays governs
  calls.
* `Rules.Reaches.inCombat`, `Rules.inCombat_of_reaches` -- what every accepted call keeps, a run
  keeps.
-/

namespace CardCombat

/-- What a call sets going if it is accepted: a resolution, and the combat in which it is carried
out. -/
inductive Undertakes (rules : Rules) (run : Run) : Call → Combat → Resolution Unit → Prop
  | start {enemies templates combat} (ht : rules.enemyTemplates enemies = .ok templates)
      (h : rules.gather run templates = .ok combat) :
      Undertakes rules run (.start enemies)
        { combat with piles := { drawPile := ((rules.shuffledDeck run.deck).run run.rng).1 } }
        (Resolution.openCombat rules)
  | play {uid target combat play} (hc : run.readyCombat = .ok combat)
      (h : rules.checkPlay combat uid = .ok play) :
      Undertakes rules run (.play uid target) combat (Resolution.play rules play target)
  | ability {combat ability} (hc : run.readyCombat = .ok combat)
      (h : rules.ability? run = some ability) :
      Undertakes rules run .ability combat (Resolution.useAbility rules ability)
  | select {chosen combat selection} (hc : run.currentCombat = .ok combat)
      (ht : combat.checkTurn = .ok ()) (hp : combat.pending = some selection)
      (h : selection.check chosen = .ok ()) :
      Undertakes rules run (.select chosen) combat
        (Resolution.settleSelection rules selection chosen)
  | endTurn {combat} (hc : run.readyCombat = .ok combat) :
      Undertakes rules run .endTurn combat (Resolution.passTurn rules)

variable {rules : Rules} {run run' : Run} {combat : Combat} {call : Call} {m : Resolution Unit}

/-! ## Combats that go on -/

theorem Combat.checkTurn_eq_ok_iff :
    combat.checkTurn = .ok () ↔ combat.phase = .playerTurn ∧ combat.locked = false := by
  unfold checkTurn
  cases combat.phase <;> cases combat.locked <;> decide

theorem Combat.checkReady_eq_ok_iff : combat.checkReady = .ok () ↔
    combat.phase = .playerTurn ∧ combat.locked = false ∧ combat.pending = none := by
  unfold checkReady
  rw [seq_eq_ok, checkTurn_eq_ok_iff, and_assoc]
  cases combat.pending with
  | none => exact and_congr_right fun _ => and_congr_right fun _ => iff_of_true rfl rfl
  | some selection =>
      exact and_congr_right fun _ => and_congr_right fun _ => iff_of_false nofun nofun

/-- The end of a combat is a change of its phase. -/
theorem Combat.endIfDecided_eq (combat : Combat) :
    combat.endIfDecided.2 = { combat with phase := combat.endIfDecided.2.phase } := by
  unfold endIfDecided
  split
  · rfl
  · split
    · rfl
    · split <;> rfl

namespace Run

theorem currentCombat_eq_ok_iff : run.currentCombat = .ok combat ↔ run.combat = some combat := by
  unfold currentCombat
  cases run.combat <;> simp

theorem readyCombat_eq_ok_iff : run.readyCombat = .ok combat ↔
    run.combat = some combat ∧ combat.checkReady = .ok () := by
  unfold readyCombat
  rw [bind_eq_ok]
  simp only [currentCombat_eq_ok_iff, bind_eq_ok]
  constructor
  · rintro ⟨_, hc, ⟨⟩, hready, h⟩
    obtain rfl := Except.ok.inj h
    exact ⟨hc, hready⟩
  · rintro ⟨hc, hready⟩
    exact ⟨combat, hc, (), hready, rfl⟩

/-! ## Carrying out a resolution -/

/-- The end of a combat ends it, if it is decided, and leaves the deck and the chronicle. -/
theorem conclude_spec (hc : run.combat = some combat) (h : run.conclude = .ok run') :
    run'.deck = run.deck ∧ run'.chronicle = run.chronicle ∧
      run'.combat = some combat.endIfDecided.2 := by
  unfold conclude at h
  rw [hc] at h
  dsimp only at h
  split at h
  case isTrue hover =>
    obtain rfl := Except.ok.inj h
    refine ⟨rfl, rfl, ?_⟩
    unfold Combat.endIfDecided
    rw [if_pos hover, hc]
  case isFalse hgoing =>
    split at h
    case h_1 ended hended =>
      obtain rfl := Except.ok.inj h
      refine ⟨rfl, rfl, ?_⟩
      unfold Combat.endIfDecided at hended ⊢
      rw [if_neg hgoing] at hended ⊢
      split at hended
      · exact absurd (Prod.mk.inj hended).1 nofun
      · split at hended
        · exact absurd (Prod.mk.inj hended).1 nofun
        · rw [if_neg ‹_›, if_neg ‹_›, hc]
    case h_2 phase ended hended =>
      rw [hended]
      split at h
      · obtain ⟨combatsWon, -, h⟩ := bind_eq_ok.mp h
        obtain rfl := Except.ok.inj h
        exact ⟨rfl, rfl, rfl⟩
      · obtain rfl := Except.ok.inj h
        exact ⟨rfl, rfl, rfl⟩

/-- A resolution is carried out: the run has the scene that it leaves. -/
theorem advance_spec (hc : run.combat = some combat) (h : run.advance m = .ok run') :
    ∃ s t, s.combat = combat ∧ s.chronicle = #[] ∧ m.run s = .ok ((), t) ∧
      run'.deck = run.deck ∧ run'.chronicle = t.chronicle ∧
        run'.combat = some t.combat.endIfDecided.2 := by
  obtain ⟨resolved, hresolve, hconclude⟩ := bind_eq_ok.mp h
  unfold resolve scene? at hresolve
  rw [hc] at hresolve
  obtain ⟨⟨⟨⟩, t⟩, hrun, hresolved⟩ := bind_eq_ok.mp hresolve
  obtain rfl := Except.ok.inj hresolved
  obtain ⟨hdeck, hchronicle, hcombat⟩ := conclude_spec rfl hconclude
  exact ⟨_, t, rfl, rfl, hrun, hdeck, hchronicle, hcombat⟩

/-- Something holds of the combat of a run, if there is one. -/
def InCombat (P : Combat → Prop) (run : Run) : Prop :=
  ∀ combat, run.combat = some combat → P combat

end Run

/-! ## The start of a combat -/

namespace Rules

/-- A combat gives out numbers above those of the deck. -/
theorem lt_nextCardUid {next : Nat} (h : run.nextCardUid = .ok next) :
    ∀ card ∈ run.deck, card.uid.number < next := by
  intro card hmem
  obtain ⟨numbers, hnumbers, h⟩ := bind_eq_ok.mp h
  obtain rfl := Except.ok.inj h
  obtain ⟨number, hnumber, hadd⟩ := mem_of_mapM_eq_ok hnumbers card hmem
  obtain ⟨-, rfl⟩ := Unsigned.add_eq_ok_iff.mp hadd
  exact List.le_max?_getD_of_mem hnumber

/-- The shuffled deck has the cards of the deck. -/
theorem shuffledDeck_perm (deck : List Card) (rng : Rng) :
    ((rules.shuffledDeck deck).run rng).1.Perm deck := by
  have hsplit (cards : List Card) :
      ((cards.partition rules.isInnate).1 ++ (cards.partition rules.isInnate).2).Perm cards := by
    rw [List.partition_eq_filter_filter]
    exact List.filter_append_perm _ _
  exact (hsplit _).trans (Draw.shuffle_perm deck)

/-- The player of a run and enemies of some templates are there, and nothing has happened yet. -/
def Gathered (rules : Rules) (run : Run) (nextCardUid : Nat) (combat : Combat) : Prop :=
  ∃ enemies nextEnemyId,
    combat = { player := rules.startingPlayer run, resources := rules.startingResources run
               nextCardUid, enemies, nextEnemyId } ∧
      ∀ enemy ∈ enemies, ∃ (template : EnemyTemplate) (id : CombatantId),
        template.spawn id rules.content.powers = .ok enemy

/-- **The combatants gather** before anything else happens. -/
theorem gather_spec {templates : List EnemyTemplate} (h : rules.gather run templates = .ok combat) :
    ∃ nextCardUid, run.nextCardUid = .ok nextCardUid ∧ rules.Gathered run nextCardUid combat := by
  obtain ⟨nextCardUid, hnext, h⟩ := bind_eq_ok.mp h
  refine ⟨nextCardUid, hnext, foldlM_preserves (P := rules.Gathered run nextCardUid)
    (fun {combat template after} hadd hbefore => ?_) h
      ⟨[], 1, rfl, fun _ hmem => absurd hmem List.not_mem_nil⟩⟩
  obtain ⟨enemies, nextEnemyId, rfl, hspawn⟩ := hbefore
  obtain ⟨⟨id, issued⟩, hissue, hadd⟩ := bind_eq_ok.mp hadd
  obtain ⟨enemy, hnew, hadd⟩ := bind_eq_ok.mp hadd
  obtain ⟨next, -, hissue⟩ := bind_eq_ok.mp hissue
  obtain ⟨-, rfl⟩ := Prod.mk.inj (Except.ok.inj hissue)
  obtain rfl := Except.ok.inj hadd
  refine ⟨enemies ++ [enemy], next, rfl, fun other hmem => ?_⟩
  rcases List.mem_append.mp hmem with hmem | hmem
  · exact hspawn other hmem
  · exact ⟨template, id, List.mem_singleton.mp hmem ▸ hnew⟩

end Rules

/-! ## Accepted calls -/

namespace Rules

variable {ε : Type} {reason : ε → Rejection} {result : Except (Failure ε) Run}

/-- A call that was not rejected was accepted. -/
theorem accepted_of_reply (h : Failure.reply reason run result = .ok (none, run')) :
    result = .ok run' := by
  unfold Failure.reply at h
  split at h
  · exact congrArg _ (Prod.mk.inj (Except.ok.inj h)).2
  · exact absurd (Prod.mk.inj (Except.ok.inj h)).1 (by simp)
  · exact absurd h nofun

/-- An answer that is a rejection tells its reason. -/
theorem rejected_of_reply {rejection : Rejection}
    (h : Failure.reply reason run result = .ok (some rejection, run')) :
    ∃ error, result = .error (.rejected error) ∧ reason error = rejection := by
  unfold Failure.reply at h
  split at h
  case h_1 => exact absurd (Prod.mk.inj (Except.ok.inj h)).1 (by simp)
  case h_2 error => exact ⟨error, rfl, Option.some.inj (Prod.mk.inj (Except.ok.inj h)).1⟩
  case h_3 => exact absurd h nofun

/-- A call that was rejected leaves the run as it is. -/
theorem run_of_reply {rejection : Rejection}
    (h : Failure.reply reason run result = .ok (some rejection, run')) : run' = run := by
  unfold Failure.reply at h
  split at h
  · exact absurd (Prod.mk.inj (Except.ok.inj h)).1 (by simp)
  · exact (Prod.mk.inj (Except.ok.inj h)).2.symm
  · exact absurd h nofun

/-- **A rejected call leaves the run as it is.** -/
theorem run_of_rejected {rejection : Rejection}
    (h : rules.perform run call = .ok (some rejection, run')) : run' = run := by
  cases call with
  | start | play | ability | select | endTurn => exact run_of_reply h

/-- **An accepted call** carries out what it sets going, in the run as it is unless it is the start
of a combat. -/
theorem advances_of_accepted (h : rules.perform run call = .ok (none, run')) :
    ∃ started combat m, ((∀ enemies, call ≠ .start enemies) → started = run) ∧
      started.deck = run.deck ∧ started.stats = run.stats ∧ started.combat = some combat ∧
        Undertakes rules run call combat m ∧ started.advance m = .ok run' := by
  have ongoing {combat : Combat} (h : run.readyCombat = .ok combat) : run.combat = some combat :=
    (Run.readyCombat_eq_ok_iff.mp h).1
  cases call with
  | start enemies =>
      obtain ⟨templates, htemplates, h⟩ := bind_eq_ok.mp (accepted_of_reply h)
      obtain ⟨combat, hgather, h⟩ := bind_eq_ok.mp h
      have hadvance := mapError_eq_ok.mp h
      refine ⟨_, _, _, fun hnew => absurd rfl (hnew enemies), ?_, ?_, ?_,
        .start (mapError_eq_ok.mp htemplates) (mapError_eq_ok.mp hgather), hadvance⟩ <;> rfl
  | play uid target =>
      obtain ⟨combat, hready, h⟩ := bind_eq_ok.mp (accepted_of_reply h)
      obtain ⟨play, hplay, h⟩ := bind_eq_ok.mp h
      have hready := mapError_eq_ok.mp hready
      exact ⟨_, _, _, fun _ => rfl, rfl, rfl, ongoing hready, .play hready hplay,
        mapError_eq_ok.mp h⟩
  | ability =>
      obtain ⟨combat, hready, h⟩ := bind_eq_ok.mp (accepted_of_reply h)
      have hready := mapError_eq_ok.mp hready
      split at h
      case h_1 => exact absurd h nofun
      case h_2 ability hability =>
        dsimp only at h
        split at h
        case isTrue => exact absurd h nofun
        case isFalse =>
          exact ⟨_, _, _, fun _ => rfl, rfl, rfl, ongoing hready, .ability hready hability,
            mapError_eq_ok.mp h⟩
  | select chosen =>
      obtain ⟨combat, hcurrent, h⟩ := bind_eq_ok.mp (accepted_of_reply h)
      obtain ⟨⟨⟩, hturn, h⟩ := bind_eq_ok.mp h
      have hcurrent := mapError_eq_ok.mp hcurrent
      split at h
      case h_1 => exact absurd h nofun
      case h_2 selection hpending =>
        split at h
        case h_1 => exact absurd h nofun
        case h_2 hcheck =>
          exact ⟨_, _, _, fun _ => rfl, rfl, rfl, Run.currentCombat_eq_ok_iff.mp hcurrent,
            .select hcurrent (mapError_eq_ok.mp hturn) hpending hcheck, mapError_eq_ok.mp h⟩
  | endTurn =>
      obtain ⟨_, hdiscard, h⟩ := bind_eq_ok.mp (accepted_of_reply h)
      obtain ⟨combat, hready, -⟩ := bind_eq_ok.mp hdiscard
      have hready := mapError_eq_ok.mp hready
      exact ⟨_, _, _, fun _ => rfl, rfl, rfl, ongoing hready, .endTurn hready, mapError_eq_ok.mp h⟩

/-- What an accepted call does is a resolution in the combat, and then the combat ends if one side
is beaten. -/
theorem undertakes_of_accepted (h : rules.perform run call = .ok (none, run')) :
    ∃ s t m, Undertakes rules run call s.combat m ∧ s.chronicle = #[] ∧ m.run s = .ok ((), t) ∧
      run'.deck = run.deck ∧ run'.chronicle = t.chronicle ∧
        run'.combat = some t.combat.endIfDecided.2 := by
  obtain ⟨started, _, m, -, hdeck, -, hc, hm, hadvance⟩ := advances_of_accepted h
  obtain ⟨s, t, rfl, hstart, hrun, hdeck', hchronicle, hcombat⟩ := Run.advance_spec hc hadvance
  exact ⟨s, t, m, hm, hstart, hrun, hdeck'.trans hdeck, hchronicle, hcombat⟩

end Rules

/-! ## What calls set going -/

namespace Undertakes

/-- A play that is possible is the play of the card in the hand that was named, which the content
knows, and there is the energy for it. -/
theorem checkPlay_spec {uid : CardUid} {play : Play} (h : rules.checkPlay combat uid = .ok play) :
    combat.piles.hand.find? (·.uid == uid) = some play.card ∧
      rules.content.cards.find? play.card.definition = some play.definition ∧
        play.cost ≤ combat.resources.energy := by
  unfold Rules.checkPlay at h
  split at h
  case h_1 => exact absurd h nofun
  case h_2 card hhand =>
    split at h
    case h_1 => exact absurd h nofun
    case h_2 definition hfind =>
      split at h
      case isTrue => exact absurd h nofun
      case isFalse =>
        obtain ⟨cost, -, h⟩ := bind_eq_ok.mp h
        dsimp only at h
        split at h
        case isTrue => exact absurd h nofun
        case isFalse hcost =>
          obtain rfl := Except.ok.inj h
          exact ⟨hhand, hfind, Int.not_lt.mp hcost⟩

/-- Every call but the start of a combat is carried out in the combat that goes on. -/
theorem combat_eq (h : Undertakes rules run call combat m)
    (hnew : ∀ enemies, call ≠ .start enemies) : run.combat = some combat := by
  cases h with
  | start => exact absurd rfl (hnew _)
  | play hc | ability hc | endTurn hc => exact (Run.readyCombat_eq_ok_iff.mp hc).1
  | select hc => exact Run.currentCombat_eq_ok_iff.mp hc

/-- What held of the combat that goes on, or holds of those who gathered for a new one, holds of the
combat in which a call is carried out. -/
theorem holds {P : Combat → Prop} (h : Undertakes rules run call combat m)
    (hgathered : ∀ {nextCardUid combat}, rules.Gathered run nextCardUid combat →
      ∀ drawPile, P { combat with piles := { drawPile } })
    (hbefore : (∀ enemies, call ≠ .start enemies) → run.InCombat P) : P combat := by
  by_cases hstart : ∃ enemies, call = .start enemies
  · obtain ⟨enemies, rfl⟩ := hstart
    cases h with
    | start _ hgather =>
        obtain ⟨nextCardUid, -, h⟩ := Rules.gather_spec hgather
        exact hgathered h _
  · have hother : ∀ enemies, call ≠ .start enemies := fun enemies heq => hstart ⟨enemies, heq⟩
    exact hbefore hother _ (h.combat_eq hother)

end Undertakes

/-- **What governs turns and plays governs calls**, if it is kept by the changes of phase, when a
selection is forgotten, and when new cards that were chosen come into a pile. -/
theorem Governs.undertakes {may : Effect → Prop} {R : Scene → Scene → Prop}
    (hg : Governs rules may R) (hp : rules.content.Permits may)
    (henemies : ∀ s : Scene, R s s.enemiesBegin)
    (hplayer : ∀ {s : Scene} {energy : Int}, s.Refills energy → R s (s.playerBegins energy))
    (hforget : ∀ s : Scene, R s s.forget)
    (hdeal : ∀ (s : Scene) card pile, R s (s.deal rules card pile))
    (h : Undertakes rules run call combat m) : Resolution.Ensures R m := by
  cases h with
  | start => exact hg.openCombat hplayer
  | play hc hplay =>
      refine hg.play (fun upgraded => hp.holds (.card ?_ upgraded)) _
      exact Catalog.mem_values_of_find? (Undertakes.checkPlay_spec hplay).2.1
  | ability hc hability =>
      obtain ⟨hero, hfind, hability⟩ := Option.bind_eq_some_iff.mp hability
      exact hg.useAbility (hp.holds (.ability (Catalog.mem_values_of_find? hfind) hability))
  | select => exact hg.settleSelection hforget (fun pile _ s card _ => hdeal s card pile) _
  | endTurn => exact hg.passTurn henemies hplayer

/-- **What is governed holds after an accepted call**, if it held before, or of those who gathered
for a new combat, whatever the phase is. -/
theorem Governs.inCombat_of_accepted {may : Effect → Prop} {R : Scene → Scene → Prop}
    {P : Combat → Prop} (hg : Governs rules may R) (hp : rules.content.Permits may)
    (henemies : ∀ s : Scene, R s s.enemiesBegin)
    (hplayer : ∀ {s : Scene} {energy : Int}, s.Refills energy → R s (s.playerBegins energy))
    (hforget : ∀ s : Scene, R s s.forget)
    (hdeal : ∀ (s : Scene) card pile, R s (s.deal rules card pile))
    (hR : ∀ {s t : Scene}, R s t → P s.combat → P t.combat)
    (hphase : ∀ {combat : Combat} (phase : Phase), P combat → P { combat with phase })
    (hgathered : ∀ {nextCardUid combat}, rules.Gathered run nextCardUid combat →
      ∀ drawPile, P { combat with piles := { drawPile } })
    (hbefore : (∀ enemies, call ≠ .start enemies) → run.InCombat P)
    (hcall : rules.perform run call = .ok (none, run')) : run'.InCombat P := by
  obtain ⟨s, t, m, hm, -, hresolve, -, -, hcombat⟩ := Rules.undertakes_of_accepted hcall
  have hs : P s.combat := hm.holds hgathered hbefore
  have hrel : R s t := hg.undertakes hp henemies hplayer hforget hdeal hm hresolve
  intro combat hc
  obtain rfl := Option.some.inj (hcombat.symm.trans hc)
  rw [Combat.endIfDecided_eq]
  exact hphase _ (hR hrel hs)

/-! ## What a run reaches -/

namespace Rules

/-- The run after a call. -/
def after (rules : Rules) (run : Run) (call : Call) : Run :=
  ((rules.perform run call).toOption.map (·.2)).getD run

/-- What a call leaves is known from its answer. -/
theorem perform_eq_of_answer {rejection : Option Rejection}
    (h : (rules.perform run call).toOption.map (·.1) = some rejection) :
    rules.perform run call = .ok (rejection, rules.after run call) := by
  unfold after
  cases hperform : rules.perform run call with
  | error cause =>
      rw [hperform] at h
      exact absurd h nofun
  | ok answer =>
      rw [hperform] at h
      exact congrArg Except.ok (Prod.ext (Option.some.inj h) rfl)

/-- What a run can come to: by calls, by leaving the combat, and by what those do who show it. -/
inductive Reaches (rules : Rules) (run : Run) : Run → Prop
  | refl : Reaches rules run run
  | call {before after call rejection} (h : Reaches rules run before)
      (hcall : rules.perform before call = .ok (rejection, after)) : Reaches rules run after
  | leave {before} (h : Reaches rules run before) : Reaches rules run before.leaveCombat.2
  | attend {before combat} (h : Reaches rules run before) (hc : before.combat = some combat)
      (events : Array Event) (locked : Bool) :
      Reaches rules run { before with combat := some { combat with events, locked } }

theorem combat_leaveCombat (run : Run) : run.leaveCombat.2.combat = none := by
  unfold Run.leaveCombat
  split
  case h_1 hnone => exact hnone
  case h_2 => split <;> rfl

/-- **What every accepted call keeps of the combat, a run keeps.** -/
theorem Reaches.inCombat {P : Combat → Prop}
    (hcall : ∀ {before call after}, before.InCombat P →
      rules.perform before call = .ok (none, after) → after.InCombat P)
    (hattend : ∀ {combat} (events : Array Event) (locked : Bool), P combat →
      P { combat with events, locked })
    (h : rules.Reaches run run') (hP : run.InCombat P) : run'.InCombat P := by
  induction h with
  | refl => exact hP
  | @call before after call rejection _ hperform ih =>
      cases rejection with
      | none => exact hcall ih hperform
      | some rejection => exact run_of_rejected hperform ▸ ih
  | @leave before _ ih =>
      intro combat hcombat
      rw [combat_leaveCombat] at hcombat
      exact absurd hcombat nofun
  | attend _ hc events locked ih =>
      intro combat hcombat
      exact Option.some.inj hcombat ▸ hattend events locked (ih _ hc)

/-- **What every accepted call leaves behind, holds from the start of a combat on**, if those calls
leave it behind that find it, and the start of a combat in any case. -/
theorem inCombat_of_reaches {P : Combat → Prop} {started : Run} {enemies : List String}
    (hcall : ∀ {before call after}, ((∀ enemies, call ≠ .start enemies) → before.InCombat P) →
      rules.perform before call = .ok (none, after) → after.InCombat P)
    (hattend : ∀ {combat} (events : Array Event) (locked : Bool), P combat →
      P { combat with events, locked })
    (hstart : rules.perform run (.start enemies) = .ok (none, started))
    (h : rules.Reaches started run') : run'.InCombat P :=
  h.inCombat (fun hbefore hperform => hcall (fun _ => hbefore) hperform) hattend
    (hcall (fun hother => absurd rfl (hother _)) hstart)

end Rules

end CardCombat
