import CardCombat.Proofs.Action.Calls
import CardCombat.Proofs.Uniqueness.Rest
import Mathlib

/-!
# No card lies twice

A run whose master deck has different cards is followed from the start of a combat through calls of
any kind, in any order. No card ever lies twice in the piles as long as no call revives a card more
often than it is lost, and the first call that does leaves a card behind twice.

## Main definitions

* `Rules.Always` -- something holds of a run now and after every call.

## Main results

* `Rules.started_orderly`, `Rules.performed_handled` -- what one call does.
* `Rules.always_distinct_iff` -- what all calls do.
-/

namespace CardCombat

variable {rules : Rules} {run run' : Run} {combat : Combat} {m : Resolution Unit} {t : Scene}

namespace Run

/-- No card lies twice in the piles of the combat. -/
def Distinct (run : Run) : Prop := ∀ combat, run.combat = some combat → combat.Distinct

/-- In the last resolution no card was revived more often than it was lost. -/
def IsBalanced (run : Run) : Prop := Balanced run.chronicle.toList

/-- The cards of the deck are different, and the combat is at rest. -/
structure Orderly (run : Run) : Prop where
  deck : (run.deck.map (·.uid)).Nodup
  rests : ∀ combat, run.combat = some combat → combat.Rests

/-- What an accepted call does to the cards of a run: it leaves an orderly run, and if no card lay
twice before it, none does after it exactly if it was balanced. -/
def Handled (run run' : Run) : Prop :=
  run'.Orderly ∧ (run.Distinct → (run'.Distinct ↔ run'.IsBalanced))

/-- A resolution that settles leaves an orderly run when the combat has ended. -/
theorem orderly_of_settles {s t : Scene} (hsettles : Settles s t) (hstart : s.chronicle = #[])
    (hrests : s.combat.Rests) (hdeck : (run'.deck.map (·.uid)).Nodup)
    (hchronicle : run'.chronicle = t.chronicle)
    (hcombat : run'.combat = some t.combat.endIfDecided.2) :
    run'.Orderly ∧ (s.combat.Distinct → (run'.Distinct ↔ run'.IsBalanced)) := by
  obtain ⟨hrests, hdistinct⟩ := hsettles hstart hrests
  rw [Combat.endIfDecided_eq] at hcombat
  have hended : ∀ phase, ({ t.combat with phase } : Combat).Rests :=
    fun _ => ⟨hrests.inPlay, hrests.bounded, hrests.offer⟩
  refine ⟨⟨hdeck, fun combat h => ?_⟩, fun hd => ?_⟩
  · rw [hcombat] at h
    exact Option.some.inj h ▸ hended _
  · unfold IsBalanced
    rw [hchronicle, ← hdistinct hd]
    constructor
    · intro hall
      have hended := hall _ hcombat
      exact hended
    · intro hended combat h
      rw [hcombat] at h
      exact Option.some.inj h ▸ hended

end Run

namespace Rules

/-! ## The start of a combat -/

/-- A deck of different cards is dealt as a draw pile of different cards. -/
theorem dealt_rests {cards : List Card} (hperm : cards.Perm run.deck)
    (hdeck : (run.deck.map (·.uid)).Nodup) (hplay : combat.inPlay = [])
    (hpending : combat.pending = none) (hnext : run.nextCardUid = .ok combat.nextCardUid) :
    ({ combat with piles := { drawPile := cards } } : Combat).Rests ∧
      ({ combat with piles := { drawPile := cards } } : Combat).Distinct := by
  have huids : ({ drawPile := cards } : Piles).uids.Perm (run.deck.map (·.uid)) := by
    unfold Piles.uids
    simpa using hperm.map (·.uid)
  refine ⟨⟨hplay, fun u hu => ?_, fun selection pile h => ?_⟩, huids.nodup_iff.mpr hdeck⟩
  · rcases hu with hu | hu
    · have hmem := huids.mem_iff.mp (Piles.count_pos_iff.mp hu)
      obtain ⟨card, hcard, rfl⟩ := List.mem_map.mp hmem
      exact lt_nextCardUid hnext card hcard
    · unfold Combat.playing at hu
      rw [hplay] at hu
      exact absurd hu List.not_mem_nil
  · rw [hpending] at h
    exact absurd h (by simp)

/-! ## Calls -/

/-- Whatever a call sets going settles. -/
theorem undertaken_settles {call : Call} {s : Scene} (h : Undertakes rules run call s.combat m)
    (hrun : m.run s = .ok ((), t)) : Settles s t := by
  generalize hs : s.combat = combat at h
  cases h with
  | start => exact (Resolution.openCombat_keeps hrun).settles
  | play => exact (Resolution.play_keeps _ _ hrun).settles
  | ability => exact (Resolution.useAbility_keeps _ hrun).settles
  | select _ _ hp =>
      subst hs
      exact Resolution.settleSelection_settles hp hrun
  | endTurn => exact (Resolution.passTurn_keeps hrun).settles

/-- The start of a combat finds different cards at rest. -/
theorem undertaken_start {enemies : List String} (hdeck : (run.deck.map (·.uid)).Nodup)
    (h : Undertakes rules run (.start enemies) combat m) : combat.Rests ∧ combat.Distinct := by
  cases h with
  | start _ hgather =>
      obtain ⟨nextCardUid, hnext, enemies, nextEnemyId, rfl, -⟩ := gather_spec hgather
      exact dealt_rests (@shuffledDeck_perm rules run.deck run.rng) hdeck rfl rfl hnext

/-- **The start of a combat** makes a run with different cards orderly. -/
theorem started_orderly {enemies : List String} (hdeck : (run.deck.map (·.uid)).Nodup)
    (h : rules.startCombat run enemies = .ok run') :
    run'.Orderly ∧ (run'.Distinct ↔ run'.IsBalanced) := by
  have haccepted : rules.perform run (.start enemies) = .ok (none, run') :=
    congrArg (Failure.reply .content run) h
  obtain ⟨s, t, m, hm, hstart, hrun, hdeck', hchronicle, hcombat⟩ :=
    undertakes_of_accepted haccepted
  obtain ⟨hrests, hdistinct⟩ := undertaken_start hdeck hm
  obtain ⟨ho, hiff⟩ := Run.orderly_of_settles (undertaken_settles hm hrun) hstart hrests
    (hdeck' ▸ hdeck) hchronicle hcombat
  exact ⟨ho, hiff hdistinct⟩

/-- An accepted call leaves an orderly run in which no card lies twice exactly if it was
balanced. -/
theorem accepted_handled {call : Call} (ho : run.Orderly)
    (h : rules.perform run call = .ok (none, run')) : run.Handled run' := by
  by_cases hnew : ∃ enemies, call = .start enemies
  · obtain ⟨enemies, rfl⟩ := hnew
    obtain ⟨hstarted, hiff⟩ := started_orderly ho.deck (accepted_of_reply h)
    exact ⟨hstarted, fun _ => hiff⟩
  · obtain ⟨s, t, m, hm, hstart, hrun, hdeck', hchronicle, hcombat⟩ := undertakes_of_accepted h
    have hongoing := hm.combat_eq fun enemies hcall => hnew ⟨enemies, hcall⟩
    obtain ⟨ho', hiff⟩ := Run.orderly_of_settles (undertaken_settles hm hrun) hstart
      (ho.rests _ hongoing) (hdeck' ▸ ho.deck) hchronicle hcombat
    exact ⟨ho', fun hd => hiff (hd _ hongoing)⟩

/-- **One call**: it has changed nothing, or it has left an orderly run in which no card lies twice
exactly if it was balanced. -/
theorem performed_handled {call : Call} {rejection : Option Rejection} (ho : run.Orderly)
    (h : rules.perform run call = .ok (rejection, run')) : run' = run ∨ run.Handled run' := by
  cases rejection with
  | none => exact .inr (accepted_handled ho h)
  | some rejection => exact .inl (run_of_rejected h)

/-- Something holds of a run now and after every one of the calls. -/
def Always (rules : Rules) (P : Run → Prop) : Run → List Call → Prop
  | run, [] => P run
  | run, call :: calls => P run ∧ ∀ rejection run',
      rules.perform run call = .ok (rejection, run') → rules.Always P run' calls

theorem always_iff_of_orderly {calls : List Call} (ho : run.Orderly)
    (hiff : run.Distinct ↔ run.IsBalanced) :
    rules.Always Run.Distinct run calls ↔ rules.Always Run.IsBalanced run calls := by
  induction calls generalizing run with
  | nil => exact hiff
  | cons call calls ih =>
      unfold Always
      by_cases hd : run.Distinct
      · refine and_congr hiff (forall₃_congr fun rejection run' h => ?_)
        rcases performed_handled ho h with rfl | ⟨ho', hiff'⟩
        · exact ih ho hiff
        · exact ih ho' (hiff' hd)
      · exact iff_of_false (fun h => hd h.1) fun h => hd (hiff.mpr h.1)

/-- **No card lies twice**: in a run whose deck has different cards, from the start of a combat on
and through calls of every kind in every order, no card lies twice in the piles exactly if in every
call each card is revived at most as often as it is lost. -/
theorem always_distinct_iff {enemies : List String} (hdeck : (run.deck.map (·.uid)).Nodup)
    (hstart : rules.perform run (.start enemies) = .ok (none, run')) (calls : List Call) :
    rules.Always Run.Distinct run' calls ↔ rules.Always Run.IsBalanced run' calls := by
  obtain ⟨ho, hiff⟩ := started_orderly hdeck (accepted_of_reply hstart)
  exact always_iff_of_orderly ho hiff

end Rules

/-- A run whose deck has different cards stays orderly, whatever it comes to. -/
theorem Run.Orderly.of_reaches (ho : run.Orderly) (h : rules.Reaches run run') : run'.Orderly := by
  induction h with
  | refl => exact ho
  | call _ hcall ih =>
      rcases Rules.performed_handled ih hcall with rfl | ⟨hafter, -⟩
      · exact ih
      · exact hafter
  | @leave before _ ih =>
      refine ⟨?_, fun combat hcombat => ?_⟩
      · have hdeck : before.leaveCombat.2.deck = before.deck := by
          unfold Run.leaveCombat
          split
          · rfl
          · split <;> rfl
        exact hdeck ▸ ih.deck
      · rw [Rules.combat_leaveCombat] at hcombat
        exact absurd hcombat nofun
  | attend _ hc events locked ih =>
      refine ⟨ih.deck, fun combat hcombat => ?_⟩
      obtain rfl := Option.some.inj hcombat
      have hrests := ih.rests _ hc
      exact ⟨hrests.inPlay, hrests.bounded, hrests.offer⟩

/-! ## A card that lies twice -/

/-- A card that puts itself on the deck twice, and a relic that plays it when a combat starts. -/
def boomerangPack : Pack where
  cards :=
    [{ id := "boomerang", name := "Boomerang", theme := .skill, cost := .fixed 0
       effects := [.putOnDeck .thisCard .top, .putOnDeck .thisCard .top] }]
  relics :=
    [{ id := "sling", name := "Sling"
       triggers := [⟨.combatStart, [.playTopCard (.fixed 1)]⟩] }]

def boomerangRules : Rules where
  content := (Content.ofPack boomerangPack).toOption.getD {}

/-- A run with that card and that relic. -/
def boomerangRun : Run where
  hero := ""
  health := 10
  maxHealth := 10
  deck := [{ uid := ⟨1⟩, definition := "boomerang" }]
  relics := ["sling"]
  rng := .ofSeed 0

/-- The run when a combat has started. -/
def boomerangStarted : Run :=
  ((boomerangRules.perform boomerangRun (.start [])).toOption.map (·.2)).getD boomerangRun

theorem boomerangRun_deck : (boomerangRun.deck.map (·.uid)).Nodup := by decide

theorem boomerang_starts :
    boomerangRules.perform boomerangRun (.start []) = .ok (none, boomerangStarted) := by
  cbv

namespace Rules

/-- What becomes of the card that puts itself on the deck twice. -/
theorem always_distinct_iff_boomerang :
    boomerangRules.Always Run.Distinct boomerangStarted [.endTurn, .start []] ↔
      boomerangRules.Always Run.IsBalanced boomerangStarted [.endTurn, .start []] :=
  always_distinct_iff boomerangRun_deck boomerang_starts _

/-- A card can lie twice in the piles: the second time that the card puts itself on the deck, it
lies there already. -/
theorem boomerang_lies_twice :
    ¬∀ pack config content run enemies run', Content.ofPack pack = .ok content →
      (run.deck.map (·.uid)).Nodup →
        Rules.perform { content, config } run (.start enemies) = .ok (none, run') →
          ∀ calls, Rules.Always { content, config } Run.Distinct run' calls := by
  intro hclaim
  have hdistinct : boomerangStarted.Distinct := hclaim boomerangPack {} boomerangRules.content
    boomerangRun [] boomerangStarted rfl boomerangRun_deck boomerang_starts []
  have hpiles : boomerangStarted.combat.map (·.piles.uids) = some [⟨1⟩, ⟨1⟩] := by cbv
  obtain ⟨combat, hcombat, huids⟩ := Option.map_eq_some_iff.mp hpiles
  have hnodup : combat.piles.uids.Nodup := hdistinct combat hcombat
  rw [huids] at hnodup
  exact absurd hnodup (by decide)

end Rules

end CardCombat
