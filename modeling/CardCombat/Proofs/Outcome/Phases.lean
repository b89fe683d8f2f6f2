import CardCombat.Proofs.Vitality.Everyone

/-!
# Phases and outcomes

While something is resolved the phase is changed at two boundaries of turns only, and it is never
left at the enemies' turn unless one side is beaten. So when an accepted call is over the phase says
exactly what has become of the combat: a defeat if the player has no health left, a victory if the
player lives and no enemy does, and else it is the player's turn again. A combat that is over stays
as it is, and every call but the start of a new one is rejected with its phase.

## Main definitions

* `Combat.Settled` -- the phase says what has become of the combat.

## Main results

* `Resolution.passTurn_phase` -- the phase between two turns of the player.
* `Rules.performAll_of_isTerminal` -- a combat that is over stays as it is.
* `Rules.settled_of_accepted` -- the phase after an accepted call.
-/

namespace CardCombat

open Resolution

variable {rules : Rules} {s t : Scene} {a : Unit}

/-! ## The phase in a resolution -/

/-- The phase has stayed the same. -/
def SamePhase (s t : Scene) : Prop := t.combat.phase = s.combat.phase

/-- **The phase stays the same** through effects, turns and plays, apart from the two boundaries
where it is changed. -/
theorem samePhase_governs : Governs rules Effect.Any SamePhase :=
  governs_of_touches ⟨fun _ => rfl, fun h h' => h'.trans h⟩ Touches.phase rules.content.permits_any
    fun _ h => h fun _ _ _ _ => trivial

namespace Resolution

theorem run_unlessDecided_iff {m : Resolution Unit} :
    (unlessDecided m).run s = .ok (a, t) ↔
      s.combat.isDecided = true ∧ s = t ∨ s.combat.isDecided = false ∧ m.run s = .ok (a, t) := by
  unfold unlessDecided
  simp only [run_bind_iff, run_combat_iff]
  cases hdecided : s.combat.isDecided with
  | true =>
      constructor
      · rintro ⟨_, _, ⟨rfl, rfl⟩, h⟩
        rw [hdecided] at h
        exact .inl ⟨rfl, (run_pure_iff.mp h).2⟩
      · rintro (⟨-, rfl⟩ | ⟨h, -⟩)
        · exact ⟨_, _, ⟨rfl, rfl⟩, by rw [hdecided]; exact run_pure_iff.mpr ⟨rfl, rfl⟩⟩
        · exact absurd h nofun
  | false =>
      constructor
      · rintro ⟨_, _, ⟨rfl, rfl⟩, h⟩
        rw [hdecided] at h
        exact .inr ⟨rfl, h⟩
      · rintro (⟨h, -⟩ | ⟨-, h⟩)
        · exact absurd h nofun
        · exact ⟨_, _, ⟨rfl, rfl⟩, by rw [hdecided]; exact h⟩

theorem openTurn_phase {first : Bool} (h : (openTurn rules first).run s = .ok (a, t)) :
    t.combat.phase = .playerTurn := by
  obtain ⟨u, energy, -, -, hafter⟩ := samePhase_governs.openTurn_of_run h
  exact hafter

/-- A combat opens in the player's turn. -/
theorem openCombat_phase (hs : s.combat.phase = .playerTurn)
    (h : (openCombat rules).run s = .ok (a, t)) : t.combat.phase = .playerTurn := by
  obtain ⟨_, u, hhappen, h⟩ := run_bind_iff.mp h
  have hu : SamePhase s u := (samePhase_governs.happen _ _ _ _).rel hhappen
  rcases run_unlessDecided_iff.mp h with ⟨-, rfl⟩ | ⟨-, h⟩
  · exact hu.trans hs
  · exact openTurn_phase h

/-- **Between two turns of the player** the phase stays at the enemies' turn only if one side is
beaten. -/
theorem passTurn_phase (hs : s.combat.phase = .playerTurn)
    (h : (passTurn rules).run s = .ok (a, t)) :
    t.combat.phase = .playerTurn ∨ t.combat.phase = .enemyTurn ∧ t.combat.isDecided = true := by
  obtain ⟨_, u, hclose, h⟩ := run_bind_iff.mp h
  obtain ⟨_, v, henemies, h⟩ := run_bind_iff.mp h
  have hu : u.combat.phase = .playerTurn := (samePhase_governs.closeTurn hclose).trans hs
  have hv : v.combat.phase = .playerTurn ∨ v.combat.phase = .enemyTurn := by
    rcases run_unlessDecided_iff.mp henemies with ⟨-, rfl⟩ | ⟨-, henemies⟩
    · exact .inl hu
    · exact .inr (samePhase_governs.enemiesTurn_of_run henemies)
  rcases run_unlessDecided_iff.mp h with ⟨hdecided, rfl⟩ | ⟨-, h⟩
  · exact hv.imp_right fun hphase => ⟨hphase, hdecided⟩
  · exact .inl (openTurn_phase h)

end Resolution

/-! ## The phase after a call -/

namespace Undertakes

variable {run : Run} {call : Call} {combat : Combat} {m : Resolution Unit}

/-- Whatever a call sets going is carried out in the player's turn. -/
theorem phase_eq (h : Undertakes rules run call combat m) : combat.phase = .playerTurn := by
  have ofReady {combat : Combat} (h : run.readyCombat = .ok combat) :
      combat.phase = .playerTurn :=
    (Combat.checkReady_eq_ok_iff.mp (Run.readyCombat_eq_ok_iff.mp h).2).1
  cases h with
  | start _ hgather =>
      obtain ⟨nextCardUid, -, enemies, nextEnemyId, rfl, -⟩ := Rules.gather_spec hgather
      rfl
  | play hc | ability hc | endTurn hc => exact ofReady hc
  | select hc ht => exact (Combat.checkTurn_eq_ok_iff.mp ht).1

/-- When it is over the phase is at the enemies' turn only if one side is beaten. -/
theorem phase_of_run (h : Undertakes rules run call s.combat m) (hrun : m.run s = .ok ((), t)) :
    t.combat.phase = .playerTurn ∨ t.combat.phase = .enemyTurn ∧ t.combat.isDecided = true := by
  have hs := h.phase_eq
  generalize s.combat = combat at h
  cases h with
  | start => exact .inl (openCombat_phase hs hrun)
  | play =>
      exact .inl ((samePhase_governs.play (fun _ _ _ => trivial) _).rel hrun |>.trans hs)
  | ability => exact .inl ((samePhase_governs.useAbility fun _ _ => trivial).rel hrun |>.trans hs)
  | select =>
      exact .inl ((samePhase_governs.settleSelection (fun _ => rfl) (fun _ _ _ _ _ => rfl) _).rel
        hrun |>.trans hs)
  | endTurn => exact passTurn_phase hs hrun

end Undertakes

namespace Combat

variable {combat : Combat}

/-- The phase says what has become of the combat, and it is not the enemies' turn. -/
structure Settled (combat : Combat) : Prop where
  defeat : combat.phase = .defeat ↔ combat.player.health = 0
  victory : combat.phase = .victory ↔ combat.player.isAlive ∧ combat.livingEnemies = []
  playerTurn : combat.phase = .playerTurn ↔ ¬combat.player.health = 0 ∧
    ¬(combat.player.isAlive ∧ combat.livingEnemies = [])
  enemyTurn : combat.phase ≠ .enemyTurn

/-- **A combat that has ended if one side is beaten** is settled. -/
theorem settled_endIfDecided (hhealth : 0 ≤ combat.player.health)
    (hphase : combat.phase = .playerTurn ∨ combat.phase = .enemyTurn ∧ combat.isDecided = true) :
    combat.endIfDecided.2.Settled := by
  have hgoing : ¬combat.phase.isTerminal = true := by
    rcases hphase with hphase | ⟨hphase, -⟩ <;> rw [hphase] <;> decide
  unfold endIfDecided
  rw [if_neg hgoing]
  cases halive : combat.player.isAlive with
  | false =>
      have hzero : combat.player.health = 0 :=
        Int.le_antisymm (Combatant.not_isAlive_iff.mp halive) hhealth
      exact ⟨by simp [hzero], by simp [halive], by simp [hzero], by simp⟩
  | true =>
      have hpos : ¬combat.player.health = 0 := by
        have := Combatant.isAlive_iff.mp halive
        omega
      cases hliving : combat.livingEnemies with
      | nil =>
          have hnone : ({ combat with phase := .victory } : Combat).livingEnemies = [] := hliving
          exact ⟨by simp [hpos], by simp [halive, hnone], by simp [halive, hnone], by simp⟩
      | cons enemy enemies =>
          have hturn : combat.phase = .playerTurn := by
            refine hphase.resolve_right fun ⟨_, hdecided⟩ => ?_
            simp [isDecided, halive, hliving] at hdecided
          exact ⟨by simp [hturn, hpos], by simp [hturn, hliving], by simp [hturn, hpos, hliving],
            by simp [hturn]⟩

end Combat

namespace Rules

variable {run before after : Run} {call : Call} {combat : Combat}

/-! ## Combats that are over -/

/-- **When a combat is over, a call is rejected** with its phase, unless it starts a new one. -/
theorem perform_of_isTerminal (hc : run.combat = some combat) (hover : combat.phase.isTerminal)
    (hcall : ∀ enemies, call ≠ .start enemies) :
    rules.perform run call = .ok (some (.action (.wrongPhase combat.phase)), run) := by
  have hturn : combat.checkTurn = .error (.wrongPhase combat.phase) := by
    unfold Combat.checkTurn
    cases hphase : combat.phase with
    | playerTurn | enemyTurn =>
        rw [hphase] at hover
        exact absurd hover (by decide)
    | victory | defeat => rfl
  have hcurrent : run.currentCombat = .ok combat := Run.currentCombat_eq_ok_iff.mpr hc
  have hready : run.readyCombat = .error (.wrongPhase combat.phase) := by
    unfold Run.readyCombat Combat.checkReady
    rw [hcurrent]
    show (do (do combat.checkTurn; _); _) = _
    rw [hturn]
    rfl
  cases call with
  | start enemies => exact absurd rfl (hcall enemies)
  | play card target =>
      unfold perform playCard
      rw [hready]
      rfl
  | ability =>
      unfold perform useAbility
      rw [hready]
      rfl
  | select cards =>
      unfold perform answerSelection
      rw [hcurrent]
      show Failure.reply .action run
        (do (combat.checkTurn : Except (Failure ActionError) Unit); _) = _
      rw [hturn]
      rfl
  | endTurn =>
      unfold perform endTurn
      rw [hready]
      rfl

/-- **A combat that is over stays as it is** through any calls but the start of a new one. -/
theorem performAll_of_isTerminal (hc : run.combat = some combat) (hover : combat.phase.isTerminal)
    {calls : List Call} (hcalls : ∀ enemies, .start enemies ∉ calls) :
    rules.performAll run calls =
      .ok (calls.map fun _ => some (.action (.wrongPhase combat.phase)), run) := by
  induction calls with
  | nil => rfl
  | cons call calls ih =>
      have hfirst : rules.perform run call = _ :=
        perform_of_isTerminal hc hover fun enemies heq => hcalls enemies (heq ▸ List.mem_cons_self)
      have hrest := ih fun enemies hmem => hcalls enemies (List.mem_cons_of_mem _ hmem)
      unfold performAll
      rw [hfirst]
      show (rules.performAll run calls >>= fun answer => _) = _
      rw [hrest]
      rfl

/-! ## After an accepted call -/

/-- Nobody has negative health, and enemies may intend whatever they like. -/
abbrev Sound (run : Run) : Prop := run.InCombat (Combat.Everyone (Fit Effect.Any (0 ≤ ·.health)))

theorem sound_of_accepted (hbefore : (∀ enemies, call ≠ .start enemies) → Sound before)
    (hcall : rules.perform before call = .ok (none, after)) : Sound after :=
  everyone_of_accepted rules.content.permits_any (fun hw => hw.health_nonneg) (fun hv => hv.health)
    hcall hbefore

/-- An accepted call leaves a settled combat. -/
theorem settled_after (hbefore : (∀ enemies, call ≠ .start enemies) → Sound before)
    (hcall : rules.perform before call = .ok (none, after)) :
    ∃ combat, after.combat = some combat ∧ combat.Settled := by
  obtain ⟨s, t, m, hm, -, hresolve, -, -, hcombat⟩ := undertakes_of_accepted hcall
  have hhealth : 0 ≤ t.combat.player.health := by
    have hended : 0 ≤ t.combat.endIfDecided.2.player.health :=
      (sound_of_accepted hbefore hcall _ hcombat).1.1
    rw [Combat.endIfDecided_eq] at hended
    exact hended
  exact ⟨_, hcombat, Combat.settled_endIfDecided hhealth (hm.phase_of_run hresolve)⟩

/-- **The phase after an accepted call** says what has become of the combat, whatever calls went
before, as long as no combatant began with negative health. And once the combat is over, all later
calls are rejected with its phase and leave the run as it is, until a new combat starts. -/
theorem settled_of_accepted (hrun : run.InCombat (Combat.Everyone (0 ≤ ·.health)))
    (h : rules.Reaches run before) (hcall : rules.perform before call = .ok (none, after)) :
    ∃ combat, after.combat = some combat ∧ combat.Settled ∧
      (combat.phase.isTerminal → ∀ calls : List Call, (∀ enemies, .start enemies ∉ calls) →
        rules.performAll after calls =
          .ok (calls.map fun _ => some (.action (.wrongPhase combat.phase)), after)) := by
  have hsound : Sound run := fun combat hcombat =>
    (hrun combat hcombat).imp fun _ hpos => ⟨hpos, fun _ _ _ _ => trivial⟩
  have hbefore : Sound before := everyone_of_reaches rules.content.permits_any
    (fun hw => hw.health_nonneg) (fun hv => hv.health) h hsound
  obtain ⟨combat, hcombat, hsettled⟩ := settled_after (fun _ => hbefore) hcall
  exact ⟨combat, hcombat, hsettled,
    fun hover calls hcalls => performAll_of_isTerminal hcombat hover hcalls⟩

end Rules

/-! ## A bolt -/

/-- A card that strikes the front enemy, and an enemy that it kills. -/
def boltRules : Rules where
  content :=
    { cards := Catalog.empty.put "bolt"
        { id := "bolt", name := "Bolt", theme := .attack, cost := .fixed 1
          effects := [.damage (.fixed 10) .frontEnemy .physical false []] }
      enemies := Catalog.empty.put "dummy"
        { id := "dummy", name := "Dummy", maxHealth := 8, moves := [] } }

/-- A run with that card. -/
def boltRun : Run where
  hero := ""
  health := 10
  maxHealth := 10
  deck := [{ uid := ⟨1⟩, definition := "bolt" }]
  rng := .ofSeed 0

/-- The run after a combat has begun. -/
def boltStarted : Run := boltRules.after boltRun (.start ["dummy"])

/-- The run after the enemy was struck. -/
def boltPlayed : Run := boltRules.after boltStarted (.play ⟨1⟩ none)

theorem bolt_starts : boltRules.perform boltRun (.start ["dummy"]) = .ok (none, boltStarted) :=
  Rules.perform_eq_of_answer (by decide +kernel)

theorem bolt_strikes : boltRules.perform boltStarted (.play ⟨1⟩ none) = .ok (none, boltPlayed) :=
  Rules.perform_eq_of_answer (by decide +kernel)

theorem bolt_wins : boltPlayed.combat.map (·.phase) = some .victory := by decide +kernel

namespace Rules

/-- The bolt wins the combat, and then the turn cannot be ended any more. -/
theorem settled_of_bolt :
    ∃ combat, boltPlayed.combat = some combat ∧ combat.phase = .victory ∧ combat.Settled ∧
      boltRules.performAll boltPlayed [.endTurn, .ability] =
        .ok ([some (.action (.wrongPhase .victory)), some (.action (.wrongPhase .victory))],
          boltPlayed) := by
  have hnone : boltRun.InCombat (Combat.Everyone (0 ≤ ·.health)) := fun _ h => absurd h nofun
  obtain ⟨combat, hcombat, hsettled, hover⟩ :=
    settled_of_accepted hnone (.call .refl bolt_starts) bolt_strikes
  have hphase : combat.phase = .victory := by
    have hwins := bolt_wins
    rw [hcombat] at hwins
    exact Option.some.inj hwins
  rw [hphase] at hover
  exact ⟨combat, hcombat, hphase, hsettled, hover rfl _ (by simp)⟩

end Rules

end CardCombat
