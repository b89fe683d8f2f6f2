import CardCombat.Proofs.Banishment.Permanence
import CardCombat.Proofs.Outcome.Playable
import CardCombat.Proofs.Overflow.Calls
import CardCombat.Proofs.Resources.Charge

/-!
# When the ability can be used

A combat is followed from its start through calls of any kind, in any order, together with all that
was reported in it. Whether the ability was used in this turn is written down in the combat, and it
can also be read off what was reported: it was, if no turn has begun since it was used last. The
two agree after every call. So the ability can be used exactly if the combat waits for the player,
the hero has an ability, its charge is what it requires, and it was not used since the last turn
began; and between two uses a turn begins.

## Main definitions

* `Drives` -- what a call does to the ability.
* `Rules.Recounts` -- all that was reported in a combat up to now.
* `UsedThisTurn`, `Rules.AbilityReady` -- when the ability can be used.

## Main results

* `Rules.drives_of_accepted` -- one call.
* `Rules.exists_recounts_iff` -- there is a record of every run that comes to a combat.
* `Rules.Recounts.tended` -- what was reported says whether the ability was used in this turn.
* `Rules.abilityLaws_of_recounts` -- when the ability can be used, and what that does.
-/

namespace CardCombat

open Resolution

variable {rules : Rules} {run before after started : Run} {call : Call} {s t : Scene}
  {told log : List Event}

/-! ## Calls -/

/-- The calls with which a turn of the player begins, unless the combat is decided before. -/
def Call.opensTurn : Call → Bool
  | .start _ | .endTurn => true
  | .play .. | .ability | .select _ => false

/-- The charge of the ability after a call: a play adds to it, up to what the ability requires, and
the use of the ability takes all of it. -/
def Rules.chargeAfter (rules : Rules) (resources : Resources) : Call → Nat
  | .play .. => min resources.abilityChargeRequired
      (resources.abilityCharge + rules.config.chargePerCard)
  | .ability => 0
  | .start _ | .select _ | .endTurn => resources.abilityCharge

/-- **What a call does to the ability**, and what is reported of it: the use of the ability by the
call that uses it, and by no other one; the beginning of a turn by the calls that begin one, and by
no other ones. -/
structure Drives (rules : Rules) (call : Call) (told : List Event) (before after : Combat) : Prop
    extends Tends told before after where
  charge : after.resources.abilityCharge = rules.chargeAfter before.resources call
  use : call = .ability → ∃ rest, told = .heroAbility :: rest ∧ ∀ event ∈ rest, event.IsOther
  unused : call ≠ .ability → ∀ event ∈ told, event.isUse = false
  turn : call.opensTurn → after.isDecided = false → ∃ event ∈ told, event.isTurn
  unturned : call.opensTurn = false → ∀ event ∈ told, event.isTurn = false

namespace Undertakes

/-- **Whatever a call sets going** does to the ability what belongs to that call. -/
theorem drives {combat : Combat} {m : Resolution Unit} (hm : Undertakes rules run call combat m)
    (hs : s.combat = combat) (hrun : m.run s = .ok ((), t)) :
    ∃ told, Drives rules call told s.combat t.combat := by
  cases hm with
  | start =>
      obtain ⟨told, htold, hunused, hturn, hcharge⟩ := openCombat_tends hrun
      exact ⟨told, htold, hcharge, nofun, fun _ => hunused, fun _ => hturn, nofun⟩
  | play _ hplay =>
      subst hs
      have hnamed := List.find?_some (checkPlay_spec hplay).1
      have huid := eq_of_beq hnamed
      obtain ⟨told, htold, hother, hcharge⟩ :=
        play_tends (huid ▸ Rules.takeFrom?_isSome hplay) hrun
      exact ⟨told, htold, hcharge, nofun, fun _ event hmem => (hother event hmem).1, nofun,
        fun _ event hmem => (hother event hmem).2⟩
  | ability =>
      obtain ⟨rest, htold, hother, hcharge⟩ := useAbility_tends hrun
      refine ⟨_, htold, hcharge, fun _ => ⟨rest, rfl, hother⟩, fun h => absurd rfl h, nofun,
        fun _ event hmem => ?_⟩
      rcases List.mem_cons.mp hmem with rfl | hmem
      · rfl
      · exact (hother event hmem).2
  | select =>
      obtain ⟨told, htold, hother, hcharge⟩ := ((settleSelection_idle _).rel hrun).tends
      exact ⟨told, htold, hcharge, nofun, fun _ event hmem => (hother event hmem).1, nofun,
        fun _ event hmem => (hother event hmem).2⟩
  | endTurn =>
      obtain ⟨told, htold, hunused, hturn, hcharge⟩ := passTurn_tends hrun
      exact ⟨told, htold, hcharge, nofun, fun _ => hunused, fun _ => hturn, nofun⟩

end Undertakes

namespace Rules

/-- The end of a combat has nothing to do with the ability. -/
theorem drives_endIfDecided {earlier later : Combat} (h : Drives rules call told earlier later) :
    Drives rules call told earlier later.endIfDecided.2 := by
  rw [Combat.endIfDecided_eq]
  exact ⟨⟨h.events, h.required, h.used⟩, h.charge, h.use, h.unused, h.turn, h.unturned⟩

/-- **An accepted call** in a combat that goes on does to the ability what belongs to it. -/
theorem drives_of_accepted (hcall : rules.perform before call = .ok (none, after))
    (hongoing : ∀ enemies, call ≠ .start enemies) :
    ∃ earlier later, before.combat = some earlier ∧ after.combat = some later ∧
      Drives rules call (after.eventsSince before) earlier later := by
  obtain ⟨s, t, m, hm, -, hrun, -, -, hcombat⟩ := undertakes_of_accepted hcall
  obtain ⟨told, hdrives⟩ := hm.drives rfl hrun
  have hc : before.combat = some s.combat := hm.combat_eq hongoing
  have hdrives : Drives rules call told s.combat t.combat.endIfDecided.2 :=
    drives_endIfDecided hdrives
  have htold : after.eventsSince before = told :=
    Run.eventsSince_eq hc ((Run.events_eq hcombat).trans hdrives.events)
  exact ⟨s.combat, _, hc, hcombat, htold ▸ hdrives⟩

end Rules

/-! ## What the events tell -/

/-- The ability was used, and no turn has begun since. -/
def UsedThisTurn (log : List Event) : Prop :=
  ∃ earlier later, log = earlier ++ .heroAbility :: later ∧ ∀ turn, .turnStart turn ∉ later

/-- Whenever the ability was used, it was not used in that turn before. -/
def UsesOnce (log : List Event) : Prop :=
  ∀ earlier later, log = earlier ++ .heroAbility :: later → ¬UsedThisTurn earlier

theorem usedThisTurn_cons_iff {event : Event} : UsedThisTurn (event :: log) ↔
    UsedThisTurn log ∨ event = .heroAbility ∧ ∀ turn, .turnStart turn ∉ log := by
  constructor
  · rintro ⟨earlier, later, heq, hlater⟩
    cases earlier with
    | nil =>
        obtain ⟨rfl, rfl⟩ := List.cons.inj heq
        exact .inr ⟨rfl, hlater⟩
    | cons first earlier =>
        obtain ⟨-, rfl⟩ := List.cons.inj heq
        exact .inl ⟨earlier, later, rfl, hlater⟩
  · rintro (⟨earlier, later, rfl, hlater⟩ | ⟨rfl, hlater⟩)
    · exact ⟨event :: earlier, later, rfl, hlater⟩
    · exact ⟨[], log, rfl, hlater⟩

/-- **What is written down of the use of the ability** is what the events tell. -/
theorem foldl_spends_iff {used : Bool} : log.foldl Event.spends used = true ↔
    UsedThisTurn log ∨ used = true ∧ ∀ turn, .turnStart turn ∉ log := by
  induction log generalizing used with
  | nil =>
      have hnone : ¬UsedThisTurn [] := fun ⟨earlier, later, heq, _⟩ => by simp at heq
      simp [hnone]
  | cons event log ih =>
      rw [List.foldl_cons, ih, usedThisTurn_cons_iff]
      by_cases hnone : ∀ turn, Event.turnStart turn ∉ log
      · cases event with
        | heroAbility => simp [Event.spends, hnone]
        | turnStart turn =>
            have hturn : ¬∀ other, Event.turnStart other ∉ .turnStart turn :: log :=
              fun hall => hall turn List.mem_cons_self
            simp only [Event.spends, hturn, Bool.false_eq_true, false_and, and_false, or_false,
              reduceCtorEq]
        | _ => simp [Event.spends, hnone]
      · have hsome : ¬∀ turn, Event.turnStart turn ∉ event :: log :=
          fun hall => hnone fun turn hmem => hall turn (List.mem_cons_of_mem _ hmem)
        simp only [hnone, hsome, and_false, or_false]

/-- A turn begins between two uses. -/
theorem UsesOnce.exists_turnStart {earlier middle later : List Event} (h : UsesOnce log)
    (hlog : log = earlier ++ .heroAbility :: (middle ++ .heroAbility :: later)) :
    ∃ turn, .turnStart turn ∈ middle := by
  have hunused : ¬UsedThisTurn (earlier ++ .heroAbility :: middle) := by
    refine h _ later ?_
    rw [hlog, List.append_assoc, List.cons_append]
  by_contra hnone
  exact hunused ⟨earlier, middle, rfl, fun turn hmem => hnone ⟨turn, hmem⟩⟩

/-- More is reported, in which the ability is not used twice in a turn. -/
theorem UsesOnce.append (h : UsesOnce log)
    (htold : ∀ earlier later, told = earlier ++ .heroAbility :: later →
      ¬UsedThisTurn (log ++ earlier)) : UsesOnce (log ++ told) := by
  intro earlier later heq
  rcases List.append_eq_append_iff.mp heq with ⟨since, rfl, hsince⟩ | ⟨rest, rfl, hrest⟩
  · exact htold since later hsince
  · cases rest with
    | nil =>
        rw [List.append_nil] at htold
        have hnow := htold [] later hrest.symm
        rwa [List.append_nil] at hnow
    | cons event rest =>
        obtain ⟨rfl, -⟩ := List.cons.inj hrest
        exact h earlier rest rfl

/-! ## Runs -/

/-- The charge of the ability is at most what it requires, and it is written down that it was used
in this turn if so the events tell. -/
structure Combat.Tended (log : List Event) (combat : Combat) : Prop where
  charge : combat.resources.abilityCharge ≤ combat.resources.abilityChargeRequired
  used : combat.resources.abilityUsedThisTurn = log.foldl Event.spends false

namespace Drives

variable {earlier later : Combat}

/-- The charge never exceeds what the ability requires. -/
theorem tended (h : Drives rules call told earlier later) (hs : earlier.Tended log) :
    later.Tended (log ++ told) where
  charge := by
    have hcharge := hs.charge
    rw [h.charge, h.required]
    cases call with
    | play => exact Nat.min_le_left _ _
    | ability => exact Nat.zero_le _
    | start | select | endTurn => exact hcharge
  used := by rw [h.used, hs.used, List.foldl_append]

/-- If the ability can be used it was not used in this turn. -/
theorem usesOnce (h : Drives rules call told earlier later) (hlog : UsesOnce log)
    (hready : call = .ability → ¬UsedThisTurn log) : UsesOnce (log ++ told) := by
  refine hlog.append fun first last heq => ?_
  have hmem : .heroAbility ∈ told := heq ▸ List.mem_append_right _ List.mem_cons_self
  by_cases hcall : call = .ability
  · obtain ⟨rest, rfl, hother⟩ := h.use hcall
    cases first with
    | nil =>
        rw [List.append_nil]
        exact hready hcall
    | cons event first =>
        obtain ⟨-, rfl⟩ := List.cons.inj heq
        exact absurd (hother _ (List.mem_append_right _ List.mem_cons_self)).1 (by decide)
  · exact absurd (h.unused hcall _ hmem) (by decide)

end Drives

namespace Rules

/-- The ability can be used: the combat waits for the player, the hero has an ability, its charge is
what it requires, and it was not used since the last turn of the player began. -/
def AbilityReady (rules : Rules) (log : List Event) (run : Run) : Prop :=
  ∃ combat, run.combat = some combat ∧ combat.phase = .playerTurn ∧ combat.locked = false ∧
    combat.pending = none ∧ (rules.ability? run).isSome ∧
      combat.resources.abilityCharge = combat.resources.abilityChargeRequired ∧ ¬UsedThisTurn log

/-- What a run comes to from the start of a combat on, through calls of any kind, by leaving the
combat, and by what those do who show it; with all that was reported in the calls of that combat. -/
inductive Recounts (rules : Rules) : List Event → Run → Prop
  | started {before after : Run} {enemies : List String}
      (hcall : rules.perform before (.start enemies) = .ok (none, after)) :
      Recounts rules after.events after
  | accepted {log : List Event} {before after : Run} {call : Call} (h : Recounts rules log before)
      (hcall : rules.perform before call = .ok (none, after))
      (hongoing : ∀ enemies, call ≠ .start enemies) :
      Recounts rules (log ++ after.eventsSince before) after
  | rejected {log : List Event} {before after : Run} {call : Call} {rejection : Rejection}
      (h : Recounts rules log before)
      (hcall : rules.perform before call = .ok (some rejection, after)) : Recounts rules log after
  | left {log : List Event} {before : Run} (h : Recounts rules log before) :
      Recounts rules log before.leaveCombat.2
  | attended {log : List Event} {before : Run} {combat : Combat} (h : Recounts rules log before)
      (hc : before.combat = some combat) (events : Array Event) (locked : Bool) :
      Recounts rules log { before with combat := some { combat with events, locked } }

/-- There is a record of exactly what a run can come to after the start of a combat. -/
theorem exists_recounts_iff : (∃ log, rules.Recounts log after) ↔
    ∃ run enemies started, rules.perform run (.start enemies) = .ok (none, started) ∧
      rules.Reaches started after := by
  constructor
  · rintro ⟨log, h⟩
    induction h with
    | started hcall => exact ⟨_, _, _, hcall, .refl⟩
    | accepted _ hcall _ ih | rejected _ hcall ih =>
        obtain ⟨run, enemies, started, hstart, hreach⟩ := ih
        exact ⟨run, enemies, started, hstart, .call hreach hcall⟩
    | left _ ih =>
        obtain ⟨run, enemies, started, hstart, hreach⟩ := ih
        exact ⟨run, enemies, started, hstart, .leave hreach⟩
    | attended _ hc events locked ih =>
        obtain ⟨run, enemies, started, hstart, hreach⟩ := ih
        exact ⟨run, enemies, started, hstart, .attend hreach hc events locked⟩
  · rintro ⟨run, enemies, started, hstart, h⟩
    induction h with
    | refl => exact ⟨_, .started hstart⟩
    | @call before after call rejection _ hcall ih =>
        obtain ⟨log, hlog⟩ := ih
        cases rejection with
        | some rejection => exact ⟨log, .rejected hlog hcall⟩
        | none =>
            by_cases hnew : ∃ enemies, call = .start enemies
            · obtain ⟨enemies, rfl⟩ := hnew
              exact ⟨_, .started hcall⟩
            · exact ⟨_, .accepted hlog hcall fun enemies heq => hnew ⟨enemies, heq⟩⟩
    | leave _ ih => exact ih.imp fun _ => .left
    | attend _ hc events locked ih => exact ih.imp fun _ hlog => .attended hlog hc events locked

/-- From its start on the numbers of everyone in a combat are in their range. -/
theorem Recounts.hale (h : rules.Recounts log run) : run.InCombat Combat.Hale := by
  obtain ⟨before, enemies, started, hstart, hreach⟩ := exists_recounts_iff.mp ⟨log, h⟩
  exact inCombat_of_reaches (fun hbefore hcall => everyone_of_accepted rules.content.permits_any
    (fun hw => hw.vital False.elim) (fun hv => hv.unbounded) hcall hbefore)
      (fun _ _ hcombat => hcombat) hstart hreach

/-! ## When the ability can be used -/

/-- The combat waits for the player, the hero has an ability, and it is written down that it is
charged and was not used in this turn. -/
def Charged (rules : Rules) (run : Run) : Prop :=
  ∃ combat ability, run.readyCombat = .ok combat ∧ rules.ability? run = some ability ∧
    combat.resources.abilityUsedThisTurn = false ∧
      combat.resources.abilityChargeRequired ≤ combat.resources.abilityCharge

/-- What is asked of a combat that waits for the player is asked of that combat. -/
theorem bind_of_ready {combat : Combat} {α : Type} (h : run.readyCombat = .ok combat)
    (rest : Combat → Except (Failure ActionError) α) :
    (run.readyCombat : Except (Failure ActionError) Combat) >>= rest = rest combat := by
  rw [h]
  rfl

theorem rejects_of_not_charged (h : ¬rules.Charged run) : rules.Rejects run .ability := by
  have hreply {error : ActionError}
      (hresult : rules.useAbility run = .error (.rejected error)) : rules.Rejects run .ability :=
    ⟨_, _, congrArg (Failure.reply .action run) hresult⟩
  cases hready : run.readyCombat with
  | error reason =>
      refine @hreply reason ?_
      unfold useAbility
      rw [hready]
      rfl
  | ok combat =>
      refine @hreply .abilityNotReady ?_
      unfold useAbility
      rw [bind_of_ready hready]
      cases hability : rules.ability? run with
      | none => rfl
      | some ability =>
          have hspent : (combat.resources.abilityUsedThisTurn ||
              decide (combat.resources.abilityCharge <
                combat.resources.abilityChargeRequired)) = true := by
            by_contra hunspent
            simp only [Bool.or_eq_true, decide_eq_true_eq, not_or, Bool.not_eq_true,
              Nat.not_lt] at hunspent
            exact h ⟨combat, ability, hready, hability, hunspent⟩
          dsimp only
          rw [if_pos hspent]
          rfl

/-- A charged ability is used, unless that overflows. -/
theorem succeeds_or_overflows (hrun : run.InCombat Combat.Hale) (h : rules.Charged run) :
    (∃ after, rules.perform run .ability = .ok (none, after)) ∨
      ∃ operation, rules.perform run .ability = .error (.overflow operation) := by
  obtain ⟨combat, ability, hready, hability, hused, hcharge⟩ := h
  have hresult : rules.useAbility run =
      (run.advance (Resolution.useAbility rules ability) : Except (Failure ActionError) Run) := by
    unfold useAbility
    rw [bind_of_ready hready, hability]
    dsimp only
    rw [if_neg (by simp [hused, hcharge])]
  have hperform : rules.perform run .ability = Failure.reply .action run
      (run.advance (Resolution.useAbility rules ability) : Except (Failure ActionError) Run) :=
    congrArg (Failure.reply .action run) hresult
  rw [hperform]
  cases hadvance : run.advance (Resolution.useAbility rules ability) with
  | ok after => exact .inl ⟨after, rfl⟩
  | error cause =>
      obtain ⟨operation, rfl⟩ :=
        OnlyOverflows.advance (Resolution.useAbility_secure _) hrun cause hadvance
      exact .inr ⟨operation, rfl⟩

/-- An ability that is used is charged. -/
theorem charged_of_accepted (hcall : rules.perform run .ability = .ok (none, after)) :
    rules.Charged run := by
  by_contra hnot
  obtain ⟨rejection, run', hrejected⟩ := rejects_of_not_charged hnot
  exact absurd (Prod.mk.inj (Except.ok.inj (hrejected.symm.trans hcall))).1 nofun

/-- What is written down agrees with what was reported. -/
theorem abilityReady_iff_charged (h : run.InCombat (Combat.Tended log)) :
    rules.AbilityReady log run ↔ rules.Charged run := by
  have hused {combat : Combat} (hc : run.combat = some combat) :
      combat.resources.abilityUsedThisTurn = false ↔ ¬UsedThisTurn log := by
    rw [(h combat hc).used, ← Bool.not_eq_true, foldl_spends_iff]
    simp
  constructor
  · rintro ⟨combat, hc, hphase, hlocked, hpending, hability, hcharge, hunused⟩
    obtain ⟨ability, hability⟩ := Option.isSome_iff_exists.mp hability
    have hready := Combat.checkReady_eq_ok_iff.mpr ⟨hphase, hlocked, hpending⟩
    exact ⟨combat, ability, Run.readyCombat_eq_ok_iff.mpr ⟨hc, hready⟩, hability,
      (hused hc).mpr hunused, hcharge.ge⟩
  · rintro ⟨combat, ability, hready, hability, hunused, hcharge⟩
    obtain ⟨hc, hready⟩ := Run.readyCombat_eq_ok_iff.mp hready
    obtain ⟨hphase, hlocked, hpending⟩ := Combat.checkReady_eq_ok_iff.mp hready
    exact ⟨combat, hc, hphase, hlocked, hpending, hability ▸ rfl,
      Nat.le_antisymm (h combat hc).charge hcharge, (hused hc).mp hunused⟩

/-- At the start of a combat the ability is not charged and was not used. -/
theorem tended_of_started {enemies : List String}
    (hcall : rules.perform before (.start enemies) = .ok (none, after)) :
    after.InCombat (Combat.Tended after.events) ∧ UsesOnce after.events := by
  obtain ⟨s, t, m, hm, -, hrun, -, -, hcombat⟩ := undertakes_of_accepted hcall
  obtain ⟨told, hdrives⟩ := hm.drives rfl hrun
  have hfresh : s.combat.Tended [] ∧ s.combat.events.toList = [] := by
    generalize s.combat = combat at hm ⊢
    cases hm with
    | start _ hgather =>
        obtain ⟨nextCardUid, -, enemies, nextEnemyId, rfl, -⟩ := gather_spec hgather
        have hresources : (rules.startingResources before).abilityCharge = 0 ∧
            (rules.startingResources before).abilityUsedThisTurn = false := by
          unfold startingResources
          split <;> exact ⟨rfl, rfl⟩
        refine ⟨⟨?_, hresources.2⟩, rfl⟩
        exact hresources.1.trans_le (Nat.zero_le _)
  have hdrives := drives_endIfDecided hdrives
  have htold : after.events = told := by
    rw [Run.events_eq hcombat, hdrives.events, hfresh.2, List.nil_append]
  have hnone : UsesOnce [] := fun _ _ heq => absurd heq (by simp)
  rw [htold]
  refine ⟨fun combat hc => ?_, hdrives.usesOnce hnone nofun⟩
  obtain rfl := Option.some.inj (hcombat.symm.trans hc)
  exact hdrives.tended hfresh.1

/-- **What was reported in a combat** says whether the ability was used in this turn, and it was not
used twice in any. -/
theorem Recounts.tended (h : rules.Recounts log run) :
    run.InCombat (Combat.Tended log) ∧ UsesOnce log := by
  induction h with
  | started hcall => exact tended_of_started hcall
  | @accepted log before after call _ hcall hongoing ih =>
      obtain ⟨earlier, later, hc, hcombat, hdrives⟩ := drives_of_accepted hcall hongoing
      obtain ⟨htended, honce⟩ := ih
      refine ⟨fun combat hafter => ?_, hdrives.usesOnce honce fun hability => ?_⟩
      · obtain rfl := Option.some.inj (hcombat.symm.trans hafter)
        exact hdrives.tended (htended earlier hc)
      · subst hability
        obtain ⟨_, _, _, _, _, _, _, hunused⟩ :=
          (abilityReady_iff_charged htended).mpr (charged_of_accepted hcall)
        exact hunused
  | rejected _ hcall ih => exact run_of_rejected hcall ▸ ih
  | @left _ before _ ih =>
      refine ⟨fun combat hc => ?_, ih.2⟩
      rw [combat_leaveCombat] at hc
      exact absurd hc nofun
  | attended _ hc events locked ih =>
      refine ⟨fun combat hcombat => ?_, ih.2⟩
      obtain rfl := Option.some.inj hcombat
      exact ⟨(ih.1 _ hc).charge, (ih.1 _ hc).used⟩

/-- **When the ability can be used, and what that does**, after all that was reported up to now. -/
structure AbilityLaws (rules : Rules) (log : List Event) (run : Run) : Prop where
  /-- The charge is at most what the ability requires. -/
  bounded : run.InCombat fun combat =>
    combat.resources.abilityCharge ≤ combat.resources.abilityChargeRequired
  /-- Every call that is accepted charges the ability as it does, and reports that. -/
  accepted : ∀ {call after}, (∀ enemies, call ≠ .start enemies) →
    rules.perform run call = .ok (none, after) →
      ∃ earlier later, run.combat = some earlier ∧ after.combat = some later ∧
        Drives rules call (after.eventsSince run) earlier later
  /-- The ability is used if it can be, unless that overflows. -/
  accepted_iff : (∀ operation, rules.perform run .ability ≠ .error (.overflow operation)) →
    ((∃ after, rules.perform run .ability = .ok (none, after)) ↔ rules.AbilityReady log run)
  /-- Else the call is rejected. -/
  rejected : ¬rules.AbilityReady log run → rules.Rejects run .ability
  /-- A turn begins between two uses. -/
  once : ∀ earlier middle later,
    log = earlier ++ .heroAbility :: (middle ++ .heroAbility :: later) →
      ∃ turn, .turnStart turn ∈ middle

/-- **When the ability can be used**: in every run, whatever calls it has come through since the
start of a combat, the charge of the ability is at most what it requires, a play adds to it up to
that, and the ability can be used exactly if the combat waits for the player, the hero has an
ability, it is fully charged, and it was not used since the last turn of the player began. Then the
charge is gone; and between two uses a turn begins. -/
theorem abilityLaws_of_recounts (h : rules.Recounts log run) : rules.AbilityLaws log run := by
  obtain ⟨htended, honce⟩ := h.tended
  have hready : rules.AbilityReady log run ↔ rules.Charged run := abilityReady_iff_charged htended
  refine ⟨fun combat hc => (htended combat hc).charge,
    fun hongoing hcall => drives_of_accepted hcall hongoing, fun hfits => ?_, fun hnot => ?_,
    fun earlier middle later hlog => honce.exists_turnStart hlog⟩
  · rw [hready]
    refine ⟨fun ⟨after, hcall⟩ => charged_of_accepted hcall, fun hcharged => ?_⟩
    rcases succeeds_or_overflows h.hale hcharged with haccepted | ⟨operation, hoverflow⟩
    · exact haccepted
    · exact absurd hoverflow (hfits operation)
  · exact rejects_of_not_charged fun hcharged => hnot (hready.mpr hcharged)

end Rules

/-! ## An adept -/

/-- A hero whose ability is charged by two plays. -/
def adeptPack : Pack where
  cards :=
    [{ id := "stance", name := "Stance", theme := .skill, cost := .fixed 0
       effects := [.block (.fixed 1) .self] }]
  enemies := [{ id := "dummy", name := "Dummy", maxHealth := 8, moves := [] }]
  heroes :=
    [{ id := "adept", name := "Adept", maxHealth := 10, startingDeck := ["stance", "stance"]
       ability := some
         { name := "Focus", chargeRequired := 2, effects := [.energy (.fixed 1) .gain] } }]

def adeptRules : Rules where
  content := (Content.ofPack adeptPack).toOption.getD {}

/-- A run of that hero. -/
def adeptRun : Run :=
  { Run.ofHero "adept" 10 0 with
    deck := [{ uid := ⟨1⟩, definition := "stance" }, { uid := ⟨2⟩, definition := "stance" }] }

/-- The run after a combat has begun. -/
def adeptStarted : Run := adeptRules.after adeptRun (.start ["dummy"])

/-- The run after one play. -/
def adeptPlayed : Run := adeptRules.after adeptStarted (.play ⟨1⟩ none)

/-- The run after the other play, when the ability is charged. -/
def adeptCharged : Run := adeptRules.after adeptPlayed (.play ⟨2⟩ none)

/-- The run after the ability was used. -/
def adeptUsed : Run := adeptRules.after adeptCharged .ability

theorem adept_starts : adeptRules.perform adeptRun (.start ["dummy"]) = .ok (none, adeptStarted) :=
  Rules.perform_eq_of_answer (by decide +kernel)

theorem adept_plays : adeptRules.perform adeptStarted (.play ⟨1⟩ none) = .ok (none, adeptPlayed) :=
  Rules.perform_eq_of_answer (by decide +kernel)

theorem adept_charges :
    adeptRules.perform adeptPlayed (.play ⟨2⟩ none) = .ok (none, adeptCharged) :=
  Rules.perform_eq_of_answer (by decide +kernel)

theorem adept_uses : adeptRules.perform adeptCharged .ability = .ok (none, adeptUsed) :=
  Rules.perform_eq_of_answer (by decide +kernel)

namespace Rules

/-- After two plays the ability can be used, and then it cannot be used again in that turn. -/
theorem abilityLaws_of_adept : ∃ log, adeptRules.Recounts log adeptCharged ∧
    adeptRules.AbilityReady log adeptCharged ∧ adeptRules.Rejects adeptUsed .ability := by
  have hcharged : adeptRules.Recounts _ adeptCharged :=
    .accepted (.accepted (.started adept_starts) adept_plays nofun) adept_charges nofun
  have hused : adeptRules.Recounts _ adeptUsed := .accepted hcharged adept_uses nofun
  have hlaws := abilityLaws_of_recounts hcharged
  have hfits (operation : Operation) :
      adeptRules.perform adeptCharged .ability ≠ .error (.overflow operation) :=
    fun h => absurd (adept_uses.symm.trans h) nofun
  have hongoing (enemies : List String) : Call.ability ≠ .start enemies := nofun
  obtain ⟨_, _, _, _, hdrives⟩ := hlaws.accepted hongoing adept_uses
  obtain ⟨rest, htold, hother⟩ := hdrives.use rfl
  refine ⟨_, hcharged, (hlaws.accepted_iff hfits).mp ⟨_, adept_uses⟩,
    (abilityLaws_of_recounts hused).rejected fun ⟨_, _, _, _, _, _, _, hunused⟩ => hunused ?_⟩
  rw [htold]
  exact ⟨_, rest, rfl, fun turn hmem => absurd (hother _ hmem).2 (by simp [Event.isTurn])⟩

end Rules

end CardCombat
