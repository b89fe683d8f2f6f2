import CardCombat.Proofs.Action.Calls
import CardCombat.Proofs.Resources.Balance

/-!
# What calls write into the books

A card that is played out of the hand is paid for, and that is told like any other change of energy.
So the books are kept by plays, by uses of the ability and by answers to selections, from the run
before to the run after. Only where a turn of the player begins is there new energy of which the
books tell nothing. A card that is carried out again, or that is played off the deck, is not paid
for: whatever energy goes in or out then is due to the effects of that card.

## Main definitions

* `Call.IsMove` -- the calls of a player in its turn.
* `Uncharged` -- energy is what it was, and no event tells of it.

## Main results

* `booked_governs` -- turns and plays keep the books.
* `uncharged_prevails` -- without energy effects energy is not charged.
* `Rules.books_kept` -- effects and calls keep the books.
-/

namespace CardCombat

open Resolution

variable {rules : Rules} {s t : Scene}

/-! ## Turns and plays -/

namespace Booked

variable {charges : Prop}

theorem of_upkeep (h : Upkeep rules s t) : Booked charges s t := by
  cases h with
  | told h => exact (flow.refl s).report h.isAside
  | decayed | eased | bared | moved => exact of_setCombatant _ _
  | @declared id before enemy template chosen rng =>
      have hdrawn : Booked charges s { s with rng } := of_same rfl
      exact flow.trans hdrawn (of_setCombatant _ _)
  | released | turned | charged | discharged => exact of_same rfl

/-- A card that comes into play was paid for with what the books tell. -/
theorem of_enters {card : Card} {cost : Int} (hc : charges) (h : Enters card cost s t) :
    Booked charges s t := by
  cases h with
  | @mk piles paid cardsPlayedThisTurn cardsPlayed htake hpays =>
      have htaken : Booked charges s (s.withPiles piles) := of_same rfl
      have hpaid : Booked charges (s.withPiles piles) paid := by
        cases hpays with
        | nothing => exact flow.refl _
        | energy hsub hneg =>
            obtain ⟨-, rfl⟩ := Signed.sub_eq_ok_iff.mp hsub
            obtain ⟨-, rfl⟩ := Signed.check_eq_ok_iff.mp hneg
            exact charge Int.sub_eq_add_neg hc
      exact flow.trans htaken (flow.trans hpaid (of_same rfl))

end Booked

/-- **Turns and plays keep the books.** -/
theorem booked_governs :
    Governs rules Effect.Any (Booked (∃ value change, Effect.Any (.energy value change))) := by
  have hcharges : ∃ value change, Effect.Any (.energy value change) := ⟨.one, .gain, trivial⟩
  refine booked_prevails.governs rules.content.permits_any Booked.of_upkeep
    (Booked.of_enters hcharges) (fun _ _ => .of_same rfl)
    fun {s id combatant intent ctx a t} _ _ hrun => ?_
  have haside : (Event.intent id intent.name).IsAside := ⟨rfl, rfl⟩
  exact Booked.flow.trans ((Booked.flow.refl s).report haside)
    ((booked_prevails.carryOut rules.content.permits_any (fun _ _ => trivial) ctx).rel hrun)

/-! ## What is not charged -/

/-- Energy is what it was, and nothing that was told tells of it. -/
def Uncharged (s t : Scene) : Prop :=
  t.combat.resources.energy = s.combat.resources.energy ∧
    ∃ told : List Event, t.combat.events = s.combat.events ++ told.toArray ∧
      Event.energyPostings told = []

namespace Uncharged

theorem flow : Flow Uncharged where
  refl _ := ⟨rfl, [], by simp, rfl⟩
  trans := by
    rintro s t u ⟨henergy, told, htold, hnone⟩ ⟨henergy', told', htold', hnone'⟩
    refine ⟨henergy'.trans henergy, told ++ told', ?_, ?_⟩
    · rw [htold', htold, Array.append_assoc, List.append_toArray told told']
    · rw [Event.energyPostings_append, hnone, hnone', List.append_nil]

theorem of_booked {charges : Prop} (hno : ¬charges) (h : Booked charges s t) : Uncharged s t := by
  obtain ⟨told, h, hnone⟩ := h
  refine ⟨?_, told, h.events, hnone hno⟩
  have hlast := h.energy.last_eq
  rw [hnone hno, Posting.total, Int.add_zero] at hlast
  exact hlast

end Uncharged

/-- Without energy effects no energy is charged. -/
theorem uncharged_prevails {may : Effect → Prop}
    (hno : ¬∃ value change, may (.energy value change)) : Prevails rules may Uncharged where
  flow := Uncharged.flow
  step h := .of_booked hno (.of_step h)
  blow h := .of_booked hno (.of_blow h)
  opens h := .of_booked hno (.of_opens h)
  closes h := .of_booked hno (.of_closes h)

/-- **Replays and plays off the deck charge nothing**, if the effects of the cards do not. -/
theorem uncharged_replays {nested : List Effect → Context → Resolution Unit}
    (hnested : ∀ effects ctx, Ensures Uncharged (nested effects ctx)) (ctx : Context) :
    (∀ target times, Ensures Uncharged (dispatch rules nested ctx (.replayCard target times))) ∧
      ∀ count, Ensures Uncharged (dispatch rules nested ctx (.playTopCard count)) := by
  have hno : ¬∃ value change, ∀ other change', Effect.energy value change ≠ .energy other change' :=
    fun ⟨value, change, h⟩ => h value change rfl
  have hcarries : Carries rules (fun effect => ∀ other change', effect ≠ .energy other change')
      nested Uncharged := (uncharged_prevails hno).carries nested hnested
  exact ⟨fun target times => hcarries.replayCards target times,
    fun count => hcarries.playTopCards count⟩

/-! ## Runs -/

/-- The calls of a player in its turn, but for the one that ends it. -/
def Call.IsMove : Call → Prop
  | .play .. | .ability | .select _ => True
  | .start _ | .endTurn => False

namespace Run

/-- The holdings of the player, if there is a combat. -/
def holdings? (run : Run) : Option Holdings :=
  run.combat.map fun combat =>
    { energy := combat.resources.energy, gold := run.gold, goldEarned := run.stats.goldEarned
      events := combat.events }

variable {run run' : Run}

/-- The end of a combat leaves the holdings alone. -/
theorem holdings?_conclude (h : run.conclude = .ok run') : run'.holdings? = run.holdings? := by
  unfold conclude at h
  split at h
  case h_1 => exact Except.ok.inj h ▸ rfl
  case h_2 combat hc =>
    split at h
    · exact Except.ok.inj h ▸ rfl
    · split at h
      case h_1 => exact Except.ok.inj h ▸ rfl
      case h_2 phase ended hended =>
        have hended : ended = { combat with phase := ended.phase } := by
          have heq := combat.endIfDecided_eq
          rw [hended] at heq
          exact heq
        have hkept {combatsWon : Nat} {last : Run} (h : last = { run with
            combat := some ended, health := ended.player.health
            maxHealth := ended.player.maxHealth, stats := { run.stats with combatsWon } }) :
            last.holdings? = run.holdings? := by
          rw [h, holdings?, holdings?, hc, hended]
          rfl
        split at h
        · obtain ⟨combatsWon, -, h⟩ := bind_eq_ok.mp h
          exact hkept (Except.ok.inj h).symm
        · exact hkept (Except.ok.inj h).symm

/-- A resolution is carried out: the holdings after it are those of the scene that it leaves. -/
theorem holdings?_advance {combat : Combat} {m : Resolution Unit} (hc : run.combat = some combat)
    (h : run.advance m = .ok run') :
    ∃ s t, s.combat = combat ∧ m.run s = .ok ((), t) ∧ run.holdings? = some s.holdings ∧
      run'.holdings? = some t.holdings := by
  obtain ⟨resolved, hresolve, hconclude⟩ := bind_eq_ok.mp h
  unfold resolve scene? at hresolve
  rw [hc] at hresolve
  obtain ⟨⟨⟨⟩, t⟩, hrun, hresolved⟩ := bind_eq_ok.mp hresolve
  obtain rfl := Except.ok.inj hresolved
  refine ⟨_, t, rfl, hrun, ?_, holdings?_conclude hconclude⟩
  rw [holdings?, hc]
  rfl

end Run

/-- What a call of the player in its turn sets going keeps the books. -/
theorem booked_of_move {run : Run} {call : Call} {combat : Combat} {m : Resolution Unit}
    (hmove : call.IsMove) (hm : Undertakes rules run call combat m) :
    Ensures (Booked (∃ value change, Effect.Any (.energy value change))) m := by
  cases hm with
  | start | endTurn => exact hmove.elim
  | play => exact booked_governs.play (fun _ _ _ => trivial) _
  | ability => exact booked_governs.useAbility fun _ _ => trivial
  | select =>
      refine booked_governs.settleSelection (fun _ => .of_same rfl) (fun pile _ s card _ => ?_) _
      have harrived : Booked (∃ value change, Effect.Any (.energy value change)) s
          (s.arrive card (s.landing rules pile) .bottom) := .of_same rfl
      have haside : (Event.addCard card.uid card.definition (s.landing rules pile)).IsAside :=
        ⟨rfl, rfl⟩
      exact harrived.report haside

/-- **The books are kept.** Whatever the content is, effects tell of all that becomes of energy and
gold; so does every accepted play, use of the ability and answer to a selection; and replays and
plays off the deck charge no energy themselves. -/
theorem Rules.books_kept (rules : Rules) :
    (∀ effects ctx s t, (carryOut rules effects ctx).run s = .ok ((), t) →
      ∃ told, Reconciles told s.holdings t.holdings) ∧
    (∀ run call run', call.IsMove → rules.perform run call = .ok (none, run') →
      ∃ before after told, run.holdings? = some before ∧ run'.holdings? = some after ∧
        Reconciles told before after) ∧
    ∀ nested, (∀ effects ctx, Ensures Uncharged (nested effects ctx)) → ∀ ctx,
      (∀ target times, Ensures Uncharged (dispatch rules nested ctx (.replayCard target times))) ∧
        ∀ count, Ensures Uncharged (dispatch rules nested ctx (.playTopCard count)) := by
  refine ⟨fun effects ctx s t h => ?_, fun run call run' hmove h => ?_,
    fun nested hnested => uncharged_replays hnested⟩
  · obtain ⟨told, hreconciles, -⟩ :=
      (booked_prevails.carryOut rules.content.permits_any (fun _ _ => trivial) ctx).rel h
    exact ⟨told, hreconciles⟩
  · obtain ⟨started, combat, m, hsame, -, -, hc, hm, hadvance⟩ := advances_of_accepted h
    obtain rfl : started = run := hsame fun enemies heq => by rw [heq] at hmove; exact hmove
    obtain ⟨s, t, rfl, hrun, hbefore, hafter⟩ := Run.holdings?_advance hc hadvance
    obtain ⟨told, hreconciles, -⟩ := booked_of_move hmove hm hrun
    exact ⟨_, _, told, hbefore, hafter, hreconciles⟩

/-! ## A pawned ring -/

/-- A card that brings gold and loses it again and has the hand carried out, and a card that gives
energy. -/
def pawnRules : Rules where
  content :=
    { cards := (Catalog.empty.put "pawn"
        { id := "pawn", name := "Pawn", theme := .skill, cost := .fixed 2
          effects := [.gold (.fixed 5) .gain, .gold (.fixed 9) .lose,
            .replayCard .hand .one] }).put "nap"
        { id := "nap", name := "Nap", theme := .skill, cost := .fixed 1
          effects := [.energy (.fixed 1) .gain] }
      powers := .empty
      enemies := Catalog.empty.put "dummy"
        { id := "dummy", name := "Dummy", maxHealth := 20, moves := [] } }

/-- A run with these cards. -/
def pawnRun : Run where
  hero := ""
  health := 10
  maxHealth := 10
  deck := [{ uid := ⟨1⟩, definition := "pawn" }, { uid := ⟨2⟩, definition := "nap" }]
  rng := .ofSeed 0

/-- The run after a combat has begun. -/
def pawnStarted : Run := pawnRules.after pawnRun (.start ["dummy"])

/-- The run after the first card was played. -/
def pawnPlayed : Run := pawnRules.after pawnStarted (.play ⟨1⟩ none)

/-- The card that was carried out again was not paid for: two energy go, and one comes. -/
theorem Rules.books_kept_pawn :
    (∃ before after told, pawnStarted.holdings? = some before ∧
      pawnPlayed.holdings? = some after ∧ Reconciles told before after) ∧
    pawnPlayed.holdings?.map (fun after => (after.energy, after.gold, after.goldEarned)) =
      some (2, 0, 5) ∧
    pawnPlayed.holdings?.map (fun after => Event.energyPostings after.events.toList) =
      some [⟨-2, 1⟩, ⟨1, 2⟩] ∧
    pawnPlayed.holdings?.map (fun after => Event.goldPostings after.events.toList) =
      some [⟨5, 5⟩, ⟨-5, 0⟩] := by
  have hplayed : pawnRules.perform pawnStarted (.play ⟨1⟩ none) = .ok (none, pawnPlayed) :=
    perform_eq_of_answer (by decide +kernel)
  exact ⟨(books_kept pawnRules).2.1 pawnStarted (.play ⟨1⟩ none) pawnPlayed trivial hplayed,
    by decide +kernel, by decide +kernel, by decide +kernel⟩

end CardCombat
