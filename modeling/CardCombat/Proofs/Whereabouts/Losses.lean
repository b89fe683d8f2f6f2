import CardCombat.Proofs.Outcome.Phases
import CardCombat.Proofs.Uniqueness.Rest

/-!
# No card is lost unseen

There are two ways in which a card can be lost: a play of it is told to banish it, or it is taken
out of its pile for good. Either way the same step reports that the card was banished. So what the
ledger of cards says of losses can be read off the events: a card that lay in a pile before a call,
and in none after it, was reported as banished in between.

## Main definitions

* `Announcement` -- what was written down and reported between two scenes.
* `Announces` -- no loss goes without its report.

## Main results

* `Announces.governs` -- effects, turns and plays announce what is lost.
* `Rules.kept_or_banished` -- what becomes of the cards in the piles.
-/

namespace CardCombat

open Resolution

variable {rules : Rules} {s t v : Scene} {deeds : List Deed} {news : List Event} {u uid : CardUid}

/-- What was written down and reported between two scenes. Of every card that was lost it was
reported that it is banished. -/
structure Announcement (s t : Scene) (deeds : List Deed) (news : List Event) : Prop where
  chronicle : t.chronicle.toList = s.chronicle.toList ++ deeds
  events : t.combat.events.toList = s.combat.events.toList ++ news
  banished : ∀ u, ∀ deed ∈ deeds, deed.loses u → .banish u ∈ news

/-- No loss goes without its report. -/
def Announces (s t : Scene) : Prop := ∃ deeds news, Announcement s t deeds news

namespace Announces

theorem flow : Flow Announces where
  refl _ := ⟨[], [], (List.append_nil _).symm, (List.append_nil _).symm,
    fun _ _ hmem => absurd hmem List.not_mem_nil⟩
  trans h h' := by
    obtain ⟨deeds, news, h⟩ := h
    obtain ⟨deeds', news', h'⟩ := h'
    refine ⟨deeds ++ deeds', news ++ news', ?_, ?_, fun u deed hmem hloses => ?_⟩
    · rw [h'.chronicle, h.chronicle, List.append_assoc]
    · rw [h'.events, h.events, List.append_assoc]
    · rcases List.mem_append.mp hmem with hmem | hmem
      · exact List.mem_append_left _ (h.banished u deed hmem hloses)
      · exact List.mem_append_right _ (h'.banished u deed hmem hloses)

/-- Nothing was written down or reported. -/
theorem of_silence (hchronicle : t.chronicle = s.chronicle)
    (hevents : t.combat.events = s.combat.events) : Announces s t :=
  ⟨[], [], by rw [hchronicle, List.append_nil], by rw [hevents, List.append_nil],
    fun _ _ hmem => absurd hmem List.not_mem_nil⟩

theorem of_tell (s : Scene) (events : List Event) : Announces s (s.tell events) := by
  rw [Scene.tell_eq]
  exact ⟨[], events, (List.append_nil _).symm, by simp,
    fun _ _ hmem => absurd hmem List.not_mem_nil⟩

theorem tell (h : Announces s t) (events : List Event) : Announces s (t.tell events) :=
  flow.trans h (of_tell t events)

theorem report (h : Announces s t) (event : Event) : Announces s (t.report event) :=
  h.tell [event]

/-- Deeds by which no card is lost. -/
theorem of_deeds (hchronicle : t.chronicle.toList = s.chronicle.toList ++ deeds)
    (hevents : t.combat.events = s.combat.events)
    (h : ∀ u, ∀ deed ∈ deeds, ¬deed.loses u) : Announces s t :=
  ⟨deeds, [], hchronicle, by rw [hevents, List.append_nil],
    fun u deed hmem hloses => absurd hloses (h u deed hmem)⟩

theorem record (h : Announces s t) {deed : Deed} (hd : ∀ u, ¬deed.loses u) :
    Announces s (t.record deed) := by
  refine flow.trans h (@of_deeds t (t.record deed) [deed] (by simp [Scene.record]) rfl ?_)
  intro u other hmem
  exact List.mem_singleton.mp hmem ▸ hd u

/-- No card is lost when one comes into a pile. -/
theorem arrive (h : Announces s t) (card : Card) (pile : Pile) (placement : Placement) :
    Announces s (t.arrive card pile placement) :=
  flow.trans h (of_deeds chronicle_arrive rfl fun u deed hmem =>
    (Ledger.idle_landed card.uid pile u deed hmem).1)

/-- A deed is written down together with a report; if a card is lost by it, that is reported. -/
theorem of_deed {deed : Deed} {event : Event}
    (hchronicle : t.chronicle.toList = s.chronicle.toList ++ [deed])
    (hevents : t.combat.events = s.combat.events)
    (h : ∀ u, deed.loses u → event = .banish u) : Announces s (t.report event) := by
  refine ⟨[deed], [event], hchronicle, ?_, fun u other hmem hloses => ?_⟩
  · show (t.combat.events.push event).toList = _
    rw [hevents, Array.toList_push]
  · obtain rfl := List.mem_singleton.mp hmem
    exact List.mem_singleton.mpr (h u hloses).symm

theorem of_setCombatant (id : CombatantId) (combatant : Combatant) :
    Announces s (s.setCombatant id combatant) := by
  have hput : Announces s (s.putCombatant id combatant) := by
    refine of_silence rfl ?_
    unfold Scene.putCombatant Combat.setCombatant
    split <;> rfl
  unfold Scene.setCombatant
  split
  · exact hput.record fun _ => Bool.false_ne_true
  · exact hput

theorem of_bury : Announces s s.bury := by
  refine @of_deeds s s.bury (s.combat.reap.1.map .buried) (by simp [Scene.bury]) rfl
    fun u deed hmem => ?_
  obtain ⟨id, -, rfl⟩ := List.mem_map.mp hmem
  exact Bool.false_ne_true

theorem of_damages {source target : CombatantId} {outcome : DamageReport}
    (h : Damages source target outcome s t) : Announces s t := by
  cases h with
  | mk => exact flow.trans ((of_setCombatant _ _).report _) (of_silence rfl rfl)

/-! ## The steps -/

theorem of_step (h : Step rules Effect.Any s t) : Announces s t := by
  cases h with
  | drew | shuffled | drawn | issued => exact of_silence rfl rfl
  | told | energyNextTurn | milled | asked | offered =>
      refine report ?_ _
      exact of_silence rfl rfl
  | @reshuffled moved piles rng =>
      have hshuffled : Announces s { s.withPiles piles with rng } := of_silence rfl rfl
      have hmerged (u : CardUid) : ¬(Deed.merged moved).loses u := Bool.false_ne_true
      exact hshuffled.record hmerged
  | @moved uid source pile piles rng =>
      have hmoved : Announces s { s.withPiles piles with rng } := of_silence rfl rfl
      have hlanded (u : CardUid) : ¬(Deed.landed uid pile).loses u := Bool.false_ne_true
      exact (hmoved.record hlanded).report _
  | @brought uid source card piles =>
      have htaken : Announces s (s.withPiles piles) := of_silence rfl rfl
      exact (htaken.arrive _ _ _).report _
  | created =>
      have hissued : Announces s (s.issue 1) := of_silence rfl rfl
      exact (hissued.arrive _ _ _).report _
  | acted => exact (flow.refl s).record fun _ => Bool.false_ne_true
  | altered => exact (of_setCombatant _ _).tell _
  | damaged h => exact of_damages h
  | energy | gold =>
      refine tell ?_ _
      exact of_silence rfl rfl
  | @removed uid _ _ piles h =>
      have hchronicle : ((s.withPiles piles).record (.removed uid)).chronicle.toList =
          s.chronicle.toList ++ [.removed uid] := by
        simp [Scene.record, Scene.withPiles]
      exact of_deed hchronicle rfl fun u hloses => congrArg _ (eq_of_beq hloses)
  | @sent uid entry route event h he =>
      refine of_deed (chronicle_route _ _) rfl fun u hloses => ?_
      obtain ⟨hu, hbanished⟩ := Bool.and_eq_true_iff.mp hloses
      have huid : uid = u := eq_of_beq (Bool.and_eq_true_iff.mp hu).1
      have hroute : route = .banished := of_decide_eq_true hbanished
      rcases he with ⟨hdiscard, -⟩ | ⟨hexhaust, -⟩ | ⟨-, he⟩
      · exact absurd (hdiscard.symm.trans hroute) (by decide)
      · exact absurd (hexhaust.symm.trans hroute) (by decide)
      · rw [he, huid]
  | @recalled uid entry pile =>
      have hroute : Announces s (s.route uid entry.route .elsewhere) :=
        of_deeds (chronicle_route _ _) rfl fun u deed hmem hloses => by
          obtain rfl := List.mem_singleton.mp hmem
          exact absurd (Bool.and_eq_true_iff.mp hloses).2 (by decide)
      exact (hroute.arrive _ _ _).report _
  | @changed found card =>
      have hsilent : Announces s { s with combat := s.combat.modifyCard found.uid fun _ => card } :=
        of_silence rfl (Combat.same_modifyCard Combat.events fun _ _ => rfl)
      have hwritten : Announces s (s.alter found.uid card) :=
        hsilent.record fun _ => Bool.false_ne_true
      exact hwritten.report _

theorem of_blow (h : Blow rules s t) : Announces s t := by
  cases h with
  | damaged h => exact of_damages h
  | setHealth | executed => exact (of_setCombatant _ _).report _
  | died id => exact ((of_tell s [.death id]).record fun _ => Bool.false_ne_true)
  | counted => exact of_silence rfl rfl
  | acted => exact (flow.refl s).record fun _ => Bool.false_ne_true
  | buried => exact of_bury

theorem of_opens {card : Card} (h : Opens card s t) : Announces s t := by
  cases h with
  | mk => exact flow.trans ((flow.refl s).report (.replay card.uid)) (of_silence rfl rfl)

theorem of_closes (h : Closes rules uid s t) : Announces s t := by
  cases h with
  | nothing => exact flow.refl s
  | @mk played combat h =>
      obtain ⟨entry, -, h⟩ := Option.bind_eq_some_iff.mp h
      obtain ⟨rfl, rfl⟩ := Prod.mk.inj (Option.some.inj h)
      generalize Resolution.routeOf rules entry = route
      obtain ⟨deeds, hidle, hchronicle⟩ := @chronicle_putAway _ entry.card route
      have hkept (u : CardUid) (deed : Deed) (hmem : deed ∈ deeds) : ¬deed.loses u :=
        (hidle u deed hmem).1
      cases route with
      | exhaust =>
          exact ⟨deeds, [.exhaust entry.card.uid], hchronicle, Array.toList_push,
            fun u deed hmem hloses => absurd hloses (hkept u deed hmem)⟩
      | discard | banished | elsewhere => exact of_deeds hchronicle rfl hkept

theorem of_upkeep (h : Upkeep rules s t) : Announces s t := by
  cases h with
  | told => exact (flow.refl s).report _
  | decayed | eased | bared | moved => exact of_setCombatant _ _
  | @declared id before enemy template chosen rng hc =>
      have hdrawn : Announces s { s with rng } := of_silence rfl rfl
      exact flow.trans hdrawn (of_setCombatant _ _)
  | released | turned | charged | discharged => exact of_silence rfl rfl

theorem of_enters {card : Card} {cost : Int} (h : Enters card cost s t) : Announces s t := by
  cases h with
  | @mk piles paid cardsPlayedThisTurn cardsPlayed h hp =>
      have htaken : Announces s (s.withPiles piles) := of_silence rfl rfl
      have hpaid : Announces (s.withPiles piles) paid := by
        cases hp with
        | nothing => exact flow.refl _
        | energy =>
            refine report ?_ _
            exact of_silence rfl rfl
      exact flow.trans htaken (flow.trans hpaid (of_silence rfl rfl))

/-- **Effects announce what is lost**, at any depth. -/
theorem prevails : Prevails rules Effect.Any Announces :=
  ⟨flow, of_step, of_blow, of_opens, of_closes⟩

/-- **Turns and plays announce what is lost.** -/
theorem governs : Governs rules Effect.Any Announces := by
  refine prevails.governs rules.content.permits_any of_upkeep of_enters
    (fun _ _ => of_silence rfl rfl) fun {s id combatant intent ctx a t} _ _ hrun => ?_
  exact flow.trans ((flow.refl s).report (.intent id intent.name))
    ((prevails.carryOut rules.content.permits_any (fun _ _ => trivial) ctx).rel hrun)

end Announces

/-! ## Where the cards of the piles are afterwards -/

/-- Among the deeds that a ledger explains, a card that is in no pile any more has a loss. -/
theorem exists_loses_of_not_mem (h : Ledger s t deeds) (hs : s.combat.inPlay = [])
    (ht : t.combat.inPlay = []) (hu : u ∈ s.combat.piles.uids) (hgone : u ∉ t.combat.piles.uids) :
    ∃ deed ∈ deeds, deed.loses u := by
  obtain ⟨born, -, -, -, hcopies⟩ := h.entry u
  rw [Combat.copies_of_inPlay hs, Combat.copies_of_inPlay ht] at hcopies
  have hbefore := Piles.count_pos_iff.mpr hu
  have hafter : t.combat.piles.count u = 0 := List.count_eq_zero.mpr hgone
  have hlost : 0 < deeds.countP (·.loses u) := by omega
  exact List.countP_pos_iff.mp hlost

/-- A resolution that keeps the ledger and announces what is lost, with nothing in play before it:
what it has reported tells which cards of the piles are in none any more. -/
theorem Keeps.mem_or_banished (h : Keeps s t) (ha : Announces s t) (hs : s.combat.inPlay = []) :
    ∃ news, t.combat.events.toList = s.combat.events.toList ++ news ∧
      ∀ u ∈ s.combat.piles.uids, u ∈ t.combat.piles.uids ∨ .banish u ∈ news := by
  obtain ⟨⟨deeds, hledger⟩, hplaying⟩ := h
  obtain ⟨deeds', news, hnews⟩ := ha
  obtain rfl : deeds = deeds' :=
    List.append_cancel_left (hledger.chronicle.symm.trans hnews.chronicle)
  have ht : t.combat.inPlay = [] := Combat.inPlay_of_playing hplaying hs
  refine ⟨news, hnews.events, fun u hu => ?_⟩
  by_cases hgone : u ∈ t.combat.piles.uids
  · exact .inl hgone
  · obtain ⟨deed, hmem, hloses⟩ := exists_loses_of_not_mem hledger hs ht hu hgone
    exact .inr (hnews.banished u deed hmem hloses)

/-- The answer to a selection, that to a discovery included: new cards only add to the piles. -/
theorem Resolution.settleSelection_mem_or_banished {selection : Selection} {chosen : List CardUid}
    (ha : Announces s t) (hs : s.combat.inPlay = [])
    (h : (settleSelection rules selection chosen).run s = .ok ((), t)) :
    ∃ news, t.combat.events.toList = s.combat.events.toList ++ news ∧
      ∀ u ∈ s.combat.piles.uids, u ∈ t.combat.piles.uids ∨ .banish u ∈ news := by
  by_cases hnew : ∃ pile, selection.kind = .discover pile
  · obtain ⟨pile, hkind⟩ := hnew
    obtain ⟨deeds, news, hnews⟩ := ha
    obtain ⟨_, _, hforget, h⟩ := run_bind_iff.mp h
    obtain rfl := run_modifyCombat_iff.mp hforget
    rw [hkind] at h
    obtain ⟨-, -, -, -, hcount⟩ := discovered_of_run h
    refine ⟨news, hnews.events, fun u hu => .inl (Piles.count_pos_iff.mp ?_)⟩
    rw [hcount]
    exact Nat.add_pos_left (Piles.count_pos_iff.mpr hu) _
  · have hkeeps := @settleSelection_keeps rules selection
      (fun pile hkind => hnew ⟨pile, hkind⟩) chosen
    exact Keeps.mem_or_banished (hkeeps h) ha hs

namespace Rules

variable {run run' : Run} {call : Call} {before : Combat} {m : Resolution Unit}

/-- Whatever a call sets going in a combat that goes on loses no card unseen. -/
theorem undertaken_mem_or_banished {combat : Combat} (hm : Undertakes rules run call combat m)
    (hnew : ∀ enemies, call ≠ .start enemies) (hs : s.combat.inPlay = [])
    (h : m.run s = .ok ((), t)) :
    ∃ news, t.combat.events.toList = s.combat.events.toList ++ news ∧
      ∀ u ∈ s.combat.piles.uids, u ∈ t.combat.piles.uids ∨ .banish u ∈ news := by
  have hdeal (s : Scene) (card : Card) (pile : Pile) : Announces s (s.deal rules card pile) :=
    ((Announces.flow.refl s).arrive card _ .bottom).report _
  have ha : Announces s t := Announces.governs.undertakes rules.content.permits_any
    (fun _ => .of_silence rfl rfl) (fun _ => .of_silence rfl rfl) (fun _ => .of_silence rfl rfl)
    hdeal hm h
  cases hm with
  | start => exact absurd rfl (hnew _)
  | play => exact Keeps.mem_or_banished (play_keeps _ _ h) ha hs
  | ability => exact Keeps.mem_or_banished (useAbility_keeps _ h) ha hs
  | select => exact settleSelection_mem_or_banished ha hs h
  | endTurn => exact Keeps.mem_or_banished (passTurn_keeps h) ha hs

/-- **No card is lost unseen**: with nothing in play, every card that lies in a pile before an
accepted call lies in one after it, or it was reported during the call that it is banished. -/
theorem kept_or_banished (hc : run.combat = some before) (hplay : before.inPlay = [])
    (hnew : ∀ enemies, call ≠ .start enemies) (h : rules.perform run call = .ok (none, run')) :
    ∃ after news, run'.combat = some after ∧
      after.events.toList = before.events.toList ++ news ∧
        ∀ u ∈ before.piles.uids, u ∈ after.piles.uids ∨ .banish u ∈ news := by
  obtain ⟨s, t, m, hm, -, hrun, -, -, hcombat⟩ := undertakes_of_accepted h
  obtain rfl : s.combat = before := Option.some.inj ((hm.combat_eq hnew).symm.trans hc)
  obtain ⟨news, hevents, hkept⟩ := undertaken_mem_or_banished hm hnew hplay hrun
  rw [Combat.endIfDecided_eq] at hcombat
  exact ⟨_, news, hcombat, hevents, hkept⟩

/-- Where the bolt is after it has struck. -/
theorem kept_or_banished_bolt :
    ∃ before after news, boltStarted.combat = some before ∧ before.piles.uids = [⟨1⟩] ∧
      boltPlayed.combat = some after ∧ after.events.toList = before.events.toList ++ news ∧
        ((⟨1⟩ : CardUid) ∈ after.piles.uids ∨ .banish ⟨1⟩ ∈ news) := by
  have hstate : boltStarted.combat.map (fun combat => (combat.inPlay, combat.piles.uids)) =
      some ([], [⟨1⟩]) := by
    decide +kernel
  obtain ⟨before, hc, hstate⟩ := Option.map_eq_some_iff.mp hstate
  obtain ⟨hplay, huids⟩ := Prod.mk.inj hstate
  obtain ⟨after, news, hafter, hevents, hkept⟩ :=
    kept_or_banished hc hplay (fun _ => by simp) bolt_strikes
  have hmem : (⟨1⟩ : CardUid) ∈ before.piles.uids := huids ▸ List.mem_singleton_self _
  exact ⟨before, after, news, hc, huids, hafter, hevents, hkept ⟨1⟩ hmem⟩

end Rules

end CardCombat
