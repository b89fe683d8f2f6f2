import CardCombat.Proofs.Uniqueness.Turns

/-!
# What becomes of banished cards

A card comes into a combat once: it lies in the deck, it is created, or it is dealt as the answer to
a discovery. From then on its copies are accounted for by what was written down: every revival has
brought one about, and every loss has taken one away. It is reported that a card is banished only
where the card is, so a card of which that was reported has come.

## Main definitions

* `Combat.Away`, `Combat.Come` -- whether a card has come, and how many copies there are then.
* `Combat.Accounted` -- every card stands as what was written down and reported says.
* `CardAccount` -- what happens between two scenes leaves every card accounted for.

## Main results

* `Step.accounts`, `Blow.accounts`, `Upkeep.accounts` -- the kinds of steps.
* `accounts_governs` -- effects, turns and plays leave every card accounted for.
-/

namespace CardCombat

open Resolution

variable {rules : Rules} {s t v : Scene} {u uid : CardUid} {card : Card} {deeds deeds' : List Deed}
  {news news' : List Event}

/-! ## How a card stands -/

namespace Combat

/-- The card is among those that a discovery offers. -/
def Proffers (combat : Combat) (u : CardUid) : Prop :=
  ∃ selection pile, combat.pending = some selection ∧ selection.kind = .discover pile ∧
    u ∈ selection.candidates.map (·.uid)

/-- The card has not come yet: it is nowhere, and nothing was done with it. -/
structure Away (u : CardUid) (deeds : List Deed) (news : List Event) (combat : Combat) : Prop where
  notHeld : ¬combat.Holds u
  even : deeds.countP (·.loses u) = deeds.countP (·.revives u)
  unheard : .banish u ∉ news

/-- The card has come and will not come a second time. It has one copy, one more for each revival
and one less for each loss. -/
structure Come (u : CardUid) (deeds : List Deed) (combat : Combat) : Prop where
  number : u.number < combat.nextCardUid
  notProffered : ¬combat.Proffers u
  copies : combat.copies u + deeds.countP (·.loses u) = deeds.countP (·.revives u) + 1

/-- Every card stands as what was written down and reported says, and the new cards of a discovery
have their numbers, each its own. -/
structure Accounted (deeds : List Deed) (news : List Event) (combat : Combat) : Prop where
  offer : ∀ selection pile, combat.pending = some selection → selection.kind = .discover pile →
    (selection.candidates.map (·.uid)).Nodup ∧
      ∀ card ∈ selection.candidates, card.uid.number < combat.nextCardUid
  standing : ∀ u, combat.Away u deeds news ∨ combat.Come u deeds

theorem copies_eq_zero {combat : Combat} (h : ¬combat.Holds u) : combat.copies u = 0 := by
  have hpiles : combat.piles.count u = 0 := Nat.eq_zero_of_not_pos fun hpos => h (.inl hpos)
  have hplays : combat.inPlay.countP (·.returns u) = 0 := by
    refine List.countP_eq_zero.mpr fun entry hmem hreturns => h (.inr ?_)
    have huid : entry.card.uid = u := eq_of_beq (Bool.and_eq_true_iff.mp hreturns).1
    exact List.mem_map.mpr ⟨entry, hmem, huid⟩
  rw [copies, hpiles, hplays]

/-- A card that is offered as new has a number. -/
theorem Accounted.number_lt_of_proffers {combat : Combat} (h : combat.Accounted deeds news)
    (hu : combat.Proffers u) : u.number < combat.nextCardUid := by
  obtain ⟨selection, pile, hpending, hkind, hmem⟩ := hu
  obtain ⟨card, hcard, rfl⟩ := List.mem_map.mp hmem
  exact (h.offer selection pile hpending hkind).2 card hcard

/-- **A card of which it was reported that it is banished has come.** -/
theorem Accounted.come_of_banished {combat : Combat} (h : combat.Accounted deeds news)
    (hu : .banish u ∈ news) : combat.Come u deeds :=
  (h.standing u).resolve_left fun haway => haway.unheard hu

/-- A card that is offered as new has not come. -/
theorem Accounted.away_of_proffers {combat : Combat} (h : combat.Accounted deeds news)
    (hu : combat.Proffers u) : combat.Away u deeds news :=
  (h.standing u).resolve_right fun hcome => hcome.notProffered hu

/-- Deeds that do not move cards change nothing about how they stand. -/
theorem Accounted.idle {combat : Combat} (h : combat.Accounted deeds news)
    (hidle : Ledger.Idle deeds') : combat.Accounted (deeds ++ deeds') news := by
  refine ⟨h.offer, fun u => ?_⟩
  have hlosses : (deeds ++ deeds').countP (·.loses u) = deeds.countP (·.loses u) := by
    rw [List.countP_append, (hidle.countP_eq u).1, Nat.add_zero]
  have hrevivals : (deeds ++ deeds').countP (·.revives u) = deeds.countP (·.revives u) := by
    rw [List.countP_append, (hidle.countP_eq u).2, Nat.add_zero]
  refine (h.standing u).imp (fun haway => ⟨haway.notHeld, ?_, haway.unheard⟩)
    fun hcome => ⟨hcome.number, hcome.notProffered, ?_⟩
  · rw [hlosses, hrevivals]
    exact haway.even
  · rw [hlosses, hrevivals]
    exact hcome.copies

/-- How a card stands depends only on what the combat says of cards. -/
theorem Come.of_table {combat combat' : Combat} (h : combat.Come u deeds)
    (ht : combat'.table = combat.table) : combat'.Come u deeds := by
  obtain ⟨hpiles, ht⟩ := Prod.mk.inj ht
  obtain ⟨hplay, ht⟩ := Prod.mk.inj ht
  obtain ⟨hnext, hpending⟩ := Prod.mk.inj ht
  obtain ⟨hnumber, hoffer, hcopies⟩ := h
  refine ⟨hnext ▸ hnumber, ?_, ?_⟩
  · unfold Proffers at hoffer ⊢
    rwa [hpending]
  · unfold Combat.copies at hcopies ⊢
    rwa [hpiles, hplay]

theorem Accounted.of_table {combat combat' : Combat} (h : combat.Accounted deeds news)
    (ht : combat'.table = combat.table) : combat'.Accounted deeds news := by
  have hcome (u : CardUid) (hu : combat.Come u deeds) : combat'.Come u deeds := hu.of_table ht
  obtain ⟨hpiles, ht⟩ := Prod.mk.inj ht
  obtain ⟨hplay, ht⟩ := Prod.mk.inj ht
  obtain ⟨hnext, hpending⟩ := Prod.mk.inj ht
  refine ⟨fun selection pile hsome hkind => ?_, fun u => (h.standing u).imp (fun haway => ?_)
    (hcome u)⟩
  · rw [hnext]
    exact h.offer selection pile (hpending ▸ hsome) hkind
  · refine ⟨?_, haway.even, haway.unheard⟩
    have hnot := haway.notHeld
    unfold Holds playing at hnot ⊢
    rwa [hpiles, hplay]

end Combat

/-! ## Accounts -/

/-- What happens between two scenes keeps the ledger, appends to the events, and leaves every card
accounted for. -/
structure CardAccount (s t : Scene) (deeds : List Deed) (news : List Event) : Prop where
  ledger : Ledger s t deeds
  events : t.combat.events.toList = s.combat.events.toList ++ news
  accounted : ∀ past told, s.combat.Accounted past told →
    t.combat.Accounted (past ++ deeds) (told ++ news)

/-- There is an account of what happens between two scenes. -/
def Accounts (s t : Scene) : Prop := ∃ deeds news, CardAccount s t deeds news

theorem CardAccount.trans (h : CardAccount s t deeds news) (h' : CardAccount t v deeds' news') :
    CardAccount s v (deeds ++ deeds') (news ++ news') where
  ledger := h.ledger.trans h'.ledger
  events := by rw [h'.events, h.events, List.append_assoc]
  accounted past told hs := by
    rw [← List.append_assoc, ← List.append_assoc]
    exact h'.accounted _ _ (h.accounted past told hs)

/-- Events were appended, and only of cards that are somewhere it was reported that they are
banished. -/
def Reports (s t : Scene) (news : List Event) : Prop :=
  t.combat.events.toList = s.combat.events.toList ++ news ∧
    ∀ u, .banish u ∈ news → s.combat.Holds u

namespace Reports

/-- Nothing was reported. -/
theorem silence (h : t.combat.events = s.combat.events) : Reports s t [] :=
  ⟨by rw [h, List.append_nil], fun _ hmem => absurd hmem List.not_mem_nil⟩

theorem tell (h : t.combat.events = s.combat.events)
    (he : ∀ u, .banish u ∈ news → s.combat.Holds u) : Reports s (t.tell news) news := by
  refine ⟨?_, he⟩
  rw [Scene.tell_eq, ← h]
  simp

theorem report (h : t.combat.events = s.combat.events) {event : Event}
    (he : ∀ u, event = .banish u → s.combat.Holds u) : Reports s (t.report event) [event] :=
  tell h fun u hmem => he u (List.mem_singleton.mp hmem).symm

end Reports

/-- **What keeps the ledger leaves every card accounted for**, if it reports only of cards that are
somewhere that they are banished, and if it leaves the selection alone. -/
theorem CardAccount.of_ledger (hl : Ledger s t deeds) (hr : Reports s t news)
    (hp : t.combat.pending = s.combat.pending) : CardAccount s t deeds news := by
  refine ⟨hl, hr.1, fun past told hs => ?_⟩
  have hnext := hl.next
  have hproffers (u : CardUid) : t.combat.Proffers u ↔ s.combat.Proffers u := by
    unfold Combat.Proffers
    rw [hp]
  refine ⟨fun selection pile hpending hkind => ?_, fun u => ?_⟩
  · obtain ⟨hnodup, hnumbers⟩ := hs.offer selection pile (hp ▸ hpending) hkind
    exact ⟨hnodup, fun card hmem => Nat.lt_of_lt_of_le (hnumbers card hmem) hnext⟩
  · obtain ⟨born, honce, hborn, hholds, hcopies⟩ := hl.entry u
    have hlosses := @List.countP_append _ (·.loses u) past deeds
    have hrevivals := @List.countP_append _ (·.revives u) past deeds
    rcases hs.standing u with ⟨hheld, heven, hnews⟩ | ⟨hnumber, hoffer, hbalance⟩
    · have hbefore := Combat.copies_eq_zero hheld
      by_cases hone : born = 1
      · refine .inr ⟨(hborn hone).2, fun hoffer => ?_, by omega⟩
        have hnumber := hs.number_lt_of_proffers ((hproffers u).mp hoffer)
        have := (hborn hone).1
        omega
      · have hafter : ¬t.combat.Holds u := fun h => (hholds h).elim hheld hone
        have hnone := Combat.copies_eq_zero hafter
        refine .inl ⟨hafter, by omega, fun hmem => ?_⟩
        exact (List.mem_append.mp hmem).elim hnews fun hmem => hheld (hr.2 u hmem)
    · have hold : ¬born = 1 := fun hone => by
        have := (hborn hone).1
        omega
      exact .inr ⟨by omega, fun h => hoffer ((hproffers u).mp h), by omega⟩

/-- **Cards that stay where they are** stay accounted for while a selection comes up, since those
that it offers as new have not come yet, and while one is forgotten. -/
theorem CardAccount.of_table (hl : Ledger s t deeds) (hr : Reports s t news)
    (hchronicle : t.chronicle = s.chronicle) (hpiles : t.combat.piles = s.combat.piles)
    (hplay : t.combat.inPlay = s.combat.inPlay)
    (hp : s.combat.pending = none ∨ t.combat.pending = none) : CardAccount s t deeds news := by
  obtain rfl : deeds = [] := by simpa [hchronicle] using hl.chronicle
  refine ⟨hl, hr.1, fun past told hs => ?_⟩
  have hfresh {selection : Selection} (hpending : t.combat.pending = some selection) :
      selection.IsFresh s t := by
    rcases hp with hnone | hnone
    · exact (hl.offer selection hpending).resolve_left fun h => absurd (hnone.symm.trans h) nofun
    · exact absurd (hnone.symm.trans hpending) nofun
  have hheld (u : CardUid) : t.combat.Holds u ↔ s.combat.Holds u := by
    unfold Combat.Holds Combat.playing
    rw [hpiles, hplay]
  rw [List.append_nil]
  refine ⟨fun selection pile hpending hkind => ?_, fun u => ?_⟩
  · obtain ⟨hnodup, hnew⟩ := hfresh hpending pile hkind
    exact ⟨hnodup, fun card hmem => (hnew card hmem).2.1⟩
  · rcases hs.standing u with ⟨hnot, heven, hnews⟩ | ⟨hnumber, hoffer, hbalance⟩
    · refine .inl ⟨fun h => hnot ((hheld u).mp h), heven, fun hmem => ?_⟩
      exact (List.mem_append.mp hmem).elim hnews fun hmem => hnot (hr.2 u hmem)
    · refine .inr ⟨Nat.lt_of_lt_of_le hnumber hl.next, ?_, ?_⟩
      · rintro ⟨selection, pile, hpending, hkind, hmem⟩
        obtain ⟨card, hcard, rfl⟩ := List.mem_map.mp hmem
        have := ((hfresh hpending pile hkind).2 card hcard).1
        omega
      · unfold Combat.copies at hbalance ⊢
        rw [hpiles, hplay]
        exact hbalance

namespace Accounts

theorem flow : Flow Accounts where
  refl s := ⟨[], [], .of_ledger (.refl s) (.silence rfl) rfl⟩
  trans h h' := by
    obtain ⟨deeds, news, h⟩ := h
    obtain ⟨deeds', news', h'⟩ := h'
    exact ⟨_, _, h.trans h'⟩

/-- What keeps the ledger is accounted for, if it leaves the selection alone. -/
theorem of_keeps (h : Keeps s t) (hr : Reports s t news)
    (hp : t.combat.pending = s.combat.pending) : Accounts s t := by
  obtain ⟨⟨deeds, hl⟩, -⟩ := h
  exact ⟨deeds, news, .of_ledger hl hr hp⟩

/-- What keeps the ledger is reported; if it is a banishment, it is that of a card that was
somewhere. -/
theorem of_reported {event : Event} (h : Keeps s (t.report event))
    (hevents : t.combat.events = s.combat.events) (hp : t.combat.pending = s.combat.pending)
    (he : ∀ u, event = .banish u → s.combat.Holds u) : Accounts s (t.report event) :=
  of_keeps h (.report hevents he) hp

/-- Nothing that has to do with cards was done, and nothing was reported. -/
theorem of_aside (h : Aside s t) (he : t.combat.events = s.combat.events) : Accounts s t := by
  refine of_keeps (.of_aside h) (.silence he) ?_
  exact congrArg (·.2.2.2) h.1

theorem of_setCombatant (id : CombatantId) (combatant : Combatant) :
    Accounts s (s.setCombatant id combatant) := by
  obtain ⟨player, enemies, hcombat⟩ := s.combat_setCombatant id combatant
  exact of_keeps (.of_setCombatant id combatant) (.silence (by rw [hcombat])) (by rw [hcombat])

/-- An event that is no banishment is reported. -/
theorem report (h : Accounts s t) {event : Event} (he : ∀ u, event ≠ .banish u) :
    Accounts s (t.report event) := by
  have hkept : Keeps t (t.report event) := .of_aside ⟨rfl, rfl⟩
  exact flow.trans h
    (of_keeps hkept (.report rfl fun u heq => absurd heq (he u)) rfl)

/-- Events that are no banishments are reported. -/
theorem tell (h : Accounts s t) (he : ∀ u, .banish u ∉ news) : Accounts s (t.tell news) := by
  have hkept : Keeps t (t.tell news) := (Keeps.flow.refl t).tell
  refine flow.trans h (of_keeps hkept (.tell rfl fun u hmem => absurd hmem (he u)) ?_)
  rw [Scene.tell_eq]

theorem of_damages {source target : CombatantId} {outcome : DamageReport}
    (h : Damages source target outcome s t) : Accounts s t := by
  cases h with
  | mk =>
      refine flow.trans ((of_setCombatant _ _).report fun u heq => ?_) (of_aside ⟨rfl, rfl⟩ rfl)
      exact absurd heq nofun

end Accounts

/-! ## The steps -/

/-- No card is banished by what is done to a combatant. -/
theorem Alteration.banish_not_mem {may : Effect → Prop} {numbered : Prop} {id : CombatantId}
    {before after : Combatant} {events : List Event}
    (h : Alteration rules may numbered id before after events) : .banish u ∉ events :=
  fun hmem => h.isOfCombatant _ hmem

/-- **Every plain step** leaves every card accounted for. -/
theorem Step.accounts (h : Step rules Effect.Any s t) : Accounts s t := by
  have hkeeps := h.keeps
  cases h with
  | drew | shuffled | reshuffled | drawn | issued | acted =>
      exact .of_keeps hkeeps (.silence rfl) rfl
  | @told event he =>
      refine .of_reported hkeeps rfl rfl fun u heq => ?_
      rw [heq] at he
      exact he.elim
  | altered hc h => exact (Accounts.of_setCombatant _ _).tell fun u => h.banish_not_mem
  | damaged h => exact .of_damages h
  | @energy change amount energy events h he =>
      have hset : Accounts s (s.withResources { s.combat.resources with energy }) :=
        .of_aside ⟨rfl, rfl⟩ rfl
      refine hset.tell fun u hmem => ?_
      rcases he with ⟨-, rfl⟩ | ⟨delta, -, -, rfl⟩
      · exact absurd hmem List.not_mem_nil
      · exact absurd (List.mem_singleton.mp hmem) nofun
  | @gold change amount raw delta goldEarned =>
      have hset : Accounts s
          { s with gold := max raw 0, stats := { s.stats with goldEarned } } :=
        .of_aside ⟨rfl, rfl⟩ rfl
      refine hset.tell fun u hmem => ?_
      split at hmem
      · exact absurd (List.mem_singleton.mp hmem) nofun
      · exact absurd hmem List.not_mem_nil
  | energyNextTurn | created =>
      refine .of_reported hkeeps rfl rfl fun u heq => ?_
      exact absurd heq nofun
  | milled h he =>
      refine .of_reported hkeeps rfl rfl fun u heq => ?_
      rcases he with rfl | rfl
      · exact absurd heq nofun
      · exact absurd heq nofun
  | moved h he =>
      refine .of_reported hkeeps rfl rfl fun u heq => ?_
      rcases he with ⟨-, rfl⟩ | ⟨-, rfl⟩
      · exact absurd heq nofun
      · exact absurd heq nofun
  | brought h he | recalled h he =>
      refine .of_reported hkeeps rfl rfl fun u heq => ?_
      rcases he with rfl | ⟨definition, rfl⟩
      · exact absurd heq nofun
      · exact absurd heq nofun
  | @removed uid source card piles h =>
      refine .of_reported hkeeps rfl rfl fun u heq => .inl ?_
      obtain rfl : uid = u := Event.banish.inj heq
      rw [(Piles.count_of_take? h).2, if_pos rfl]
      exact Nat.succ_pos _
  | @sent uid entry route event h he =>
      refine .of_reported hkeeps rfl rfl fun u heq => ?_
      rcases he with ⟨-, rfl⟩ | ⟨-, rfl⟩ | ⟨-, rfl⟩
      · exact absurd heq nofun
      · exact absurd heq nofun
      · obtain rfl : uid = u := Event.banish.inj heq
        exact .inr (mem_playing_of_findInPlay? h)
  | @changed found card event hf hu he =>
      refine .of_reported hkeeps (Combat.same_modifyCard Combat.events fun _ _ => rfl)
        (Combat.same_modifyCard Combat.pending fun _ _ => rfl) fun u heq => ?_
      rcases he with rfl | rfl | ⟨delta, rfl⟩ | ⟨flag, value, rfl⟩ | rfl
      · exact absurd heq nofun
      · exact absurd heq nofun
      · exact absurd heq nofun
      · exact absurd heq nofun
      · exact absurd heq nofun
  | @asked kind candidates min max _ _ hp =>
      obtain ⟨⟨deeds, hledger⟩, -⟩ := hkeeps
      have hasked : Reports s (s.ask (.ofBounds kind candidates min max)) _ :=
        .report rfl fun u heq => absurd heq (by simp)
      exact ⟨_, _, .of_table hledger hasked rfl rfl rfl (.inl hp)⟩
  | @offered pile candidates _ hp =>
      obtain ⟨⟨deeds, hledger⟩, -⟩ := hkeeps
      have hasked : Reports s
          ((s.issue candidates.length).ask (.ofBounds (.discover pile) candidates 1 1)) _ :=
        .report rfl fun u heq => absurd heq (by simp)
      exact ⟨_, _, .of_table hledger hasked rfl rfl rfl (.inl hp)⟩

/-- **Every blow** leaves every card accounted for. -/
theorem Blow.accounts (h : Blow rules s t) : Accounts s t := by
  have hkeeps := h.keeps
  cases h with
  | damaged h => exact .of_damages h
  | setHealth | executed =>
      refine (Accounts.of_setCombatant _ _).report fun u heq => ?_
      exact absurd heq nofun
  | died id =>
      have htold : Reports s ((s.report (.death id)).record (.died id)) [.death id] :=
        .report rfl fun u heq => absurd heq (by simp)
      exact .of_keeps hkeeps htold rfl
  | counted => exact .of_aside ⟨rfl, rfl⟩ rfl
  | acted | buried => exact .of_keeps hkeeps (.silence rfl) rfl

/-- A play that is opened leaves every card accounted for. -/
theorem Opens.accounts (h : Opens card s t) : Accounts s t := by
  have hledger := h.ledger.1
  cases h with
  | mk =>
      have htold : Reports s _ [.replay card.uid] := .report rfl fun u heq => absurd heq (by simp)
      exact ⟨_, _, .of_ledger hledger htold rfl⟩

/-- A play that is closed leaves every card accounted for. -/
theorem Closes.accounts (h : Closes rules uid s t) : Accounts s t := by
  obtain ⟨deeds, hledger⟩ := h.ledger_kept
  cases h with
  | nothing => exact Accounts.flow.refl s
  | @mk played combat h =>
      obtain ⟨entry, -, h⟩ := Option.bind_eq_some_iff.mp h
      obtain ⟨rfl, rfl⟩ := Prod.mk.inj (Option.some.inj h)
      generalize Resolution.routeOf rules entry = route at hledger
      cases route with
      | exhaust =>
          have htold : Reports s _ [.exhaust entry.card.uid] :=
            .report rfl fun u heq => absurd heq (by simp)
          exact ⟨_, _, .of_ledger hledger htold rfl⟩
      | discard | banished | elsewhere => exact ⟨_, _, .of_ledger hledger (.silence rfl) rfl⟩

/-- **What happens at the boundaries of turns** leaves every card accounted for. -/
theorem Upkeep.accounts (h : Upkeep rules s t) : Accounts s t := by
  have hkeeps := h.keeps
  cases h with
  | @told event he =>
      refine .of_reported hkeeps rfl rfl fun u heq => ?_
      rw [heq] at he
      exact he.elim
  | decayed | eased | bared | moved => exact .of_setCombatant _ _
  | @declared id before enemy template chosen rng =>
      have hdrawn : Accounts s { s with rng } := .of_aside ⟨rfl, rfl⟩ rfl
      exact Accounts.flow.trans hdrawn (.of_setCombatant _ _)
  | released => exact .of_keeps hkeeps (.silence rfl) rfl
  | turned | charged | discharged => exact .of_aside ⟨rfl, rfl⟩ rfl

/-- A card that comes into play out of the hand leaves every card accounted for. -/
theorem Enters.accounts {cost : Int} (h : Enters card cost s t) : Accounts s t := by
  have hledger := h.ledger.1
  cases h with
  | @mk piles paid cardsPlayedThisTurn cardsPlayed h hp =>
      cases hp with
      | nothing => exact ⟨_, _, .of_ledger hledger (.silence rfl) rfl⟩
      | @energy energy delta =>
          have htold : Reports s _ [.energy delta energy] :=
            .report rfl fun u heq => absurd heq (by simp)
          exact ⟨_, _, .of_ledger hledger htold rfl⟩

/-! ## Turns and plays -/

/-- **Effects at any depth** leave every card accounted for. -/
theorem accounts_prevails : Prevails rules Effect.Any Accounts :=
  ⟨Accounts.flow, Step.accounts, Blow.accounts, Opens.accounts, Closes.accounts⟩

/-- **Turns and plays** leave every card accounted for. -/
theorem accounts_governs : Governs rules Effect.Any Accounts := by
  refine accounts_prevails.governs rules.content.permits_any Upkeep.accounts Enters.accounts
    (fun _ _ => .of_aside ⟨rfl, rfl⟩ rfl) fun {s id combatant intent ctx a t} _ _ hrun => ?_
  have htold : Accounts s (s.report (.intent id intent.name)) :=
    (Accounts.flow.refl s).report fun u heq => absurd heq (by simp)
  exact Accounts.flow.trans htold
    ((accounts_prevails.carryOut rules.content.permits_any (fun _ _ => trivial) ctx).rel hrun)

end CardCombat
