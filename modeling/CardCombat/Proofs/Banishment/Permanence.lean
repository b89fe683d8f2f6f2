import CardCombat.Proofs.Banishment.Account
import CardCombat.Proofs.Uniqueness.Calls
import CardCombat.Proofs.Whereabouts.Hand

/-!
# Whether a banished card stays away

A combat is followed from its start through calls of any kind, in any order, together with all that
was written down and reported in it. A card of which it was reported that it is banished is in no
pile afterwards exactly if it was lost once more often than it was revived; and once it is in no
pile it never comes back in that combat. A card that puts itself on the deck and is banished then,
while it is still in play, is not lost: it lies on the deck.

## Main definitions

* `Rules.Proceeds` -- what a combat can come to, and what was written down and reported on the way.

## Main results

* `Rules.settlement_of_undertakes` -- what is resolved by a call leaves every card accounted for.
* `Rules.accounted_of_accepted`, `Rules.Proceeds.accounted` -- so does one call, and so do all.
* `Rules.banished_away_iff` -- whether a banished card stays away.
-/

namespace CardCombat

open Resolution

variable {rules : Rules} {s t v : Scene} {u : CardUid} {card : Card} {deeds deeds' : List Deed}
  {news news' : List Event}

/-! ## Answers to discoveries -/

/-- A card that is dealt comes into a pile and is reported; nothing else has to do with it. -/
theorem Scene.deal_aside (pile : Pile) :
    (s.deal rules card pile).combat.pending = s.combat.pending ∧
      (s.deal rules card pile).combat.nextCardUid = s.combat.nextCardUid ∧
        (s.deal rules card pile).combat.events.toList = s.combat.events.toList ++
          [.addCard card.uid card.definition (s.landing rules pile)] := by
  unfold Scene.deal
  generalize s.landing rules pile = landing
  exact ⟨rfl, rfl, Array.toList_push⟩

theorem copies_report (event : Event) :
    (s.report event).combat.copies u = s.combat.copies u := rfl

theorem holds_report (event : Event) : (s.report event).combat.Holds u ↔ s.combat.Holds u := Iff.rfl

theorem copies_deal (pile : Pile) : (s.deal rules card pile).combat.copies u =
    s.combat.copies u + if card.uid = u then 1 else 0 := by
  rw [Scene.deal, copies_report, copies_arrive]

theorem holds_deal {pile : Pile} (h : (s.deal rules card pile).combat.Holds u) :
    s.combat.Holds u ∨ card.uid = u := by
  rw [Scene.deal, holds_report] at h
  exact holds_arrive h

/-- A card stays away while another one is dealt. -/
theorem away_deal (pile : Pile) (h : s.combat.Away u deeds news) (hu : ¬card.uid = u) :
    (s.deal rules card pile).combat.Away u deeds
      (news ++ [.addCard card.uid card.definition (s.landing rules pile)]) := by
  refine ⟨fun hheld => (holds_deal hheld).elim h.notHeld hu, h.even, fun hmem => ?_⟩
  exact (List.mem_append.mp hmem).elim h.unheard (by simp)

/-- A card that has its number, and has not come yet, comes into a pile. -/
theorem accounted_deal (pile : Pile) (hs : s.combat.Accounted deeds news)
    (hp : s.combat.pending = none) (hnumber : card.uid.number < s.combat.nextCardUid)
    (haway : s.combat.Away card.uid deeds news) :
    (s.deal rules card pile).combat.Accounted deeds
      (news ++ [.addCard card.uid card.definition (s.landing rules pile)]) := by
  obtain ⟨hpending, hnext, -⟩ := @Scene.deal_aside rules s card pile
  have hnone : (s.deal rules card pile).combat.pending = none := hpending.trans hp
  have hproffers (u : CardUid) : ¬(s.deal rules card pile).combat.Proffers u := by
    rintro ⟨selection, pile', hsome, -⟩
    exact absurd (hnone.symm.trans hsome) nofun
  refine ⟨fun selection pile' hsome => absurd (hnone.symm.trans hsome) nofun, fun u => ?_⟩
  have hcopies := @copies_deal rules s u card pile
  by_cases hu : card.uid = u
  · subst hu
    rw [if_pos rfl, Combat.copies_eq_zero haway.notHeld] at hcopies
    have heven := haway.even
    exact .inr ⟨by omega, hproffers _, by omega⟩
  · rw [if_neg hu] at hcopies
    rcases hs.standing u with h | ⟨hlt, -, hbalance⟩
    · exact .inl (away_deal pile h hu)
    · exact .inr ⟨by omega, hproffers u, by omega⟩

/-- **Cards that were discovered**, and have not come yet, come into the piles. -/
theorem accounted_of_discovered {pile : Pile} {cards : List Card} {a : Unit}
    (h : (cards.forM (settleChoice rules (.discover pile))).run s = .ok (a, t))
    (hs : s.combat.Accounted deeds news) (hp : s.combat.pending = none)
    (hnodup : (cards.map (·.uid)).Nodup)
    (hcards : ∀ card ∈ cards, card.uid.number < s.combat.nextCardUid ∧
      s.combat.Away card.uid deeds news) :
    ∃ told, t.combat.events.toList = s.combat.events.toList ++ told ∧
      t.combat.Accounted deeds (news ++ told) := by
  induction cards generalizing s news with
  | nil =>
      obtain ⟨-, rfl⟩ := run_pure_iff.mp h
      exact ⟨[], (List.append_nil _).symm, by rwa [List.append_nil]⟩
  | cons card cards ih =>
      obtain ⟨_, v, hplace, h⟩ := run_bind_iff.mp h
      obtain rfl := run_placeNew_iff.mp hplace
      obtain ⟨hfirst, hrest⟩ := List.nodup_cons.mp hnodup
      obtain ⟨hnumber, haway⟩ := hcards card List.mem_cons_self
      obtain ⟨hpending, hnext, hdealt⟩ := @Scene.deal_aside rules s card pile
      have hothers (other : Card) (hmem : other ∈ cards) :
          other.uid.number < (s.deal rules card pile).combat.nextCardUid ∧
            (s.deal rules card pile).combat.Away other.uid deeds
              (news ++ [.addCard card.uid card.definition (s.landing rules pile)]) := by
        obtain ⟨hlt, hother⟩ := hcards other (List.mem_cons_of_mem _ hmem)
        refine ⟨hnext ▸ hlt, away_deal pile hother fun heq => hfirst ?_⟩
        exact List.mem_map.mpr ⟨other, hmem, heq.symm⟩
      obtain ⟨told, hevents, haccounted⟩ :=
        ih h (accounted_deal pile hs hp hnumber haway) (hpending.trans hp) hrest hothers
      rw [hdealt, List.append_assoc] at hevents
      rw [List.append_assoc] at haccounted
      exact ⟨_, hevents, haccounted⟩

/-! ## Calls -/

/-- What becomes of cards that are accounted for when something is resolved: they still are, with
what was written down and reported meanwhile, and those that had come and were gone stay away. -/
structure Settlement (past : List Deed) (told : List Event) (s t : Scene) (deeds : List Deed)
    (news : List Event) : Prop where
  chronicle : t.chronicle.toList = s.chronicle.toList ++ deeds
  events : t.combat.events.toList = s.combat.events.toList ++ news
  accounted : t.combat.Accounted (past ++ deeds) (told ++ news)
  gone : ∀ u, s.combat.Come u past → ¬s.combat.Holds u → ¬t.combat.Holds u

variable {past : List Deed} {told : List Event}

/-- What there is an account of settles. -/
theorem Accounts.settlement (h : Accounts s t) (hs : s.combat.Accounted past told) :
    ∃ deeds news, Settlement past told s t deeds news := by
  obtain ⟨deeds, news, h⟩ := h
  exact ⟨deeds, news, h.ledger.chronicle, h.events, h.accounted past told hs,
    fun u hcome hgone => h.ledger.not_holds hcome.number hgone⟩

/-- When a selection is forgotten nothing becomes of cards. -/
theorem accounted_forget (hs : s.combat.Accounted past told) :
    s.forget.combat.Accounted past told :=
  ⟨fun _ _ hsome => absurd hsome nofun, fun u => (hs.standing u).imp
    (fun haway => ⟨haway.notHeld, haway.even, haway.unheard⟩)
    fun hcome => ⟨hcome.number, fun ⟨_, _, hsome, _⟩ => absurd hsome nofun, hcome.copies⟩⟩

/-- **The answer to a discovery** settles: the new cards that are chosen had not come yet. -/
theorem settlement_of_discovered {selection : Selection} {pile : Pile} {chosen : List CardUid}
    {a : Unit} (hs : s.combat.Accounted past told) (hplay : s.combat.inPlay = [])
    (hpending : s.combat.pending = some selection) (hkind : selection.kind = .discover pile)
    (h : (settleSelection rules selection chosen).run s = .ok (a, t)) :
    ∃ deeds news, Settlement past told s t deeds news := by
  obtain ⟨_, _, hforget, h⟩ := run_bind_iff.mp h
  obtain rfl := run_modifyCombat_iff.mp hforget
  rw [hkind] at h
  have hsub : (selection.candidates.filter (chosen.contains ·.uid)).Sublist selection.candidates :=
    List.filter_sublist
  generalize selection.candidates.filter (chosen.contains ·.uid) = cards at h hsub
  have hproffers {u : CardUid} (hmem : u ∈ cards.map (·.uid)) : s.combat.Proffers u :=
    ⟨selection, pile, hpending, hkind, (hsub.map _).subset hmem⟩
  obtain ⟨hnodup, hnumbers⟩ := hs.offer selection pile hpending hkind
  have hcards (card : Card) (hmem : card ∈ cards) :
      card.uid.number < s.forget.combat.nextCardUid ∧
        s.forget.combat.Away card.uid past told := by
    have haway := hs.away_of_proffers (hproffers (List.mem_map.mpr ⟨card, hmem, rfl⟩))
    exact ⟨hnumbers card (hsub.subset hmem), haway.notHeld, haway.even, haway.unheard⟩
  obtain ⟨news, hevents, haccounted⟩ := accounted_of_discovered (s := s.forget) h
    (accounted_forget hs) rfl (hnodup.sublist (hsub.map _)) hcards
  obtain ⟨hplay', -, -, ⟨deeds, hidle, hchronicle⟩, hcount⟩ := discovered_of_run h
  refine ⟨deeds, news, hchronicle, hevents, haccounted.idle hidle, fun u hcome hgone => ?_⟩
  have hempty : t.combat.inPlay = [] := hplay'.trans hplay
  rw [Combat.holds_iff_of_inPlay hplay] at hgone
  rw [Combat.holds_iff_of_inPlay hempty, hcount]
  have hunchosen : Piles.countIn u cards = 0 :=
    List.count_eq_zero.mpr fun hmem => hcome.notProffered (hproffers hmem)
  rw [hunchosen]
  exact hgone

theorem accounts_forget : Accounts s s.forget := by
  obtain ⟨⟨deeds, hledger⟩, -⟩ := @answered_keeps s
  exact ⟨deeds, [], .of_table hledger (.silence rfl) rfl rfl rfl (.inr rfl)⟩

namespace Rules

variable {run run' started : Run} {call : Call} {m : Resolution Unit}

/-- **Whatever a call sets going settles.** -/
theorem settlement_of_undertakes (hm : Undertakes rules run call s.combat m)
    (hs : s.combat.Accounted past told) (hplay : s.combat.inPlay = [])
    (hrun : m.run s = .ok ((), t)) : ∃ deeds news, Settlement past told s t deeds news := by
  have hturn (s : Scene) : Accounts s s.enemiesBegin := .of_aside ⟨rfl, rfl⟩ rfl
  have hplayer {s : Scene} {energy : Int} (_ : s.Refills energy) :
      Accounts s (s.playerBegins energy) := .of_aside ⟨rfl, rfl⟩ rfl
  generalize hcombat : s.combat = combat at hm
  cases hm with
  | start => exact (accounts_governs.openCombat hplayer hrun).settlement hs
  | play =>
      exact (accounts_governs.play (fun _ _ _ => trivial) _ hrun).settlement hs
  | ability => exact (accounts_governs.useAbility (fun _ _ => trivial) hrun).settlement hs
  | @select chosen _ selection _ _ hpending =>
      subst hcombat
      by_cases hnew : ∃ pile, selection.kind = .discover pile
      · obtain ⟨pile, hkind⟩ := hnew
        exact settlement_of_discovered hs hplay hpending hkind hrun
      · have hsettled : Accounts s t := accounts_governs.settleSelection (fun _ => accounts_forget)
          (fun pile hkind => absurd ⟨pile, hkind⟩ hnew) chosen hrun
        exact hsettled.settlement hs
  | endTurn => exact (accounts_governs.passTurn hturn hplayer hrun).settlement hs

end Rules

/-! ## What a combat comes to -/

namespace Run

/-- The events of the combat that were not fetched yet. -/
def events (run : Run) : List Event := (run.combat.map (·.events.toList)).getD []

/-- The events that were reported since an earlier run, if none were fetched in between. -/
def eventsSince (run before : Run) : List Event := run.events.drop before.events.length

/-- The card is in no pile. -/
def Lacks (u : CardUid) (run : Run) : Prop := run.InCombat fun combat => u ∉ combat.piles.uids

theorem events_eq {run : Run} {combat : Combat} (hc : run.combat = some combat) :
    run.events = combat.events.toList := by
  unfold events
  rw [hc]
  rfl

/-- What was reported since an earlier run is what came to its events. -/
theorem eventsSince_eq {run before : Run} {combat : Combat} (hc : before.combat = some combat)
    (h : run.events = combat.events.toList ++ told) : run.eventsSince before = told := by
  unfold eventsSince
  rw [h, events_eq hc, List.drop_left]

/-- The combat of a run is between two calls, and every card is accounted for. -/
def Accounted (past : List Deed) (told : List Event) (run : Run) : Prop :=
  ∃ combat, run.combat = some combat ∧ combat.inPlay = [] ∧ combat.Accounted past told

/-- In an accounted combat a card that has come is in no pile exactly if it was lost once more often
than it was revived. -/
theorem Accounted.lacks_iff {run : Run} (h : run.Accounted past told) (hu : .banish u ∈ told) :
    run.Lacks u ↔ past.countP (·.loses u) = past.countP (·.revives u) + 1 := by
  obtain ⟨combat, hc, hplay, hs⟩ := h
  have hcopies := (hs.come_of_banished hu).copies
  rw [Combat.copies_of_inPlay hplay] at hcopies
  have hlacks : run.Lacks u ↔ combat.piles.count u = 0 := by
    constructor
    · exact fun hall => List.count_eq_zero.mpr (hall combat hc)
    · intro hzero other hother
      obtain rfl := Option.some.inj (hc.symm.trans hother)
      exact List.count_eq_zero.mp hzero
  rw [hlacks]
  omega

end Run

namespace Rules

/-- What a combat can come to by calls other than the start of another one, and by what those do who
show it; with all that was written down and reported in those calls. -/
inductive Proceeds (rules : Rules) (run : Run) : List Deed → List Event → Run → Prop
  | refl : Proceeds rules run [] [] run
  | accepted {deeds : List Deed} {news : List Event} {before after : Run} {call : Call}
      (h : Proceeds rules run deeds news before)
      (hcall : rules.perform before call = .ok (none, after))
      (hongoing : ∀ enemies, call ≠ .start enemies) :
      Proceeds rules run (deeds ++ after.chronicle.toList) (news ++ after.eventsSince before) after
  | rejected {deeds : List Deed} {news : List Event} {before after : Run} {call : Call}
      {rejection : Rejection} (h : Proceeds rules run deeds news before)
      (hcall : rules.perform before call = .ok (some rejection, after)) :
      Proceeds rules run deeds news after
  | attended {deeds : List Deed} {news : List Event} {before : Run} {combat : Combat}
      (h : Proceeds rules run deeds news before)
      (hc : before.combat = some combat) (events : Array Event) (locked : Bool) :
      Proceeds rules run deeds news { before with combat := some { combat with events, locked } }

variable {before after run run' started : Run} {call : Call} {enemies : List String}

/-- What was resolved by a call is in the run after it. -/
theorem accounted_of_settlement
    (h : Settlement past told s t deeds news) (hstart : s.chronicle = #[])
    (hchronicle : after.chronicle = t.chronicle)
    (hcombat : after.combat = some t.combat.endIfDecided.2)
    (hplay : after.InCombat (·.inPlay = [])) :
    after.chronicle.toList = deeds ∧ after.events = s.combat.events.toList ++ news ∧
      after.Accounted (past ++ deeds) (told ++ news) := by
  rw [Combat.endIfDecided_eq] at hcombat
  refine ⟨?_, ?_, _, hcombat, hplay _ hcombat, h.accounted.of_table rfl⟩
  · rw [hchronicle, h.chronicle, hstart]
    rfl
  · rw [Run.events_eq hcombat, ← h.events]

/-- **One call of a combat that goes on** leaves every card accounted for, and cards that had come
and were in no pile are in none after it. -/
theorem accounted_of_accepted (h : before.Accounted past told)
    (hcall : rules.perform before call = .ok (none, after))
    (hongoing : ∀ enemies, call ≠ .start enemies) :
    after.Accounted (past ++ after.chronicle.toList) (told ++ after.eventsSince before) ∧
      ∀ u, .banish u ∈ told → before.Lacks u → after.Lacks u := by
  obtain ⟨combat, hc, hplay, hs⟩ := h
  obtain ⟨s, t, m, hm, hstart, hrun, -, hchronicle, hcombat⟩ := undertakes_of_accepted hcall
  obtain rfl : s.combat = combat := Option.some.inj ((hm.combat_eq hongoing).symm.trans hc)
  obtain ⟨deeds, news, hsettled⟩ := settlement_of_undertakes hm hs hplay hrun
  have hrested : after.InCombat (·.inPlay = []) := inPlay_of_accepted
    (fun _ other hother => Option.some.inj (hc.symm.trans hother) ▸ hplay) hcall
  obtain ⟨hdeeds, hevents, haccounted⟩ :=
    accounted_of_settlement hsettled hstart hchronicle hcombat hrested
  have hnews : after.eventsSince before = news := Run.eventsSince_eq hc hevents
  refine ⟨by rwa [hdeeds, hnews], fun u hu hlacks => ?_⟩
  have hgone : ¬s.combat.Holds u := by
    rw [Combat.holds_iff_of_inPlay hplay, Piles.count_pos_iff]
    exact hlacks _ hc
  have hafter := hsettled.gone u (hs.come_of_banished hu) hgone
  rw [Combat.endIfDecided_eq] at hcombat
  intro other hother hmem
  obtain rfl := Option.some.inj (hcombat.symm.trans hother)
  exact hafter (.inl (Piles.count_pos_iff.mpr hmem))

/-- Different cards at rest are accounted for when nothing was written down or reported yet. -/
theorem accounted_of_rests {combat : Combat} (h : combat.Rests) (hd : combat.Distinct) :
    combat.Accounted [] [] := by
  refine ⟨fun selection pile hpending hkind => ?_, fun u => ?_⟩
  · obtain ⟨hnodup, hoffer⟩ := h.offer selection pile hpending hkind
    exact ⟨hnodup, fun card hmem => (hoffer card hmem).1⟩
  · by_cases hu : combat.Holds u
    · refine .inr ⟨h.bounded u hu, ?_, ?_⟩
      · rintro ⟨selection, pile, hpending, hkind, hmem⟩
        obtain ⟨card, hcard, rfl⟩ := List.mem_map.mp hmem
        exact ((h.offer selection pile hpending hkind).2 card hcard).2 hu
      · rw [Combat.holds_iff_of_inPlay h.inPlay] at hu
        have honce := Combat.distinct_iff.mp hd u
        rw [Combat.copies_of_inPlay h.inPlay]
        exact Nat.le_antisymm honce hu
    · exact .inl ⟨hu, rfl, List.not_mem_nil⟩

/-- **The start of a combat** with different cards leaves every card accounted for. -/
theorem accounted_of_start (hdeck : (before.deck.map (·.uid)).Nodup)
    (hcall : rules.perform before (.start enemies) = .ok (none, started)) :
    started.Accounted started.chronicle.toList started.events := by
  obtain ⟨s, t, m, hm, hstart, hrun, -, hchronicle, hcombat⟩ := undertakes_of_accepted hcall
  obtain ⟨hrests, hdistinct⟩ := undertaken_start hdeck hm
  have hsilent : s.combat.events.toList = [] := by
    generalize s.combat = combat at hm
    cases hm with
    | start _ hgather =>
        obtain ⟨nextCardUid, -, enemies, nextEnemyId, rfl, -⟩ := gather_spec hgather
        rfl
  obtain ⟨deeds, news, hsettled⟩ := settlement_of_undertakes hm
    (accounted_of_rests hrests hdistinct) hrests.inPlay hrun
  have hrested : started.InCombat (·.inPlay = []) :=
    inPlay_of_accepted (fun hother => absurd rfl (hother enemies)) hcall
  obtain ⟨hdeeds, hevents, haccounted⟩ :=
    accounted_of_settlement hsettled hstart hchronicle hcombat hrested
  rwa [hdeeds, hevents, hsilent, List.nil_append, ← List.nil_append deeds]

/-- Fetching the events of a combat, or locking it, does nothing to cards. -/
theorem accounted_of_attended {combat : Combat} (h : before.Accounted past told)
    (hc : before.combat = some combat) (events : Array Event) (locked : Bool) :
    ({ before with combat := some { combat with events, locked } } : Run).Accounted past told := by
  obtain ⟨other, hother, hplay, hs⟩ := h
  obtain rfl := Option.some.inj (hc.symm.trans hother)
  exact ⟨_, rfl, hplay, hs.of_table rfl⟩

/-- **Every card stays accounted for** while a combat goes on. -/
theorem Proceeds.accounted (h : rules.Proceeds run deeds news run')
    (hs : run.Accounted past told) : run'.Accounted (past ++ deeds) (told ++ news) := by
  induction h with
  | refl => rwa [List.append_nil, List.append_nil]
  | accepted _ hcall hongoing ih =>
      rw [← List.append_assoc, ← List.append_assoc]
      exact (accounted_of_accepted ih hcall hongoing).1
  | rejected _ hcall ih => exact run_of_rejected hcall ▸ ih
  | attended _ hc events locked ih => exact accounted_of_attended ih hc events locked

/-- **A banished card that is in no pile** comes into none any more while the combat goes on. -/
theorem Proceeds.lacks (h : rules.Proceeds run deeds news run') (hs : run.Accounted past told)
    (hu : .banish u ∈ told) (hlacks : run.Lacks u) : run'.Lacks u := by
  induction h with
  | refl => exact hlacks
  | accepted hbefore hcall hongoing ih =>
      exact (accounted_of_accepted (hbefore.accounted hs) hcall hongoing).2 u
        (List.mem_append_left _ hu) ih
  | rejected _ hcall ih => exact run_of_rejected hcall ▸ ih
  | attended _ hc events locked ih =>
      intro combat hcombat
      obtain rfl := Option.some.inj hcombat
      have hbefore := ih _ hc
      exact hbefore

/-- **Whether a banished card stays away**: in a run whose deck has different cards a combat is
started and goes on in any way. A card of which it was reported up to now that it is banished is in
no pile exactly if it was lost once more often than it was revived; and if it is in none it comes
into none any more, however the combat goes on. -/
theorem banished_away_iff (hdeck : (run.deck.map (·.uid)).Nodup)
    (hstart : rules.perform run (.start enemies) = .ok (none, started))
    (h : rules.Proceeds started deeds news run') (hu : .banish u ∈ started.events ++ news) :
    (run'.Lacks u ↔ (started.chronicle.toList ++ deeds).countP (·.loses u) =
      (started.chronicle.toList ++ deeds).countP (·.revives u) + 1) ∧
      (run'.Lacks u → ∀ {deeds' news' later}, rules.Proceeds run' deeds' news' later →
        later.Lacks u) := by
  have hs := h.accounted (accounted_of_start hdeck hstart)
  exact ⟨hs.lacks_iff hu, fun hlacks _ _ _ hlater => hlater.lacks hs hu hlacks⟩

end Rules

/-! ## A card that is banished and lies on the deck -/

/-- A card that banishes itself, and one that puts itself on the deck before it does that. -/
def emberPack : Pack where
  cards :=
    [{ id := "ember", name := "Ember", theme := .skill, cost := .fixed 0
       effects := [.banish (.fixed 1) .thisCard false] },
     { id := "wraith", name := "Wraith", theme := .skill, cost := .fixed 0
       effects := [.putOnDeck .thisCard .top, .banish (.fixed 1) .thisCard false] }]
  enemies := [{ id := "dummy", name := "Dummy", maxHealth := 8, moves := [] }]

def emberRules : Rules where
  content := (Content.ofPack emberPack).toOption.getD {}

/-- A run with those cards. -/
def emberRun : Run where
  hero := ""
  health := 10
  maxHealth := 10
  deck := [{ uid := ⟨1⟩, definition := "ember" }, { uid := ⟨2⟩, definition := "wraith" }]
  rng := .ofSeed 0

/-- The run after a combat has begun. -/
def emberStarted : Run := emberRules.after emberRun (.start ["dummy"])

/-- The run after the card was played that banishes itself. -/
def emberBurnt : Run := emberRules.after emberStarted (.play ⟨1⟩ none)

/-- The run after the other card was played, too. -/
def emberHaunted : Run := emberRules.after emberBurnt (.play ⟨2⟩ none)

theorem emberRun_deck : (emberRun.deck.map (·.uid)).Nodup := by decide

theorem ember_starts :
    emberRules.perform emberRun (.start ["dummy"]) = .ok (none, emberStarted) :=
  Rules.perform_eq_of_answer (by decide +kernel)

theorem ember_burns : emberRules.perform emberStarted (.play ⟨1⟩ none) = .ok (none, emberBurnt) :=
  Rules.perform_eq_of_answer (by decide +kernel)

theorem ember_haunts : emberRules.perform emberBurnt (.play ⟨2⟩ none) = .ok (none, emberHaunted) :=
  Rules.perform_eq_of_answer (by decide +kernel)

theorem ember_passes :
    emberRules.perform emberHaunted .endTurn = .ok (none, emberRules.after emberHaunted .endTurn) :=
  Rules.perform_eq_of_answer (by decide +kernel)

namespace Rules

/-- What becomes of both cards: it is reported of both that they are banished, and the first one is
gone for good, while the second one, which was never lost, is in a pile. -/
theorem banished_away_iff_ember :
    .banish ⟨1⟩ ∈ emberHaunted.events ∧ .banish ⟨2⟩ ∈ emberHaunted.events ∧
      emberHaunted.Lacks ⟨1⟩ ∧ (emberRules.after emberHaunted .endTurn).Lacks ⟨1⟩ ∧
        ¬emberHaunted.Lacks ⟨2⟩ := by
  have hproceeds : emberRules.Proceeds emberStarted _ _ emberHaunted :=
    .accepted (.accepted .refl ember_burns (by simp)) ember_haunts (by simp)
  have hpassed : emberRules.Proceeds emberHaunted _ _ (emberRules.after emberHaunted .endTurn) :=
    .accepted .refl ember_passes (by simp)
  obtain ⟨hgone, hforever⟩ := banished_away_iff (u := ⟨1⟩) emberRun_deck ember_starts hproceeds
    (by decide +kernel)
  obtain ⟨hlies, -⟩ := banished_away_iff (u := ⟨2⟩) emberRun_deck ember_starts hproceeds
    (by decide +kernel)
  have hlost : emberHaunted.Lacks ⟨1⟩ := hgone.mpr (by decide +kernel)
  exact ⟨by decide +kernel, by decide +kernel, hlost, hforever hlost hpassed,
    fun hlacks => absurd (hlies.mp hlacks) (by decide +kernel)⟩

/-- A card can lie in a pile when the call is over that has banished it: a play that has put its
card somewhere is told once more where the card goes, and nobody looks where it is. -/
theorem wraith_stays :
    ¬∀ pack config content run enemies started call run' u,
      Content.ofPack pack = .ok content → (run.deck.map (·.uid)).Nodup →
        Rules.perform { content, config } run (.start enemies) = .ok (none, started) →
          Rules.perform { content, config } started call = .ok (none, run') →
            .banish u ∈ run'.eventsSince started → run'.Lacks u := by
  intro hclaim
  have hstays : (emberRules.after emberStarted (.play ⟨2⟩ none)).Lacks ⟨2⟩ :=
    hclaim emberPack {} emberRules.content emberRun ["dummy"] emberStarted (.play ⟨2⟩ none) _ ⟨2⟩
      rfl emberRun_deck ember_starts (perform_eq_of_answer (by decide +kernel)) (by decide +kernel)
  have hpiles : (emberRules.after emberStarted (.play ⟨2⟩ none)).combat.map
      (fun combat => decide (⟨2⟩ ∈ combat.piles.uids)) = some true := by decide +kernel
  obtain ⟨combat, hcombat, hmem⟩ := Option.map_eq_some_iff.mp hpiles
  exact hstays combat hcombat (of_decide_eq_true hmem)

end Rules

end CardCombat
