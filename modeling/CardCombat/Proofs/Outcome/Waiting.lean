import CardCombat.Proofs.Action.Calls

/-!
# Selections that wait

There is one place where the player is asked to choose, and nothing is asked there while a selection
waits. So whatever effects do, at any depth, a selection that waits stays as it is, and one that has
come up asks for cards that there are. Between calls it waits just as long: while it does, no call
is accepted but its answer and the start of another combat, and a call that is rejected changes
nothing.

## Main definitions

* `Selection.WellFormed`, `Selection.Proper` -- a selection asks for cards that there are.
* `Waits` -- a selection that waits stays as it is.
* `Rules.History` -- what happens to a run, one thing after another.

## Main results

* `Waits.governs` -- effects, turns and plays let a selection wait.
* `Rules.proper_of_reaches` -- every selection that waits is proper.
* `Rules.selection_waits` -- how selections come up, and how they go.
-/

namespace CardCombat

open Resolution

variable {rules : Rules} {s t : Scene}

namespace Selection

/-- A selection has candidates, and it asks for some of them, as many as there are at most. -/
structure WellFormed (selection : Selection) : Prop where
  candidates : selection.candidates ≠ []
  bounds : selection.min ≤ selection.max
  asks : 1 ≤ selection.max
  enough : selection.max ≤ selection.candidates.length

/-- A selection is as effects make it: well formed, and if a card is looked for it is a single
one. -/
structure Proper (selection : Selection) : Prop extends selection.WellFormed where
  single : ∀ pile, selection.kind = .tutor pile → selection.max = 1

/-- Bounds are cut down to what the candidates allow. -/
theorem proper_ofBounds {kind : SelectionKind} {candidates : List Card} {min max : Nat}
    (hc : candidates ≠ []) (hm : 1 ≤ max) (ht : ∀ pile, kind = .tutor pile → max = 1) :
    (ofBounds kind candidates min max).Proper where
  candidates := hc
  bounds := Nat.min_le_right _ _
  asks := Nat.le_min.mpr ⟨hm, List.length_pos_iff.mpr hc⟩
  enough := Nat.min_le_right _ _
  single pile hkind := by
    have hlength := List.length_pos_iff.mpr hc
    show Nat.min max candidates.length = 1
    rw [ht pile hkind]
    exact Nat.min_eq_left hlength

end Selection

/-! ## While something is resolved -/

/-- A selection that waits stays as it is; where none waits, a proper one may come up. -/
inductive Waits (s t : Scene) : Prop
  | kept (h : t.combat.pending = s.combat.pending)
  | asked {selection} (hp : s.combat.pending = none) (h : t.combat.pending = some selection)
      (hw : selection.Proper)

namespace Waits

/-- **A selection that waits is the same one afterwards.** -/
theorem pending_eq (h : Waits s t) {selection : Selection}
    (hp : s.combat.pending = some selection) : t.combat.pending = some selection := by
  cases h with
  | kept h => exact h.trans hp
  | asked hnone => exact absurd (hnone.symm.trans hp) nofun

/-- **A selection that has come up is proper.** -/
theorem proper (h : Waits s t) (hnone : s.combat.pending = none) {selection : Selection}
    (hp : t.combat.pending = some selection) : selection.Proper := by
  cases h with
  | kept h => exact absurd ((h.trans hnone).symm.trans hp) nofun
  | asked _ h hw => exact Option.some.inj (h.symm.trans hp) ▸ hw

theorem flow : Flow Waits where
  refl _ := .kept rfl
  trans h h' := by
    cases h' with
    | kept h' =>
        cases h with
        | kept h => exact .kept (h'.trans h)
        | asked hp h hw => exact .asked hp (h'.trans h) hw
    | asked hp' h' hw =>
        cases h with
        | kept h => exact .asked (h.symm.trans hp') h' hw
        | asked _ h => exact absurd (h.symm.trans hp') nofun

theorem aside {v : Scene} (h : Waits s t) (hp : v.combat.pending = t.combat.pending) :
    Waits s v := flow.trans h (.kept hp)

theorem of_setCombatant (id : CombatantId) (combatant : Combatant) :
    Waits s (s.setCombatant id combatant) := by
  obtain ⟨player, enemies, hcombat⟩ := s.combat_setCombatant id combatant
  exact .kept (by rw [hcombat])

theorem tell (h : Waits s t) (events : List Event) : Waits s (t.tell events) := by
  refine h.aside ?_
  rw [Scene.tell_eq]

theorem of_damages {source target : CombatantId} {outcome : DamageReport}
    (h : Damages source target outcome s t) : Waits s t := by
  cases h with
  | mk => exact (of_setCombatant _ _).aside rfl

/-- **Effects let a selection wait**, at any depth. -/
theorem prevails : Prevails rules Effect.Any Waits where
  flow := flow
  step h := by
    cases h with
    | altered => exact (of_setCombatant _ _).tell _
    | damaged h => exact of_damages h
    | energy | gold =>
        refine tell ?_ _
        exact .kept rfl
    | changed =>
        refine .kept ?_
        exact Combat.same_modifyCard Combat.pending fun _ _ => rfl
    | asked _ hc hp hm ht => exact .asked hp rfl (Selection.proper_ofBounds hc hm ht)
    | offered hc hp => exact .asked hp rfl (Selection.proper_ofBounds hc (Nat.le_refl 1) nofun)
    | drew | told | acted | energyNextTurn | shuffled | reshuffled | drawn | milled | moved
    | brought | removed | sent | recalled | issued | created => exact .kept rfl
  blow h := by
    cases h with
    | damaged h => exact of_damages h
    | setHealth | executed => exact (of_setCombatant _ _).aside rfl
    | died | counted | acted | buried => exact .kept rfl
  opens h := by
    cases h with
    | mk => exact .kept rfl
  closes h := by
    obtain ⟨inPlay, discardPile, exhaustPile, events, hcombat⟩ := h.combat_eq
    exact .kept (by rw [hcombat])

theorem of_upkeep (h : Upkeep rules s t) : Waits s t := by
  cases h with
  | decayed | eased | bared | moved => exact of_setCombatant _ _
  | @declared id before enemy template chosen rng hc =>
      have hdrawn : Waits s { s with rng } := .kept rfl
      exact flow.trans hdrawn (of_setCombatant _ _)
  | told | released | turned | charged | discharged => exact .kept rfl

theorem of_enters {card : Card} {cost : Int} (h : Enters card cost s t) : Waits s t := by
  cases h with
  | mk h hp =>
      cases hp with
      | nothing | energy => exact .kept rfl

/-- **Turns and plays let a selection wait.** -/
theorem governs : Governs rules Effect.Any Waits := by
  refine prevails.governs rules.content.permits_any of_upkeep of_enters
    (fun _ _ => .kept rfl) fun {s id combatant intent ctx a t} _ _ hrun => ?_
  have htold : Waits s (s.report (.intent id intent.name)) := .kept rfl
  exact flow.trans htold
    ((prevails.carryOut rules.content.permits_any (fun _ _ => trivial) ctx).rel hrun)

end Waits

/-! ## What is asked -/

/-- Something holds of the selection that waits, if there is one. -/
def Combat.Asks (P : Selection → Prop) (combat : Combat) : Prop :=
  ∀ selection, combat.pending = some selection → P selection

/-- If something holds of the selection that waits before, it does so after. -/
def Asking (P : Selection → Prop) (s t : Scene) : Prop := s.combat.Asks P → t.combat.Asks P

variable {P : Selection → Prop}

theorem Waits.asking (hP : ∀ {selection : Selection}, selection.Proper → P selection)
    (h : Waits s t) : Asking P s t := by
  intro hs selection hpending
  cases hbefore : s.combat.pending with
  | none => exact hP (h.proper hbefore hpending)
  | some waiting =>
      obtain rfl := Option.some.inj ((h.pending_eq hbefore).symm.trans hpending)
      exact hs waiting hbefore

/-- **What holds of all proper selections** holds of those that come up in turns and plays. -/
theorem asking_governs (hP : ∀ {selection : Selection}, selection.Proper → P selection) :
    Governs rules Effect.Any (Asking P) := by
  have hprevails : Prevails rules Effect.Any (Asking P) :=
    { flow := ⟨fun _ h => h, fun h h' hs => h' (h hs)⟩
      step := fun h => (Waits.prevails.step h).asking hP
      blow := fun h => ((@Waits.prevails rules).blow h).asking hP
      opens := fun h => ((@Waits.prevails rules).opens h).asking hP
      closes := fun h => (Waits.prevails.closes h).asking hP }
  refine hprevails.governs rules.content.permits_any (fun h => (Waits.of_upkeep h).asking hP)
    (fun h => (Waits.of_enters h).asking hP) (fun _ _ hs => hs)
    fun {s id combatant intent ctx a t} _ _ hrun => ?_
  have hasked : Asking P (s.report (.intent id intent.name)) t :=
    (hprevails.carryOut rules.content.permits_any (fun _ _ => trivial) ctx).rel hrun
  exact hasked

/-- An accepted call leaves a selection waiting, if any, of which holds what holds of all proper
ones. -/
theorem Rules.asks_of_accepted {before after : Run} {call : Call}
    (hP : ∀ {selection : Selection}, selection.Proper → P selection)
    (hbefore : (∀ enemies, call ≠ .start enemies) → before.InCombat (Combat.Asks P))
    (hcall : rules.perform before call = .ok (none, after)) : after.InCombat (Combat.Asks P) := by
  have hkept {s t : Scene} (h : t.combat.pending = s.combat.pending) : Asking P s t :=
    Waits.asking hP (.kept h)
  refine (asking_governs hP).inCombat_of_accepted rules.content.permits_any (fun _ => hkept rfl)
    (fun _ => hkept rfl) (fun _ _ _ hpending => absurd hpending nofun) (fun _ _ _ => hkept rfl)
    (fun h hs => h hs) (fun _ h => h) (fun hgathered _ => ?_) hbefore hcall
  obtain ⟨enemies, nextEnemyId, rfl, -⟩ := hgathered
  exact fun _ hpending => absurd hpending nofun

/-- **From the start of a combat on, every selection that waits is proper.** -/
theorem Rules.proper_of_reaches {run started run' : Run} {enemies : List String}
    (hstart : rules.perform run (.start enemies) = .ok (none, started))
    (h : rules.Reaches started run') : run'.InCombat (Combat.Asks Selection.Proper) :=
  inCombat_of_reaches (asks_of_accepted id) (fun _ _ hasks => hasks) hstart h

/-! ## Between calls -/

/-- The selection that waits in the combat of a run. -/
def Run.pending? (run : Run) : Option Selection := run.combat.bind (·.pending)

/-- Something that happens to a run: a call, with the reason if it was rejected, the combat is left,
or whoever shows the combat fetches its events and locks or unlocks it. -/
inductive Happening where
  | called (call : Call) (rejection : Option Rejection)
  | left
  | attended (events : Array Event) (locked : Bool)

/-- What may put an end to a selection: it is answered, or its combat is replaced or left. -/
inductive Happening.Dismisses : Happening → Prop
  | answered (chosen : List CardUid) : Dismisses (.called (.select chosen) none)
  | replaced (enemies : List String) : Dismisses (.called (.start enemies) none)
  | left : Dismisses .left

namespace Rules

/-- What comes of a run when something happens to it. -/
inductive Befalls (rules : Rules) (before : Run) : Happening → Run → Prop
  | called {call rejection after} (h : rules.perform before call = .ok (rejection, after)) :
      Befalls rules before (.called call rejection) after
  | left : Befalls rules before .left before.leaveCombat.2
  | attended {combat} (hc : before.combat = some combat) (events : Array Event)
      (locked : Bool) : Befalls rules before (.attended events locked)
      { before with combat := some { combat with events, locked } }

/-- What comes of a run when things happen to it one after another. -/
inductive History (rules : Rules) (run : Run) : List Happening → Run → Prop
  | nil : History rules run [] run
  | snoc {history happening before after} (h : History rules run history before)
      (hlast : rules.Befalls before happening after) :
      History rules run (history ++ [happening]) after

variable {run run' before after : Run} {happening : Happening} {history : List Happening}
  {selection : Selection}

/-- A call that is accepted while a selection waits is its answer, or starts another combat. -/
theorem dismisses_of_accepted {call : Call} (hp : before.pending? = some selection)
    (h : rules.perform before call = .ok (none, after)) :
    Happening.Dismisses (.called call none) := by
  obtain ⟨combat, hc, hp⟩ := Option.bind_eq_some_iff.mp hp
  have key {ready : Combat} (hready : before.readyCombat = .ok ready) : False := by
    obtain ⟨hcombat, hcheck⟩ := Run.readyCombat_eq_ok_iff.mp hready
    obtain rfl := Option.some.inj (hcombat.symm.trans hc)
    exact absurd ((Combat.checkReady_eq_ok_iff.mp hcheck).2.2.symm.trans hp) nofun
  obtain ⟨s, t, m, hm, -⟩ := undertakes_of_accepted h
  generalize s.combat = undertaken at hm
  cases hm with
  | start => exact .replaced _
  | select => exact .answered _
  | play hready | ability hready | endTurn hready => exact (key hready).elim

/-- Whatever happens to a run, a selection that waits is the same one afterwards unless it was
dismissed. -/
theorem Befalls.pending?_eq (h : rules.Befalls before happening after)
    (hnot : ¬happening.Dismisses) (hp : before.pending? = some selection) :
    after.pending? = some selection := by
  cases h with
  | @called call rejection _ h =>
      cases rejection with
      | none => exact absurd (dismisses_of_accepted hp h) hnot
      | some rejection => exact run_of_rejected h ▸ hp
  | left => exact absurd .left hnot
  | attended hc events locked =>
      unfold Run.pending? at hp
      rw [hc] at hp
      exact hp

/-- A selection waits as long as it is not dismissed. -/
theorem History.pending?_eq (h : rules.History run history run')
    (hnot : ∀ happening ∈ history, ¬happening.Dismisses) (hp : run.pending? = some selection) :
    run'.pending? = some selection := by
  induction h with
  | nil => exact hp
  | snoc _ hlast ih =>
      have hbefore := ih fun happening hmem => hnot happening (List.mem_append_left _ hmem)
      have hthis := hnot _ (List.mem_append_right _ (List.mem_singleton_self _))
      exact hlast.pending?_eq hthis hbefore

/-- **How selections come up, and how they go.** While effects are carried out a selection that
waits stays the same one, and one that has come up is well formed. In a history of a run a selection
waits, the same one all along, until it is answered or the combat is left or replaced. -/
theorem selection_waits (rules : Rules) :
    (∀ effects ctx s t, (carryOut rules effects ctx).run s = .ok ((), t) →
      (∀ selection, s.combat.pending = some selection → t.combat.pending = some selection) ∧
        (s.combat.pending = none →
          ∀ selection, t.combat.pending = some selection → selection.WellFormed)) ∧
      ∀ run history run' selection, rules.History run history run' →
        run.pending? = some selection → (∀ happening ∈ history, ¬happening.Dismisses) →
          run'.pending? = some selection := by
  constructor
  · intro effects ctx s t hrun
    have hwaits : Waits s t :=
      (Waits.prevails.carryOut rules.content.permits_any (fun _ _ => trivial) ctx).rel hrun
    exact ⟨fun _ => hwaits.pending_eq, fun hnone _ hp => (hwaits.proper hnone hp).toWellFormed⟩
  · intro run history run' selection hhistory hp hnot
    exact hhistory.pending?_eq hnot hp

end Rules

/-! ## A peek -/

/-- A card that looks at the top card of the draw pile, and then draws it. -/
def peekPack : Pack where
  cards :=
    [{ id := "peek", name := "Peek", theme := .skill, cost := .fixed 0
       keywords := { innate := true }, effects := [.scry (.fixed 1), .draw (.fixed 1)] },
     { id := "ward", name := "Ward", theme := .skill, cost := .fixed 1
       effects := [.block (.fixed 5) .self] }]
  enemies := [{ id := "dummy", name := "Dummy", maxHealth := 8, moves := [] }]

/-- One card is drawn in a turn. -/
def peekRules : Rules where
  content := (Content.ofPack peekPack).toOption.getD {}
  config := { drawPerTurn := 1 }

/-- A run with that card and another one. -/
def peekRun : Run where
  hero := ""
  health := 10
  maxHealth := 10
  deck := [{ uid := ⟨1⟩, definition := "peek" }, { uid := ⟨2⟩, definition := "ward" }]
  rng := .ofSeed 0

/-- The run after a combat has begun. -/
def peekStarted : Run := peekRules.after peekRun (.start ["dummy"])

/-- The run after the card was played. -/
def peekPlayed : Run := peekRules.after peekStarted (.play ⟨1⟩ none)

/-- A scene in which there is a card to look at. -/
def peekScene : Scene where
  combat :=
    { player := .ofPlayer "" 10 10, resources := { maxEnergy := 3 }, nextCardUid := 3
      piles := { drawPile := [{ uid := ⟨2⟩, definition := "ward" }] } }
  gold := 0
  stats := {}
  relics := []
  rng := .ofSeed 0

theorem peek_starts : peekRules.perform peekRun (.start ["dummy"]) = .ok (none, peekStarted) :=
  Rules.perform_eq_of_answer (by decide +kernel)

theorem peek_played : peekRules.perform peekStarted (.play ⟨1⟩ none) = .ok (none, peekPlayed) :=
  Rules.perform_eq_of_answer (by decide +kernel)

/-- While the card that was seen may be discarded, the turn cannot be ended. -/
theorem peek_endTurn : peekRules.perform peekPlayed .endTurn =
    .ok (some (.action .selectionPending), peekPlayed) := by
  have hanswer : peekRules.perform peekPlayed .endTurn =
      .ok (some (.action .selectionPending), peekRules.after peekPlayed .endTurn) :=
    Rules.perform_eq_of_answer (by decide +kernel)
  rw [hanswer, Rules.run_of_rejected hanswer]

namespace Rules

/-- The selection of the peek comes up, well formed, and it waits while the player tries to end the
turn. -/
theorem selection_waits_of_peek :
    (∃ t selection, (carryOut peekRules [.scry (.fixed 1)] {}).run peekScene = .ok ((), t) ∧
      t.combat.pending = some selection ∧ selection.WellFormed) ∧
      ∃ selection run', peekPlayed.pending? = some selection ∧
        peekRules.History peekPlayed [.called .endTurn (some (.action .selectionPending))] run' ∧
          run'.pending? = some selection := by
  obtain ⟨hresolved, hbetween⟩ := selection_waits peekRules
  constructor
  · have hasked : ((carryOut peekRules [.scry (.fixed 1)] {}).run peekScene).toOption.map
        (·.2.combat.pending.isSome) = some true := by
      decide +kernel
    cases hrun : (carryOut peekRules [.scry (.fixed 1)] {}).run peekScene with
    | error cause =>
        rw [hrun] at hasked
        exact absurd hasked nofun
    | ok result =>
        rw [hrun] at hasked
        obtain ⟨selection, hpending⟩ := Option.isSome_iff_exists.mp (Option.some.inj hasked)
        exact ⟨result.2, selection, rfl, hpending,
          (hresolved _ _ _ _ hrun).2 rfl selection hpending⟩
  · have hwaiting : peekPlayed.pending?.isSome = true := by decide +kernel
    obtain ⟨selection, hpending⟩ := Option.isSome_iff_exists.mp hwaiting
    have hhistory : peekRules.History peekPlayed _ _ := .snoc .nil (.called peek_endTurn)
    refine ⟨selection, peekPlayed, hpending, hhistory, ?_⟩
    refine hbetween _ _ _ selection hhistory hpending fun happening hmem hdismisses => ?_
    obtain rfl := List.mem_singleton.mp hmem
    exact absurd hdismisses nofun

end Rules

end CardCombat
