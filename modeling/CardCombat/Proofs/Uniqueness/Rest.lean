import CardCombat.Action.Call
import CardCombat.Proofs.Uniqueness.Turns

/-!
# Combats at rest

Between two calls a combat is at rest: no card is in play, every card has got its number, and the
new cards of a discovery that waits for an answer are nowhere yet. A resolution that keeps the
ledger leads from one combat at rest to another, and no card lies twice after it exactly if every
card was revived at most as often as it was lost.

## Main definitions

* `Combat.Rests` -- a combat between two calls.
* `Combat.Distinct` -- no card lies twice in the piles.
* `Balanced` -- no card was revived more often than it was lost.

## Main results

* `distinct_iff_balanced` -- what the ledger says of a combat at rest.
* `Resolution.settleSelection_settles` -- answers to selections, discoveries included.
-/

namespace CardCombat

/-- No card was revived more often than it was lost. -/
def Balanced (deeds : List Deed) : Prop :=
  ∀ u, deeds.countP (·.revives u) ≤ deeds.countP (·.loses u)

namespace Combat

/-- No card lies twice in the piles. -/
def Distinct (combat : Combat) : Prop := combat.piles.uids.Nodup

/-- The combat is between two calls. -/
structure Rests (combat : Combat) : Prop where
  inPlay : combat.inPlay = []
  bounded : combat.Bounded
  /-- The new cards of a discovery are different, have got their numbers, and are nowhere yet. -/
  offer : ∀ selection pile, combat.pending = some selection → selection.kind = .discover pile →
    (selection.candidates.map (·.uid)).Nodup ∧
      ∀ card ∈ selection.candidates,
        card.uid.number < combat.nextCardUid ∧ ¬combat.Holds card.uid

variable {combat : Combat} {u : CardUid}

theorem distinct_iff : combat.Distinct ↔ ∀ u, combat.piles.count u ≤ 1 :=
  List.nodup_iff_count_le_one

theorem copies_of_inPlay (h : combat.inPlay = []) : combat.copies u = combat.piles.count u := by
  rw [copies, h]
  rfl

/-- Nothing is in play while the same cards are in play as before. -/
theorem inPlay_of_playing {before : Combat} (h : combat.playing = before.playing)
    (hbefore : before.inPlay = []) : combat.inPlay = [] := by
  unfold playing at h
  rw [hbefore, List.map_nil] at h
  exact List.map_eq_nil_iff.mp h

theorem holds_iff_of_inPlay (h : combat.inPlay = []) :
    combat.Holds u ↔ 0 < combat.piles.count u := by
  rw [Holds, playing, h]
  exact or_iff_left List.not_mem_nil

/-- The cards of a discovery that are chosen are chosen once each, and are nowhere yet. -/
theorem Rests.chosen (h : combat.Rests) {selection : Selection} {pile : Pile} {cards : List Card}
    (hpending : combat.pending = some selection) (hkind : selection.kind = .discover pile)
    (hsub : cards.Sublist selection.candidates) (u : CardUid) :
    Piles.countIn u cards ≤ 1 ∧ (0 < Piles.countIn u cards →
      u.number < combat.nextCardUid ∧ combat.piles.count u = 0) := by
  obtain ⟨hnodup, hoffer⟩ := h.offer selection pile hpending hkind
  constructor
  · exact List.nodup_iff_count_le_one.mp (hnodup.sublist (hsub.map _)) u
  · intro hpos
    obtain ⟨card, hmem, rfl⟩ := List.mem_map.mp (List.count_pos_iff.mp hpos)
    obtain ⟨hlt, hnot⟩ := hoffer card (hsub.subset hmem)
    rw [holds_iff_of_inPlay h.inPlay] at hnot
    exact ⟨hlt, by omega⟩

end Combat

variable {rules : Rules} {s t : Scene} {deeds : List Deed} {u : CardUid}

/-! ## Keeping the ledger -/

theorem Keeps.rests (h : Keeps s t) (hs : s.combat.Rests) : t.combat.Rests := by
  obtain ⟨⟨deeds, hledger⟩, hplaying⟩ := h
  have hnext := hledger.next
  refine ⟨Combat.inPlay_of_playing hplaying hs.inPlay, hledger.bounded hs.bounded,
    fun selection pile hpending hkind => ?_⟩
  rcases hledger.offer selection hpending with hbefore | hfresh
  · obtain ⟨hnodup, hoffer⟩ := hs.offer selection pile hbefore hkind
    refine ⟨hnodup, fun card hmem => ?_⟩
    obtain ⟨hlt, hnot⟩ := hoffer card hmem
    exact ⟨by omega, hledger.not_holds hlt hnot⟩
  · obtain ⟨hnodup, hoffer⟩ := hfresh pile hkind
    refine ⟨hnodup, fun card hmem => ?_⟩
    obtain ⟨-, hlt, hnot⟩ := hoffer card hmem
    exact ⟨hlt, hnot hs.bounded⟩

/-- **What the ledger says of a combat at rest**: no card lies twice in the piles exactly if none
was revived more often than it was lost. -/
theorem distinct_iff_balanced (h : Ledger s t deeds) (hs : s.combat.Rests)
    (ht : t.combat.inPlay = []) (hd : s.combat.Distinct) : t.combat.Distinct ↔ Balanced deeds := by
  rw [Combat.distinct_iff]
  apply forall_congr'
  intro u
  have honce := Combat.distinct_iff.mp hd u
  obtain ⟨born, hle, hborn, hholds, hcopies⟩ := h.entry u
  rw [Combat.copies_of_inPlay ht, Combat.copies_of_inPlay hs.inPlay] at hcopies
  rw [Combat.holds_iff_of_inPlay ht, Combat.holds_iff_of_inPlay hs.inPlay] at hholds
  -- A card that is born now was nowhere before, so it counts for one in either case.
  have hnew : born = 1 → s.combat.piles.count u = 0 := by
    intro hone
    by_contra hpos
    have hheld := hs.bounded u ((Combat.holds_iff_of_inPlay hs.inPlay).mpr (by omega))
    have := hborn hone
    omega
  by_cases hone : born = 1
  · have := hnew hone
    omega
  · by_cases hzero : s.combat.piles.count u = 0
    · -- A card that is nowhere stays away, whatever becomes of its plays.
      have hnone : ¬0 < t.combat.piles.count u := by
        intro hpos
        rcases hholds hpos with hheld | hb
        · omega
        · exact hone hb
      omega
    · omega

/-! ## Settling -/

/-- A resolution leads from a combat at rest to another one, and if no card lay twice before it,
none does after it exactly if it was balanced. -/
def Settles (s t : Scene) : Prop :=
  s.chronicle = #[] → s.combat.Rests → t.combat.Rests ∧
    (s.combat.Distinct → (t.combat.Distinct ↔ Balanced t.chronicle.toList))

theorem Keeps.settles (h : Keeps s t) : Settles s t := by
  intro hstart hs
  have ht := h.rests hs
  obtain ⟨⟨deeds, hledger⟩, -⟩ := h
  refine ⟨ht, fun hd => ?_⟩
  rw [hledger.chronicle, hstart]
  exact distinct_iff_balanced hledger hs ht.inPlay hd

namespace Resolution

/-- The cards of a discovery that were chosen lie in a pile afterwards, once each. -/
theorem discovered_settles {selection : Selection} {pile : Pile} {chosen : List CardUid} {a : Unit}
    (hpending : s.combat.pending = some selection) (hkind : selection.kind = .discover pile)
    (h : (settleSelection rules selection chosen).run s = .ok (a, t)) : Settles s t := by
  intro hstart hs
  obtain ⟨_, _, hforget, h⟩ := run_bind_iff.mp h
  obtain rfl := run_modifyCombat_iff.mp hforget
  rw [hkind] at h
  obtain ⟨hplay, hnext, hpend, ⟨deeds, hidle, hchronicle⟩, hcount⟩ := discovered_of_run h
  have hempty : t.combat.inPlay = [] := hplay.trans hs.inPlay
  have hsub : (selection.candidates.filter (chosen.contains ·.uid)).Sublist selection.candidates :=
    List.filter_sublist
  have hchosen := hs.chosen hpending hkind hsub
  generalize selection.candidates.filter (chosen.contains ·.uid) = cards at hcount hchosen
  refine ⟨⟨hempty, fun u hu => ?_, fun selection pile h => ?_⟩, fun hd => ?_⟩
  · rw [Combat.holds_iff_of_inPlay hempty, hcount] at hu
    change 0 < s.combat.piles.count u + _ at hu
    rw [hnext]
    by_cases hpos : 0 < Piles.countIn u cards
    · exact ((hchosen u).2 hpos).1
    · exact hs.bounded u (.inl (by omega))
  · rw [hpend] at h
    exact absurd h (by simp)
  · rw [hchronicle, Combat.distinct_iff]
    show _ ↔ Balanced (s.chronicle.toList ++ deeds)
    rw [hstart]
    refine iff_of_true (fun u => ?_) fun u => ?_
    case refine_2 =>
      show deeds.countP (·.revives u) ≤ deeds.countP (·.loses u)
      rw [(hidle.countP_eq u).2]
      exact Nat.zero_le _
    have hbefore := Combat.distinct_iff.mp hd u
    obtain ⟨hone, hzero⟩ := hchosen u
    rw [hcount]
    show s.combat.piles.count u + _ ≤ 1
    omega

/-- **The answer to a selection** settles like everything else. -/
theorem settleSelection_settles {selection : Selection} {chosen : List CardUid} {a : Unit}
    (hpending : s.combat.pending = some selection)
    (h : (settleSelection rules selection chosen).run s = .ok (a, t)) : Settles s t := by
  by_cases hnew : ∃ pile, selection.kind = .discover pile
  · obtain ⟨pile, hkind⟩ := hnew
    exact discovered_settles hpending hkind h
  · have hkeeps := @settleSelection_keeps rules selection
      (fun pile hkind => hnew ⟨pile, hkind⟩) chosen
    exact (hkeeps h).settles

end Resolution

end CardCombat
