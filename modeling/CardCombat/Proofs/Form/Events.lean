import CardCombat.Form.State
import CardCombat.Proofs.Form.Choices

/-!
# Written events are read back

An event is read back by its tag. Events about combatants have one reader, and all others have
another one, which is asked when the first finds nothing.

## Main results

* `SelectionKind.denotes`, `Event.denotes`.
-/

namespace CardCombat

open Json

variable (wide : Float32 → Option Float)

theorem SelectionKind.denotes (inner : Bool) (kind : SelectionKind) :
    Denotes wide (SelectionKind.read inner) kind.toJson kind := by
  cases kind with
  | banish | scry | discard => exact denotes_tagged (by decide) (by simp) (by simp) rfl
  | discover destination | tutor destination =>
    have hpile := Pile.denotes wide true destination
    exact denotes_tagged (by decide) (by simp) (by simp [hpile.writable]) (hpile.required rfl rfl)

namespace Event

section Tags

variable {wide} {tag : String} {members : Members} {event : Event}

theorem denotes_of_entityTag (htag : tag ∈ tags) (hkey : ∀ member ∈ members, member.1 ≠ "type")
    (hwritable : ∀ member ∈ members, member.2.Writable)
    (hread : ofEntityTag? (tag, ("type", .string tag) ::
      members.map fun member => (member.1, member.2.widen wide)) = some event) :
    Denotes wide Event.ofJson? (tagged tag members) event := by
  refine denotes_tagged htag hkey hwritable ?_
  rw [hread]
  rfl

theorem denotes_of_tableTag (htag : tag ∈ tags) (hkey : ∀ member ∈ members, member.1 ≠ "type")
    (hwritable : ∀ member ∈ members, member.2.Writable)
    (hentity : ofEntityTag? (tag, ("type", .string tag) ::
      members.map fun member => (member.1, member.2.widen wide)) = none)
    (hread : ofTableTag? (tag, ("type", .string tag) ::
      members.map fun member => (member.1, member.2.widen wide)) = some event) :
    Denotes wide Event.ofJson? (tagged tag members) event := by
  refine denotes_tagged htag hkey hwritable ?_
  rw [hentity, hread]
  rfl

end Tags

/-- **An event** of which the numbers fit is read back. -/
theorem denotes {event : Event} (h : event.Fits) :
    Denotes wide Event.ofJson? event.toJson event := by
  have hid {id : CombatantId} (h : id.Fits) := CombatantId.denotes wide h
  have huid {uid : CardUid} (h : uid.Fits) := CardUid.denotes wide h
  have hsigned {n : Int} (h : Signed.Fits n) := denotes_signed wide h
  have hturns {n : Nat} (h : Unsigned.Fits 32 n) := denotes_unsigned wide (by decide) h
  have hcount {n : Nat} (h : Unsigned.Fits 64 n) := denotes_unsigned wide (by decide) h
  have hstring (value : String) := denotes_string wide value
  cases event with
  | damage target amount blocked element =>
    have helement := Element.denotes wide true element
    refine denotes_of_entityTag (by decide) (by simp) ?_ ?_
    · simp [(hid h.1).writable, h.2.1, h.2.2, helement.writable]
    · rw [ofEntityTag?]
      refine (hid h.1).required rfl ?_
      refine (hsigned h.2.1).required rfl ?_
      refine (hsigned h.2.2).required rfl ?_
      exact helement.required rfl rfl
  | block target amount | barrier target amount | heal target amount
  | destroyBlock target amount | maxHealth target amount | setHealth target amount =>
    refine denotes_of_entityTag (by decide) (by simp) ?_ ?_
    · simp [(hid h.1).writable, h.2]
    · rw [ofEntityTag?, quantityOf]
      refine (hid h.1).required rfl ?_
      exact (hsigned h.2).required rfl rfl
  | intentWeakened target amount =>
    refine denotes_of_entityTag (by decide) (by simp) ?_ ?_
    · simp [(hid h.1).writable, h.2]
    · rw [ofEntityTag?]
      refine (hid h.1).required rfl ?_
      exact (hsigned h.2).required rfl rfl
  | execute target | death target =>
    refine denotes_of_entityTag (by decide) (by simp) ?_ ?_
    · simp [(hid h).writable]
    · rw [ofEntityTag?]
      exact (hid h).required rfl rfl
  | combo target name | powerRemoved target name | intent target name =>
    refine denotes_of_entityTag (by decide) (by simp) ?_ ?_
    · simp [(hid h).writable]
    · rw [ofEntityTag?]
      refine (hid h).required rfl ?_
      exact (hstring name).required rfl rfl
  | powerApplied target power amount | powerReduced target power amount =>
    refine denotes_of_entityTag (by decide) (by simp) ?_ ?_
    · simp [(hid h.1).writable, h.2]
    · rw [ofEntityTag?, stackOf]
      refine (hid h.1).required rfl ?_
      refine (hstring power).required rfl ?_
      exact (hsigned h.2).required rfl rfl
  | powerSilenced target power turns =>
    refine denotes_of_entityTag (by decide) (by simp) ?_ ?_
    · simp [(hid h.1).writable, (hturns h.2).writable]
    · rw [ofEntityTag?]
      refine (hid h.1).required rfl ?_
      refine (hstring power).required rfl ?_
      exact (hturns h.2).required rfl rfl
  | energy delta value | gold delta value =>
    refine denotes_of_tableTag (by decide) (by simp) ?_ rfl ?_
    · simp [h.1, h.2]
    · rw [ofTableTag?, balanceOf]
      refine (hsigned h.1).required rfl ?_
      exact (hsigned h.2).required rfl rfl
  | energyNextTurn amount =>
    refine denotes_of_tableTag (by decide) (by simp) ?_ rfl ?_
    · simp [(hsigned h).writable]
    · rw [ofTableTag?]
      exact (hsigned h).required rfl rfl
  | draw count | shuffle count =>
    refine denotes_of_tableTag (by decide) (by simp) ?_ rfl ?_
    · simp [(hcount h).writable]
    · rw [ofTableTag?]
      exact (hcount h).required rfl rfl
  | discard card | exhaust card | banish card | retain card | putOnDeck card | upgrade card
  | mill card | replay card =>
    refine denotes_of_tableTag (by decide) (by simp) ?_ rfl ?_
    · simp [(huid h).writable]
    · rw [ofTableTag?, cardOf]
      exact (huid h).required rfl rfl
  | addCard card cardId pile =>
    have hpile := Pile.denotes wide true pile
    refine denotes_of_tableTag (by decide) (by simp) ?_ rfl ?_
    · simp [(huid h).writable, hpile.writable]
    · rw [ofTableTag?]
      refine (huid h).required rfl ?_
      refine (hstring cardId).required rfl ?_
      exact hpile.required rfl rfl
  | costChange card delta =>
    refine denotes_of_tableTag (by decide) (by simp) ?_ rfl ?_
    · simp [(huid h.1).writable, h.2]
    · rw [ofTableTag?]
      refine (huid h.1).required rfl ?_
      exact (hsigned h.2).required rfl rfl
  | transform card definition =>
    refine denotes_of_tableTag (by decide) (by simp) ?_ rfl ?_
    · simp [(huid h).writable]
    · rw [ofTableTag?]
      refine (huid h).required rfl ?_
      exact (hstring definition).required rfl rfl
  | cardFlag card flag value =>
    refine denotes_of_tableTag (by decide) (by simp) ?_ rfl ?_
    · simp [(huid h).writable]
    · rw [ofTableTag?]
      refine (huid h).required rfl ?_
      refine (hstring flag).required rfl ?_
      exact (denotes_bool wide value).required rfl rfl
  | selectionRequested kind count =>
    have hkind := SelectionKind.denotes wide true kind
    refine denotes_of_tableTag (by decide) (by simp) ?_ rfl ?_
    · simp [hkind.writable, (hcount h).writable]
    · rw [ofTableTag?]
      refine hkind.required rfl ?_
      exact (hcount h).required rfl rfl
  | heroAbility => exact denotes_of_tableTag (by decide) (by simp) (by simp) rfl rfl
  | turnStart turn =>
    refine denotes_of_tableTag (by decide) (by simp) ?_ rfl ?_
    · simp [(hturns h).writable]
    · rw [ofTableTag?]
      exact (hturns h).required rfl rfl

end Event

end CardCombat
