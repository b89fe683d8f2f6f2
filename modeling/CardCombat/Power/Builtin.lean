import CardCombat.Power.Definition

/-!
# The built-in powers

The powers that every combat knows: the ones that modify damage and block, the statuses that the
elements leave behind, and the ones that effects name.
-/

namespace CardCombat

namespace PowerDefinition

/-- The stacks of the power itself. -/
private def stack : Value := .powerAmount

/-- The holder takes damage that passes block. -/
private def hurtHolder : Effect := .damage stack .self .physical true []

/-- Whoever caused the trigger takes damage. -/
private def hitBack : Effect := .strike stack .source

/-- The built-in powers. -/
def builtin : List PowerDefinition :=
  [{ plain "strength" .buff .intensity with
      modifiers := { outgoing := { flat := 1 } } },
    { plain "dexterity" .buff .intensity with
      modifiers := { block := { flat := 1 } } },
    { plain "weak" .debuff .duration with
      removeAtZero := true, decay := some { boundary := .turnEnd }
      modifiers := { outgoing := { percent := -25 } } },
    { plain "vulnerable" .debuff .duration with
      removeAtZero := true, decay := some { boundary := .turnEnd }
      modifiers := { incoming := { percent := 50 } } },
    { plain "frail" .debuff .duration with
      removeAtZero := true, decay := some { boundary := .turnEnd }
      modifiers := { block := { percent := -25 } } },
    { plain "poison" .debuff .intensity with
      removeAtZero := true, decay := some { boundary := .turnStart }
      triggers := [⟨.turnStart, [hurtHolder]⟩] },
    { plain "burning" .debuff .intensity with
      removeAtZero := true, decay := some { boundary := .turnStart }
      triggers := [⟨.turnStart, [hurtHolder]⟩] },
    { plain "frozen" .debuff .duration with
      removeAtZero := true, decay := some { boundary := .turnEnd }
      modifiers := { outgoing := { percent := -25 } } },
    { plain "charged" .debuff .intensity with
      removeAtZero := true, decay := some { boundary := .turnEnd }
      modifiers := { incoming := { flat := 1 } } },
    { plain "oiled" .debuff .duration with
      removeAtZero := true, decay := some { boundary := .turnEnd } },
    { plain "wet" .debuff .duration with
      removeAtZero := true, decay := some { boundary := .turnEnd } },
    { plain "thorns" .buff .intensity with
      triggers := [⟨.attacked, [hitBack]⟩] },
    { plain "reflect" .buff .intensity with
      removeAtZero := true, decay := some { boundary := .turnStart, removeAll := true }
      triggers := [⟨.damaged, [hitBack]⟩] },
    { plain "counter" .buff .intensity with
      removeAtZero := true, decay := some { boundary := .turnStart, removeAll := true }
      triggers := [⟨.attacked, [hitBack]⟩] },
    { plain "marked" .debuff .intensity with
      removeAtZero := true, decay := some { boundary := .turnEnd }
      modifiers := { incoming := { flat := 1 } } },
    { plain "amplify" .buff .intensity with
      removeAtZero := true, decay := some { boundary := .turnEnd, removeAll := true }
      modifiers := { outgoing := { percent := 50 } } },
    { plain "regeneration" .buff .intensity with
      removeAtZero := true, decay := some { boundary := .turnEnd }
      triggers := [⟨.turnEnd, [.mend stack .self]⟩] },
    { plain "metallicize" .buff .intensity with
      triggers := [⟨.turnEnd, [.block stack .self]⟩] },
    { plain "ritual" .buff .intensity with
      triggers := [⟨.turnEnd, [.grant "strength" stack .self]⟩] },
    { plain "plated" .buff .intensity with
      removeAtZero := true
      triggers :=
        [⟨.turnEnd, [.block stack .self]⟩,
          ⟨.damaged, [.removePower "plated" (some (.fixed 1)) .self]⟩] }]

end PowerDefinition

/-- The catalog of the built-in powers. -/
def Catalog.builtinPowers : Catalog PowerDefinition :=
  ⟨PowerDefinition.builtin.map fun definition => (definition.id, definition)⟩

end CardCombat
