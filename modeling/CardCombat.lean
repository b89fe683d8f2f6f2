import CardCombat.Action.Basic
import CardCombat.Action.Call
import CardCombat.Action.InPlace
import CardCombat.Action.Play
import CardCombat.Action.Selection
import CardCombat.Action.Start
import CardCombat.Action.Turn
import CardCombat.Card.Basic
import CardCombat.Card.Definition
import CardCombat.Card.Pile
import CardCombat.Catalog
import CardCombat.Combat.Chronicle
import CardCombat.Combat.Combatant
import CardCombat.Combat.Event
import CardCombat.Combat.Powers
import CardCombat.Combat.State
import CardCombat.Config
import CardCombat.Content.Basic
import CardCombat.Content.Starter
import CardCombat.Content.Template
import CardCombat.Content.Validation
import CardCombat.Effect.Aim
import CardCombat.Effect.Basic
import CardCombat.Effect.Condition
import CardCombat.Effect.Value
import CardCombat.Element
import CardCombat.Form.Aim
import CardCombat.Form.Definition
import CardCombat.Form.Effect
import CardCombat.Form.Names
import CardCombat.Form.State
import CardCombat.Json.Basic
import CardCombat.Json.Reader
import CardCombat.Json.Record
import CardCombat.Json.Writer
import CardCombat.Number.Checked
import CardCombat.Number.Decimal
import CardCombat.Number.Multiplier
import CardCombat.Power.Builtin
import CardCombat.Power.Definition
import CardCombat.Power.Held
import CardCombat.Proofs.Action.Calls
import CardCombat.Proofs.Action.Upkeep
import CardCombat.Proofs.Banishment.Account
import CardCombat.Proofs.Banishment.Permanence
import CardCombat.Proofs.Card.Changes
import CardCombat.Proofs.Card.Contents
import CardCombat.Proofs.Card.Handling
import CardCombat.Proofs.Card.Instances
import CardCombat.Proofs.Card.Piles
import CardCombat.Proofs.Card.Places
import CardCombat.Proofs.Combat.Combatants
import CardCombat.Proofs.Combat.Vitals
import CardCombat.Proofs.Content.Acceptance
import CardCombat.Proofs.Content.Merging
import CardCombat.Proofs.Content.Reference
import CardCombat.Proofs.Content.Registration
import CardCombat.Proofs.Damage.Absorption
import CardCombat.Proofs.Damage.Elements
import CardCombat.Proofs.Damage.Monotone
import CardCombat.Proofs.Damage.Unanswered
import CardCombat.Proofs.Death.Accounting
import CardCombat.Proofs.Death.Dying
import CardCombat.Proofs.Death.Fate
import CardCombat.Proofs.Death.Hits
import CardCombat.Proofs.Deck.Drawing
import CardCombat.Proofs.Deck.Opening
import CardCombat.Proofs.Deck.Shuffles
import CardCombat.Proofs.Depth.Levels
import CardCombat.Proofs.Depth.Limit
import CardCombat.Proofs.Form.Choices
import CardCombat.Proofs.Form.Content
import CardCombat.Proofs.Form.Effects
import CardCombat.Proofs.Form.Events
import CardCombat.Proofs.Form.Ranges
import CardCombat.Proofs.Form.Runs
import CardCombat.Proofs.Frame.Effects
import CardCombat.Proofs.Isolation.Confined
import CardCombat.Proofs.Isolation.Effects
import CardCombat.Proofs.Isolation.Reached
import CardCombat.Proofs.Isolation.Rounds
import CardCombat.Proofs.Json.Exact
import CardCombat.Proofs.Json.Records
import CardCombat.Proofs.Json.Scalars
import CardCombat.Proofs.Json.Text
import CardCombat.Proofs.Origin.Creation
import CardCombat.Proofs.Origin.Descent
import CardCombat.Proofs.Origin.Effects
import CardCombat.Proofs.Origin.Numbers
import CardCombat.Proofs.Origin.Registered
import CardCombat.Proofs.Outcome.Answers
import CardCombat.Proofs.Outcome.Phases
import CardCombat.Proofs.Outcome.Playable
import CardCombat.Proofs.Outcome.Rejections
import CardCombat.Proofs.Outcome.Selecting
import CardCombat.Proofs.Outcome.Victories
import CardCombat.Proofs.Outcome.Waiting
import CardCombat.Proofs.Overflow.Arithmetic
import CardCombat.Proofs.Overflow.Calls
import CardCombat.Proofs.Overflow.Effects
import CardCombat.Proofs.Overflow.Plain
import CardCombat.Proofs.Overflow.Ranges
import CardCombat.Proofs.Overflow.Secure
import CardCombat.Proofs.Overlays.Sticking
import CardCombat.Proofs.Overlays.Traces
import CardCombat.Proofs.Powers.Decay
import CardCombat.Proofs.Powers.Held
import CardCombat.Proofs.Powers.Loss
import CardCombat.Proofs.Powers.Stacking
import CardCombat.Proofs.Powers.Stacks
import CardCombat.Proofs.Powers.Theft
import CardCombat.Proofs.Powers.Transfer
import CardCombat.Proofs.Random.Branches
import CardCombat.Proofs.Random.Draws
import CardCombat.Proofs.Random.Positive
import CardCombat.Proofs.Random.Weights
import CardCombat.Proofs.Resolution.Aim
import CardCombat.Proofs.Resolution.Blows
import CardCombat.Proofs.Resolution.Candid
import CardCombat.Proofs.Resolution.Cards
import CardCombat.Proofs.Resolution.Carries
import CardCombat.Proofs.Resolution.Congruence
import CardCombat.Proofs.Resolution.Ensures
import CardCombat.Proofs.Resolution.Fighters
import CardCombat.Proofs.Resolution.Found
import CardCombat.Proofs.Resolution.Plays
import CardCombat.Proofs.Resolution.Prevails
import CardCombat.Proofs.Resolution.Spares
import CardCombat.Proofs.Resolution.Step
import CardCombat.Proofs.Resolution.Total
import CardCombat.Proofs.Resources.Ability
import CardCombat.Proofs.Resources.Balance
import CardCombat.Proofs.Resources.Calls
import CardCombat.Proofs.Resources.Charge
import CardCombat.Proofs.Resources.Energy
import CardCombat.Proofs.Resources.Solvency
import CardCombat.Proofs.Saving.Reload
import CardCombat.Proofs.Saving.Requests
import CardCombat.Proofs.Silence.Effects
import CardCombat.Proofs.Silence.Tells
import CardCombat.Proofs.Success
import CardCombat.Proofs.Targeting.Cards
import CardCombat.Proofs.Targeting.Combatants
import CardCombat.Proofs.Triggers.Attacks
import CardCombat.Proofs.Triggers.Cause
import CardCombat.Proofs.Turns.Calm
import CardCombat.Proofs.Turns.Cleanup
import CardCombat.Proofs.Turns.Intents
import CardCombat.Proofs.Turns.Moves
import CardCombat.Proofs.Turns.Numbering
import CardCombat.Proofs.Turns.Quiet
import CardCombat.Proofs.Turns.Renewal
import CardCombat.Proofs.Uniqueness.Calls
import CardCombat.Proofs.Uniqueness.Circulation
import CardCombat.Proofs.Uniqueness.Effects
import CardCombat.Proofs.Uniqueness.Ledger
import CardCombat.Proofs.Uniqueness.Rest
import CardCombat.Proofs.Uniqueness.Turns
import CardCombat.Proofs.Vitality.Everyone
import CardCombat.Proofs.Vitality.Growth
import CardCombat.Proofs.Vitality.Range
import CardCombat.Proofs.Vitality.Touches
import CardCombat.Proofs.Whereabouts.Chosen
import CardCombat.Proofs.Whereabouts.Exhausted
import CardCombat.Proofs.Whereabouts.Hand
import CardCombat.Proofs.Whereabouts.InPlay
import CardCombat.Proofs.Whereabouts.Losses
import CardCombat.Random.Choice
import CardCombat.Random.Keystream
import CardCombat.Random.Rng
import CardCombat.Resolve.Aim
import CardCombat.Resolve.Amount
import CardCombat.Resolve.Attack
import CardCombat.Resolve.Basic
import CardCombat.Resolve.CardAim
import CardCombat.Resolve.CardEffect
import CardCombat.Resolve.CardMove
import CardCombat.Resolve.Condition
import CardCombat.Resolve.Context
import CardCombat.Resolve.Control
import CardCombat.Resolve.Deck
import CardCombat.Resolve.Dispatch
import CardCombat.Resolve.Hit
import CardCombat.Resolve.Power
import CardCombat.Resolve.Replay
import CardCombat.Resolve.Resource
import CardCombat.Resolve.Trigger
import CardCombat.Resolve.Vitality
import CardCombat.Rules
import CardCombat.Run
