import CardCombat.Proofs.Success
import CardCombat.Content.Validation

/-!
# What content refers to

Which cards, powers and relics a pack names, said without the functions that look for them: an
effect names something if it says so itself or if an effect inside it does, at any depth, and a
condition asks for a power if one of its parts does.

A definition that is replaced by a later one of the same name is not part of the content that a
pack gives, so only the last definition of a name counts.

## Main results

* `Effect.mem_references` -- the list of references that is checked holds exactly what an effect
  names.
* `Content.requireEffects_eq_ok` -- a list of effects is accepted when all it names is there.
-/

namespace CardCombat

/-- Something that content refers to by name. -/
inductive Mention where
  | card (card : CardId)
  | power (power : PowerId)
  | relic (relic : RelicId)
  deriving Repr, DecidableEq

/-! ## Effects -/

namespace Effect

/-- The effects that lie directly inside an effect. -/
inductive Inside (inner : Effect) : Effect → Prop
  | onHit {amount target element piercing onHit} (h : inner ∈ onHit) :
      Inside inner (.damage amount target element piercing onHit)
  | yes {condition yes no} (h : inner ∈ yes) : Inside inner (.conditional condition yes no)
  | no {condition yes no} (h : inner ∈ no) : Inside inner (.conditional condition yes no)
  | repeated {times effects} (h : inner ∈ effects) : Inside inner (.repeated times effects)
  | choice {choices} (branch : Branch) (hb : branch ∈ choices) (h : inner ∈ branch.effects) :
      Inside inner (.randomChoice choices)
  | sequence {effects} (h : inner ∈ effects) : Inside inner (.sequence effects)
  | forEach {target effects} (h : inner ∈ effects) : Inside inner (.forEach target effects)

/-- An effect inside another one is smaller. -/
theorem Inside.sizeOf_lt {effect inner : Effect} (h : Inside inner effect) :
    sizeOf inner < sizeOf effect := by
  cases h with
  | onHit hi | yes hi | no hi | repeated hi | sequence hi | forEach hi =>
      have := List.sizeOf_lt_of_mem hi
      simp only [damage.sizeOf_spec, conditional.sizeOf_spec, repeated.sizeOf_spec,
        sequence.sizeOf_spec, forEach.sizeOf_spec]
      omega
  | choice branch hb hi =>
      obtain ⟨weight, effects⟩ := branch
      have hlt := List.sizeOf_lt_of_mem hi
      have hle := List.sizeOf_lt_of_mem hb
      simp only [Branch.effects, Branch.mk.sizeOf_spec, randomChoice.sizeOf_spec] at *
      omega

/-- What holds of an effect whenever it holds of the effects directly inside it holds of every
effect. -/
theorem insideInduction {motive : Effect → Prop}
    (step : ∀ effect, (∀ inner, Inside inner effect → motive inner) → motive effect)
    (effect : Effect) : motive effect :=
  step effect fun inner h =>
    have := h.sizeOf_lt
    insideInduction step inner
termination_by sizeOf effect

/-- An effect names a card or a power as something to make, to give or to take. -/
inductive Names : Effect → Mention → Prop
  | addCard {card pile count upgraded position} :
      Names (.addCard card pile count upgraded position) (.card card)
  | addStatusCard {card pile count} : Names (.addStatusCard card pile count) (.card card)
  | applyPower {power amount target duration} :
      Names (.applyPower power amount target duration) (.power power)
  | removePower {power amount target} : Names (.removePower power amount target) (.power power)
  | transferPower {power amount giver receiver} :
      Names (.transferPower power amount giver receiver) (.power power)
  | stealPower {power amount target} :
      Names (.stealPower (some power) amount target) (.power power)
  | silencePower {power turns target} :
      Names (.silencePower (some power) turns target) (.power power)
  | inside {effect inner : Effect} {mention : Mention} (h : Inside inner effect)
      (hn : Names inner mention) : Names effect mention

end Effect

/-- A condition asks whether someone holds a power. -/
inductive Condition.Asks : Condition → PowerId → Prop
  | hasPower {target power min} : Asks (.hasPower target power min) power
  | and {conditions condition power} (h : condition ∈ conditions) (ha : Asks condition power) :
      Asks (.and conditions) power
  | or {conditions condition power} (h : condition ∈ conditions) (ha : Asks condition power) :
      Asks (.or conditions) power
  | not {condition power} (ha : Asks condition power) : Asks (.not condition) power

/-- An effect asks, in a condition of its own or of an effect inside it, for a power. -/
inductive Effect.Asks : Effect → PowerId → Prop
  | conditional {condition yes no power} (h : condition.Asks power) :
      Asks (.conditional condition yes no) power
  | inside {effect inner : Effect} {power : PowerId} (h : Inside inner effect)
      (ha : Asks inner power) : Asks effect power

namespace Effect

/-! ## The references that are checked -/

/-- A reference that is checked, as a mention. -/
def mentionOf : CardId ⊕ PowerId → Mention
  | .inl card => .card card
  | .inr power => .power power

variable {reference : CardId ⊕ PowerId}

theorem mem_referencesAll {effects : List Effect} :
    reference ∈ referencesAll effects ↔ ∃ effect ∈ effects, reference ∈ effect.references := by
  induction effects with
  | nil => simp [referencesAll]
  | cons effect effects ih => simp [referencesAll, ih]

theorem mem_referencesBranches {choices : List Branch} :
    reference ∈ referencesBranches choices ↔
      ∃ branch ∈ choices, reference ∈ referencesAll branch.effects := by
  induction choices with
  | nil => simp [referencesBranches]
  | cons branch choices ih =>
      obtain ⟨weight, effects⟩ := branch
      simp [referencesBranches, Branch.effects, ih]

/-- What is referred to inside an effect is referred to by the effect. -/
theorem mem_references_of_inside {effect inner : Effect} (h : Inside inner effect)
    (hr : reference ∈ inner.references) : reference ∈ effect.references := by
  have hall {effects : List Effect} (hi : inner ∈ effects) : reference ∈ referencesAll effects :=
    mem_referencesAll.mpr ⟨inner, hi, hr⟩
  cases h with
  | onHit hi | repeated hi | sequence hi | forEach hi =>
      simpa only [references] using hall hi
  | yes hi => simpa only [references] using List.mem_append_left _ (hall hi)
  | no hi => simpa only [references] using List.mem_append_right _ (hall hi)
  | choice branch hb hi =>
      simpa only [references] using mem_referencesBranches.mpr ⟨branch, hb, hall hi⟩

/-- A reference that is checked is a name that the effect says, itself or in an effect inside. -/
theorem names_of_mem_references {effect : Effect} :
    reference ∈ effect.references → effect.Names (mentionOf reference) := by
  induction effect using insideInduction with
  | step effect ih =>
      have hall {effects : List Effect} (hi : ∀ inner ∈ effects, Inside inner effect)
          (hr : reference ∈ referencesAll effects) : effect.Names (mentionOf reference) := by
        obtain ⟨inner, hmem, hr⟩ := mem_referencesAll.mp hr
        exact .inside (hi inner hmem) (ih inner (hi inner hmem) hr)
      intro hr
      unfold references at hr
      split at hr
      · exact hall (fun _ => .onHit) hr
      · rw [List.mem_singleton.mp hr]; exact .addCard
      · rw [List.mem_singleton.mp hr]; exact .addStatusCard
      · rw [List.mem_singleton.mp hr]; exact .applyPower
      · rw [List.mem_singleton.mp hr]; exact .removePower
      · rw [List.mem_singleton.mp hr]; exact .transferPower
      · rw [List.mem_singleton.mp hr]; exact .stealPower
      · rw [List.mem_singleton.mp hr]; exact .silencePower
      · rcases List.mem_append.mp hr with hr | hr
        · exact hall (fun _ => .yes) hr
        · exact hall (fun _ => .no) hr
      · exact hall (fun _ => .repeated) hr
      · exact hall (fun _ => .sequence) hr
      · exact hall (fun _ => .forEach) hr
      · obtain ⟨branch, hb, hr⟩ := mem_referencesBranches.mp hr
        exact hall (fun _ => .choice branch hb) hr
      · exact absurd hr List.not_mem_nil

/-- **The references of an effect are exactly what it names**, at any depth. -/
theorem mem_references {effect : Effect} :
    reference ∈ effect.references ↔ effect.Names (mentionOf reference) := by
  refine ⟨names_of_mem_references, fun h => ?_⟩
  generalize hm : mentionOf reference = mention at h
  induction h with
  | inside hi hn ih => exact mem_references_of_inside hi (ih hm)
  | addCard | addStatusCard | applyPower | removePower | transferPower | stealPower
  | silencePower =>
      cases reference with
      | inl => cases hm <;> exact List.mem_singleton_self _
      | inr => cases hm <;> exact List.mem_singleton_self _

/-- An effect names no relic. -/
theorem exists_mentionOf {effect : Effect} {mention : Mention} (h : effect.Names mention) :
    ∃ reference, mention = mentionOf reference := by
  induction h with
  | inside _ _ ih => exact ih
  | addCard | addStatusCard => exact ⟨.inl _, rfl⟩
  | applyPower | removePower | transferPower | stealPower | silencePower => exact ⟨.inr _, rfl⟩

end Effect

namespace Content

/-! ## What content has -/

/-- Content has what a mention names. -/
def Registers (content : Content) : Mention → Prop
  | .card card => content.cards.contains card
  | .power power => content.powers.contains power
  | .relic relic => content.relics.contains relic

variable {content : Content} {owner : String}

theorem requireCard_eq_ok {card : CardId} :
    content.requireCard owner card = .ok () ↔ content.Registers (.card card) := by
  unfold requireCard Registers
  split <;> simp_all

theorem requirePower_eq_ok {power : PowerId} :
    content.requirePower owner power = .ok () ↔ content.Registers (.power power) := by
  unfold requirePower Registers
  split <;> simp_all

theorem requireRelic_eq_ok {relic : RelicId} :
    content.requireRelic owner relic = .ok () ↔ content.Registers (.relic relic) := by
  unfold requireRelic Registers
  split <;> simp_all

theorem requireReference_eq_ok {reference : CardId ⊕ PowerId} :
    content.requireReference owner reference = .ok () ↔
      content.Registers (Effect.mentionOf reference) := by
  cases reference with
  | inl card => exact requireCard_eq_ok
  | inr power => exact requirePower_eq_ok

/-- **A list of effects is accepted exactly when the content has all that they name.** -/
theorem requireEffects_eq_ok {effects : List Effect} :
    content.requireEffects owner effects = .ok () ↔
      ∀ effect ∈ effects, ∀ mention, effect.Names mention → content.Registers mention := by
  unfold requireEffects
  rw [forM_eq_ok]
  constructor
  · intro h effect he mention hn
    obtain ⟨reference, rfl⟩ := Effect.exists_mentionOf hn
    have hr : reference ∈ Effect.referencesAll effects :=
      Effect.mem_referencesAll.mpr ⟨effect, he, Effect.mem_references.mpr hn⟩
    exact requireReference_eq_ok.mp (h reference hr)
  · intro h reference hr
    obtain ⟨effect, he, hr⟩ := Effect.mem_referencesAll.mp hr
    exact requireReference_eq_ok.mpr (h effect he _ (Effect.mem_references.mp hr))

end Content

end CardCombat
