import CardCombat.Proofs.Json.Records

/-!
# Texts are read back

The text of a value is read back if it is not nested too deeply and if the decimal forms of its
numbers that are not whole stand for these numbers. The reader of texts knows no single precision,
so such a number comes back by way of the double precision of its decimal form.

## Main definitions

* `Json.Exact` -- the numbers that are not whole are read back as they were written.
* `Json.RoundTrips` -- a written form is read back, as a value and as a text.

## Main results

* `Json.RoundTrips.of_denotes` -- whatever is read back with all wider forms of its numbers is read
  back from its text too.
-/

namespace CardCombat

/-! ## Numbers that are not whole -/

namespace Json

/-- The numbers of a value that are not whole are read back as they were written. -/
structure Exact (value : Json) : Prop where
  double : ∀ x, Part (.double x) value → parse? (Writer.ofFloat x) = some (.double x)
  single : ∀ x, Part (.single x) value →
    ∃ y, parse? (Writer.ofFloat32 x) = some (.double y) ∧ y.toFloat32 = x

mutual

/-- Whether all numbers of a value are whole. -/
def whole : Json → Bool
  | .double _ | .single _ => false
  | .array items => wholeItems items
  | .object members => wholeMembers members
  | .null | .bool _ | .int _ | .string _ | .unreadable => true

def wholeItems : List Json → Bool
  | [] => true
  | item :: items => item.whole && wholeItems items

def wholeMembers : List (String × Json) → Bool
  | [] => true
  | (_, value) :: members => value.whole && wholeMembers members

end

theorem whole_of_mem_items {item : Json} {items : List Json} (hmem : item ∈ items)
    (h : wholeItems items) : item.whole := by
  induction items with
  | nil => exact absurd hmem List.not_mem_nil
  | cons first items ih =>
    rw [wholeItems, Bool.and_eq_true] at h
    cases hmem with
    | head => exact h.1
    | tail _ hmem => exact ih hmem h.2

theorem whole_of_mem_members {key : String} {value : Json} {members : List (String × Json)}
    (hmem : (key, value) ∈ members) (h : wholeMembers members) : value.whole := by
  induction members with
  | nil => exact absurd hmem List.not_mem_nil
  | cons first members ih =>
    rw [wholeMembers, Bool.and_eq_true] at h
    cases hmem with
    | head => exact h.1
    | tail _ hmem => exact ih hmem h.2

theorem whole_of_part {part value : Json} (hpart : Part part value) (h : value.whole) :
    part.whole := by
  induction hpart with
  | self => exact h
  | item hmem _ ih => exact ih (whole_of_mem_items hmem h)
  | member hmem _ ih => exact ih (whole_of_mem_members hmem h)

/-- Whole numbers are always read back. -/
theorem Exact.of_whole {value : Json} (h : value.whole) : value.Exact :=
  ⟨fun _ hpart => absurd (whole_of_part hpart h) nofun,
    fun _ hpart => absurd (whole_of_part hpart h) nofun⟩

/-! ## Forms that are read back -/

variable {α : Type} {read : Json → Option α} {json : Json} {value : α}

/-- A written form is read back: as it is, with numbers of single precision that have become wider
and are kept, and from its text. -/
structure RoundTrips (read : Json → Option α) (json : Json) (value : α) : Prop where
  direct : read json = some value
  widened : ∀ {wide : Float32 → Option Float}, Kept wide json →
    read (json.widen wide) = some value
  text : json.depth ≤ maxDepth → json.Exact → (parse? json.text).bind read = some value

/-- **What is read back with all wider forms of its numbers** is read back from its text. -/
theorem RoundTrips.of_denotes
    (h : ∀ wide : Float32 → Option Float, Kept wide json → Denotes wide read json value) :
    RoundTrips read json value where
  direct := by
    have hread := (h (fun _ => none) fun _ _ _ => nofun).read
    rwa [widen_none] at hread
  widened hkept := (h _ hkept).read
  text := by
    intro hdepth hexact
    let wide (x : Float32) : Option Float := (parse? (Writer.ofFloat32 x)).bind double?
    have hwide {x : Float32} {y : Float}
        (hy : parse? (Writer.ofFloat32 x) = some (.double y)) : wide x = some y := by
      show Option.bind _ _ = _
      rw [hy]
      rfl
    have hkept : Kept wide json := by
      intro x hx y hy
      obtain ⟨z, hz, hzx⟩ := hexact.single x hx
      rw [hwide hz] at hy
      exact Option.some.inj hy ▸ hzx
    have hdenotes := h wide hkept
    have hparse : parse? json.text = some (json.widen wide) :=
      parse?_text hdenotes.writable hdepth hexact.double fun x hx =>
        have ⟨y, hy, _⟩ := hexact.single x hx
        ⟨y, hy, hwide hy⟩
    rw [hparse]
    exact hdenotes.read

end Json

end CardCombat
