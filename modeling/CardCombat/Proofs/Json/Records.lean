import CardCombat.Json.Record
import CardCombat.Proofs.Json.Text
import CardCombat.Number.Checked

/-!
# Reading what was written

A written form is read back if it can be written as text and the reader makes the value of it
again, also where numbers of single precision come back wider. Lists and optional values are read
back if their parts are; a record looks its members up by their keys; and a tagged value is read by
the way of its tag.

## Main definitions

* `Json.Kept` -- numbers of single precision are the same again.
* `Json.Denotes` -- a written form is read back.
-/

namespace CardCombat

/-- The range of an unsigned quantity with so many binary digits. -/
def Unsigned.Fits (bits n : Nat) : Prop := n < 1 <<< bits

instance (bits n : Nat) : Decidable (Unsigned.Fits bits n) := inferInstanceAs (Decidable (_ < _))

namespace Json

variable {α : Type} {wide : Float32 → Option Float}

/-! ## Numbers of single precision -/

/-- The numbers of single precision are read as what they are from their wider forms. -/
def Kept (wide : Float32 → Option Float) (json : Json) : Prop :=
  ∀ x, Part (.single x) json → ∀ y, wide x = some y → y.toFloat32 = x

theorem Part.trans {part middle whole : Json} (h : Part part middle) (h' : Part middle whole) :
    Part part whole := by
  induction h' with
  | self => exact h
  | item hmem _ ih => exact .item hmem ih
  | member hmem _ ih => exact .member hmem ih

theorem Kept.of_part {part whole : Json} (h : Kept wide whole) (hpart : Part part whole) :
    Kept wide part :=
  fun x hx => h x (hx.trans hpart)

theorem Kept.item {item : Json} {items : List Json} (h : Kept wide (.array items))
    (hmem : item ∈ items) : Kept wide item :=
  h.of_part (.item hmem .self)

theorem Kept.element {write : α → Json} {value : α} {values : List α}
    (h : Kept wide (ofList write values)) (hmem : value ∈ values) : Kept wide (write value) :=
  h.item (List.mem_map_of_mem hmem)

theorem Kept.member {key : String} {value : Json} {members : Members}
    (h : Kept wide (.object members)) (hmem : (key, value) ∈ members) : Kept wide value :=
  h.of_part (.member hmem .self)

theorem widenItems_eq (items : List Json) : widenItems wide items = items.map (widen wide) := by
  induction items with
  | nil => rfl
  | cons item items ih => rw [widenItems, ih, List.map_cons]

theorem widenMembers_eq (members : Members) :
    widenMembers wide members = members.map fun member => (member.1, member.2.widen wide) := by
  induction members with
  | nil => rfl
  | cons member members ih =>
    obtain ⟨key, value⟩ := member
    rw [widenMembers, ih, List.map_cons]

theorem widen_array (items : List Json) :
    (Json.array items).widen wide = .array (items.map (widen wide)) := by
  rw [widen, widenItems_eq]

@[simp]
theorem widen_object (members : Members) : (Json.object members).widen wide =
    .object (members.map fun member => (member.1, member.2.widen wide)) := by
  rw [widen, widenMembers_eq]

@[simp]
theorem widen_int (value : Int) : (Json.int value).widen wide = .int value := rfl

@[simp]
theorem widen_string (value : String) : (Json.string value).widen wide = .string value := rfl

mutual

/-- Nothing changes if no number of single precision is read as a wider one. -/
theorem widen_none : ∀ json : Json, json.widen (fun _ => none) = json
  | .null | .bool _ | .int _ | .double _ | .single _ | .string _ | .unreadable => rfl
  | .array items => by rw [widen, widenItems_none items]
  | .object members => by rw [widen, widenMembers_none members]

theorem widenItems_none : ∀ items : List Json, widenItems (fun _ => none) items = items
  | [] => rfl
  | item :: items => by rw [widenItems, widen_none item, widenItems_none items]

theorem widenMembers_none : ∀ members : List (String × Json),
    widenMembers (fun _ => none) members = members
  | [] => rfl
  | (key, value) :: members => by
    rw [widenMembers, widen_none value, widenMembers_none members]

end

theorem single?_widen {x : Float32} (h : Kept wide (.single x)) :
    ((Json.single x).widen wide).single? = some x := by
  rw [widen]
  cases hx : wide x with
  | none => rfl
  | some y =>
    show some y.toFloat32 = _
    rw [h x .self y hx]

/-! ## What can be written can be used -/

theorem readableItems_iff {items : List Json} :
    readableItems items ↔ ∀ item ∈ items, item.readable := by
  induction items with
  | nil => simp [readableItems]
  | cons item items ih => simp [readableItems, ih]

theorem readableMembers_iff {members : Members} :
    readableMembers members ↔ ∀ member ∈ members, member.2.readable := by
  induction members with
  | nil => simp [readableMembers]
  | cons member members ih => simp [readableMembers, ih]

theorem Writable.readable {json : Json} (h : json.Writable) : (json.widen wide).readable := by
  induction h with
  | null | bool | int | double | string => rfl
  | single x =>
    rw [widen]
    cases wide x <;> rfl
  | array _ ih =>
    rw [widen_array, Json.readable, readableItems_iff, List.forall_mem_map]
    exact ih
  | object _ ih =>
    rw [widen_object, Json.readable, readableMembers_iff, List.forall_mem_map]
    exact ih

theorem writable_array_iff {items : List Json} :
    Writable (.array items) ↔ ∀ item ∈ items, Writable item :=
  ⟨fun | .array h => h, .array⟩

@[simp]
theorem writable_object_iff {members : Members} :
    Writable (.object members) ↔ ∀ member ∈ members, Writable member.2 :=
  ⟨fun | .object h => h, .object⟩

/-! ## Depth -/

theorem depth_lt_of_item {item : Json} {items : List Json} (h : item ∈ items) :
    (item.widen wide).depth < ((Json.array items).widen wide).depth := by
  rw [widen_array, depth]
  exact Nat.lt_succ_of_le (depth_le_depthItems (List.mem_map_of_mem h))

theorem depth_lt_of_member {key : String} {value : Json} {members : Members}
    (h : (key, value) ∈ members) :
    (value.widen wide).depth < ((Json.object members).widen wide).depth := by
  rw [widen_object, depth]
  have hmem : (key, value.widen wide) ∈
      members.map fun member => (member.1, member.2.widen wide) := List.mem_map.mpr ⟨_, h, rfl⟩
  exact Nat.lt_succ_of_le (depth_le_depthMembers hmem)

theorem Part.depth_le {part whole : Json} (h : Part part whole) :
    (part.widen wide).depth ≤ (whole.widen wide).depth := by
  induction h with
  | self => exact Nat.le_refl _
  | item hmem _ ih => exact Nat.le_trans ih (Nat.le_of_lt (depth_lt_of_item hmem))
  | member hmem _ ih => exact Nat.le_trans ih (Nat.le_of_lt (depth_lt_of_member hmem))

/-! ## Values that are read back -/

/-- A written form can be written as text, and it is read as the value. -/
structure Denotes (wide : Float32 → Option Float) (read : Json → Option α) (json : Json)
    (value : α) : Prop where
  writable : json.Writable
  read : read (json.widen wide) = some value

attribute [simp] Writable.null Writable.bool Writable.double Writable.single Writable.string

@[simp]
theorem writable_int {value : Int} (h : Signed.Fits value) : Writable (.int value) := by
  unfold Signed.Fits Signed.least Signed.greatest at h
  exact .int (by omega)

theorem signed?_int {value : Int} (h : Signed.Fits value) : signed? (.int value) = some value :=
  if_pos h

theorem writable_ofNat {bits value : Nat} (hbits : bits ≤ 64) (h : Unsigned.Fits bits value) :
    Writable (.ofNat value) := by
  have hle : 1 <<< bits ≤ 1 <<< 64 := by
    rw [Nat.shiftLeft_eq, Nat.shiftLeft_eq, Nat.one_mul, Nat.one_mul]
    exact Nat.pow_le_pow_right Nat.two_pos hbits
  exact .int (Nat.lt_of_lt_of_le h hle)

theorem unsigned?_ofNat {bits value : Nat} (h : Unsigned.Fits bits value) :
    unsigned? bits (.ofNat value) = some value := by
  have hrange : (0 : Int) ≤ value ∧ (value : Int) < 1 <<< bits :=
    ⟨Int.natCast_nonneg _, Int.ofNat_lt.mpr h⟩
  rw [ofNat, unsigned?, if_pos hrange, Int.toNat_natCast]

theorem denotes_single {value : Float32} (h : Kept wide (.single value)) :
    Denotes wide single? (.single value) value :=
  ⟨.single value, single?_widen h⟩

section Plain

variable (wide)

theorem denotes_signed {value : Int} (h : Signed.Fits value) :
    Denotes wide signed? (.int value) value :=
  ⟨writable_int h, signed?_int h⟩

theorem denotes_unsigned {bits value : Nat} (hbits : bits ≤ 64) (h : Unsigned.Fits bits value) :
    Denotes wide (unsigned? bits) (.ofNat value) value :=
  ⟨writable_ofNat hbits h, unsigned?_ofNat h⟩

theorem denotes_bool (value : Bool) : Denotes wide bool? (.bool value) value :=
  ⟨.bool value, rfl⟩

theorem denotes_double (value : Float) : Denotes wide double? (.double value) value :=
  ⟨.double value, rfl⟩

theorem denotes_string (value : String) : Denotes wide string? (.string value) value :=
  ⟨.string value, rfl⟩

end Plain

variable {read : Json → Option α} {write : α → Json}

/-- **Lists** are read back if their elements are. -/
theorem denotes_list {values : List α}
    (h : ∀ value ∈ values, Denotes wide read (write value) value) :
    Denotes wide (list? read) (ofList write values) values := by
  refine ⟨?_, ?_⟩
  · rw [ofList, writable_array_iff, List.forall_mem_map]
    exact fun value hmem => (h value hmem).writable
  · rw [ofList, widen_array, list?, List.map_map]
    induction values with
    | nil => rfl
    | cons value values ih =>
      rw [List.map_cons, List.mapM_cons, ih fun value hmem => h value (.tail _ hmem)]
      show (read ((write value).widen wide)).bind _ = _
      rw [(h value List.mem_cons_self).read]
      rfl

/-- **Values that may be absent** are read back if those that are there are, and are not `null`. -/
theorem denotes_nullable {value : Option α} (hnull : read .null = none)
    (h : ∀ inner ∈ value, Denotes wide read (write inner) inner) :
    Denotes wide (nullable? read) (ofOption write value) value := by
  cases value with
  | none => exact ⟨.null, rfl⟩
  | some inner =>
    obtain ⟨hwritable, hread⟩ := h inner rfl
    refine ⟨hwritable, ?_⟩
    rw [ofOption]
    cases hjson : (write inner).widen wide with
    | null =>
      rw [hjson, hnull] at hread
      exact absurd hread nofun
    | _ =>
      rw [hjson] at hread
      rw [nullable?, hread]
      · rfl
      · exact nofun

/-- A second way to read does not matter where the first one works. -/
theorem Denotes.orElse {json : Json} {value : α} (h : Denotes wide read json value)
    (other : Json → Option α) : Denotes wide (fun json => read json <|> other json) json value := by
  refine ⟨h.writable, ?_⟩
  rw [h.read]
  rfl

theorem Denotes.map {β : Type} {json : Json} {value : α} (h : Denotes wide read json value)
    (build : α → β) : Denotes wide (fun json => (read json).map build) json (build value) := by
  refine ⟨h.writable, ?_⟩
  rw [h.read]
  rfl

/-- **Named values** are read back if their names are told apart. -/
theorem denotes_named {inner : Bool} {name : α → String} {all : List α} {value : α}
    (h : byName? name all (name value) = some value) :
    Denotes wide (named? inner name all) (.string (name value)) value :=
  ⟨.string _, h⟩

end Json

/-! ## Records -/

namespace Members

variable {members : Members} {key : String} {value : Json}

theorem unique?_cons_self (h : ∀ member ∈ members, member.1 ≠ key) :
    unique? ((key, value) :: members) key = some (some value) := by
  unfold unique?
  rw [List.filter_cons_of_pos (by simp), List.filter_eq_nil_iff.mpr (by simpa using h)]

variable {α β : Type} {read : Json → Option α} {found : α} {rest : α → Option β} {whole : β}

theorem required_of_unique? (hkey : members.unique? key = some (some value)) :
    members.required key read = read value := by
  unfold required
  rw [hkey]

/-- **A member** is looked up and read, and then the rest of the record is. -/
theorem required_bind (hkey : members.unique? key = some (some value)) (hread : read value = found)
    (hrest : rest found = some whole) : (members.required key read).bind rest = some whole := by
  rw [required_of_unique? hkey, hread]
  exact hrest

theorem withDefault_of_unique? {default : α} (hkey : members.unique? key = some (some value)) :
    members.withDefault key default read = read value := by
  unfold withDefault
  rw [hkey]

end Members

namespace Json.Denotes

variable {α β : Type} {wide : Float32 → Option Float} {read : Json → Option α} {json : Json}
  {value : α} (h : Denotes wide read json value) {members : Members} {key : String}
  {rest : α → Option β} {whole : β}

include h

theorem required (hkey : members.unique? key = some (some (json.widen wide)))
    (hrest : rest value = some whole) : (members.required key read).bind rest = some whole :=
  Members.required_bind hkey h.read hrest

/-- A member with a default. -/
theorem withDefault {default : α} (hkey : members.unique? key = some (some (json.widen wide)))
    (hrest : rest value = some whole) :
    (members.withDefault key default read).bind rest = some whole := by
  rw [Members.withDefault_of_unique? hkey, h.read]
  exact hrest

end Json.Denotes

/-- A member that may be absent. -/
theorem Json.Denotes.optional {α β : Type} {wide : Float32 → Option Float}
    {read : Json → Option α} {json : Json} {value : Option α} {members : Members} {key : String}
    {rest : Option α → Option β} {whole : β} (h : Denotes wide (nullable? read) json value)
    (hkey : members.unique? key = some (some (json.widen wide)))
    (hrest : rest value = some whole) : (members.optional key read).bind rest = some whole :=
  h.withDefault hkey hrest

theorem Json.record?_bind {α : Type} {members : Members} {build : Members → Option α} {value : α}
    (h : build members = some value) : (Json.object members).record?.bind build = some value := h

/-- **A record** is read back if its members are. -/
theorem Json.denotes_record {α : Type} {wide : Float32 → Option Float} {members : Members}
    {build : Members → Option α} {value : α} (hwritable : ∀ member ∈ members, member.2.Writable)
    (hread : build (members.map fun member => (member.1, member.2.widen wide)) = some value) :
    Denotes wide (fun json => json.record?.bind build) (.object members) value := by
  refine ⟨.object hwritable, ?_⟩
  rw [widen_object]
  exact record?_bind hread

/-! ## Tagged values -/

namespace Json

variable {α : Type} {wide : Float32 → Option Float} {key tag : String} {tags : List String}
  {inner : Bool} {members : Members}

/-- The tag of a value that was written with it. -/
theorem tagged?_widen (htag : tag ∈ tags) (hkey : ∀ member ∈ members, member.1 ≠ key)
    (hwritable : ∀ member ∈ members, member.2.Writable) :
    ((Json.object ((key, .string tag) :: members)).widen wide).tagged? key tags inner =
      some (tag, (key, .string tag) ::
        members.map fun member => (member.1, member.2.widen wide)) := by
  have hreadable : readableMembers ((key, .string tag) ::
      members.map fun member => (member.1, member.2.widen wide)) := by
    rw [readableMembers_iff, List.forall_mem_cons, List.forall_mem_map]
    exact ⟨rfl, fun member hmem => (hwritable member hmem).readable⟩
  rw [widen_object, List.map_cons, widen_string, tagged?, if_pos hreadable,
    Members.required_of_unique? (Members.unique?_cons_self (by rwa [List.forall_mem_map])),
    tag?, if_pos htag]
  rfl

/-- **A tagged value** is read back if it is by the way of its tag. -/
theorem denotes_tagged {ofTagged? : String × Members → Option α} {value : α} (htag : tag ∈ tags)
    (hkey : ∀ member ∈ members, member.1 ≠ key)
    (hwritable : ∀ member ∈ members, member.2.Writable)
    (hread : ofTagged? (tag, (key, .string tag) ::
      members.map fun member => (member.1, member.2.widen wide)) = some value) :
    Denotes wide (fun json => (json.tagged? key tags inner).bind ofTagged?)
      (.object ((key, .string tag) :: members)) value := by
  refine ⟨?_, ?_⟩
  · rw [writable_object_iff, List.forall_mem_cons]
    exact ⟨.string tag, hwritable⟩
  · rw [tagged?_widen htag hkey hwritable]
    exact hread

end Json

end CardCombat
