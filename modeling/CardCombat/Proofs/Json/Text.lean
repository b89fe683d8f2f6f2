import CardCombat.Proofs.Json.Scalars

/-!
# JSON text is read as it was written

The text of a value is the value again, if it nests no deeper than may be read and its numbers are
read from their texts. The reader knows no single precision: such a number comes back as a number of
double precision.

## Main definitions

* `Json.Writable` -- everything in a value can be used, and its whole numbers are not too long.
* `Json.Part` -- a value is another one or is inside it.
* `Json.widen` -- a value with numbers of double precision in place of those of single precision.

## Main results

* `Json.parse?_text` -- reading a text that was written.
-/

namespace CardCombat.Json

open Reader Writer

/-! ## Values and their parts -/

/-- Everything in the value can be used, and its whole numbers have at most 64 binary digits. -/
inductive Writable : Json → Prop
  | null : Writable .null
  | bool (value : Bool) : Writable (.bool value)
  | int {value : Int} (h : value.natAbs < 1 <<< 64) : Writable (.int value)
  | double (value : Float) : Writable (.double value)
  | single (value : Float32) : Writable (.single value)
  | string (value : String) : Writable (.string value)
  | array {items : List Json} (h : ∀ item ∈ items, Writable item) : Writable (.array items)
  | object {members : List (String × Json)} (h : ∀ member ∈ members, Writable member.2) :
      Writable (.object members)

/-- A value is another one, or it is inside it. -/
inductive Part (part : Json) : Json → Prop
  | self : Part part part
  | item {items : List Json} {item : Json} (hmem : item ∈ items) (h : Part part item) :
      Part part (.array items)
  | member {members : List (String × Json)} {key : String} {value : Json}
      (hmem : (key, value) ∈ members) (h : Part part value) : Part part (.object members)

mutual

/-- The same value with numbers of double precision in place of those of single precision that are
read as such. -/
def widen (wide : Float32 → Option Float) : Json → Json
  | .single x => (wide x).elim (.single x) .double
  | .array items => .array (widenItems wide items)
  | .object members => .object (widenMembers wide members)
  | json => json

def widenItems (wide : Float32 → Option Float) : List Json → List Json
  | [] => []
  | item :: items => item.widen wide :: widenItems wide items

def widenMembers (wide : Float32 → Option Float) :
    List (String × Json) → List (String × Json)
  | [] => []
  | (key, value) :: members => (key, value.widen wide) :: widenMembers wide members

end

/-! ## What is appended -/

mutual

/-- The text of a value is appended to what is there. -/
theorem toList_append (out : String) : ∀ value : Json,
    (append out value).toList = out.toList ++ value.text.toList
  | .null | .bool true | .bool false | .int _ | .double _ | .single _ | .string _
  | .unreadable => by
    simp [text, append]
  | .array items => by
    rw [text, append, append, String.toList_push, String.toList_push,
      toList_appendItems (out.push _), toList_appendItems ("".push _)]
    simp
  | .object members => by
    rw [text, append, append, String.toList_push, String.toList_push,
      toList_appendMembers (out.push _), toList_appendMembers ("".push _)]
    simp

theorem toList_appendItems (out : String) (first : Bool) : ∀ items : List Json,
    (appendItems out first items).toList = out.toList ++ (appendItems "" first items).toList
  | [] => by simp [appendItems]
  | item :: items => by
    have hitems (out : String) := toList_appendItems out false items
    have hitem (out : String) := toList_append out item
    simp only [appendItems]
    rw [hitems, hitem, hitems (append _ item), hitem]
    cases first <;> simp

theorem toList_appendMembers (out : String) (first : Bool) : ∀ members : List (String × Json),
    (appendMembers out first members).toList = out.toList ++ (appendMembers "" first members).toList
  | [] => by simp [appendMembers]
  | (key, value) :: members => by
    have hmembers (out : String) := toList_appendMembers out false members
    have hvalue (out : String) := toList_append out value
    simp only [appendMembers]
    rw [hmembers, hvalue, hmembers (append _ value), hvalue]
    cases first <;> simp

end

/-- The text of items, each behind a comma. -/
def itemsText (items : List Json) : List Char := (appendItems "" false items).toList

/-- The text of members, each behind a comma. -/
def membersText (members : List (String × Json)) : List Char :=
  (appendMembers "" false members).toList

theorem itemsText_cons (item : Json) (items : List Json) :
    itemsText (item :: items) = ',' :: (item.text.toList ++ itemsText items) := by
  unfold itemsText
  rw [appendItems, toList_appendItems, toList_append]
  simp

theorem membersText_cons (key : String) (value : Json) (members : List (String × Json)) :
    membersText ((key, value) :: members) =
      ',' :: ((quote key).toList ++ ':' :: (value.text.toList ++ membersText members)) := by
  unfold membersText
  rw [appendMembers, toList_appendMembers, toList_append]
  simp

theorem text_array_cons (item : Json) (items : List Json) :
    (Json.array (item :: items)).text.toList =
      '[' :: (item.text.toList ++ (itemsText items ++ [']'])) := by
  rw [text, append, String.toList_push, toList_appendItems, appendItems, toList_appendItems,
    toList_append]
  unfold itemsText
  simp

theorem text_object_cons (key : String) (value : Json) (members : List (String × Json)) :
    (Json.object ((key, value) :: members)).text.toList =
      '\x7b' :: ((quote key).toList ++ ':' :: (value.text.toList ++
        (membersText members ++ ['\x7d']))) := by
  rw [text, append, String.toList_push, toList_appendMembers, appendMembers, toList_appendMembers,
    toList_append]
  unfold membersText
  simp

/-! ## What is read -/

variable {wide : Float32 → Option Float} {rest : List Char}

/-- Wherever the text of the value stands, the value is read from it. -/
def ReadsBack (wide : Float32 → Option Float) (value : Json) : Prop :=
  ∀ fuel levels rest, value.depth ≤ levels → 2 * value.text.toList.length + 2 ≤ fuel → Ends rest →
    Reads (readValue fuel levels (value.text.toList ++ rest)) (value.widen wide) rest

/-- **Items** are read one after another, up to the end of their array. -/
theorem readItems_text {levels fuel : Nat} {item : Json} {items : List Json}
    (hitems : ∀ inner ∈ item :: items, ReadsBack wide inner)
    (hlevels : depthItems (item :: items) < levels)
    (hfuel : 2 * (item.text.toList ++ itemsText items).length + 3 ≤ fuel) (done : List Json) :
    readItems fuel levels done (item.text.toList ++ (itemsText items ++ ']' :: rest)) =
      some (.array (done.reverse ++ widenItems wide (item :: items)), rest) := by
  induction items generalizing item fuel done with
  | nil =>
    obtain ⟨fuel, rfl⟩ : ∃ n, fuel = n + 1 := ⟨fuel - 1, by omega⟩
    rw [List.length_append] at hfuel
    rw [depthItems] at hlevels
    obtain ⟨left, hread, hleft⟩ := hitems item List.mem_cons_self fuel (levels - 1)
      (itemsText [] ++ ']' :: rest) (by omega) (by omega) (.inr (.inl rfl))
    unfold readItems
    rw [hread]
    dsimp only
    rw [hleft]
    show some (if levels = 0 then _ else _, rest) = _
    rw [if_neg (by omega), List.reverse_cons]
    rfl
  | cons next items ih =>
    obtain ⟨fuel, rfl⟩ : ∃ n, fuel = n + 1 := ⟨fuel - 1, by omega⟩
    rw [itemsText_cons, List.length_append, List.length_cons, List.length_append] at hfuel
    rw [depthItems] at hlevels
    rw [itemsText_cons, List.cons_append, List.append_assoc]
    obtain ⟨left, hread, hleft⟩ := hitems item List.mem_cons_self fuel (levels - 1)
      (',' :: (next.text.toList ++ (itemsText items ++ ']' :: rest))) (by omega) (by omega)
      (.inl rfl)
    unfold readItems
    rw [hread]
    dsimp only
    rw [hleft]
    show readItems fuel levels (item.widen wide :: done) _ = _
    rw [ih (fun inner hmem => hitems inner (.tail _ hmem)) (by omega)
      (by rw [List.length_append]; omega), List.reverse_cons, List.append_assoc]
    rfl

section Member

variable {fuel levels : Nat} {key : String} {value : Json} {middle left : List Char}
  (hvalue : readValue fuel levels middle = some (value, left))

include hvalue

/-- A member with another one behind it. -/
theorem readMembers_comma (hleft : skipBlanks left = ',' :: rest)
    (done : List (String × Json)) :
    readMembers (fuel + 1) (levels + 1) (some done) ((quote key).toList ++ ':' :: middle) =
      readMembers fuel (levels + 1) (some ((key, value) :: done)) rest := by
  have hkey := @readString_quote (':' :: middle) key
  have hquote (cs : List Char) : skipBlanks ('"' :: cs) = '"' :: cs := rfl
  have hcolon (cs : List Char) : skipBlanks (':' :: cs) = ':' :: cs := rfl
  simp only [toList_quote, List.cons_append, List.append_assoc, List.nil_append, readMembers,
    hquote, hkey, hcolon, Nat.add_sub_cancel, hvalue, hleft, addMember, Option.map_some]

/-- The last member. -/
theorem readMembers_brace (hleft : skipBlanks left = '\x7d' :: rest)
    (done : List (String × Json)) :
    readMembers (fuel + 1) (levels + 1) (some done) ((quote key).toList ++ ':' :: middle) =
      some (.object ((key, value) :: done).reverse, rest) := by
  have hkey := @readString_quote (':' :: middle) key
  have hquote (cs : List Char) : skipBlanks ('"' :: cs) = '"' :: cs := rfl
  have hcolon (cs : List Char) : skipBlanks (':' :: cs) = ':' :: cs := rfl
  simp only [toList_quote, List.cons_append, List.append_assoc, List.nil_append, readMembers,
    hquote, hkey, hcolon, Nat.add_sub_cancel, hvalue, hleft, addMember, Option.map_some]

end Member

/-- **Members** are read one after another, up to the end of their object. -/
theorem readMembers_text {levels fuel : Nat} {key : String} {value : Json}
    {members : List (String × Json)}
    (hvalues : ∀ member ∈ (key, value) :: members, ReadsBack wide member.2)
    (hlevels : depthMembers ((key, value) :: members) < levels)
    (hfuel : 2 * ((quote key).toList ++ ':' :: (value.text.toList ++
      membersText members)).length + 3 ≤ fuel)
    (done : List (String × Json)) :
    readMembers fuel levels (some done) ((quote key).toList ++ ':' :: (value.text.toList ++
        (membersText members ++ '\x7d' :: rest))) =
      some (.object (done.reverse ++ widenMembers wide ((key, value) :: members)), rest) := by
  induction members generalizing key value fuel done with
  | nil =>
    obtain ⟨fuel, rfl⟩ : ∃ n, fuel = n + 1 := ⟨fuel - 1, by omega⟩
    obtain ⟨levels, rfl⟩ : ∃ n, levels = n + 1 := ⟨levels - 1, by omega⟩
    rw [List.length_append, List.length_cons, List.length_append] at hfuel
    rw [depthMembers] at hlevels
    have hvalue : ReadsBack wide value := hvalues _ List.mem_cons_self
    obtain ⟨left, hread, hleft⟩ := hvalue fuel levels (membersText [] ++ '\x7d' :: rest)
      (by omega) (by omega) (.inr (.inr rfl))
    rw [readMembers_brace hread hleft, List.reverse_cons]
    rfl
  | cons next members ih =>
    obtain ⟨nextKey, nextValue⟩ := next
    obtain ⟨fuel, rfl⟩ : ∃ n, fuel = n + 1 := ⟨fuel - 1, by omega⟩
    obtain ⟨levels, rfl⟩ : ∃ n, levels = n + 1 := ⟨levels - 1, by omega⟩
    rw [membersText_cons, List.length_append, List.length_cons, List.length_append,
      List.length_cons] at hfuel
    rw [depthMembers] at hlevels
    have hvalue : ReadsBack wide value := hvalues _ List.mem_cons_self
    rw [membersText_cons, List.cons_append, List.append_assoc, List.cons_append,
      List.append_assoc]
    obtain ⟨left, hread, hleft⟩ := hvalue fuel levels (',' :: ((quote nextKey).toList ++
      ':' :: (nextValue.text.toList ++ (membersText members ++ '\x7d' :: rest))))
      (by omega) (by omega) (.inl rfl)
    rw [readMembers_comma hread hleft, ih (fun member hmem => hvalues member (.tail _ hmem))
      (by omega) (by omega), List.reverse_cons, List.append_assoc]
    rfl

theorem skipBlanks_skipBlanks (cs : List Char) : skipBlanks (skipBlanks cs) = skipBlanks cs := by
  unfold skipBlanks
  induction cs with
  | nil => rfl
  | cons c cs ih =>
    by_cases hc : isBlank c
    · rw [List.dropWhile_cons_of_pos hc, ih]
    · rw [List.dropWhile_cons_of_neg hc, List.dropWhile_cons_of_neg hc]

theorem readItems_congr {fuel levels : Nat} {done : List Json} {cs cs' : List Char}
    (h : skipBlanks cs = skipBlanks cs') :
    readItems (fuel + 2) levels done cs = readItems (fuel + 2) levels done cs' := by
  unfold readItems
  rw [readValue_congr h]

/-- Items that can be read are read as an array. -/
theorem readValue_bracket {fuel levels : Nat} {cs : List Char} {result : Json × List Char}
    (h : readItems (fuel + 2) levels [] cs = some result) :
    readValue (fuel + 3) levels ('[' :: cs) = some result := by
  rw [← readItems_congr (skipBlanks_skipBlanks cs)] at h
  have hbracket : skipBlanks ('[' :: cs) = '[' :: cs := rfl
  simp only [readValue, hbracket]
  split
  case h_1 hclose =>
    rw [hclose] at h
    cases h
  case h_2 => exact h

/-- **The text of a value is read as the value**, wherever it stands, if its numbers that are not
whole are. -/
theorem Writable.readsBack {value : Json} (h : Writable value)
    (hdouble : ∀ x, Part (.double x) value → parse? (Writer.ofFloat x) = some (.double x))
    (hsingle : ∀ x, Part (.single x) value →
      ∃ y, parse? (Writer.ofFloat32 x) = some (.double y) ∧ wide x = some y) :
    ReadsBack wide value := by
  intro fuel levels rest hdepth hfuel hends
  obtain ⟨fuel, rfl⟩ : ∃ n, fuel = n + 1 := ⟨fuel - 1, by omega⟩
  induction h generalizing fuel levels rest with
  | null => exact .of_ends hends (by simp [text, append]; rfl)
  | bool value => cases value <;> exact .of_ends hends (by simp [text, append]; rfl)
  | @int n hn =>
    have htext : (Json.int n).text.toList = (toString n).toList := by simp [text, append]
    rw [htext]
    exact reads_int hn hends
  | double x =>
    have htext : (Json.double x).text.toList = (Writer.ofFloat x).toList := by simp [text, append]
    rw [htext]
    exact reads_double hends (hdouble x .self)
  | single x =>
    have htext : (Json.single x).text.toList = (Writer.ofFloat32 x).toList := by
      simp [text, append]
    obtain ⟨y, hparse, hy⟩ := hsingle x .self
    rw [htext, widen, hy]
    exact reads_double hends hparse
  | string s =>
    have htext : (Json.string s).text.toList ++ rest = (quote s).toList ++ rest := by
      simp [text, append]
    refine .of_ends hends ?_
    rw [htext, toList_quote, List.cons_append, List.append_assoc]
    have hread := @readString_quote rest s
    have hquote (cs : List Char) : skipBlanks ('"' :: cs) = '"' :: cs := rfl
    simp only [readValue, hquote, List.cons_append, List.nil_append, hread]
    rfl
  | @array items _ ih =>
    have hitems (inner : Json) (hmem : inner ∈ items) : ReadsBack wide inner := by
      intro fuel levels rest hdepth hfuel hends
      obtain ⟨fuel, rfl⟩ : ∃ n, fuel = n + 1 := ⟨fuel - 1, by omega⟩
      exact ih inner hmem (fun x h => hdouble x (.item hmem h))
        (fun x h => hsingle x (.item hmem h)) _ _ hdepth hends _ hfuel
    refine .of_ends hends ?_
    rw [depth] at hdepth
    cases items with
    | nil =>
      obtain ⟨levels, rfl⟩ : ∃ n, levels = n + 1 := ⟨levels - 1, by omega⟩
      have htext : (Json.array []).text.toList = ['[', ']'] := rfl
      rw [htext]
      rfl
    | cons item items =>
      rw [text_array_cons, List.length_cons, List.length_append, List.length_append] at hfuel
      obtain ⟨fuel, rfl⟩ : ∃ n, fuel = n + 2 := ⟨fuel - 2, by omega⟩
      rw [text_array_cons, List.cons_append, List.append_assoc, List.append_assoc]
      exact readValue_bracket (readItems_text hitems (by omega)
        (by rw [List.length_append]; omega) [])
  | @object members _ ih =>
    have hvalues (member : String × Json) (hmem : member ∈ members) :
        ReadsBack wide member.2 := by
      intro fuel levels rest hdepth hfuel hends
      obtain ⟨fuel, rfl⟩ : ∃ n, fuel = n + 1 := ⟨fuel - 1, by omega⟩
      exact ih member hmem (fun x h => hdouble x (.member hmem h))
        (fun x h => hsingle x (.member hmem h)) _ _ hdepth hends _ hfuel
    refine .of_ends hends ?_
    rw [depth] at hdepth
    cases members with
    | nil =>
      obtain ⟨levels, rfl⟩ : ∃ n, levels = n + 1 := ⟨levels - 1, by omega⟩
      have htext : (Json.object []).text.toList = ['\x7b', '\x7d'] := rfl
      rw [htext]
      rfl
    | cons member members =>
      obtain ⟨key, value⟩ := member
      rw [text_object_cons, List.length_cons, List.length_append, List.length_cons,
        List.length_append, List.length_append] at hfuel
      rw [text_object_cons, List.cons_append, List.append_assoc, List.cons_append,
        List.append_assoc, List.append_assoc]
      have hlong : 2 * ((quote key).toList ++ ':' :: (value.text.toList ++
          membersText members)).length + 3 ≤ fuel := by
        rw [List.length_append, List.length_cons, List.length_append]
        omega
      have hread := @readMembers_text _ rest levels fuel _ _ _ hvalues (by omega) hlong []
      rw [toList_quote, List.cons_append] at hread ⊢
      exact hread

/-- **A text that was written is read** as the value, if its numbers that are not whole are. -/
theorem parse?_text {value : Json} (h : Writable value) (hdepth : value.depth ≤ maxDepth)
    (hdouble : ∀ x, Part (.double x) value → parse? (Writer.ofFloat x) = some (.double x))
    (hsingle : ∀ x, Part (.single x) value →
      ∃ y, parse? (Writer.ofFloat32 x) = some (.double y) ∧ wide x = some y) :
    parse? value.text = some (value.widen wide) := by
  have hread := h.readsBack hdouble hsingle (2 * value.text.toList.length + 2) maxDepth []
    hdepth (Nat.le_refl _) trivial
  obtain ⟨left, hread, hleft⟩ := hread
  rw [List.append_nil] at hread
  unfold parse?
  dsimp only
  rw [hread]
  dsimp only
  rw [hleft]
  rfl

end CardCombat.Json
