import CardCombat.Catalog

/-!
# Registering one definition after another

What a catalog holds after a list of definitions was registered in it. A later definition takes the
place of an earlier one with its name, so of the list only the definitions that stand to the end
count: the last one of each name.

## Main results

* `Catalog.contains_putAll` -- the names that are taken afterwards.
* `Catalog.mem_values_putAll` -- the definitions that are there afterwards, if none was before.
-/

namespace CardCombat

/-- The definitions that stand to the end: those that none of the same name follows. -/
def standing {α : Type} (name : α → String) : List α → List α
  | [] => []
  | x :: xs => if xs.any (name · == name x) then standing name xs else x :: standing name xs

section Standing

variable {α : Type} {name : α → String}

theorem mem_of_mem_standing {xs : List α} {x : α} (h : x ∈ standing name xs) : x ∈ xs := by
  induction xs with
  | nil => exact h
  | cons y ys ih =>
      unfold standing at h
      split at h
      · exact List.mem_cons_of_mem _ (ih h)
      · rcases List.mem_cons.mp h with rfl | h
        · exact List.mem_cons_self
        · exact List.mem_cons_of_mem _ (ih h)

/-- A definition stands to the end when it is the one found from behind under its name. -/
theorem mem_standing_iff {xs : List α} {x : α} :
    x ∈ standing name xs ↔ xs.reverse.find? (name · == name x) = some x := by
  induction xs with
  | nil => simp [standing]
  | cons y ys ih =>
      rw [List.reverse_cons, List.find?_append, List.find?_singleton]
      unfold standing
      split
      case isTrue hany =>
        rw [ih]
        by_cases hy : name y = name x
        · have hsome : (ys.reverse.find? (name · == name x)).isSome := by
            simpa [List.find?_isSome, ← hy] using hany
          obtain ⟨z, hz⟩ := Option.isSome_iff_exists.mp hsome
          simp [hz]
        · simp [hy]
      case isFalse hany =>
        by_cases hy : name y = name x
        · have hnone : ys.reverse.find? (name · == name x) = none := by
            simpa [← hy] using hany
          have hys : x ∉ standing name ys := by rw [ih, hnone]; simp
          simp [hnone, hy, hys, eq_comm]
        · have hne : x ≠ y := fun h => hy (h ▸ rfl)
          simp [hy, hne, ih]

end Standing

namespace Catalog

variable {α : Type} {name : α → String}

/-- Registers definitions one after another, each under its name. -/
def putAll (name : α → String) (catalog : Catalog α) (xs : List α) : Catalog α :=
  xs.foldl (fun catalog x => catalog.put (name x) x) catalog

/-! ## Finding -/

/-- Under a name there is the last definition of that name, or else what was there before. -/
theorem find?_putAll (catalog : Catalog α) (xs : List α) (key : String) :
    (catalog.putAll name xs).find? key =
      (xs.reverse.find? (name · == key)).or (catalog.find? key) := by
  induction xs generalizing catalog with
  | nil => simp [putAll]
  | cons x xs ih =>
      show ((catalog.put (name x) x).putAll name xs).find? key = _
      rw [ih, find?_put, List.reverse_cons, List.find?_append, List.find?_singleton]
      by_cases h : name x = key
      · cases hx : xs.reverse.find? (name · == key) <;> simp [h]
      · have h' : ¬key = name x := fun e => h e.symm
        simp [h, h']

theorem contains_putAll (catalog : Catalog α) (xs : List α) (key : String) :
    (catalog.putAll name xs).contains key ↔ catalog.contains key ∨ key ∈ xs.map name := by
  unfold contains
  rw [find?_putAll, Option.isSome_or, Bool.or_eq_true, List.find?_isSome, or_comm]
  simp

/-- Definitions entered one behind the other under their names. -/
theorem contains_entered (xs : List α) (key : String) :
    (⟨xs.map fun x => (name x, x)⟩ : Catalog α).contains key ↔ key ∈ xs.map name := by
  induction xs with
  | nil => simp [contains, find?]
  | cons x xs ih =>
      unfold contains find? at *
      by_cases h : key = name x
      · simp [h]
      · have h' : (key == name x) = false := by simp [h]
        simp only [List.map_cons, List.lookup_cons, h', ih, List.mem_cons, h, false_or]

/-- A definition with a new name comes behind all others. -/
theorem entries_put {catalog : Catalog α} {key : String} {x : α} (h : ¬catalog.contains key) :
    (catalog.put key x).entries = catalog.entries ++ [(key, x)] := by
  obtain ⟨entries⟩ := catalog
  unfold contains find? at h
  unfold put
  dsimp only at h ⊢
  induction entries with
  | nil => rfl
  | cons entry entries ih =>
      obtain ⟨other, y⟩ := entry
      by_cases hkey : key = other
      · simp [hkey] at h
      · have hbeq : (key == other) = false := by simp [hkey]
        rw [List.lookup_cons, hbeq] at h
        simp only [putEntry, hbeq, Bool.false_eq_true, if_false, List.cons_append, ih h]

/-! ## Walking along -/

/-- Every definition is entered under its own name, and no name twice. -/
structure Filed (name : α → String) (catalog : Catalog α) : Prop where
  named : ∀ entry ∈ catalog.entries, entry.1 = name entry.2
  nodup : catalog.names.Nodup

private theorem putEntry_named {entries : List (String × α)} (x : α)
    (h : ∀ entry ∈ entries, entry.1 = name entry.2) :
    ∀ entry ∈ putEntry (name x) x entries, entry.1 = name entry.2 := by
  induction entries with
  | nil => simp [putEntry]
  | cons entry entries ih =>
      obtain ⟨hentry, hrest⟩ := List.forall_mem_cons.mp h
      unfold putEntry
      split
      · exact List.forall_mem_cons.mpr ⟨rfl, hrest⟩
      · exact List.forall_mem_cons.mpr ⟨hentry, ih hrest⟩

private theorem mem_names_putEntry {entries : List (String × α)} {key other : String} {x : α} :
    other ∈ (putEntry key x entries).map (·.1) ↔ other = key ∨ other ∈ entries.map (·.1) := by
  induction entries with
  | nil => simp [putEntry]
  | cons entry entries ih =>
      unfold putEntry
      split
      case isTrue h => simp [← eq_of_beq h]
      case isFalse h =>
        rw [List.map_cons, List.mem_cons, ih, List.map_cons, List.mem_cons]
        exact or_left_comm

private theorem putEntry_nodup {entries : List (String × α)} {key : String} {x : α}
    (h : (entries.map (·.1)).Nodup) : ((putEntry key x entries).map (·.1)).Nodup := by
  induction entries with
  | nil => simp [putEntry]
  | cons entry entries ih =>
      rw [List.map_cons, List.nodup_cons] at h
      unfold putEntry
      split
      case isTrue hkey =>
        rw [List.map_cons, List.nodup_cons]
        rw [← eq_of_beq hkey] at h
        exact h
      case isFalse hkey =>
        rw [List.map_cons, List.nodup_cons, mem_names_putEntry]
        refine ⟨?_, ih h.2⟩
        rintro (he | he)
        · exact hkey (beq_iff_eq.mpr he.symm)
        · exact h.1 he

theorem Filed.empty : Filed name (Catalog.empty : Catalog α) :=
  ⟨by simp [Catalog.empty], by simp [Catalog.empty, names]⟩

theorem Filed.put {catalog : Catalog α} (h : Filed name catalog) (x : α) :
    Filed name (catalog.put (name x) x) :=
  ⟨putEntry_named x h.named, putEntry_nodup h.nodup⟩

theorem Filed.putAll {catalog : Catalog α} (h : Filed name catalog) (xs : List α) :
    Filed name (catalog.putAll name xs) := by
  induction xs generalizing catalog with
  | nil => exact h
  | cons x xs ih => exact ih (h.put x)

/-- The definitions of a catalog are those that are found under their names. -/
theorem Filed.mem_values_iff {catalog : Catalog α} (h : Filed name catalog) {x : α} :
    x ∈ catalog.values ↔ catalog.find? (name x) = some x := by
  obtain ⟨entries⟩ := catalog
  obtain ⟨hnamed, hnodup⟩ := h
  unfold values find?
  dsimp only [names] at hnamed hnodup ⊢
  induction entries with
  | nil => simp
  | cons entry entries ih =>
      obtain ⟨key, y⟩ := entry
      obtain ⟨hkey, hrest⟩ := List.forall_mem_cons.mp hnamed
      rw [List.map_cons, List.nodup_cons] at hnodup
      rw [List.map_cons, List.mem_cons, ih hrest hnodup.2]
      dsimp only at hkey hnodup ⊢
      by_cases hx : name x = key
      · have hnone : entries.lookup (name x) = none := by
          rw [List.lookup_eq_none_iff]
          intro entry hmem
          rw [hx, bne_iff_ne]
          exact fun he => hnodup.1 (List.mem_map.mpr ⟨entry, hmem, he.symm⟩)
        have hlookup : ((key, y) :: entries).lookup (name x) = some y := by simp [hx]
        rw [hnone, hlookup]
        simp [eq_comm]
      · have hne : x ≠ y := fun h => hx (h ▸ hkey.symm)
        have hbeq : (name x == key) = false := by simp [hx]
        simp [List.lookup_cons, hbeq, hne]

/-- **The definitions of a catalog that was filled from nothing are those that stand.** -/
theorem mem_values_putAll {xs : List α} {x : α} :
    x ∈ ((Catalog.empty : Catalog α).putAll name xs).values ↔ x ∈ standing name xs := by
  rw [(Filed.empty.putAll xs).mem_values_iff, find?_putAll, mem_standing_iff]
  simp [Catalog.empty, find?]

end Catalog

end CardCombat
