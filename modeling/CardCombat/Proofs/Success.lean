import Mathlib.Data.List.Nodup

/-!
# Computations that succeed

A check or a rule that may fail is peeled apart at its success: what the whole has returned says
what each of its parts has returned. The lemmas here are for `Except` alone; the ones for
resolutions, which also thread a scene, build on them in `CardCombat.Proofs.Resolution.Ensures`.
A search under a key succeeds with the one thing that has the key, if no two have the same, and
taking that out leaves all others.
-/

namespace CardCombat

variable {ε α β : Type}

theorem bind_eq_ok {x : Except ε α} {f : α → Except ε β} {b : β} :
    x >>= f = .ok b ↔ ∃ a, x = .ok a ∧ f a = .ok b := by
  cases x with
  | error e => simp [bind, Except.bind]
  | ok a => simp [bind, Except.bind]

/-- What fails has failed in its first part, or after it. -/
theorem bind_eq_error {x : Except ε α} {f : α → Except ε β} {e : ε} :
    x >>= f = .error e ↔ x = .error e ∨ ∃ a, x = .ok a ∧ f a = .error e := by
  cases x with
  | error e => simp [bind, Except.bind]
  | ok a => simp [bind, Except.bind]

/-- Two checks in a row pass when both pass. -/
theorem seq_eq_ok {x : Except ε Unit} {y : Except ε β} {b : β} :
    (do x; y) = .ok b ↔ x = .ok () ∧ y = .ok b := by
  rw [bind_eq_ok]
  exact ⟨fun ⟨_, hx, hy⟩ => ⟨hx, hy⟩, fun ⟨hx, hy⟩ => ⟨(), hx, hy⟩⟩

/-- Another name for the errors changes no success. -/
theorem mapError_eq_ok {ε' : Type} {x : Except ε α} {f : ε → ε'} {a : α} :
    x.mapError f = .ok a ↔ x = .ok a := by
  cases x with
  | error e => exact iff_of_false nofun nofun
  | ok b =>
      have hok : (Except.ok b : Except ε α).mapError f = .ok b := rfl
      rw [hok, Except.ok.injEq, Except.ok.injEq]

/-- What fails under another name has failed. -/
theorem mapError_eq_error {ε' : Type} {x : Except ε α} {f : ε → ε'} {e : ε'} :
    x.mapError f = .error e ↔ ∃ cause, x = .error cause ∧ f cause = e := by
  cases x with
  | error cause =>
      have herror : (Except.error cause : Except ε α).mapError f = .error (f cause) := rfl
      rw [herror]
      simp
  | ok a => exact iff_of_false nofun (fun ⟨_, h, _⟩ => absurd h nofun)

/-- What goes on alike from what looks alike, looks alike in the end. -/
theorem map_bind_congr {γ δ : Type} {x y : Except ε α} {f g : α → Except ε β} {look : α → γ}
    {look' : β → δ} (hxy : x.map look = y.map look)
    (hfg : ∀ a b, look a = look b → (f a).map look' = (g b).map look') :
    (x >>= f).map look' = (y >>= g).map look' := by
  cases x with
  | error e =>
      cases y with
      | error e' =>
          obtain rfl := Except.error.inj hxy
          rfl
      | ok b => exact absurd hxy nofun
  | ok a =>
      cases y with
      | error e' => exact absurd hxy nofun
      | ok b => exact hfg a b (Except.ok.inj hxy)

theorem map_bind_right {δ : Type} {x : Except ε α} {f g : α → Except ε β} {look' : β → δ}
    (hfg : ∀ a, (f a).map look' = (g a).map look') :
    (x >>= f).map look' = (x >>= g).map look' := by
  cases x with
  | error e => rfl
  | ok a => exact hfg a

/-- A check of every element of a list passes when it passes for each. -/
theorem forM_eq_ok {xs : List α} {f : α → Except ε Unit} :
    xs.forM f = .ok () ↔ ∀ x ∈ xs, f x = .ok () := by
  induction xs with
  | nil => simp [List.forM, pure, Except.pure]
  | cons x xs ih =>
      show (do f x; xs.forM f) = _ ↔ _
      rw [seq_eq_ok, ih, List.forall_mem_cons]

/-- A computation for every element of a list has computed something for each. -/
theorem mem_of_mapM_eq_ok {xs : List α} {f : α → Except ε β} {ys : List β}
    (h : xs.mapM f = .ok ys) : ∀ x ∈ xs, ∃ y ∈ ys, f x = .ok y := by
  induction xs generalizing ys with
  | nil => simp
  | cons x xs ih =>
      rw [List.mapM_cons] at h
      obtain ⟨y, hy, h⟩ := bind_eq_ok.mp h
      obtain ⟨rest, hrest, h⟩ := bind_eq_ok.mp h
      obtain rfl := Except.ok.inj h
      rw [List.forall_mem_cons]
      refine ⟨⟨y, List.mem_cons_self, hy⟩, fun z hz => ?_⟩
      obtain ⟨w, hw, hzw⟩ := ih hrest z hz
      exact ⟨w, List.mem_cons_of_mem _ hw, hzw⟩

/-- What is found under a key is the one thing that has it, if all have different keys. -/
theorem find?_key_eq_some_iff {κ : Type} [BEq κ] [LawfulBEq κ] {key : α → κ} {xs : List α} {x : α}
    {k : κ} (h : (xs.map key).Nodup) :
    xs.find? (key · == k) = some x ↔ x ∈ xs ∧ key x = k := by
  constructor
  · intro hfind
    exact ⟨List.mem_of_find?_eq_some hfind, by simpa using List.find?_some hfind⟩
  · rintro ⟨hmem, rfl⟩
    cases hfind : xs.find? (key · == key x) with
    | none => exact absurd (beq_self_eq_true _) (List.find?_eq_none.mp hfind x hmem)
    | some found =>
        have hkey : key found = key x := by simpa using List.find?_some hfind
        rw [List.inj_on_of_nodup_map h (List.mem_of_find?_eq_some hfind) hmem hkey]

/-- What is taken out under a key is all that has it, if all have different keys. -/
theorem eraseP_key_eq_filter {κ : Type} [BEq κ] [LawfulBEq κ] {key : α → κ} {xs : List α} {k : κ}
    (h : (xs.map key).Nodup) : xs.eraseP (key · == k) = xs.filter (key · != k) := by
  induction xs with
  | nil => rfl
  | cons x xs ih =>
      have hnew : key x ∉ xs.map key := (List.nodup_cons.mp h).1
      have hrest := ih (List.nodup_cons.mp h).2
      by_cases hkey : key x = k
      · have hothers : ∀ other ∈ xs, (key other != k) = true := by
          intro other hmem
          rw [bne_iff_ne]
          intro hsame
          exact hnew (List.mem_map.mpr ⟨other, hmem, hsame.trans hkey.symm⟩)
        simp [hkey, List.filter_eq_self.mpr hothers]
      · simp [hkey, hrest]

/-- What every step of a fold preserves, the fold preserves. -/
theorem foldlM_preserves {P : β → Prop} {f : β → α → Except ε β}
    (hf : ∀ {b x b'}, f b x = .ok b' → P b → P b') {xs : List α} {b b' : β}
    (h : xs.foldlM f b = .ok b') (hb : P b) : P b' := by
  induction xs generalizing b with
  | nil => exact Except.ok.inj h ▸ hb
  | cons x xs ih =>
      rw [List.foldlM_cons] at h
      obtain ⟨c, hc, h⟩ := bind_eq_ok.mp h
      exact ih h (hf hc hb)

/-! ## Filters that may fail -/

private theorem filterAuxM_eq {f : α → Except ε Bool} {xs first : List α} :
    xs.filterAuxM f first = (xs.filterM f).map (·.reverse ++ first) := by
  induction xs generalizing first with
  | nil => rfl
  | cons x xs ih =>
      show (f x >>= fun passed => xs.filterAuxM f _) =
        ((f x >>= fun passed => xs.filterAuxM f _) >>= fun kept => pure kept.reverse).map _
      cases f x with
      | error e => rfl
      | ok passed =>
          show xs.filterAuxM f _ = (xs.filterAuxM f _ >>= fun kept => pure kept.reverse).map _
          rw [ih, ih]
          cases xs.filterM f with
          | error e => rfl
          | ok kept => cases passed <;> simp [Except.map, bind, Except.bind, pure, Except.pure]

/-- A filter that may fail looks at the first element, and then at the others. -/
theorem filterM_cons {f : α → Except ε Bool} {x : α} {xs : List α} :
    (x :: xs).filterM f = do
      let passed ← f x
      let kept ← xs.filterM f
      return if passed then x :: kept else kept := by
  show ((f x >>= fun passed => xs.filterAuxM f _) >>= fun kept => pure kept.reverse) = _
  cases f x with
  | error e => rfl
  | ok passed =>
      show (xs.filterAuxM f _ >>= fun kept => pure kept.reverse) = _
      rw [filterAuxM_eq]
      show _ = xs.filterM f >>= _
      cases xs.filterM f with
      | error e => rfl
      | ok kept => cases passed <;> simp [Except.map, bind, Except.bind, pure, Except.pure]

/-- A filter whose test may fail keeps what passes the test. -/
theorem mem_filterM_iff {accepts : α → Except ε Bool} {xs kept : List α} {x : α}
    (h : xs.filterM accepts = .ok kept) : x ∈ kept ↔ x ∈ xs ∧ accepts x = .ok true := by
  induction xs generalizing kept with
  | nil =>
      obtain rfl := Except.ok.inj h
      simp
  | cons y ys ih =>
      rw [filterM_cons] at h
      obtain ⟨passed, hy, h⟩ := bind_eq_ok.mp h
      obtain ⟨rest, hrest, h⟩ := bind_eq_ok.mp h
      obtain rfl := Except.ok.inj h
      rw [List.mem_cons]
      cases passed with
      | true =>
          rw [if_pos rfl, List.mem_cons, ih hrest]
          by_cases hxy : x = y
          · simp [hxy, hy]
          · simp [hxy]
      | false =>
          rw [if_neg nofun, ih hrest]
          by_cases hxy : x = y
          · simp [hxy, hy]
          · simp [hxy]

/-- Where the test says whether something holds, that is what is kept, in its order. -/
theorem eq_filter_of_filterM {f : α → Except ε Bool} {p : α → Prop} [DecidablePred p]
    (hf : ∀ {x passed}, f x = .ok passed → (passed = true ↔ p x)) {xs kept : List α}
    (h : xs.filterM f = .ok kept) : kept = xs.filter p := by
  induction xs generalizing kept with
  | nil => exact (Except.ok.inj h).symm
  | cons x xs ih =>
      rw [filterM_cons] at h
      obtain ⟨passed, hpassed, h⟩ := bind_eq_ok.mp h
      obtain ⟨rest, hrest, h⟩ := bind_eq_ok.mp h
      obtain rfl := Except.ok.inj h
      rw [List.filter_cons, ih hrest]
      simp only [hf hpassed, decide_eq_true_eq]

/-- A filter whose test does not look at the state leaves the state as it is. -/
theorem run_filterM {σ : Type} (f : α → Except ε Bool) (xs : List α) (s : σ) :
    (xs.filterM fun x => (liftM (f x) : StateT σ (Except ε) Bool)).run s =
      (do return (← xs.filterM f, s)) := by
  have hreverse (first : List α) :
      (xs.filterAuxM (fun x => (liftM (f x) : StateT σ (Except ε) Bool)) first).run s =
        (do return (← xs.filterAuxM f first, s)) := by
    induction xs generalizing first with
    | nil => rfl
    | cons x xs ih =>
        show ((f x >>= fun passed => pure (passed, s)) >>= fun (passed, s) => _) =
          ((f x >>= fun passed => _) >>= _)
        cases f x with
        | error cause => rfl
        | ok passed => exact ih _
  show ((xs.filterAuxM (fun x => (liftM (f x) : StateT σ (Except ε) Bool)) []).run s >>= _) =
    ((xs.filterAuxM f [] >>= _) >>= _)
  rw [hreverse]
  cases xs.filterAuxM f [] <;> rfl

theorem run_filterM_iff {σ : Type} {f : α → Except ε Bool} {xs kept : List α} {s t : σ} :
    (xs.filterM fun x => (liftM (f x) : StateT σ (Except ε) Bool)).run s = .ok (kept, t) ↔
      xs.filterM f = .ok kept ∧ t = s := by
  rw [run_filterM, bind_eq_ok]
  constructor
  · rintro ⟨_, hkept, h⟩
    obtain ⟨rfl, rfl⟩ := Prod.mk.inj (Except.ok.inj h)
    exact ⟨hkept, rfl⟩
  · rintro ⟨hkept, rfl⟩
    exact ⟨kept, hkept, rfl⟩

end CardCombat
