import Mathlib.Data.List.Forall2

/-!
# Computations that may fail

What a sequence of computations gives, in terms of what each of them gives.
-/
namespace PromptWeave

variable {α β ε : Type}

theorem bind_eq_ok {x : Except ε α} {f : α → Except ε β} {b : β} :
    (x >>= f) = .ok b ↔ ∃ a, x = .ok a ∧ f a = .ok b := by
  cases x <;> simp [bind, Except.bind]

theorem bind_eq_error {x : Except ε α} {f : α → Except ε β} {e : ε} :
    (x >>= f) = .error e ↔ x = .error e ∨ ∃ a, x = .ok a ∧ f a = .error e := by
  cases x <;> simp [bind, Except.bind]

theorem mapError_ok {δ : Type} (f : ε → δ) (a : α) :
    (.ok a : Except ε α).mapError f = .ok a := rfl

/-- Going over items succeeds exactly if each of them does. -/
theorem mapM_eq_ok {f : α → Except ε β} {items : List α} {results : List β} :
    items.mapM f = .ok results ↔ List.Forall₂ (fun a b => f a = .ok b) items results := by
  induction items generalizing results with
  | nil => simp [pure, Except.pure, eq_comm]
  | cons first rest ih =>
      rw [List.mapM_cons, bind_eq_ok, List.forall₂_cons_left_iff]
      constructor
      · rintro ⟨b, hfirst, hrest⟩
        obtain ⟨bs, hbs, hresults⟩ := bind_eq_ok.1 hrest
        exact ⟨b, bs, hfirst, ih.1 hbs, (Except.ok.inj hresults).symm⟩
      · rintro ⟨b, bs, hfirst, hbs, rfl⟩
        exact ⟨b, hfirst, bind_eq_ok.2 ⟨bs, ih.2 hbs, rfl⟩⟩

/-- Going over items fails exactly if some item fails and those before it do not; the failure is that
of the item. -/
theorem mapM_eq_error {f : α → Except ε β} {items : List α} {e : ε} :
    items.mapM f = .error e ↔ ∃ before item after, items = before ++ item :: after ∧
      (∀ other ∈ before, ∃ b, f other = .ok b) ∧ f item = .error e := by
  induction items with
  | nil => simp [pure, Except.pure]
  | cons first rest ih =>
      rw [List.mapM_cons, bind_eq_error]
      constructor
      · rintro (hfirst | ⟨b, hfirst, hrest⟩)
        · exact ⟨[], first, rest, rfl, fun _ h => absurd h List.not_mem_nil, hfirst⟩
        · rcases bind_eq_error.1 hrest with hrest | ⟨bs, -, hpure⟩
          · obtain ⟨before, item, after, rfl, hbefore, hitem⟩ := ih.1 hrest
            refine ⟨first :: before, item, after, rfl, fun other hother => ?_, hitem⟩
            rcases List.mem_cons.1 hother with rfl | hmem
            · exact ⟨b, hfirst⟩
            · exact hbefore other hmem
          · cases hpure
      · rintro ⟨before, item, after, hitems, hbefore, hitem⟩
        cases before with
        | nil =>
            obtain ⟨rfl, rfl⟩ := List.cons.inj hitems
            exact Or.inl hitem
        | cons head tail =>
            obtain ⟨rfl, rfl⟩ := List.cons.inj hitems
            obtain ⟨b, hb⟩ := hbefore first List.mem_cons_self
            have htail : ∀ other ∈ tail, ∃ b, f other = .ok b :=
              fun other hother => hbefore other (List.mem_cons_of_mem _ hother)
            have hrest := ih.2 ⟨tail, item, after, rfl, htail, hitem⟩
            exact Or.inr ⟨b, hb, bind_eq_error.2 (Or.inl hrest)⟩

end PromptWeave
