import ApiScaffold.Failure

/-!
# Steps that succeed

What is known of the steps of a computation once it has given a result.
-/

namespace ApiScaffold

section

variable {ε α β : Type}

/-- A computation in two steps succeeds when both do. -/
theorem bind_eq_ok {x : Except ε α} {f : α → Except ε β} {b : β} :
    x >>= f = .ok b ↔ ∃ a, x = .ok a ∧ f a = .ok b := by
  cases x with
  | error e =>
    constructor
    · intro h
      cases h
    · rintro ⟨a, h, -⟩
      cases h
  | ok a =>
    constructor
    · intro h
      exact ⟨a, rfl, h⟩
    · rintro ⟨a', h, hb⟩
      cases h
      exact hb

theorem exists_ok_of_toBool {x : Except ε α} (h : x.toBool = true) : ∃ a, x = .ok a := by
  cases x with
  | error e => cases h
  | ok a => exact ⟨a, rfl⟩

theorem toOption_eq_some {x : Except ε α} {a : α} : x.toOption = some a ↔ x = .ok a := by
  cases x with
  | error e =>
    constructor
    · intro h
      cases h
    · intro h
      cases h
  | ok a' =>
    constructor
    · intro h
      cases h
      rfl
    · intro h
      cases h
      rfl

theorem Disk.during_eq_ok {step : Step} {r : Except DiskError α} {a : α} :
    Disk.during step r = .ok a ↔ r = .ok a := by
  cases r with
  | error e =>
    constructor
    · intro h
      cases h
    · intro h
      cases h
  | ok a' =>
    constructor
    · intro h
      cases h
      rfl
    · intro h
      cases h
      rfl

/-- What holds at the start of a fold and is kept by every step holds at its end. -/
theorem foldlM_invariant {step : β → α → Except ε β} (P : β → Prop) {xs : List α} {b out : β}
    (hb : P b) (hstep : ∀ x ∈ xs, ∀ b b', P b → step b x = .ok b' → P b')
    (h : xs.foldlM step b = .ok out) : P out := by
  induction xs generalizing b with
  | nil =>
    cases h
    exact hb
  | cons x rest ih =>
    rw [List.foldlM_cons] at h
    obtain ⟨b', hx, hrest⟩ := bind_eq_ok.mp h
    exact ih (hstep x List.mem_cons_self b b' hb hx)
      (fun y hy => hstep y (List.mem_cons_of_mem _ hy)) hrest

end

end ApiScaffold
