import ApiScaffold.Proofs.Yaml.Mapping

/-!
# Nodes that are one key

`Node.same` is transitive (`same_trans`), although it is not equality: a key that is one with a key that
was found is found with it.
-/

namespace ApiScaffold

theorem Binary64.isZero_of_isNaN {x : Binary64} (h : x.isNaN = true) : x.isZero = false := by
  unfold Binary64.isNaN at h
  unfold Binary64.isZero
  rw [Bool.and_eq_true, beq_iff_eq] at h
  rw [h.1]
  rfl

namespace Yaml.Node

theorem sameEntries_iff {m m' : Mapping} :
    sameEntries m m' = true ↔ ∀ e ∈ m, ∃ e' ∈ m', e.1.same e'.1 = true ∧ e.2.same e'.2 = true := by
  induction m with
  | nil => simp [sameEntries]
  | cons e rest ih =>
    obtain ⟨k, v⟩ := e
    rw [sameEntries, Bool.and_eq_true, ih, List.any_eq_true, List.forall_mem_cons]
    simp only [Bool.and_eq_true]

/-- Two numbers are one key if they are equal, both none, or both zero. -/
theorem same_float_iff {x y : Binary64} : (Node.float x).same (.float y) = true ↔
    x = y ∨ (x.isNaN = true ∧ y.isNaN = true) ∨ (x.isZero = true ∧ y.isZero = true) := by
  have hbits : x.bits = y.bits ↔ x = y := by
    rw [Binary64.mk.injEq]
  rw [same, Bool.or_eq_true, Bool.or_eq_true, Bool.and_eq_true, Bool.and_eq_true, beq_iff_eq, hbits,
    or_assoc]

theorem same_float_trans {x y z : Binary64} (h : (Node.float x).same (.float y) = true)
    (h' : (Node.float y).same (.float z) = true) : (Node.float x).same (.float z) = true := by
  rw [same_float_iff] at h h' ⊢
  rcases h with rfl | ⟨hx, hy⟩ | ⟨hx, hy⟩
  · exact h'
  · rcases h' with rfl | ⟨-, hz⟩ | ⟨hy', -⟩
    · exact .inr (.inl ⟨hx, hy⟩)
    · exact .inr (.inl ⟨hx, hz⟩)
    · rw [Binary64.isZero_of_isNaN hy] at hy'
      cases hy'
  · rcases h' with rfl | ⟨hy', -⟩ | ⟨-, hz⟩
    · exact .inr (.inr ⟨hx, hy⟩)
    · rw [Binary64.isZero_of_isNaN hy'] at hy
      cases hy
    · exact .inr (.inr ⟨hx, hz⟩)

mutual

theorem same_trans : ∀ {a b c : Node}, a.same b = true → b.same c = true → a.same c = true
  | .null, b, c, h, h' => by
    cases b with
    | null => exact h'
    | _ => cases h
  | .bool x, b, c, h, h' => by
    cases b with
    | bool y => rwa [show x = y from beq_iff_eq.mp h]
    | _ => cases h
  | .int x, b, c, h, h' => by
    cases b with
    | int y => rwa [show x = y from beq_iff_eq.mp h]
    | _ => cases h
  | .str x, b, c, h, h' => by
    rwa [same_str_iff.mp h] at h'
  | .float x, b, c, h, h' => by
    cases b with
    | float y =>
      cases c with
      | float z => exact same_float_trans h h'
      | _ => cases h'
    | _ => cases h
  | .seq as, b, c, h, h' => by
    cases b with
    | seq bs =>
      cases c with
      | seq cs => exact sameItems_trans h h'
      | _ => cases h'
    | _ => cases h
  | .map as, b, c, h, h' => by
    cases b with
    | map bs =>
      cases c with
      | map cs =>
        rw [same, Bool.and_eq_true, beq_iff_eq] at h h' ⊢
        exact ⟨h.1.trans h'.1, sameEntries_trans h.2 h'.2⟩
      | _ => cases h'
    | _ => cases h
  | .tagged t a, b, c, h, h' => by
    cases b with
    | tagged u b =>
      cases c with
      | tagged v c =>
        rw [same, Bool.and_eq_true, beq_iff_eq] at h h' ⊢
        exact ⟨h.1.trans h'.1, same_trans h.2 h'.2⟩
      | _ => cases h'
    | _ => cases h

theorem sameItems_trans : ∀ {as bs cs : List Node}, sameItems as bs = true →
    sameItems bs cs = true → sameItems as cs = true
  | [], bs, cs, h, h' => by
    cases bs with
    | nil => exact h'
    | cons b bs => cases h
  | a :: as, bs, cs, h, h' => by
    cases bs with
    | nil => cases h
    | cons b bs =>
      cases cs with
      | nil => cases h'
      | cons c cs =>
        rw [sameItems, Bool.and_eq_true] at h h' ⊢
        exact ⟨same_trans h.1 h'.1, sameItems_trans h.2 h'.2⟩

theorem sameEntries_trans : ∀ {as bs cs : Mapping}, sameEntries as bs = true →
    sameEntries bs cs = true → sameEntries as cs = true
  | [], _, _, _, _ => by rw [sameEntries]
  | (k, v) :: as, bs, cs, h, h' => by
    rw [sameEntries, Bool.and_eq_true, List.any_eq_true] at h
    obtain ⟨⟨b, hb, hentry⟩, hrest⟩ := h
    rw [Bool.and_eq_true] at hentry
    obtain ⟨c, hc, hkey, hvalue⟩ := sameEntries_iff.mp h' b hb
    rw [sameEntries, Bool.and_eq_true, List.any_eq_true]
    refine ⟨⟨c, hc, ?_⟩, sameEntries_trans hrest h'⟩
    rw [Bool.and_eq_true]
    exact ⟨same_trans hentry.1 hkey, same_trans hentry.2 hvalue⟩

end

end Yaml.Node
end ApiScaffold
