import ApiScaffold.Yaml.Mapping

/-!
# Nodes that were read

A node that `Yaml.parse?` gives is sound at every depth: no mapping has a key twice, and the name of
a tag starts with an exclamation mark.
-/

namespace ApiScaffold.Yaml

/-- Each key of a mapping is there once. -/
def Mapping.Distinct (m : Mapping) : Prop := m.Pairwise fun a b => a.1.same b.1 = false

/-- **What holds of each node that is read.** -/
inductive Node.Sound : Node → Prop
  | null : Sound .null
  | bool (b : Bool) : Sound (.bool b)
  | int (n : Int) : Sound (.int n)
  | float (x : Binary64) : Sound (.float x)
  | str (s : String) : Sound (.str s)
  | seq {items : List Node} (h : ∀ n ∈ items, Sound n) : Sound (.seq items)
  | map {m : Mapping} (distinct : m.Distinct) (keys : ∀ e ∈ m, Sound e.1)
      (values : ∀ e ∈ m, Sound e.2) : Sound (.map m)
  | tagged {tag : String} {n : Node} (mark : Text.startsWith "!" tag = true) (h : Sound n) :
      Sound (.tagged tag n)

theorem Node.Sound.untagged {n : Node} (h : n.Sound) : n.untagged.Sound := by
  induction h with
  | tagged _ _ ih => exact ih
  | null => exact .null
  | bool b => exact .bool b
  | int n => exact .int n
  | float x => exact .float x
  | str s => exact .str s
  | seq h => exact .seq h
  | map distinct keys values => exact .map distinct keys values

/-! ### Scalars -/

theorem sound_of_resolve {s : String} {n : Node} (h : resolve s = .node n) : n.Sound := by
  unfold resolve at h
  split at h
  · cases h
    exact .null
  · split at h
    · cases h
      exact .bool _
    · split at h
      · split at h
        · cases h
          exact .int _
        · cases h
      · split at h
        · cases h
          exact .float _
        · cases h

theorem sound_of_untaggedScalar? {text : String} {plain : Bool} {n : Node}
    (h : untaggedScalar? text plain = some n) : n.Sound := by
  unfold untaggedScalar? at h
  split at h
  · cases h
    exact .str text
  · split at h
    · rename_i hr
      cases h
      exact sound_of_resolve hr
    · cases h
      exact .str text
    · cases h

theorem sound_of_scalar? {tag : Option String} {text : String} {plain : Bool} {n : Node}
    (h : scalar? tag text plain = some n) : n.Sound := by
  unfold scalar? at h
  split at h
  · exact sound_of_untaggedScalar? h
  · split at h
    · obtain ⟨b, -, rfl⟩ := Option.map_eq_some_iff.mp h
      exact .bool b
    split at h
    · obtain ⟨i, -, rfl⟩ := Option.map_eq_some_iff.mp h
      exact .int i
    split at h
    · obtain ⟨x, -, rfl⟩ := Option.map_eq_some_iff.mp h
      exact .float x
    split at h
    · split at h
      · cases h
        exact .null
      · cases h
    · cases h
      exact .str text

theorem Node.Sound.withTag {n : Node} (h : n.Sound) (p : Properties) : (withTag p n).Sound := by
  unfold Yaml.withTag
  split
  · rename_i tag htag
    exact .tagged (Option.filter_eq_some_iff.mp htag).2 h
  · exact h

/-! ### Collections -/

namespace Document

variable {α β : Type}

/-- What every result of a list of computations has, if each of them gives it. -/
theorem forall_of_mapM {f : α → Budget β} {P : β → Prop}
    (hf : ∀ a s b s', f a s = some (b, s') → P b) {l : List α} {s s' : Nat} {bs : List β}
    (h : l.mapM f s = some (bs, s')) : ∀ b ∈ bs, P b := by
  induction l generalizing s bs with
  | nil =>
    cases h
    nofun
  | cons a rest ih =>
    rw [List.mapM_cons] at h
    obtain ⟨⟨b, s₁⟩, hb, h⟩ := Option.bind_eq_some_iff.mp h
    obtain ⟨⟨more, s₂⟩, hmore, h⟩ := Option.bind_eq_some_iff.mp h
    cases h
    intro c hc
    rcases List.mem_cons.mp hc with rfl | hc
    · exact hf a s c s₁ hb
    · exact ih hmore c hc

/-- The entries that are kept are those that are given, and no key is there twice. -/
theorem entries_eq_some {pairs m known : Mapping} (hk : Mapping.Distinct known)
    (h : pairs.foldlM (fun known p => if known.any (·.1.same p.1) then none else some (known ++ [p]))
      known = some m) : m.Distinct ∧ m = known ++ pairs := by
  induction pairs generalizing known with
  | nil =>
    cases h
    exact ⟨hk, (List.append_nil _).symm⟩
  | cons p rest ih =>
    rw [List.foldlM_cons] at h
    obtain ⟨known', hstep, h⟩ := Option.bind_eq_some_iff.mp h
    split at hstep
    · cases hstep
    · rename_i hnew
      cases hstep
      have hdistinct : Mapping.Distinct (known ++ [p]) := by
        refine List.pairwise_append.mpr ⟨hk, List.pairwise_singleton _ _, ?_⟩
        intro a ha b hb
        rw [List.mem_singleton.mp hb]
        refine Bool.eq_false_iff.mpr fun hsame => ?_
        exact hnew (List.any_eq_true.mpr ⟨a, ha, hsame⟩)
      obtain ⟨hm, rfl⟩ := ih hdistinct h
      exact ⟨hm, by rw [List.append_assoc, List.singleton_append]⟩

theorem sound_of_leaf {p : Properties} {text : String} {plain : Bool} {n : Node} {s s' : Nat}
    (h : expand.leaf p text plain s = some (n, s')) : n.Sound := by
  unfold expand.leaf at h
  cases htag : ownTag? p with
  | some tag =>
    rw [htag] at h
    obtain ⟨⟨m, s₁⟩, hm, h⟩ := Option.bind_eq_some_iff.mp h
    cases h
    obtain ⟨m', hm', heq⟩ := Option.bind_eq_some_iff.mp hm
    cases heq
    exact .tagged (Option.filter_eq_some_iff.mp htag).2 (sound_of_untaggedScalar? hm')
  | none =>
    rw [htag] at h
    obtain ⟨m, hm, heq⟩ := Option.bind_eq_some_iff.mp h
    cases heq
    exact sound_of_scalar? hm

/-- **Every node that is expanded is sound**, by the depth that is left. -/
theorem sound_of_expand {d : Document} {depth : Nat} {t : Tree} {n : Node} {s s' : Nat}
    (h : d.expand depth t s = some (n, s')) : n.Sound := by
  -- on the depth, from every budget, since aliases spend it
  induction depth generalizing t n s s' with
  | zero =>
    unfold expand at h
    obtain ⟨⟨t', s₁⟩, -, h⟩ := Option.bind_eq_some_iff.mp h
    cases t' with
    | scalar p text plain => exact sound_of_leaf h
    | «alias» => cases h
    | list => cases h
    | map => cases h
  | succ depth ih =>
    unfold expand at h
    obtain ⟨⟨t', s₁⟩, -, h⟩ := Option.bind_eq_some_iff.mp h
    cases t' with
    | scalar p text plain => exact sound_of_leaf h
    | «alias» => cases h
    | list p items =>
      obtain ⟨⟨nodes, s₂⟩, hnodes, h⟩ := Option.bind_eq_some_iff.mp h
      cases h
      refine (Node.Sound.seq ?_).withTag p
      exact forall_of_mapM (fun _ _ _ _ h => ih h) hnodes
    | map p pairs =>
      obtain ⟨⟨pairs', s₂⟩, hpairs, h⟩ := Option.bind_eq_some_iff.mp h
      obtain ⟨⟨m, s₃⟩, hm, h⟩ := Option.bind_eq_some_iff.mp h
      cases h
      obtain ⟨m', hm', heq⟩ := Option.bind_eq_some_iff.mp hm
      cases heq
      have hall : ∀ e ∈ pairs', e.1.Sound ∧ e.2.Sound := by
        refine forall_of_mapM ?_ hpairs
        intro a s e s' he
        obtain ⟨⟨key, s₄⟩, hkey, he⟩ := Option.bind_eq_some_iff.mp he
        obtain ⟨⟨value, s₅⟩, hvalue, he⟩ := Option.bind_eq_some_iff.mp he
        cases he
        exact ⟨ih hkey, ih hvalue⟩
      obtain ⟨hdistinct, rfl⟩ := entries_eq_some List.Pairwise.nil hm'
      exact (Node.Sound.map hdistinct (fun e he => (hall e he).1) fun e he => (hall e he).2).withTag p

end Document

/-- **What is read is sound.** -/
theorem parse?_sound {s : String} {n : Node} (h : parse? s = some n) : n.Sound := by
  unfold parse? at h
  obtain ⟨tokens, -, h⟩ := Option.bind_eq_some_iff.mp h
  obtain ⟨d, -, h⟩ := Option.bind_eq_some_iff.mp h
  obtain ⟨⟨n', s'⟩, hn, rfl⟩ := Option.map_eq_some_iff.mp h
  exact Document.sound_of_expand hn

end ApiScaffold.Yaml
