import Mathlib.Data.List.Nodup

/-!
# Lists in the order of arrival

What is left of a list when each value is taken once, at the place where it came first: as
`List.eraseDupsBy` says it, as a fold that adds what is new, one list after the other (`LeftUnion`) or
by keys (`Newcomers`), and as one in which a later value takes the place of the earlier one with its
key (`Latest`).
-/

namespace ApiScaffold

namespace Arrival

variable {α β κ : Type}

/-- **A fold that adds what is new adds the first arrivals.**  A value is added as `embed` of it, unless
something `has` it already. -/
theorem foldl_addNew (embed : β → α) (has : α → β → Bool) (own : List α) (source : List β) :
    source.foldl (fun own b => if own.any (has · b) then own else own ++ [embed b]) own
      = own ++ ((source.filter fun b => !own.any (has · b)).eraseDupsBy
          fun b first => has (embed first) b).map embed := by
  induction source generalizing own with
  | nil => simp
  | cons b rest ih =>
    rw [List.foldl_cons, ih]
    by_cases h : own.any (has · b) = true
    · rw [if_pos h, List.filter_cons_of_neg (by simpa using h)]
    · have hnew : (rest.filter fun c => !(own ++ [embed b]).any (has · c))
          = (rest.filter fun c => !own.any (has · c)).filter
              fun c => decide (has (embed b) c = false) := by
        rw [List.filter_filter]
        congr 1
        funext c
        cases hc : has (embed b) c <;> simp [hc]
      rw [if_neg h, List.filter_cons_of_pos (by simpa using h), List.eraseDupsBy_cons, hnew,
        List.map_cons, List.append_assoc, List.singleton_append]

/-! ### Unions -/

/-- **A union that keeps what is there in front**: behind it come the members of `sources` that it has not,
each as it arrives first.  What is found in it is what the first list has. -/
structure LeftUnion (has : α → α → Bool) (own : List α) (sources : List (List α))
    (whole : List α) : Prop where
  order : whole = own ++ (sources.flatten.filter fun b => !own.any (has · b)).eraseDupsBy
    fun b first => has first b
  found : ∀ b, whole.find? (has · b) = (own :: sources).findSome? (·.find? (has · b))

theorem find?_filter_of_imp {p q : α → Bool} {l : List α} (h : ∀ a ∈ l, p a = true → q a = true) :
    (l.filter q).find? p = l.find? p := by
  induction l with
  | nil => rfl
  | cons a rest ih =>
    have hrest := ih fun b hb => h b (List.mem_cons_of_mem _ hb)
    by_cases hq : q a = true
    · rw [List.filter_cons_of_pos hq, List.find?_cons, List.find?_cons, hrest]
    · have hp : ¬p a = true := fun hp => hq (h a List.mem_cons_self hp)
      rw [List.filter_cons_of_neg hq, List.find?_cons_of_neg hp, hrest]

/-- Taking each value once loses nothing that can be found by what has a value. -/
theorem find?_eraseDupsBy {has : α → α → Bool}
    (trans : ∀ a b c, has a b = true → has b c = true → has a c = true) (c : α) (l : List α) :
    (l.eraseDupsBy fun b first => has first b).find? (has · c) = l.find? (has · c) := by
  match l with
  | [] => simp
  | a :: rest =>
    rw [List.eraseDupsBy_cons, List.find?_cons, List.find?_cons]
    cases hc : has a c with
    | true => rfl
    | false =>
      simp only
      rw [find?_eraseDupsBy trans c]
      refine find?_filter_of_imp fun b _ hb => ?_
      rw [decide_eq_true_eq, ← Bool.not_eq_true]
      intro hab
      rw [trans a b c hab hb] at hc
      cases hc
termination_by l.length
decreasing_by exact Nat.lt_succ_of_le (List.length_filter_le _ _)

/-- **Adding what is new, list by list, makes such a union.** -/
theorem leftUnion_foldl {has : α → α → Bool}
    (trans : ∀ a b c, has a b = true → has b c = true → has a c = true) (own : List α)
    (sources : List (List α)) : LeftUnion has own sources
      (sources.flatten.foldl (fun own b => if own.any (has · b) then own else own ++ [b]) own) := by
  have horder := foldl_addNew id has own sources.flatten
  simp only [id_eq, List.map_id_fun] at horder
  refine ⟨horder, fun c => ?_⟩
  rw [horder, List.find?_append, List.findSome?_cons]
  cases hown : own.find? (has · c) with
  | some a => rfl
  | none =>
    rw [Option.none_or, find?_eraseDupsBy trans, ← List.find?_flatten]
    refine find?_filter_of_imp fun b _ hb => ?_
    rw [Bool.not_eq_true', List.any_eq_false]
    intro a ha hab
    exact List.find?_eq_none.mp hown a ha (trans a b c hab hb)

/-! ### The first of each key -/

/-- **What later values add**: the first of each key that is not known. -/
structure Newcomers [BEq κ] (key : α → κ) (known later added : List α) : Prop where
  mem : ∀ a, a ∈ added ↔ (∀ k ∈ known, key k ≠ key a) ∧ later.find? (key · == key a) = some a
  distinct : added.Pairwise fun a b => key a ≠ key b

namespace Newcomers

variable [BEq κ] {key : α → κ} {known later added : List α} {a : α}

theorem nil (known : List α) : Newcomers key known [] [] :=
  ⟨fun _ => iff_of_false List.not_mem_nil (fun h => nomatch h.2), .nil⟩

theorem mem_later (h : Newcomers key known later added) (ha : a ∈ added) : a ∈ later :=
  List.mem_of_find?_eq_some ((h.mem a).mp ha).2

variable [LawfulBEq κ]

theorem skip (h : Newcomers key known later added) (hknown : ∃ k ∈ known, key k = key a) :
    Newcomers key known (a :: later) added := by
  refine ⟨fun b => (h.mem b).trans (and_congr_right fun hnew => ?_), h.distinct⟩
  obtain ⟨k, hk, heq⟩ := hknown
  rw [List.find?_cons_of_neg]
  rw [beq_iff_eq, ← heq]
  exact hnew k hk

theorem cons (h : Newcomers key (known ++ [a]) later added) (hnew : ∀ k ∈ known, key k ≠ key a) :
    Newcomers key known (a :: later) (a :: added) := by
  have hadded : ∀ b ∈ added, key a ≠ key b := fun b hb =>
    ((h.mem b).mp hb).1 a (List.mem_append_right _ (List.mem_singleton_self a))
  refine ⟨fun b => ?_, List.pairwise_cons.mpr ⟨hadded, h.distinct⟩⟩
  rw [List.mem_cons]
  by_cases heq : key a = key b
  · rw [List.find?_cons_of_pos (by rw [beq_iff_eq]; exact heq), Option.some.injEq]
    constructor
    · rintro (rfl | hb)
      · exact ⟨hnew, rfl⟩
      · exact absurd heq (hadded b hb)
    · rintro ⟨-, rfl⟩
      exact .inl rfl
  · rw [List.find?_cons_of_neg (by rw [beq_iff_eq]; exact heq), h.mem]
    constructor
    · rintro (rfl | ⟨hold, hfind⟩)
      · exact absurd rfl heq
      · exact ⟨fun k hk => hold k (List.mem_append_left _ hk), hfind⟩
    · rintro ⟨hold, hfind⟩
      refine .inr ⟨fun k hk => ?_, hfind⟩
      rcases List.mem_append.mp hk with hk | hk
      · exact hold k hk
      · rwa [List.mem_singleton.mp hk]

/-- Each key of a later value is that of one that is known or added. -/
theorem exists_key (h : Newcomers key known later added) (ha : a ∈ later) :
    ∃ b ∈ known ++ added, key b = key a := by
  by_cases hknown : ∃ k ∈ known, key k = key a
  · obtain ⟨k, hk, heq⟩ := hknown
    exact ⟨k, List.mem_append_left _ hk, heq⟩
  · have hsome : (later.find? (key · == key a)).isSome = true :=
      List.find?_isSome.mpr ⟨a, ha, beq_self_eq_true _⟩
    obtain ⟨b, hb⟩ := Option.isSome_iff_exists.mp hsome
    have heq : key b = key a := beq_iff_eq.mp (List.find?_some (p := fun c => key c == key a) hb)
    refine ⟨b, List.mem_append_right _ ((h.mem b).mpr ?_), heq⟩
    rw [heq]
    exact ⟨fun k hk hkey => hknown ⟨k, hk, hkey⟩, hb⟩

/-- Values that are their own keys: those that are not known are added. -/
theorem mem_iff {known later added : List κ} (h : Newcomers id known later added) {a : κ} :
    a ∈ added ↔ a ∉ known ∧ a ∈ later := by
  constructor
  · intro ha
    exact ⟨fun hknown => ((h.mem a).mp ha).1 a hknown rfl, h.mem_later ha⟩
  · rintro ⟨hnew, ha⟩
    obtain ⟨b, hb, rfl⟩ := h.exists_key ha
    exact (List.mem_append.mp hb).resolve_left hnew

/-- **A name made from the key is there once** exactly if it is once among the known, and different keys
of later values give names that none of the others has. -/
theorem pairwise_iff (h : Newcomers key known later added) (name : κ → β) :
    (known ++ added).Pairwise (fun a b => name (key a) ≠ name (key b)) ↔
      known.Pairwise (fun a b => name (key a) ≠ name (key b)) ∧
        ∀ a ∈ later, ∀ b ∈ known ++ later, name (key a) = name (key b) → key a = key b := by
  constructor
  · intro hapart
    refine ⟨(List.pairwise_append.mp hapart).1, fun a ha b hb heq => ?_⟩
    have hexists : ∃ b' ∈ known ++ added, key b' = key b := by
      rcases List.mem_append.mp hb with hb | hb
      · exact ⟨b, List.mem_append_left _ hb, rfl⟩
      · exact h.exists_key hb
    obtain ⟨a', ha', hkeya⟩ := h.exists_key ha
    obtain ⟨b', hb', hkeyb⟩ := hexists
    rw [← hkeya, ← hkeyb] at heq ⊢
    have hnodup : ((known ++ added).map fun c => name (key c)).Nodup := List.pairwise_map.mpr hapart
    rw [List.inj_on_of_nodup_map hnodup ha' hb' heq]
  · rintro ⟨hknown, hlater⟩
    refine List.pairwise_append.mpr ⟨hknown, ?_, fun k hk a ha heq => ?_⟩
    · refine h.distinct.imp_of_mem fun ha hb hne heq => hne ?_
      exact hlater _ (h.mem_later ha) _ (List.mem_append_right _ (h.mem_later hb)) heq
    · refine ((h.mem a).mp ha).1 k hk ?_
      exact (hlater a (h.mem_later ha) k (List.mem_append_left _ hk) heq.symm).symm

end Newcomers

/-- **Adding values with new keys, one by one**, adds such newcomers. -/
theorem exists_newcomers [BEq κ] [LawfulBEq κ] (key : α → κ) (known later : List α) :
    ∃ added, Newcomers key known later added ∧
      later.foldl (fun known a => if known.any (key · == key a) then known else known ++ [a]) known
        = known ++ added := by
  induction later generalizing known with
  | nil => exact ⟨[], Newcomers.nil known, (List.append_nil known).symm⟩
  | cons a rest ih =>
    rw [List.foldl_cons]
    by_cases hany : known.any (key · == key a) = true
    · obtain ⟨added, h, hfold⟩ := ih known
      rw [if_pos hany]
      exact ⟨added, h.skip (by simpa using hany), hfold⟩
    · obtain ⟨added, h, hfold⟩ := ih (known ++ [a])
      rw [if_neg hany, hfold, List.append_assoc, List.singleton_append]
      exact ⟨a :: added, h.cons (by simpa using hany), rfl⟩

/-! ### The last of each key -/

/-- `a` is the last value with its key. -/
def IsLast (key : α → κ) (given : List α) (a : α) : Prop :=
  ∃ before after, given = before ++ a :: after ∧ ∀ b ∈ after, key b ≠ key a

variable {key : α → κ} {given kept : List α} {a b : α}

theorem IsLast.mem (h : IsLast key given a) : a ∈ given := by
  obtain ⟨before, after, rfl, -⟩ := h
  simp

theorem isLast_concat (given : List α) (a : α) : IsLast key (given ++ [a]) a :=
  ⟨given, [], rfl, nofun⟩

theorem IsLast.concat (h : IsLast key given a) (hne : key b ≠ key a) :
    IsLast key (given ++ [b]) a := by
  obtain ⟨before, after, rfl, hafter⟩ := h
  refine ⟨before, after ++ [b], by simp, ?_⟩
  intro c hc
  rcases List.mem_append.mp hc with hc | hc
  · exact hafter c hc
  · rwa [List.mem_singleton.mp hc]

theorem IsLast.unique (ha : IsLast key given a) (hb : IsLast key given b) (h : key a = key b) :
    a = b := by
  obtain ⟨before, after, hgiven, hafter⟩ := ha
  obtain ⟨before', after', hgiven', hafter'⟩ := hb
  have hsplit := hgiven.symm.trans hgiven'
  rcases List.append_eq_append_iff.mp hsplit with ⟨more, -, hmore⟩ | ⟨more, -, hmore⟩
  · cases more with
    | nil => exact (List.cons.inj hmore).1
    | cons c more =>
      obtain ⟨-, rfl⟩ := List.cons.inj hmore
      exact absurd h.symm (hafter b (by simp))
  · cases more with
    | nil => exact (List.cons.inj hmore).1.symm
    | cons c more =>
      obtain ⟨-, rfl⟩ := List.cons.inj hmore
      exact absurd h (hafter' a (by simp))

/-! ### One value for each key -/

section Keys

variable [BEq κ] [LawfulBEq κ]

theorem nodup_eraseDups (keys : List κ) : keys.eraseDups.Nodup := by
  match keys with
  | [] => simp
  | k :: rest =>
    rw [List.eraseDups_cons, List.nodup_cons]
    constructor
    · intro hk
      have := List.mem_eraseDups.mp hk
      simp at this
    · exact nodup_eraseDups _
termination_by keys.length
decreasing_by exact Nat.lt_succ_of_le (List.length_filter_le _ _)

theorem eraseDups_concat_of_mem {keys : List κ} {k : κ} (h : k ∈ keys) :
    (keys ++ [k]).eraseDups = keys.eraseDups := by
  have hnone : [k].removeAll keys = [] := by simp [List.removeAll, h]
  rw [List.eraseDups_append, hnone]
  simp

theorem eraseDups_concat_of_notMem {keys : List κ} {k : κ} (h : k ∉ keys) :
    (keys ++ [k]).eraseDups = keys.eraseDups ++ [k] := by
  have hone : [k].removeAll keys = [k] := by simp [List.removeAll, h]
  rw [List.eraseDups_append, hone]
  simp [List.eraseDups_cons]

/-- **One value for each key that is given**: the last one, where the first one stood. -/
structure Latest (key : α → κ) (given kept : List α) : Prop where
  order : kept.map key = (given.map key).eraseDups
  last : ∀ a ∈ kept, IsLast key given a

namespace Latest

omit [LawfulBEq κ] in
theorem nil : Latest key [] [] := ⟨rfl, nofun⟩

theorem nodup (h : Latest key given kept) : (kept.map key).Nodup := by
  rw [h.order]
  exact nodup_eraseDups _

theorem mem_keys (h : Latest key given kept) {k : κ} : k ∈ kept.map key ↔ k ∈ given.map key := by
  rw [h.order, List.mem_eraseDups]

/-- A value with a new key comes last. -/
theorem append (h : Latest key given kept) (hnew : key a ∉ kept.map key) :
    Latest key (given ++ [a]) (kept ++ [a]) := by
  have hgiven : key a ∉ given.map key := fun hmem => hnew (h.mem_keys.mpr hmem)
  constructor
  · rw [List.map_append, List.map_append, List.map_singleton, eraseDups_concat_of_notMem hgiven,
      h.order]
  · intro b hb
    rcases List.mem_append.mp hb with hb | hb
    · refine (h.last b hb).concat fun heq => hnew ?_
      rw [heq]
      exact List.mem_map_of_mem hb
    · rw [List.mem_singleton.mp hb]
      exact isLast_concat given a

/-- A value takes the place of the one with its key. -/
theorem replace {front back : List α} {old : α} (h : Latest key given (front ++ old :: back))
    (hkey : key old = key a) : Latest key (given ++ [a]) (front ++ a :: back) := by
  have hgiven : key a ∈ given.map key := by
    rw [← h.mem_keys, ← hkey]
    exact List.mem_map_of_mem (by simp)
  have hkeys : (front ++ a :: back).map key = (front ++ old :: back).map key := by simp [hkey]
  have hnodup := h.nodup
  rw [← hkeys, List.map_append, List.map_cons, List.nodup_append, List.nodup_cons] at hnodup
  obtain ⟨-, ⟨hback, -⟩, hfront⟩ := hnodup
  constructor
  · rw [hkeys, h.order, List.map_append, List.map_singleton, eraseDups_concat_of_mem hgiven]
  · intro b hb
    rcases List.mem_append.mp hb with hb | hb
    · refine (h.last b (by simp [hb])).concat fun heq => ?_
      exact hfront (key b) (List.mem_map_of_mem hb) (key a) (by simp) heq.symm
    · rcases List.mem_cons.mp hb with rfl | hb
      · exact isLast_concat given b
      · refine (h.last b (by simp [hb])).concat fun heq => hback ?_
        rw [heq]
        exact List.mem_map_of_mem hb

omit [LawfulBEq κ] in
/-- What is kept is determined by what is given. -/
theorem unique {kept' : List α} (h : Latest key given kept) (h' : Latest key given kept') :
    kept = kept' := by
  have hkeys : kept.map key = kept'.map key := h.order.trans h'.order.symm
  have hlast := h.last
  have hlast' := h'.last
  clear h h'
  induction kept generalizing kept' with
  | nil => simpa using hkeys.symm
  | cons a rest ih =>
    cases kept' with
    | nil => simp at hkeys
    | cons b rest' =>
      simp only [List.map_cons, List.cons.injEq] at hkeys
      obtain ⟨hkey, hrest⟩ := hkeys
      have hab : a = b := (hlast a (by simp)).unique (hlast' b (by simp)) hkey
      have htail : rest = rest' := ih hrest (fun c hc => hlast c (List.mem_cons_of_mem _ hc))
        fun c hc => hlast' c (List.mem_cons_of_mem _ hc)
      rw [hab, htail]

end Latest

end Keys

end Arrival
end ApiScaffold
