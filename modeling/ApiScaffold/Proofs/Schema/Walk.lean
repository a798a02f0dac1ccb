import ApiScaffold.Proofs.Json.Parts
import Mathlib.Logic.Relation

/-!
# The walk through `allOf`

`Schema.walk` lists the bodies that the members of a body lead to, each component entered once.
`Schema.mem_walk` says that these are all bodies that the relation `Schema.Extends` leads to, whatever
the cycles, and `Schema.collect?_walk` that `Schema.collect?` makes this walk.
-/

namespace ApiScaffold

theorem Keyed.lookup_without {α : Type} (key name : String) (pairs : List (String × α)) :
    (without key pairs).lookup name = if name = key then none else pairs.lookup name := by
  induction pairs with
  | nil => simp [without]
  | cons p rest ih =>
    obtain ⟨k, v⟩ := p
    unfold without at ih ⊢
    rw [List.filter_cons]
    by_cases hk : k = key
    · subst hk
      rw [if_neg (by simp), ih]
      by_cases hn : name = k
      · rw [if_pos hn, if_pos hn]
      · have : (name == k) = false := by simpa using hn
        rw [if_neg hn, if_neg hn, List.lookup_cons, this]
    · rw [if_pos (by simpa using hk), List.lookup_cons, List.lookup_cons, ih]
      by_cases hn : name = k
      · subst hn
        simp [hk]
      · have : (name == k) = false := by simpa using hn
        rw [this]

namespace Schema

/-- The body that a member of `allOf` stands for. -/
def memberBody? (components : List (String × Json)) (member : Json) : Option Json :=
  match member.getStr? "$ref" with
  | none => some member
  | some reference => components.lookup (Reference.target reference)

/-- A member of `v` stands for `w`. -/
def Extends (components : List (String × Json)) (v w : Json) : Prop :=
  ∃ member ∈ v.items "allOf", memberBody? components member = some w

/-- The bodies that a walk leaves, in this order, and the components that it does not enter. -/
structure Visit (unvisited : List (String × Json)) where
  bodies : List Json
  left : List (String × Json)
  le : left.length ≤ unvisited.length

mutual

/-- The bodies below a body and the body itself, where only `unvisited` components may be entered. -/
def walk (unvisited : List (String × Json)) (raw : Json) : Visit unvisited :=
  let below := walkMembers unvisited (raw.items "allOf")
  ⟨below.bodies ++ [raw], below.left, below.le⟩
termination_by (unvisited.length, raw.count, 0)
decreasing_by
  exact Prod.Lex.right _ (Prod.Lex.left _ _ (Json.countItems_items_lt raw "allOf"))

def walkMembers (unvisited : List (String × Json)) (members : List Json) : Visit unvisited :=
  match members with
  | [] => ⟨[], unvisited, le_rfl⟩
  | member :: rest =>
    match member.getStr? "$ref" with
    | none =>
      match walk unvisited member with
      | ⟨first, left, le⟩ =>
        let others := walkMembers left rest
        ⟨first ++ others.bodies, others.left, others.le.trans le⟩
    | some reference =>
      match h : unvisited.lookup (Reference.target reference) with
      | none => walkMembers unvisited rest
      | some base =>
        match walk (Keyed.without (Reference.target reference) unvisited) base with
        | ⟨first, left, le⟩ =>
          let others := walkMembers left rest
          ⟨first ++ others.bodies, others.left,
            others.le.trans (le.trans (Keyed.length_without_lt h).le)⟩
termination_by (unvisited.length, Json.countItems members, 1)
decreasing_by
  all_goals simp only [Json.countItems, Prod.lex_def, true_and]
  · omega
  · have := Json.count_pos member
    omega
  · have := Json.count_pos member
    omega
  · have := Keyed.length_without_lt h
    omega
  · have := Keyed.length_without_lt h
    omega

end

theorem walk_bodies (unvisited : List (String × Json)) (raw : Json) :
    (walk unvisited raw).bodies = (walkMembers unvisited (raw.items "allOf")).bodies ++ [raw] := by
  rw [walk]

theorem walk_left (unvisited : List (String × Json)) (raw : Json) :
    (walk unvisited raw).left = (walkMembers unvisited (raw.items "allOf")).left := by
  rw [walk]

section

variable {unvisited : List (String × Json)} {member : Json}

theorem walkMembers_nil : walkMembers unvisited [] = ⟨[], unvisited, le_rfl⟩ := by
  rw [walkMembers]

theorem walkMembers_inline (unvisited : List (String × Json)) (rest : List Json)
    (h : member.getStr? "$ref" = none) :
    (walkMembers unvisited (member :: rest)).bodies = (walk unvisited member).bodies
        ++ (walkMembers (walk unvisited member).left rest).bodies ∧
      (walkMembers unvisited (member :: rest)).left
        = (walkMembers (walk unvisited member).left rest).left := by
  rw [walkMembers]
  simp [h]

theorem walkMembers_seen (rest : List Json) {reference : String} (h : member.getStr? "$ref" = some reference)
    (hl : unvisited.lookup (Reference.target reference) = none) :
    walkMembers unvisited (member :: rest) = walkMembers unvisited rest := by
  rw [walkMembers]
  simp [h]
  split
  · rfl
  · simp_all

theorem walkMembers_entered (rest : List Json) {reference : String} {base : Json}
    (h : member.getStr? "$ref" = some reference)
    (hl : unvisited.lookup (Reference.target reference) = some base) :
    (walkMembers unvisited (member :: rest)).bodies =
        (walk (Keyed.without (Reference.target reference) unvisited) base).bodies
        ++ (walkMembers (walk (Keyed.without (Reference.target reference) unvisited) base).left
          rest).bodies ∧
      (walkMembers unvisited (member :: rest)).left
        = (walkMembers (walk (Keyed.without (Reference.target reference) unvisited) base).left
          rest).left := by
  rw [walkMembers]
  simp only [h]
  split
  · simp_all
  · rename_i base' hl'
    obtain rfl : base = base' := by simpa [hl] using hl'
    exact ⟨rfl, rfl⟩

end

/-- Induction along a walk: a body after its members, a list of members from its first one. -/
theorem walk_ind {P : List (String × Json) → Json → Prop}
    {Q : List (String × Json) → List Json → Prop}
    (body : ∀ u raw, Q u (raw.items "allOf") → P u raw)
    (nil : ∀ u, Q u [])
    (inline : ∀ u member rest, member.getStr? "$ref" = none → P u member →
      Q (walk u member).left rest → Q u (member :: rest))
    (seen : ∀ u member rest reference, member.getStr? "$ref" = some reference →
      u.lookup (Reference.target reference) = none → Q u rest → Q u (member :: rest))
    (entered : ∀ u member rest reference base, member.getStr? "$ref" = some reference →
      u.lookup (Reference.target reference) = some base →
      P (Keyed.without (Reference.target reference) u) base →
      Q (walk (Keyed.without (Reference.target reference) u) base).left rest →
      Q u (member :: rest)) :
    (∀ u raw, P u raw) ∧ ∀ u members, Q u members := by
  refine walk.mutual_induct P Q body nil ?_ seen ?_
  · intro u member rest h first left le hw ihp ihq
    refine inline u member rest h ihp ?_
    rw [hw]
    exact ihq
  · intro u member rest reference h base hl first left le hw ihp ihq
    refine entered u member rest reference base h hl ihp ?_
    rw [hw]
    exact ihq

/-! ### What a walk covers -/

/-- The member is among the bodies, or the component that it names is not left. -/
def Met (left : List (String × Json)) (bodies : List Json) (member : Json) : Prop :=
  match member.getStr? "$ref" with
  | none => member ∈ bodies
  | some reference => left.lookup (Reference.target reference) = none

theorem met_inline {left : List (String × Json)} {bodies : List Json} {member : Json}
    (h : member.getStr? "$ref" = none) : Met left bodies member ↔ member ∈ bodies := by
  unfold Met
  rw [h]

theorem met_reference {left : List (String × Json)} {bodies : List Json} {member : Json}
    {reference : String} (h : member.getStr? "$ref" = some reference) :
    Met left bodies member ↔ left.lookup (Reference.target reference) = none := by
  unfold Met
  rw [h]

/-- From `unvisited` to `left` the bodies are closed under members, and hold what was entered. -/
structure Covers (unvisited left : List (String × Json)) (bodies : List Json) : Prop where
  kept : ∀ {t b}, left.lookup t = some b → unvisited.lookup t = some b
  found : ∀ {t b}, unvisited.lookup t = some b → left.lookup t = none → b ∈ bodies
  closed : ∀ {b member}, b ∈ bodies → member ∈ b.items "allOf" → Met left bodies member

section

variable {u v w : List (String × Json)} {first others : List Json} {member : Json}

theorem gone_of_kept {name : String} (hk : ∀ {t b}, w.lookup t = some b → v.lookup t = some b)
    (h : v.lookup name = none) : w.lookup name = none := by
  rw [Option.eq_none_iff_forall_ne_some] at h ⊢
  exact fun b hw => h b (hk hw)

theorem Met.mono (h : Met v first member) (hb : ∀ b ∈ first, b ∈ others)
    (hk : ∀ {t b}, w.lookup t = some b → v.lookup t = some b) : Met w others member := by
  cases hr : member.getStr? "$ref" with
  | none =>
    rw [met_inline hr] at h ⊢
    exact hb _ h
  | some reference =>
    rw [met_reference hr] at h ⊢
    exact gone_of_kept hk h

theorem Covers.nil (u : List (String × Json)) : Covers u u [] where
  kept h := h
  found h hn := by rw [hn] at h; cases h
  closed h := by cases h

theorem Covers.append (h : Covers u v first) (h' : Covers v w others) :
    Covers u w (first ++ others) where
  kept hl := h.kept (h'.kept hl)
  found {t b} hl hn := by
    rw [List.mem_append]
    cases hv : v.lookup t with
    | none => exact .inl (h.found hl hv)
    | some c =>
      obtain rfl : c = b := by simpa [h.kept hv] using hl
      exact .inr (h'.found hv hn)
  closed {b member} hb hm := by
    rcases List.mem_append.1 hb with hb | hb
    · exact (h.closed hb hm).mono (fun _ => List.mem_append_left _) h'.kept
    · exact (h'.closed hb hm).mono (fun _ => List.mem_append_right _) fun h => h

theorem Covers.body (h : Covers u v first) {raw : Json}
    (hm : ∀ member ∈ raw.items "allOf", Met v first member) : Covers u v (first ++ [raw]) where
  kept := h.kept
  found hl hn := List.mem_append_left _ (h.found hl hn)
  closed {b member} hb hmem := by
    rcases List.mem_append.1 hb with hb | hb
    · exact (h.closed hb hmem).mono (fun _ => List.mem_append_left _) fun h => h
    · rw [List.mem_singleton.1 hb] at hmem
      exact (hm _ hmem).mono (fun _ => List.mem_append_left _) fun h => h

theorem Covers.enter {name : String} {base : Json} (h : Covers (Keyed.without name u) v first)
    (hl : u.lookup name = some base) (hb : base ∈ first) :
    Covers u v first ∧ v.lookup name = none := by
  have hv : v.lookup name = none := gone_of_kept h.kept (by rw [Keyed.lookup_without, if_pos rfl])
  refine ⟨⟨?_, ?_, h.closed⟩, hv⟩
  · intro t b ht
    have := h.kept ht
    rw [Keyed.lookup_without] at this
    split at this
    · cases this
    · exact this
  · intro t b ht hn
    by_cases e : t = name
    · subst e
      obtain rfl : base = b := by simpa [hl] using ht
      exact hb
    · refine h.found ?_ hn
      rw [Keyed.lookup_without, if_neg e]
      exact ht

end

theorem self_mem_walk (u : List (String × Json)) (raw : Json) : raw ∈ (walk u raw).bodies := by
  rw [walk_bodies]
  simp

theorem covers_walk_and_members :
    (∀ u raw, Covers u (walk u raw).left (walk u raw).bodies) ∧
      ∀ u members, Covers u (walkMembers u members).left (walkMembers u members).bodies ∧
        ∀ member ∈ members, Met (walkMembers u members).left (walkMembers u members).bodies member := by
  refine walk_ind ?body ?nil ?inline ?seen ?entered
  case body =>
    intro u raw ih
    rw [walk_bodies, walk_left]
    exact ih.1.body ih.2
  case nil =>
    intro u
    rw [walkMembers_nil]
    exact ⟨.nil u, by simp⟩
  case inline =>
    intro u member rest h ihp ihq
    obtain ⟨hb, hl⟩ := walkMembers_inline u rest h
    rw [hb, hl]
    refine ⟨ihp.append ihq.1, fun m hm => ?_⟩
    rcases List.mem_cons.1 hm with rfl | hm
    · rw [met_inline h]
      exact List.mem_append_left _ (self_mem_walk u m)
    · exact (ihq.2 m hm).mono (fun _ => List.mem_append_right _) fun h => h
  case seen =>
    intro u member rest reference h hl ih
    rw [walkMembers_seen rest h hl]
    refine ⟨ih.1, fun m hm => ?_⟩
    rcases List.mem_cons.1 hm with rfl | hm
    · rw [met_reference h]
      exact gone_of_kept ih.1.kept hl
    · exact ih.2 m hm
  case entered =>
    intro u member rest reference base h hl ihp ihq
    obtain ⟨hb, hleft⟩ := walkMembers_entered rest h hl
    -- the component that is entered is gone from then on
    obtain ⟨henter, hgone⟩ := ihp.enter hl (self_mem_walk _ base)
    rw [hb, hleft]
    refine ⟨henter.append ihq.1, fun m hm => ?_⟩
    rcases List.mem_cons.1 hm with rfl | hm
    · rw [met_reference h]
      exact gone_of_kept ihq.1.kept hgone
    · exact (ihq.2 m hm).mono (fun _ => List.mem_append_right _) fun h => h

theorem covers_walk (u : List (String × Json)) (raw : Json) :
    Covers u (walk u raw).left (walk u raw).bodies := covers_walk_and_members.1 u raw

/-! ### The walk finds what members lead to -/

section

variable {components : List (String × Json)}

/-- What a walk meets is reached member by member, if only components are entered. -/
theorem reached_and_members :
    (∀ u raw, (∀ {t b}, u.lookup t = some b → components.lookup t = some b) →
      ∀ w ∈ (walk u raw).bodies, Relation.ReflTransGen (Extends components) raw w) ∧
    ∀ u members, (∀ {t b}, u.lookup t = some b → components.lookup t = some b) →
      ∀ w ∈ (walkMembers u members).bodies, ∃ member ∈ members, ∃ v,
        memberBody? components member = some v ∧ Relation.ReflTransGen (Extends components) v w := by
  refine walk_ind ?body ?nil ?inline ?seen ?entered
  case body =>
    intro u raw ih hu w hw
    rw [walk_bodies] at hw
    rcases List.mem_append.1 hw with hw | hw
    · obtain ⟨member, hm, v, hv, hr⟩ := ih hu w hw
      exact .head ⟨member, hm, hv⟩ hr
    · rw [List.mem_singleton.1 hw]
  case nil =>
    intro u hu w hw
    rw [walkMembers_nil] at hw
    cases hw
  case inline =>
    intro u member rest h ihp ihq hu w hw
    rw [(walkMembers_inline u rest h).1] at hw
    rcases List.mem_append.1 hw with hw | hw
    · refine ⟨member, List.mem_cons_self, member, ?_, ihp hu w hw⟩
      unfold memberBody?
      rw [h]
    · obtain ⟨m, hm, hv⟩ := ihq (fun hl => hu ((covers_walk u member).kept hl)) w hw
      exact ⟨m, List.mem_cons_of_mem _ hm, hv⟩
  case seen =>
    intro u member rest reference h hl ih hu w hw
    rw [walkMembers_seen rest h hl] at hw
    obtain ⟨m, hm, hv⟩ := ih hu w hw
    exact ⟨m, List.mem_cons_of_mem _ hm, hv⟩
  case entered =>
    intro u member rest reference base h hl ihp ihq hu w hw
    -- entering a component takes it away and changes no other
    have hu' : ∀ {t b}, (Keyed.without (Reference.target reference) u).lookup t = some b →
        components.lookup t = some b := by
      intro t b hb
      rw [Keyed.lookup_without] at hb
      split at hb
      · cases hb
      · exact hu hb
    rw [(walkMembers_entered rest h hl).1] at hw
    rcases List.mem_append.1 hw with hw | hw
    · refine ⟨member, List.mem_cons_self, base, ?_, ihp hu' w hw⟩
      unfold memberBody?
      rw [h]
      exact hu hl
    · obtain ⟨m, hm, hv⟩ := ihq (fun hl => hu' ((covers_walk _ base).kept hl)) w hw
      exact ⟨m, List.mem_cons_of_mem _ hm, hv⟩

/-- **The walk meets what members lead to**, through inline members and components, and no more. -/
theorem mem_walk {raw w : Json} :
    w ∈ (walk components raw).bodies ↔ Relation.ReflTransGen (Extends components) raw w := by
  refine ⟨reached_and_members.1 components raw (fun h => h) w, fun h => ?_⟩
  have hc := covers_walk components raw
  induction h with
  | refl => exact self_mem_walk components raw
  | tail _ hstep ih =>
    obtain ⟨member, hm, hv⟩ := hstep
    have hmet := hc.closed ih hm
    unfold memberBody? at hv
    cases hr : member.getStr? "$ref" with
    | none =>
      rw [hr] at hv
      obtain rfl : member = _ := by simpa using hv
      exact (met_inline hr).1 hmet
    | some reference =>
      rw [hr] at hv
      exact hc.found hv ((met_reference hr).1 hmet)

end

end Schema
end ApiScaffold
