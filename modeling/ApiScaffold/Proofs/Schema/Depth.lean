import ApiScaffold.Proofs.Schema.Walk

/-!
# How deep a body has to be built

More depth does not change a schema (`Schema.build?_grows`).  A body is built to some depth if and only
if the bodies that it enters are, by `Schema.Enters`: `Schema.builds_of_enters` and
`Schema.enters_builds` give the depths.
-/

namespace ApiScaffold

/-- `b` is the same as `a`, if `a` is there. -/
def Grows {α : Type} (a b : Option α) : Prop := ∀ x, a = some x → b = some x

namespace Grows

variable {α β : Type}

theorem refl (a : Option α) : Grows a a := fun _ h => h

theorem trans {a b c : Option α} (h : Grows a b) (h' : Grows b c) : Grows a c :=
  fun x hx => h' x (h x hx)

theorem bind {a b : Option α} {f g : α → Option β} (h : Grows a b) (hf : ∀ x, Grows (f x) (g x)) :
    Grows (a.bind f) (b.bind g) := by
  intro y hy
  obtain ⟨x, hx, hfx⟩ := Option.bind_eq_some_iff.1 hy
  exact Option.bind_eq_some_iff.2 ⟨x, h x hx, hf x y hfx⟩

theorem map {a b : Option α} (f : α → β) (h : Grows a b) : Grows (a.map f) (b.map f) := by
  intro y hy
  obtain ⟨x, hx, rfl⟩ := Option.map_eq_some_iff.1 hy
  rw [h x hx]
  rfl

theorem foldlM {f g : β → α → Option β} (l : List α) (h : ∀ s, ∀ x ∈ l, Grows (f s x) (g s x)) :
    ∀ s, Grows (l.foldlM f s) (l.foldlM g s) := by
  induction l with
  | nil => exact fun s => refl _
  | cons x rest ih =>
    intro s
    rw [List.foldlM_cons, List.foldlM_cons]
    exact bind (h s x List.mem_cons_self)
      fun s => ih (fun s y hy => h s y (List.mem_cons_of_mem _ hy)) s

theorem mapM {f g : α → Option β} (l : List α) (h : ∀ x ∈ l, Grows (f x) (g x)) :
    Grows (l.mapM f) (l.mapM g) := by
  induction l with
  | nil => exact refl _
  | cons x rest ih =>
    rw [List.mapM_cons, List.mapM_cons]
    exact bind (h x List.mem_cons_self) fun y =>
      bind (ih fun z hz => h z (List.mem_cons_of_mem _ hz)) fun _ => refl _

theorem isSome {a b : Option α} (h : Grows a b) (ha : a.isSome) : b.isSome := by
  obtain ⟨x, hx⟩ := Option.isSome_iff_exists.1 ha
  rw [h x hx]
  rfl

end Grows

/-- What comes after a value does not depend on it. -/
theorem isSome_bind_iff {α β : Type} {a : Option α} {f : α → Option β} {ok : Prop}
    (h : ∀ x, (f x).isSome ↔ ok) : (a.bind f).isSome ↔ a.isSome ∧ ok := by
  cases a with
  | none => simp
  | some x => simp [h x]

theorem isSome_bind_of_isSome {α β : Type} {a : Option α} {f : α → Option β}
    (h : ∀ x, (f x).isSome) : (a.bind f).isSome ↔ a.isSome :=
  (isSome_bind_iff fun x => iff_true_intro (h x)).trans (iff_of_eq (and_true _))

/-- A fold goes through if every step does, from every state. -/
theorem isSome_foldlM_iff {α β : Type} {f : β → α → Option β} {l : List α} (ok : α → Prop)
    (h : ∀ s, ∀ x ∈ l, (f s x).isSome ↔ ok x) (s : β) :
    (l.foldlM f s).isSome ↔ ∀ x ∈ l, ok x := by
  induction l generalizing s with
  | nil => simp
  | cons x rest ih =>
    have hx := h s x List.mem_cons_self
    have ih := fun t => ih (fun s y hy => h s y (List.mem_cons_of_mem _ hy)) t
    rw [List.foldlM_cons, List.forall_mem_cons]
    cases hf : f s x with
    | none =>
      rw [hf] at hx
      simp at hx
      simp [hx]
    | some t =>
      rw [hf] at hx
      simp at hx
      rw [Option.bind_eq_bind, Option.bind_some, ih t]
      simp [hx]

theorem isSome_mapM_iff {α β : Type} {f : α → Option β} {l : List α} :
    (l.mapM f).isSome ↔ ∀ x ∈ l, (f x).isSome := by
  induction l with
  | nil => simp
  | cons x rest ih =>
    rw [List.mapM_cons, List.forall_mem_cons, ← ih]
    cases f x <;> cases rest.mapM f <;> simp

namespace Schema

variable {components : List (String × Json)}

/-! ### One level of the recursion -/

def visitMember (components : List (String × Json)) (depth : Nat) (m : Members) (member : Json) :
    Option Members :=
  match member.getStr? "$ref" with
  | none => collect? components depth member m
  | some reference =>
    match m.unvisited.lookup (Reference.target reference) with
    | none => some m
    | some base =>
      collect? components depth base
        { m with unvisited := Keyed.without (Reference.target reference) m.unvisited }

def ownProperties (components : List (String × Json)) (depth : Nat) (raw : Json)
    (known : List (String × Schema)) : Option (List (String × Schema)) :=
  (raw.fields "properties").foldlM (fun known field =>
    (build? components depth field.1 field.2).map (Keyed.insert field.1 · known)) known

theorem collect?_succ (depth : Nat) (raw : Json) (m : Members) :
    collect? components (depth + 1) raw m =
      ((raw.items "allOf").foldlM (visitMember components depth) m).bind fun m =>
        (ownProperties components depth raw m.properties).bind fun properties =>
          some { m with
            properties
            required := ((raw.items "required").filterMap Json.str?).foldl
              (fun keys k => Keyed.insertKey k keys) m.required } := by
  rw [collect?]
  rfl

def itemsBody? (raw : Json) : Option Json := (raw.get? "items").filter Json.isObj

theorem build?_succ (depth : Nat) (name : String) (raw : Json) :
    build? components (depth + 1) name raw =
      match raw.getStr? "$ref" with
      | some reference => some (pointer components name reference raw)
      | none =>
        (collect? components depth raw ⟨[], [], components⟩).bind fun members =>
          (match itemsBody? raw with
            | some v => (build? components depth name v).map some
            | none => some none).bind fun items => some {
              name, items
              type := raw.schemaType.1
              format := raw.getStr? "format"
              description := raw.getStr? "description"
              properties := members.properties
              required := members.required
              choices := raw.choices
              nullable := raw.schemaType.2 || ((raw.get? "nullable").bind Json.bool?).getD false } := by
  rw [build?]
  cases raw.getStr? "$ref" with
  | some reference => rfl
  | none =>
    unfold itemsBody?
    cases hi : raw.get? "items" with
    | none => rfl
    | some v => cases v <;> rfl

/-! ### More depth -/

theorem visitMember_grows {depth depth' : Nat}
    (h : ∀ raw m, Grows (collect? components depth raw m) (collect? components depth' raw m))
    (m : Members) (member : Json) :
    Grows (visitMember components depth m member) (visitMember components depth' m member) := by
  unfold visitMember
  split
  · exact h _ _
  · split
    · exact .refl _
    · exact h _ _

theorem ownProperties_grows {depth depth' : Nat}
    (h : ∀ name raw, Grows (build? components depth name raw) (build? components depth' name raw))
    (raw : Json) (known : List (String × Schema)) :
    Grows (ownProperties components depth raw known) (ownProperties components depth' raw known) :=
  .foldlM _ (fun _ _ _ => .map _ (h _ _)) known

theorem grows_succ (depth : Nat) :
    (∀ name raw, Grows (build? components depth name raw) (build? components (depth + 1) name raw)) ∧
      ∀ raw m, Grows (collect? components depth raw m) (collect? components (depth + 1) raw m) := by
  induction depth with
  | zero =>
    refine ⟨fun name raw s h => ?_, fun raw m s h => ?_⟩
    · simp [build?] at h
    · simp [collect?] at h
  | succ depth ih =>
    refine ⟨fun name raw => ?_, fun raw m => ?_⟩
    · rw [build?_succ depth, build?_succ (depth + 1)]
      split
      · exact .refl _
      · refine .bind (ih.2 _ _) fun members => .bind ?_ fun _ => .refl _
        split
        · exact .map _ (ih.1 _ _)
        · exact .refl _
    · rw [collect?_succ depth, collect?_succ (depth + 1)]
      refine .bind (.foldlM _ (fun m member _ => visitMember_grows ih.2 m member) m) fun m => ?_
      exact .bind (ownProperties_grows ih.1 raw m.properties) fun _ => .refl _

/-- **More depth does not change a schema.** -/
theorem build?_grows {depth depth' : Nat} (h : depth ≤ depth') (name : String) (raw : Json) :
    Grows (build? components depth name raw) (build? components depth' name raw) := by
  induction h with
  | refl => exact .refl _
  | step _ ih => exact ih.trans ((grows_succ _).1 name raw)

/-- Whether a body is built does not depend on its name. -/
theorem build?_isSome_congr (depth : Nat) (name name' : String) (raw : Json) :
    (build? components depth name raw).isSome = (build? components depth name' raw).isSome := by
  induction depth generalizing raw with
  | zero => simp [build?]
  | succ depth ih =>
    rw [build?_succ, build?_succ]
    cases raw.getStr? "$ref" with
    | some reference => rfl
    | none =>
      cases collect? components depth raw ⟨[], [], components⟩ with
      | none => rfl
      | some members =>
        cases itemsBody? raw with
        | none => rfl
        | some v =>
          have := ih v
          cases h : build? components depth name v <;> cases h' : build? components depth name' v <;>
            simp_all

/-- The body is built to this depth. -/
def Builds (components : List (String × Json)) (depth : Nat) (raw : Json) : Prop :=
  (build? components depth "" raw).isSome

theorem builds_iff {depth : Nat} (name : String) {raw : Json} :
    Builds components depth raw ↔ (build? components depth name raw).isSome := by
  unfold Builds
  rw [build?_isSome_congr depth "" name raw]

theorem Builds.mono {depth depth' : Nat} {raw : Json} (h : Builds components depth raw)
    (hd : depth ≤ depth') : Builds components depth' raw :=
  (build?_grows hd "" raw).isSome h

/-! ### Members are collected along the walk -/

/-- All properties of the bodies are built to this depth. -/
def BuildsProperties (components : List (String × Json)) (depth : Nat) (bodies : List Json) : Prop :=
  ∀ b ∈ bodies, ∀ p ∈ b.fields "properties", Builds components depth p.2

theorem BuildsProperties.mono {depth depth' : Nat} {bodies : List Json}
    (h : BuildsProperties components depth bodies) (hd : depth ≤ depth') :
    BuildsProperties components depth' bodies :=
  fun b hb p hp => (h b hb p hp).mono hd

theorem buildsProperties_append {depth : Nat} {first others : List Json} :
    BuildsProperties components depth (first ++ others) ↔
      BuildsProperties components depth first ∧ BuildsProperties components depth others := by
  simp [BuildsProperties, or_imp, forall_and]

theorem ownProperties_isSome_iff {depth : Nat} {raw : Json} {known : List (String × Schema)} :
    (ownProperties components depth raw known).isSome ↔ BuildsProperties components depth [raw] := by
  unfold ownProperties
  rw [isSome_foldlM_iff (fun p => Builds components depth p.2)
    (fun s p _ => by rw [Option.isSome_map, builds_iff p.1])]
  simp [BuildsProperties]

section

variable {depth : Nat}

/-- The members of a list, if each one is collected along its walk. -/
theorem visitMembers_walk
    (ih : ∀ raw m m', collect? components depth raw m = some m' →
      m'.unvisited = (walk m.unvisited raw).left ∧
        BuildsProperties components depth (walk m.unvisited raw).bodies) :
    ∀ members m m', members.foldlM (visitMember components depth) m = some m' →
      m'.unvisited = (walkMembers m.unvisited members).left ∧
        BuildsProperties components depth (walkMembers m.unvisited members).bodies := by
  intro members
  -- on the members; the others meet what the first has left unvisited
  induction members with
  | nil =>
    intro m m' h
    obtain rfl : m = m' := by simpa using h
    rw [walkMembers_nil]
    exact ⟨rfl, fun b hb => by cases hb⟩
  | cons member rest ihr =>
    intro m m' h
    rw [List.foldlM_cons] at h
    obtain ⟨m₁, hm₁, hrest⟩ := Option.bind_eq_some_iff.1 h
    obtain ⟨hleft, hbuilt⟩ := ihr m₁ m' hrest
    unfold visitMember at hm₁
    cases hr : member.getStr? "$ref" with
    | none =>
      rw [hr] at hm₁
      obtain ⟨hl, hb⟩ := ih member m m₁ hm₁
      rw [hl] at hleft hbuilt
      rw [(walkMembers_inline m.unvisited rest hr).1, (walkMembers_inline m.unvisited rest hr).2]
      exact ⟨hleft, buildsProperties_append.2 ⟨hb, hbuilt⟩⟩
    | some reference =>
      rw [hr] at hm₁
      cases hlook : m.unvisited.lookup (Reference.target reference) with
      | none =>
        simp only [hlook, Option.some.injEq] at hm₁
        subst hm₁
        rw [walkMembers_seen rest hr hlook]
        exact ⟨hleft, hbuilt⟩
      | some base =>
        simp only [hlook] at hm₁
        obtain ⟨hl, hb⟩ := ih base _ m₁ hm₁
        rw [hl] at hleft hbuilt
        rw [(walkMembers_entered rest hr hlook).1, (walkMembers_entered rest hr hlook).2]
        exact ⟨hleft, buildsProperties_append.2 ⟨hb, hbuilt⟩⟩

end

/-- What is collected is collected along the walk, and all properties met were built. -/
theorem collect?_walk : ∀ depth raw m m', collect? components depth raw m = some m' →
    m'.unvisited = (walk m.unvisited raw).left ∧
      BuildsProperties components depth (walk m.unvisited raw).bodies := by
  intro depth
  induction depth with
  | zero =>
    intro raw m m' h
    simp [collect?] at h
  | succ depth ih =>
    intro raw m m' h
    rw [collect?_succ] at h
    obtain ⟨m₁, hm₁, h⟩ := Option.bind_eq_some_iff.1 h
    obtain ⟨properties, hp, h⟩ := Option.bind_eq_some_iff.1 h
    obtain ⟨hleft, hbuilt⟩ := visitMembers_walk ih _ m m₁ hm₁
    obtain rfl := Option.some.inj h
    have hown := ownProperties_isSome_iff.1 (Option.isSome_of_eq_some hp)
    rw [walk_bodies, walk_left]
    exact ⟨hleft, (buildsProperties_append.2 ⟨hbuilt, hown⟩).mono (Nat.le_succ depth)⟩

section

variable {depth enough largest : Nat}

theorem visitMembers_isSome
    (ih : ∀ raw m, (∀ {t b}, m.unvisited.lookup t = some b → b.count ≤ largest) →
      BuildsProperties components enough (walk m.unvisited raw).bodies →
      enough + m.unvisited.length * largest + raw.count ≤ depth →
      (collect? components depth raw m).isSome) :
    ∀ members m, (∀ {t b}, m.unvisited.lookup t = some b → b.count ≤ largest) →
      BuildsProperties components enough (walkMembers m.unvisited members).bodies →
      enough + m.unvisited.length * largest + Json.countItems members ≤ depth →
      (members.foldlM (visitMember components depth) m).isSome := by
  intro members
  induction members with
  | nil => exact fun m _ _ _ => rfl
  | cons member rest ihr =>
    intro m hsize hbuilt hdepth
    rw [Json.countItems] at hdepth
    -- the members after one that was collected as `m₁`
    have step : ∀ m₁ left, m₁.unvisited = left → left.length ≤ m.unvisited.length →
        (∀ {t b}, left.lookup t = some b → m.unvisited.lookup t = some b) →
        BuildsProperties components enough (walkMembers left rest).bodies →
        (rest.foldlM (visitMember components depth) m₁).isSome := by
      rintro m₁ left rfl hle hkept hb
      refine ihr m₁ (fun hl => hsize (hkept hl)) hb ?_
      have := Nat.mul_le_mul_right largest hle
      omega
    rw [List.foldlM_cons]
    unfold visitMember
    cases hr : member.getStr? "$ref" with
    | none =>
      rw [(walkMembers_inline m.unvisited rest hr).1, buildsProperties_append] at hbuilt
      obtain ⟨m₁, hm₁⟩ := Option.isSome_iff_exists.1 (ih member m hsize hbuilt.1 (by omega))
      simp only [hm₁, Option.bind_eq_bind, Option.bind_some]
      exact step m₁ _ (collect?_walk _ _ _ _ hm₁).1 (walk _ _).le (covers_walk _ _).kept hbuilt.2
    | some reference =>
      cases hlook : m.unvisited.lookup (Reference.target reference) with
      | none =>
        rw [walkMembers_seen rest hr hlook] at hbuilt
        simp only [hlook, Option.bind_eq_bind, Option.bind_some]
        exact step m _ rfl le_rfl (fun h => h) hbuilt
      | some base =>
        rw [(walkMembers_entered rest hr hlook).1, buildsProperties_append] at hbuilt
        have hkept : ∀ {t b}, (Keyed.without (Reference.target reference) m.unvisited).lookup t
            = some b → m.unvisited.lookup t = some b := by
          intro t b hb
          rw [Keyed.lookup_without] at hb
          split at hb
          · cases hb
          · exact hb
        have hlt := Keyed.length_without_lt hlook
        have hmul := Nat.mul_le_mul_right largest (Nat.succ_le_of_lt hlt)
        have hbase := hsize hlook
        rw [Nat.succ_mul] at hmul
        obtain ⟨m₁, hm₁⟩ := Option.isSome_iff_exists.1
          (ih base { m with unvisited := Keyed.without (Reference.target reference) m.unvisited }
            (fun hl => hsize (hkept hl)) hbuilt.1 (by simp only; omega))
        simp only [hlook, hm₁, Option.bind_eq_bind, Option.bind_some]
        exact step m₁ _ (collect?_walk _ _ _ _ hm₁).1 ((walk _ _).le.trans hlt.le)
          (fun hl => hkept ((covers_walk _ _).kept hl)) hbuilt.2

end

/-- A depth in which members are collected: along the walk no component is entered twice, and what
lies between two of them is part of one. -/
theorem collect?_isSome {enough largest : Nat} : ∀ depth raw m,
    (∀ {t b}, m.unvisited.lookup t = some b → b.count ≤ largest) →
    BuildsProperties components enough (walk m.unvisited raw).bodies →
    enough + m.unvisited.length * largest + raw.count ≤ depth →
    (collect? components depth raw m).isSome := by
  intro depth
  induction depth with
  | zero =>
    intro raw m _ _ hdepth
    have := raw.count_pos
    omega
  | succ depth ih =>
    intro raw m hsize hbuilt hdepth
    rw [walk_bodies, buildsProperties_append] at hbuilt
    have hlt := Json.countItems_items_lt raw "allOf"
    obtain ⟨m₁, hm₁⟩ := Option.isSome_iff_exists.1
      (visitMembers_isSome ih (raw.items "allOf") m hsize hbuilt.1 (by omega))
    have hpos := raw.count_pos
    have hown : (ownProperties components depth raw m₁.properties).isSome :=
      ownProperties_isSome_iff.2 (hbuilt.2.mono (by omega))
    obtain ⟨properties, hp⟩ := Option.isSome_iff_exists.1 hown
    rw [collect?_succ, hm₁, Option.bind_some, hp]
    rfl

/-! ### The bodies that a body enters -/

/-- To build `v` the body `w` is built: a property that members of `v` lead to, or its items. -/
def Enters (components : List (String × Json)) (v w : Json) : Prop :=
  v.getStr? "$ref" = none ∧
    ((∃ b, Relation.ReflTransGen (Extends components) v b ∧ ∃ key, (key, w) ∈ b.fields "properties") ∨
      itemsBody? v = some w)

theorem isSome_build?_succ {depth : Nat} {raw : Json} (h : raw.getStr? "$ref" = none) :
    Builds components (depth + 1) raw ↔
      (collect? components depth raw ⟨[], [], components⟩).isSome ∧
        ∀ w, itemsBody? raw = some w → Builds components depth w := by
  unfold Builds
  rw [build?_succ, h]
  cases collect? components depth raw ⟨[], [], components⟩ with
  | none => simp
  | some members =>
    cases itemsBody? raw with
    | none => simp
    | some v =>
      cases hv : build? components depth "" v <;> simp [hv]

theorem builds_of_reference {depth : Nat} {raw : Json} {reference : String}
    (h : raw.getStr? "$ref" = some reference) : Builds components (depth + 1) raw := by
  unfold Builds
  rw [build?_succ, h]
  rfl

/-- **What is entered is built** on the way to a built body. -/
theorem Builds.enters {depth : Nat} {v w : Json} (h : Builds components (depth + 1) v)
    (hw : Enters components v w) : Builds components depth w := by
  obtain ⟨hr, hw⟩ := hw
  obtain ⟨hcollect, hitems⟩ := (isSome_build?_succ hr).1 h
  rcases hw with ⟨b, hb, key, hkey⟩ | hw
  · obtain ⟨m', hm'⟩ := Option.isSome_iff_exists.1 hcollect
    exact (collect?_walk _ _ _ _ hm').2 b (mem_walk.2 hb) (key, w) hkey
  · exact hitems w hw

/-- **A body is built** if all that it enters is, with a depth for its own members added. -/
theorem builds_of_enters {enough largest : Nat} {v : Json}
    (hsize : ∀ {t b}, components.lookup t = some b → b.count ≤ largest)
    (h : ∀ w, Enters components v w → Builds components enough w) :
    Builds components (enough + components.length * largest + v.count + 1) v := by
  cases hr : v.getStr? "$ref" with
  | some reference => exact builds_of_reference hr
  | none =>
    refine (isSome_build?_succ hr).2 ⟨collect?_isSome _ v _ hsize ?_ le_rfl, fun w hw => ?_⟩
    · intro b hb p hp
      exact h p.2 ⟨hr, .inl ⟨b, mem_walk.1 hb, p.1, hp⟩⟩
    · exact (h w ⟨hr, .inr hw⟩).mono (by omega)

/-! ### Bodies that come back to themselves -/

/-- Building `v` leads to a body that is built again before it is finished. -/
def ComesBack (components : List (String × Json)) (v : Json) : Prop :=
  ∃ w, Relation.ReflTransGen (Enters components) v w ∧ Relation.TransGen (Enters components) w w

theorem ComesBack.of_enters {v w : Json} (h : ComesBack components w) (hw : Enters components v w) :
    ComesBack components v := by
  obtain ⟨x, hx, hc⟩ := h
  exact ⟨x, .head hw hx, hc⟩

/-- Along a chain of bodies the depth goes down, so that no body on it is met twice. -/
theorem Builds.of_reflTransGen {depth : Nat} {v w : Json} (h : Builds components depth v)
    (hw : Relation.ReflTransGen (Enters components) v w) : Builds components depth w := by
  induction hw with
  | refl => exact h
  | tail _ hstep ih =>
    cases depth with
    | zero => simp [Builds, build?] at ih
    | succ depth => exact (ih.enters hstep).mono (Nat.le_succ depth)

theorem not_builds_of_cycle {v : Json} (h : Relation.TransGen (Enters components) v v) (depth : Nat) :
    ¬ Builds components depth v := by
  induction depth with
  | zero => simp [Builds, build?]
  | succ depth ih =>
    intro hv
    obtain ⟨w, hw, hback⟩ := Relation.TransGen.head'_iff.1 h
    exact ih ((hv.enters hw).of_reflTransGen hback)

theorem Builds.not_comesBack {depth : Nat} {v : Json} (h : Builds components depth v) :
    ¬ ComesBack components v := by
  rintro ⟨w, hw, hc⟩
  exact not_builds_of_cycle hc depth (h.of_reflTransGen hw)

/-! ### A depth for the parts of a value -/

section

variable {whole : Json}

theorem Extends.mem_parts (hc : ∀ p ∈ components, p.2 ∈ whole.parts) {v w : Json}
    (h : Extends components v w) (hv : v ∈ whole.parts) : w ∈ whole.parts := by
  obtain ⟨member, hm, hw⟩ := h
  unfold memberBody? at hw
  split at hw
  · obtain rfl := Option.some.inj hw
    exact Json.parts_trans hv (Json.items_mem_parts hm)
  · exact hc _ (Keyed.mem_of_lookup hw)

theorem mem_parts_of_extends (hc : ∀ p ∈ components, p.2 ∈ whole.parts) {v w : Json}
    (h : Relation.ReflTransGen (Extends components) v w) (hv : v ∈ whole.parts) :
    w ∈ whole.parts := by
  induction h with
  | refl => exact hv
  | tail _ hstep ih => exact hstep.mem_parts hc ih

theorem Enters.mem_parts (hc : ∀ p ∈ components, p.2 ∈ whole.parts) {v w : Json}
    (h : Enters components v w) (hv : v ∈ whole.parts) : w ∈ whole.parts := by
  obtain ⟨-, ⟨b, hb, key, hkey⟩ | hw⟩ := h
  · exact Json.parts_trans (mem_parts_of_extends hc hb hv) (Json.fields_mem_parts hkey)
  · obtain ⟨hget, -⟩ := Option.filter_eq_some_iff.1 hw
    exact Json.parts_trans hv (Json.get?_mem_parts hget)

/-- How much depth each body takes that is entered below another one. -/
def levelBound (components : List (String × Json)) (whole : Json) : Nat :=
  components.length * whole.count + whole.count + 1

/-- The bodies `seen` above `v` differ, so there are no more of them than parts of the whole. -/
theorem builds_below (hc : ∀ p ∈ components, p.2 ∈ whole.parts) (n : Nat) :
    ∀ (seen : List Json) (v : Json), v ∈ whole.parts → seen.Nodup →
      (∀ s ∈ seen, s ∈ whole.parts ∧ Relation.TransGen (Enters components) s v) →
      ¬ ComesBack components v → whole.count ≤ n + seen.length →
      Builds components (n * levelBound components whole) v := by
  -- on how many bodies may still be new: those in `seen` are different parts of the whole
  induction n with
  | zero =>
    intro seen v hv hnodup hseen hback hn
    have hnew : v ∉ seen := fun h => hback ⟨v, .refl, (hseen v h).2⟩
    have := Json.length_le_count (List.nodup_cons.2 ⟨hnew, hnodup⟩)
      (List.forall_mem_cons.2 ⟨hv, fun s hs => (hseen s hs).1⟩)
    rw [List.length_cons] at this
    omega
  | succ n ih =>
    intro seen v hv hnodup hseen hback hn
    have hnew : v ∉ seen := fun h => hback ⟨v, .refl, (hseen v h).2⟩
    have hbuilt : ∀ w, Enters components v w →
        Builds components (n * levelBound components whole) w := by
      intro w hw
      refine ih (v :: seen) w (hw.mem_parts hc hv) (List.nodup_cons.2 ⟨hnew, hnodup⟩) ?_
        (fun h => hback (h.of_enters hw)) (by rw [List.length_cons]; omega)
      refine List.forall_mem_cons.2 ⟨⟨hv, .single hw⟩, fun s hs => ?_⟩
      exact ⟨(hseen s hs).1, (hseen s hs).2.tail hw⟩
    have hsize : ∀ {t b}, components.lookup t = some b → b.count ≤ whole.count :=
      fun hl => Json.count_le_of_mem_parts (hc _ (Keyed.mem_of_lookup hl))
    refine (builds_of_enters hsize hbuilt).mono ?_
    have := Json.count_le_of_mem_parts hv
    rw [Nat.succ_mul, levelBound]
    omega

/-- **A part of a value is built** unless it leads to a body that comes back to itself. -/
theorem builds_of_not_comesBack (hc : ∀ p ∈ components, p.2 ∈ whole.parts) {v : Json}
    (hv : v ∈ whole.parts) (h : ¬ ComesBack components v) :
    Builds components (whole.count * levelBound components whole) v :=
  builds_below hc whole.count [] v hv List.nodup_nil (by simp) h (by simp)

end

end Schema
end ApiScaffold
