import ApiScaffold.Proofs.Schema.Overlay

/-!
# Redirected members of `allOf`

`Schema.Redirected` puts another component in the place of one that members of `allOf` name, in any
number of places.  Where nothing is inherited of either, `Schema.Redirection`, all walks tell the same
as before (`Schema.Redirection.alike_walk`), so that every schema is built to the same
(`Schema.Redirection.exists_build?`).
-/

namespace ApiScaffold

theorem Keyed.lookup_of_without {α : Type} {key name : String} {value : α}
    {pairs : List (String × α)} (h : (without key pairs).lookup name = some value) :
    pairs.lookup name = some value := by
  rw [lookup_without] at h
  split at h
  · cases h
  · exact h

namespace Json

theorem get?_set_self {v w : Json} {key : String} (h : v.get? key = some w) (u : Json) :
    (v.set key u).get? key = some u := by
  cases v with
  | obj fields => exact Keyed.lookup_insert_self key u fields
  | _ => cases h

theorem get?_set_of_ne {key other : String} (h : other ≠ key) (v u : Json) :
    (v.set key u).get? other = v.get? other := by
  cases v with
  | obj fields => exact Keyed.lookup_insert_of_ne h u fields
  | _ => rfl

theorem items_of_get? {v : Json} {key : String} {items : List Json}
    (h : v.get? key = some (.arr items)) : v.items key = items := by
  unfold Json.items Json.getArr?
  rw [h]
  rfl

end Json

namespace Schema

/-- A member of `allOf` names a component. -/
def Names (member : Json) (component : String) : Prop :=
  ∃ reference, member.getStr? "$ref" = some reference ∧ Reference.target reference = component

mutual

/-- The same body, where members of `allOf` that named `a`, its own or those of inline members, may
name `f` instead. -/
inductive Redirected (a f : String) : Json → Json → Prop where
  | same (v : Json) : Redirected a f v v
  | members {v : Json} {members members' : List Json} (h : v.get? "allOf" = some (.arr members))
      (hmembers : RedirectedMembers a f members members') :
      Redirected a f v (v.set "allOf" (.arr members'))

inductive RedirectedMembers (a f : String) : List Json → List Json → Prop where
  | nil : RedirectedMembers a f [] []
  | kept (member : Json) {rest rest' : List Json} (h : RedirectedMembers a f rest rest') :
      RedirectedMembers a f (member :: rest) (member :: rest')
  | inline {member member' : Json} {rest rest' : List Json} (hinline : member.getStr? "$ref" = none)
      (hmember : Redirected a f member member') (h : RedirectedMembers a f rest rest') :
      RedirectedMembers a f (member :: rest) (member' :: rest')
  | moved {member member' : Json} {rest rest' : List Json} (ha : Names member a)
      (hf : Names member' f) (h : RedirectedMembers a f rest rest') :
      RedirectedMembers a f (member :: rest) (member' :: rest')

end

/-- The same components, with members of `allOf` redirected in any number of places. -/
def RedirectedAll (a f : String) (components components' : List (String × Json)) : Prop :=
  List.Forall₂ (fun p q => p.1 = q.1 ∧ Redirected a f p.2 q.2) components components'

/-- A body that declares nothing and requires nothing. -/
structure Blank (v : Json) : Prop where
  properties : v.fields "properties" = []
  required : ∀ p, Json.str p ∉ v.items "required"

/-- A body from which nothing is inherited. -/
def Barren (components : List (String × Json)) (v : Json) : Prop :=
  ∀ w, Relation.ReflTransGen (Extends components) v w → Blank w

def BarrenName (components : List (String × Json)) (name : String) : Prop :=
  ∀ v, components.lookup name = some v → Barren components v

/-! ### What stays the same -/

section

variable {a f : String} {v v' : Json}

theorem Redirected.get? (h : Redirected a f v v') {key : String} (hkey : key ≠ "allOf") :
    v'.get? key = v.get? key := by
  cases h with
  | same => rfl
  | members => exact Json.get?_set_of_ne hkey v _

theorem Redirected.hasKey (h : Redirected a f v v') (key : String) :
    v'.hasKey key = v.hasKey key := by
  by_cases hkey : key = "allOf"
  · subst hkey
    cases h with
    | same => rfl
    | members h _ => rw [Json.hasKey, Json.hasKey, Json.get?_set_self h, h]; rfl
  · rw [Json.hasKey, Json.hasKey, h.get? hkey]

theorem RedirectedMembers.refl (members : List Json) : RedirectedMembers a f members members := by
  induction members with
  | nil => exact .nil
  | cons member rest ih => exact .kept member ih

theorem Redirected.items (h : Redirected a f v v') :
    RedirectedMembers a f (v.items "allOf") (v'.items "allOf") := by
  cases h with
  | same => exact .refl _
  | members h hmembers =>
    rw [Json.items_of_get? h, Json.items_of_get? (Json.get?_set_self h _)]
    exact hmembers

theorem Redirected.getStr? (h : Redirected a f v v') {key : String} (hkey : key ≠ "allOf") :
    v'.getStr? key = v.getStr? key := by
  rw [Json.getStr?, Json.getStr?, h.get? hkey]

theorem Redirected.fields (h : Redirected a f v v') {key : String} (hkey : key ≠ "allOf") :
    v'.fields key = v.fields key := by
  rw [Json.fields, Json.fields, Json.getObj?, Json.getObj?, h.get? hkey]

theorem Redirected.itemsOf (h : Redirected a f v v') {key : String} (hkey : key ≠ "allOf") :
    v'.items key = v.items key := by
  rw [Json.items, Json.items, Json.getArr?, Json.getArr?, h.get? hkey]

theorem Redirected.schemaType (h : Redirected a f v v') : v'.schemaType = v.schemaType := by
  unfold Json.schemaType
  rw [h.get? (by decide), h.hasKey, h.hasKey]

theorem Redirected.properties (h : Redirected a f v v') :
    v'.fields "properties" = v.fields "properties" :=
  h.fields (by decide)

theorem Redirected.required (h : Redirected a f v v') :
    v'.items "required" = v.items "required" :=
  h.itemsOf (by decide)

theorem Redirected.blank_iff (h : Redirected a f v v') : Blank v' ↔ Blank v := by
  constructor
  · rintro ⟨hp, hr⟩
    exact ⟨h.properties ▸ hp, h.required ▸ hr⟩
  · rintro ⟨hp, hr⟩
    exact ⟨h.properties.trans hp, h.required.symm ▸ hr⟩

end

section

variable {a f : String} {components components' : List (String × Json)}

theorem RedirectedAll.lookup (h : RedirectedAll a f components components') (name : String) :
    Option.Rel (Redirected a f) (components.lookup name) (components'.lookup name) := by
  induction h with
  | nil => exact .none
  | cons hp _ ih =>
    obtain ⟨hkey, hvalue⟩ := hp
    rw [List.lookup_cons, List.lookup_cons, hkey]
    split
    · exact .some hvalue
    · exact ih

/-- How a member of `allOf` is redirected. -/
inductive MovesTo (a f : String) (member member' : Json) : Prop where
  | kept (h : member' = member)
  | inline (hinline : member.getStr? "$ref" = none) (h : Redirected a f member member')
  | moved (ha : Names member a) (hf : Names member' f)

theorem RedirectedMembers.forall₂ : ∀ {members members' : List Json},
    RedirectedMembers a f members members' → List.Forall₂ (MovesTo a f) members members'
  | _, _, .nil => .nil
  | _, _, .kept _ h => .cons (.kept rfl) h.forall₂
  | _, _, .inline hinline hmember h => .cons (.inline hinline hmember) h.forall₂
  | _, _, .moved ha hf h => .cons (.moved ha hf) h.forall₂

theorem memberBody?_of_names {member : Json} {name : String} (h : Names member name) :
    memberBody? components member = components.lookup name := by
  obtain ⟨reference, href, rfl⟩ := h
  unfold memberBody?
  rw [href]

theorem memberBody?_of_inline {member : Json} (h : member.getStr? "$ref" = none) :
    memberBody? components member = some member := by
  unfold memberBody?
  rw [h]

theorem MovesTo.bodies (hall : RedirectedAll a f components components') {member member' : Json}
    (h : MovesTo a f member member') :
    Option.Rel (Redirected a f) (memberBody? components member) (memberBody? components' member') ∨
      Names member a ∧ Names member' f := by
  cases h with
  | kept heq =>
    rw [heq]
    refine .inl ?_
    cases href : member.getStr? "$ref" with
    | none =>
      rw [memberBody?_of_inline href, memberBody?_of_inline href]
      exact .some (.same member)
    | some reference =>
      have hnames : Names member (Reference.target reference) := ⟨reference, href, rfl⟩
      rw [memberBody?_of_names hnames, memberBody?_of_names hnames]
      exact hall.lookup _
  | inline hinline h =>
    have hinline' : member'.getStr? "$ref" = none := (h.getStr? (by decide)).trans hinline
    rw [memberBody?_of_inline hinline, memberBody?_of_inline hinline']
    exact .inl (.some h)
  | moved ha hf => exact .inr ⟨ha, hf⟩

end

/-! ### Bodies from which nothing is inherited -/

/-- Members are redirected between names from which nothing is inherited. -/
structure Redirection (a f : String) (components components' : List (String × Json)) : Prop where
  all : RedirectedAll a f components components'
  source : BarrenName components a
  target : BarrenName components f

section

variable {a f : String} {components components' : List (String × Json)}

theorem Barren.extends {v w : Json} (h : Barren components v) (hstep : Extends components v w) :
    Barren components w :=
  fun x hx => h x (.head hstep hx)

theorem Barren.of_reflTransGen {v w : Json} (h : Barren components v)
    (hw : Relation.ReflTransGen (Extends components) v w) : Barren components w :=
  fun x hx => h x (hw.trans hx)

theorem barren_of_blank {v : Json} (h : Blank v) (hmembers : v.items "allOf" = []) :
    Barren components v := by
  intro w hw
  rcases Relation.ReflTransGen.cases_head hw with rfl | ⟨x, ⟨member, hmember, -⟩, -⟩
  · exact h
  · rw [hmembers] at hmember
    cases hmember

namespace Redirection

variable (r : Redirection a f components components')

include r

theorem exists_of_extends {v v' w' : Json} (h : Redirected a f v v') (hv : Barren components v)
    (hstep : Extends components' v' w') : ∃ w, Redirected a f w w' ∧ Barren components w := by
  obtain ⟨member', hmember', hw'⟩ := hstep
  obtain ⟨member, hmember, hmoves⟩ := exists_left_of_forall₂ h.items.forall₂ hmember'
  rcases hmoves.bodies r.all with hrel | ⟨-, hnames⟩
  · rw [hw'] at hrel
    generalize hw : memberBody? components member = body at hrel
    cases hrel with
    | some hbody => exact ⟨_, hbody, hv.extends ⟨member, hmember, hw⟩⟩
  · rw [memberBody?_of_names hnames] at hw'
    have hrel := r.all.lookup f
    rw [hw'] at hrel
    generalize hw : components.lookup f = body at hrel
    cases hrel with
    | some hbody => exact ⟨_, hbody, r.target _ hw⟩

theorem barren {v v' : Json} (h : Redirected a f v v') (hv : Barren components v) :
    Barren components' v' := by
  intro w' hw'
  have hbody : ∃ w, Redirected a f w w' ∧ Barren components w := by
    induction hw' with
    | refl => exact ⟨v, h, hv⟩
    | tail _ hstep ih =>
      obtain ⟨w, hredirected, hw⟩ := ih
      exact r.exists_of_extends hredirected hw hstep
  obtain ⟨w, hredirected, hw⟩ := hbody
  exact hredirected.blank_iff.mpr (hw w .refl)

/-- A step is made after redirecting as well, or it leads to where nothing is inherited. -/
theorem extends_cases {v v' w : Json} (h : Redirected a f v v') (hstep : Extends components v w) :
    Barren components w ∨ ∃ w', Extends components' v' w' ∧ Redirected a f w w' := by
  obtain ⟨member, hmember, hw⟩ := hstep
  obtain ⟨member', hmember', hmoves⟩ := exists_right_of_forall₂ h.items.forall₂ hmember
  rcases hmoves.bodies r.all with hrel | ⟨hnames, -⟩
  · rw [hw] at hrel
    generalize hw' : memberBody? components' member' = body at hrel
    cases hrel with
    | some hbody => exact .inr ⟨_, ⟨member', hmember', hw'⟩, hbody⟩
  · rw [memberBody?_of_names hnames] at hw
    exact .inl (r.source w hw)

theorem of_barren {v v' : Json} (h : Redirected a f v v') (hv : Barren components' v') :
    Barren components v := by
  intro w hw
  have hbody : Barren components w ∨ ∃ w', Relation.ReflTransGen (Extends components') v' w' ∧
      Redirected a f w w' := by
    induction hw with
    | refl => exact .inr ⟨v', .refl, h⟩
    | tail _ hstep ih =>
      rcases ih with hbarren | ⟨x', hx', hx⟩
      · exact .inl (hbarren.extends hstep)
      · refine (r.extends_cases hx hstep).imp_right fun ⟨w', hw', hredirected⟩ => ?_
        exact ⟨w', hx'.tail hw', hredirected⟩
  rcases hbody with hbarren | ⟨w', hw', hredirected⟩
  · exact hbarren w .refl
  · exact hredirected.blank_iff.mp (hv w' hw')

theorem barrenName_iff (name : String) :
    BarrenName components' name ↔ BarrenName components name := by
  have hrel := r.all.lookup name
  unfold BarrenName
  generalize components.lookup name = x at hrel
  generalize components'.lookup name = y at hrel
  cases hrel with
  | none => exact ⟨fun _ => nofun, fun _ => nofun⟩
  | some h =>
    simp only [Option.some.injEq, forall_eq']
    exact ⟨r.of_barren h, r.barren h⟩

end Redirection

end

/-! ### The walk -/

/-- The bodies declare and require nothing. -/
structure Silent (bodies : List Json) : Prop where
  declared : declared bodies = []
  required : requiredBy bodies = []

theorem silent_iff {bodies : List Json} : Silent bodies ↔ ∀ v ∈ bodies, Blank v := by
  constructor
  · rintro ⟨hdeclared, hrequired⟩ v hv
    refine ⟨List.flatMap_eq_nil_iff.mp hdeclared v hv, fun p hp => ?_⟩
    have hmem : p ∈ requiredBy bodies := mem_requiredBy.mpr ⟨v, hv, hp⟩
    rw [hrequired] at hmem
    cases hmem
  · intro h
    refine ⟨List.flatMap_eq_nil_iff.mpr fun v hv => (h v hv).properties, ?_⟩
    refine List.eq_nil_iff_forall_not_mem.mpr fun p hp => ?_
    obtain ⟨v, hv, hp⟩ := mem_requiredBy.mp hp
    exact (h v hv).required p hp

def Within (u components : List (String × Json)) : Prop :=
  ∀ {t b}, u.lookup t = some b → components.lookup t = some b

/-- A walk from where nothing is inherited tells nothing, and leaves all but such components. -/
theorem walk_of_barren {components u : List (String × Json)} (hu : Within u components) {v : Json}
    (hv : Barren components v) :
    Silent (walk u v).bodies ∧
      ∀ t, ¬BarrenName components t → (walk u v).left.lookup t = u.lookup t := by
  have hreached := reached_and_members.1 u v hu
  have hcovers := covers_walk u v
  refine ⟨silent_iff.mpr fun w hw => hv w (hreached w hw), fun t ht => ?_⟩
  cases hleft : (walk u v).left.lookup t with
  | some b => exact (hcovers.kept hleft).symm
  | none =>
    cases hlook : u.lookup t with
    | none => rfl
    | some b =>
      refine absurd (fun c hc => ?_) ht
      cases (hu hlook).symm.trans hc
      exact hv.of_reflTransGen (hreached b (hcovers.found hlook hleft))

section

variable {a f : String} {components components' : List (String × Json)}

/-- The same components are left, as far as something is inherited from them. -/
def Agree (a f : String) (components left left' : List (String × Json)) : Prop :=
  ∀ t, ¬BarrenName components t → Option.Rel (Redirected a f) (left.lookup t) (left'.lookup t)

/-- Two walks tell the same. -/
structure Alike (a f : String) (components : List (String × Json)) (bodies bodies' : List Json)
    (left left' : List (String × Json)) : Prop where
  declared : declared bodies' = declared bodies
  required : requiredBy bodies' = requiredBy bodies
  left : Agree a f components left left'

section

variable {first first' others others' : List Json} {u u' w w' : List (String × Json)}

theorem Alike.append (h : Alike a f components first first' u u')
    (h' : Alike a f components others others' w w') :
    Alike a f components (first ++ others) (first' ++ others') w w' where
  declared := by rw [declared_append, declared_append, h.declared, h'.declared]
  required := by rw [requiredBy_append, requiredBy_append, h.required, h'.required]
  left := h'.left

theorem Alike.silent_left (h : Alike a f components others others' w w') (hfirst : Silent first) :
    Alike a f components (first ++ others) others' w w' where
  declared := by rw [declared_append, hfirst.declared, h.declared]; rfl
  required := by rw [requiredBy_append, hfirst.required, h.required]; rfl
  left := h.left

theorem Alike.silent_right (h : Alike a f components others others' w w') (hfirst : Silent first') :
    Alike a f components others (first' ++ others') w w' where
  declared := by rw [declared_append, hfirst.declared, h.declared]; rfl
  required := by rw [requiredBy_append, hfirst.required, h.required]; rfl
  left := h.left

end

/-- The walk of a body tells the same as that of any body it is redirected to. -/
def AlikeBody (a f : String) (components components' u : List (String × Json)) (raw : Json) : Prop :=
  Within u components → ∀ u' raw', Within u' components' → Agree a f components u u' →
    Redirected a f raw raw' →
      Alike a f components (walk u raw).bodies (walk u' raw').bodies (walk u raw).left
        (walk u' raw').left

def AlikeMembers (a f : String) (components components' u : List (String × Json))
    (members : List Json) : Prop :=
  Within u components → ∀ members', List.Forall₂ (MovesTo a f) members members' →
    ∀ u', Within u' components' → Agree a f components u u' →
      Alike a f components (walkMembers u members).bodies (walkMembers u' members').bodies
        (walkMembers u members).left (walkMembers u' members').left

theorem alike_body {u : List (String × Json)} {raw : Json}
    (ih : AlikeMembers a f components components' u (raw.items "allOf")) :
    AlikeBody a f components components' u raw := by
  intro hu u' raw' hu' hagree h
  have hmembers := ih hu _ h.items.forall₂ u' hu' hagree
  rw [walk_bodies, walk_bodies, walk_left, walk_left]
  refine hmembers.append ⟨?_, ?_, hmembers.left⟩
  · rw [declared, declared, List.flatMap_singleton, List.flatMap_singleton, h.properties]
  · rw [requiredBy, requiredBy, List.flatMap_singleton, List.flatMap_singleton, h.required]

theorem alike_inline {u : List (String × Json)} {member : Json} {rest : List Json}
    (hinline : member.getStr? "$ref" = none) (ihp : AlikeBody a f components components' u member)
    (ihq : AlikeMembers a f components components' (walk u member).left rest) :
    AlikeMembers a f components components' u (member :: rest) := by
  intro hu members' h u' hu' hagree
  cases h with
  | cons hmoves htail =>
    rename_i member' rest'
    -- without a reference a member can only change in its own members
    have hredirected : Redirected a f member member' := by
      cases hmoves with
      | kept heq =>
        rw [heq]
        exact .same member
      | inline _ h => exact h
      | moved ha _ =>
        obtain ⟨reference, href, -⟩ := ha
        cases hinline.symm.trans href
    have hinline' : member'.getStr? "$ref" = none :=
      (hredirected.getStr? (by decide)).trans hinline
    obtain ⟨hbodies, hleft⟩ := walkMembers_inline u rest hinline
    obtain ⟨hbodies', hleft'⟩ := walkMembers_inline u' rest' hinline'
    have hfirst := ihp hu u' member' hu' hagree hredirected
    rw [hbodies, hleft, hbodies', hleft']
    exact hfirst.append (ihq (fun h => hu ((covers_walk u member).kept h)) rest' htail _
      (fun h => hu' ((covers_walk u' member').kept h)) hfirst.left)

theorem alike_nil (u : List (String × Json)) : AlikeMembers a f components components' u [] := by
  intro hu members' h u' hu' hagree
  cases h
  rw [walkMembers_nil, walkMembers_nil]
  exact ⟨rfl, rfl, hagree⟩

/-- A component of which nothing is inherited may be entered or not. -/
theorem walkMembers_of_barren {components u : List (String × Json)} (hu : Within u components)
    {member : Json} {name : String} (hnames : Names member name)
    (hbarren : BarrenName components name) (rest : List Json) :
    ∃ first left, Silent first ∧ Within left u ∧
      (∀ t, ¬BarrenName components t → left.lookup t = u.lookup t) ∧
      (walkMembers u (member :: rest)).bodies = first ++ (walkMembers left rest).bodies ∧
      (walkMembers u (member :: rest)).left = (walkMembers left rest).left := by
  obtain ⟨reference, href, rfl⟩ := hnames
  cases hlook : u.lookup (Reference.target reference) with
  | none =>
    rw [walkMembers_seen rest href hlook]
    exact ⟨[], u, ⟨rfl, rfl⟩, fun h => h, fun _ _ => rfl, rfl, rfl⟩
  | some base =>
    obtain ⟨hsilent, hleft⟩ := walk_of_barren (fun h => hu (Keyed.lookup_of_without h))
      (hbarren base (hu hlook))
    obtain ⟨hbodies, hlast⟩ := walkMembers_entered rest href hlook
    refine ⟨_, _, hsilent, fun h => Keyed.lookup_of_without ((covers_walk _ base).kept h),
      fun t ht => ?_, hbodies, hlast⟩
    rw [hleft t ht, Keyed.lookup_without, if_neg]
    rintro rfl
    exact ht hbarren

namespace Redirection

variable (r : Redirection a f components components')

include r

/-- A redirected member names the same component, or nothing is inherited of either. -/
theorem moves_cases {member member' : Json} {reference : String}
    (href : member.getStr? "$ref" = some reference) (h : MovesTo a f member member') :
    (¬BarrenName components (Reference.target reference) ∧ member' = member) ∨
      (BarrenName components (Reference.target reference) ∧
        ∃ name, Names member' name ∧ BarrenName components name) := by
  cases h with
  | kept heq =>
    by_cases hbarren : BarrenName components (Reference.target reference)
    · exact .inr ⟨hbarren, _, heq ▸ ⟨reference, href, rfl⟩, hbarren⟩
    · exact .inl ⟨hbarren, heq⟩
  | inline hinline _ => cases href.symm.trans hinline
  | moved ha hf =>
    obtain ⟨reference', href', rfl⟩ := ha
    cases href.symm.trans href'
    exact .inr ⟨r.source, f, hf, r.target⟩

/-- On the right a component of which nothing is inherited may be passed over. -/
theorem alike_of_barren {u u' : List (String × Json)} {rest rest' : List Json} {member' : Json}
    {name : String} (hrest : AlikeMembers a f components components' u rest)
    (hu : Within u components) (htail : List.Forall₂ (MovesTo a f) rest rest')
    (hu' : Within u' components') (hagree : Agree a f components u u') (hnames : Names member' name)
    (hbarren : BarrenName components name) :
    Alike a f components (walkMembers u rest).bodies (walkMembers u' (member' :: rest')).bodies
      (walkMembers u rest).left (walkMembers u' (member' :: rest')).left := by
  obtain ⟨first, left, hsilent, hkept, hleft, hbodies, hlast⟩ :=
    walkMembers_of_barren hu' hnames ((r.barrenName_iff name).mpr hbarren) rest'
  rw [hbodies, hlast]
  refine Alike.silent_right (hrest hu rest' htail left (fun h => hu' (hkept h)) fun t ht => ?_) hsilent
  rw [hleft t (mt (r.barrenName_iff t).mp ht)]
  exact hagree t ht

/-- What has been entered before is not entered again on either side. -/
theorem alike_seen {u : List (String × Json)} {member : Json} {rest : List Json} {reference : String}
    (href : member.getStr? "$ref" = some reference)
    (hlook : u.lookup (Reference.target reference) = none)
    (ih : AlikeMembers a f components components' u rest) :
    AlikeMembers a f components components' u (member :: rest) := by
  intro hu members' h u' hu' hagree
  cases h with
  | cons hmoves htail =>
    rename_i member' rest'
    rw [walkMembers_seen rest href hlook]
    rcases r.moves_cases href hmoves with ⟨hbarren, rfl⟩ | ⟨-, name, hnames, hbarren⟩
    · have hlook' := hagree _ hbarren
      rw [hlook] at hlook'
      generalize hx : u'.lookup (Reference.target reference) = x at hlook'
      cases hlook'
      rw [walkMembers_seen rest' href hx]
      exact ih hu rest' htail u' hu' hagree
    · exact r.alike_of_barren ih hu htail hu' hagree hnames hbarren

/-- A component is entered on both sides, or nothing is inherited of it. -/
theorem alike_entered {u : List (String × Json)} {member base : Json} {rest : List Json}
    {reference : String} (href : member.getStr? "$ref" = some reference)
    (hlook : u.lookup (Reference.target reference) = some base)
    (ihp : AlikeBody a f components components' (Keyed.without (Reference.target reference) u) base)
    (ihq : AlikeMembers a f components components'
      (walk (Keyed.without (Reference.target reference) u) base).left rest) :
    AlikeMembers a f components components' u (member :: rest) := by
  intro hu members' h u' hu' hagree
  have hagree' : Agree a f components (Keyed.without (Reference.target reference) u)
      (Keyed.without (Reference.target reference) u') := by
    intro t ht
    rw [Keyed.lookup_without, Keyed.lookup_without]
    split
    · exact .none
    · exact hagree t ht
  have hleft : Within (walk (Keyed.without (Reference.target reference) u) base).left components :=
    fun h => hu (Keyed.lookup_of_without ((covers_walk _ base).kept h))
  cases h with
  | cons hmoves htail =>
    rename_i member' rest'
    obtain ⟨hbodies, hlast⟩ := walkMembers_entered rest href hlook
    rw [hbodies, hlast]
    rcases r.moves_cases href hmoves with ⟨hbarren, rfl⟩ | ⟨hgone, name, hnames, hbarren⟩
    · have hlook' := hagree _ hbarren
      rw [hlook] at hlook'
      generalize hx : u'.lookup (Reference.target reference) = x at hlook'
      cases hlook' with
      | some hbase =>
        obtain ⟨hbodies', hlast'⟩ := walkMembers_entered rest' href hx
        have hfirst := ihp (fun h => hu (Keyed.lookup_of_without h)) _ _
          (fun h => hu' (Keyed.lookup_of_without h)) hagree' hbase
        rw [hbodies', hlast']
        exact hfirst.append (ihq hleft rest' htail _
          (fun h => hu' (Keyed.lookup_of_without ((covers_walk _ _).kept h))) hfirst.left)
    · -- nothing is inherited of the component that is entered
      obtain ⟨hsilent, hsame⟩ := walk_of_barren (fun h => hu (Keyed.lookup_of_without h))
        (hgone base (hu hlook))
      refine Alike.silent_left ?_ hsilent
      refine r.alike_of_barren ihq hleft htail hu' (fun t ht => ?_) hnames hbarren
      rw [hsame t ht, Keyed.lookup_without, if_neg]
      · exact hagree t ht
      · rintro rfl
        exact ht hgone

/-- **Redirected walks tell the same**, body by body and member by member. -/
theorem alike_walk_and_members :
    (∀ u raw, AlikeBody a f components components' u raw) ∧
      ∀ u members, AlikeMembers a f components components' u members := by
  refine walk_ind ?body ?nil ?inline ?seen ?entered
  case body => exact fun _ _ ih => alike_body ih
  case nil => exact alike_nil
  case inline => exact fun _ _ _ hinline ihp ihq => alike_inline hinline ihp ihq
  case seen => exact fun _ _ _ _ href hlook ih => r.alike_seen href hlook ih
  case entered => exact fun _ _ _ _ _ href hlook ihp ihq => r.alike_entered href hlook ihp ihq

/-- **What redirected bodies declare and require is the same.** -/
theorem alike_walk {raw raw' : Json} (h : Redirected a f raw raw') :
    declared (walk components' raw').bodies = declared (walk components raw).bodies ∧
      requiredBy (walk components' raw').bodies = requiredBy (walk components raw).bodies := by
  have halike := r.alike_walk_and_members.1 components raw (fun h => h) components' raw' (fun h => h)
    (fun t _ => r.all.lookup t) h
  exact ⟨halike.declared, halike.required⟩

end Redirection

end

/-! ### Redirected schemas -/

/-- Finitely many bodies are built to one depth. -/
theorem exists_builds_of_forall {components : List (String × Json)} {bodies : List Json}
    (h : ∀ v ∈ bodies, ∃ depth, Builds components depth v) :
    ∃ depth, ∀ v ∈ bodies, Builds components depth v := by
  induction bodies with
  | nil => exact ⟨0, nofun⟩
  | cons v rest ih =>
    obtain ⟨depth, hv⟩ := h v List.mem_cons_self
    obtain ⟨depth', hrest⟩ := ih fun w hw => h w (List.mem_cons_of_mem _ hw)
    exact ⟨max depth depth', List.forall_mem_cons.mpr ⟨hv.mono (Nat.le_max_left _ _),
      fun w hw => (hrest w hw).mono (Nat.le_max_right _ _)⟩⟩

/-- A body is built if its items and all properties on its walk are. -/
theorem exists_build?_of_parts {components : List (String × Json)} {raw : Json} (name : String)
    (hfields : ∀ p ∈ declared (walk components raw).bodies, ∃ depth, Builds components depth p.2)
    (hitems : ∀ w, itemsBody? raw = some w → ∃ depth, Builds components depth w) :
    ∃ depth s, build? components (depth + 1) name raw = some s := by
  have hparts : ∀ w ∈ (itemsBody? raw).toList
      ++ (declared (walk components raw).bodies).map Prod.snd,
      ∃ depth, Builds components depth w := by
    simp only [List.mem_append, Option.mem_toList, List.mem_map]
    rintro w (hw | ⟨p, hp, rfl⟩)
    · exact hitems w hw
    · exact hfields p hp
  obtain ⟨enough, henough⟩ := exists_builds_of_forall hparts
  have hsize : ∀ {t b}, components.lookup t = some b → b.count ≤ (Json.obj components).count :=
    fun h => (Json.count_field_lt (Keyed.mem_of_lookup h)).le
  have hbuilds := builds_of_enters hsize fun w (hw : Enters components raw w) => by
    refine henough w (List.mem_append.mpr ?_)
    rcases hw.2 with ⟨b, hb, key, hkey⟩ | hw
    · exact .inr (List.mem_map.mpr ⟨(key, w), mem_declared_walk.mpr ⟨b, hb, hkey⟩, rfl⟩)
    · exact .inl (Option.mem_toList.mpr hw)
  obtain ⟨s, hs⟩ := Option.isSome_iff_exists.1 ((builds_iff name).1 hbuilds)
  exact ⟨_, s, hs⟩

section

variable {a f : String} {components components' : List (String × Json)}

theorem declare?_unique {depth depth' : Nat} {fields : List (String × Json)}
    {known out out' : List (String × Schema)}
    (hfields : ∀ p ∈ fields, ∀ t t', build? components depth p.1 p.2 = some t →
      build? components' depth' p.1 p.2 = some t' → t' = t)
    (h : fields.foldlM (declare? components depth) known = some out)
    (h' : fields.foldlM (declare? components' depth') known = some out') : out' = out := by
  induction fields generalizing known with
  | nil =>
    cases h
    cases h'
    rfl
  | cons p rest ih =>
    rw [List.foldlM_cons] at h h'
    obtain ⟨mid, hmid, hrest⟩ := Option.bind_eq_some_iff.1 h
    obtain ⟨mid', hmid', hrest'⟩ := Option.bind_eq_some_iff.1 h'
    obtain ⟨t, ht, rfl⟩ := Option.map_eq_some_iff.1 hmid
    obtain ⟨t', ht', rfl⟩ := Option.map_eq_some_iff.1 hmid'
    rw [hfields p List.mem_cons_self t t' ht ht'] at hrest'
    exact ih (fun q hq => hfields q (List.mem_cons_of_mem _ hq)) hrest hrest'

theorem items_unique {depth depth' : Nat} {name : String} {body? : Option Json}
    {items items' : Option Schema}
    (hbody : ∀ {key w t t'}, build? components depth key w = some t →
      build? components' depth' key w = some t' → t' = t) :
    (match body? with
      | some v => (build? components depth name v).map some
      | none => some none) = some items →
    (match body? with
      | some v => (build? components' depth' name v).map some
      | none => some none) = some items' → items' = items := by
  intro h h'
  cases body? with
  | none =>
    cases h
    cases h'
    rfl
  | some v =>
    obtain ⟨t, ht, rfl⟩ := Option.map_eq_some_iff.mp h
    obtain ⟨t', ht', rfl⟩ := Option.map_eq_some_iff.mp h'
    rw [hbody ht ht']

theorem Redirected.itemsBody? {v v' : Json} (h : Redirected a f v v') :
    Schema.itemsBody? v' = Schema.itemsBody? v := by
  unfold Schema.itemsBody?
  rw [h.get? (by decide)]

theorem Redirected.choices {v v' : Json} (h : Redirected a f v v') : v'.choices = v.choices := by
  unfold Json.choices
  rw [h.itemsOf (by decide)]

/-- What a body without a reference is built to: members, items and its own texts. -/
theorem build?_eq_some_iff {depth : Nat} {name : String} {raw : Json} {s : Schema}
    (href : raw.getStr? "$ref" = none) :
    build? components (depth + 1) name raw = some s ↔
      ∃ members items, collect? components depth raw ⟨[], [], components⟩ = some members ∧
        (match itemsBody? raw with
          | some v => (build? components depth name v).map some
          | none => some none) = some items ∧
        s = {
          name, items
          type := raw.schemaType.1
          format := raw.getStr? "format"
          description := raw.getStr? "description"
          properties := members.properties
          required := members.required
          choices := raw.choices
          nullable := raw.schemaType.2 || ((raw.get? "nullable").bind Json.bool?).getD false } := by
  rw [build?_succ, href]
  constructor
  · intro h
    obtain ⟨members, hmembers, h⟩ := Option.bind_eq_some_iff.1 h
    obtain ⟨items, hitems, h⟩ := Option.bind_eq_some_iff.1 h
    exact ⟨members, items, hmembers, hitems, (Option.some.inj h).symm⟩
  · rintro ⟨members, items, hmembers, hitems, rfl⟩
    exact Option.bind_eq_some_iff.2 ⟨members, hmembers,
      Option.bind_eq_some_iff.2 ⟨items, hitems, rfl⟩⟩

namespace Redirection

variable (r : Redirection a f components components')

include r

theorem pointer_eq {v v' : Json} (h : Redirected a f v v') (name reference : String) :
    pointer components' name reference v' = pointer components name reference v := by
  have hrel := r.all.lookup (Reference.target reference)
  unfold pointer
  dsimp only
  rw [h.getStr? (by decide)]
  generalize components.lookup (Reference.target reference) = x at hrel
  generalize components'.lookup (Reference.target reference) = y at hrel
  cases hrel with
  | none => rfl
  | some hbody =>
    simp only [Option.bind_some, hbody.schemaType]
    rw [hbody.getStr? (by decide)]

/-- The walk of a redirected body ends where the properties and the items are built. -/
theorem exists_build?_succ {depth : Nat} {name : String} {v v' : Json} {s : Schema}
    (h : Redirected a f v v') (href : v.getStr? "$ref" = none)
    (hs : build? components (depth + 1) name v = some s)
    (hparts : ∀ {key w t}, build? components depth key w = some t →
      ∃ depth', build? components' depth' key w = some t) :
    ∃ depth' s', build? components' (depth' + 1) name v' = some s' := by
  obtain ⟨hproperties, -⟩ := collected_of_build? href hs
  obtain ⟨members, items, -, hitems, -⟩ := (build?_eq_some_iff href).mp hs
  refine exists_build?_of_parts name (fun p hp => ?_) fun w hw => ?_
  · rw [(r.alike_walk h).1] at hp
    obtain ⟨t, ht⟩ := built_of_declare? hproperties p hp
    obtain ⟨depth', ht'⟩ := hparts ht
    exact ⟨depth', (builds_iff p.1).mpr (Option.isSome_of_eq_some ht')⟩
  · rw [h.itemsBody?] at hw
    rw [hw] at hitems
    obtain ⟨t, ht, -⟩ := Option.map_eq_some_iff.mp hitems
    obtain ⟨depth', ht'⟩ := hparts ht
    exact ⟨depth', (builds_iff name).mpr (Option.isSome_of_eq_some ht')⟩

/-- It is built to the same, since its properties and its items are. -/
theorem build?_unique_of_parts {depth depth' : Nat} {name : String} {v v' : Json} {s s' : Schema}
    (h : Redirected a f v v') (href : v.getStr? "$ref" = none)
    (hs : build? components (depth + 1) name v = some s)
    (hs' : build? components' (depth' + 1) name v' = some s')
    (hparts : ∀ {key w t t'}, build? components depth key w = some t →
      build? components' depth' key w = some t' → t' = t) : s' = s := by
  have href' : v'.getStr? "$ref" = none := (h.getStr? (by decide)).trans href
  obtain ⟨hdeclared, hrequired⟩ := r.alike_walk h
  obtain ⟨hproperties, hrequires⟩ := collected_of_build? href hs
  obtain ⟨hproperties', hrequires'⟩ := collected_of_build? href' hs'
  obtain ⟨members, items, -, hitems, rfl⟩ := (build?_eq_some_iff href).mp hs
  obtain ⟨members', items', -, hitems', rfl⟩ := (build?_eq_some_iff href').mp hs'
  rw [hdeclared] at hproperties'
  rw [hrequired, ← hrequires] at hrequires'
  have hputs : members'.properties = members.properties :=
    declare?_unique (fun _ _ _ _ => hparts) hproperties hproperties'
  have hitem : items' = items := by
    rw [h.itemsBody?] at hitems'
    exact items_unique hparts hitems hitems'
  rw [hputs, hitem, show members'.required = members.required from hrequires', h.schemaType,
    h.getStr? (by decide), h.getStr? (by decide), h.get? (by decide), h.choices]

/-- **A redirected schema is built to the same.** -/
theorem exists_build? {depth : Nat} : ∀ {name : String} {v v' : Json} {s : Schema},
    Redirected a f v v' → build? components depth name v = some s →
    ∃ depth', build? components' depth' name v' = some s := by
  induction depth with
  | zero =>
    intro name v v' s h hs
    simp [build?] at hs
  | succ depth ih =>
    intro name v v' s h hs
    have href : v'.getStr? "$ref" = v.getStr? "$ref" := h.getStr? (by decide)
    cases hr : v.getStr? "$ref" with
    | some reference =>
      rw [build?_succ, hr] at hs
      cases hs
      refine ⟨1, ?_⟩
      rw [build?_succ, href, hr]
      exact congrArg some (r.pointer_eq h name reference)
    | none =>
      -- the properties and the items are not redirected themselves
      have hpart : ∀ {key w t}, build? components depth key w = some t →
          ∃ depth', build? components' depth' key w = some t := fun ht => ih (.same _) ht
      obtain ⟨depth', s', hs'⟩ := r.exists_build?_succ h hr hs hpart
      have hsame := r.build?_unique_of_parts h hr hs hs' fun ht ht' => by
        obtain ⟨_, hsome⟩ := hpart ht
        exact build?_unique ht' hsome
      exact ⟨depth' + 1, hsame ▸ hs'⟩

end Redirection

end

end Schema
end ApiScaffold
