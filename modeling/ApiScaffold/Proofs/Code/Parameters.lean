import ApiScaffold.Proofs.Code.GoType

/-!
# Lists of parameters

`Code.ParamList` is a list of parameters, with names or without, with its tokens and what it says.
`ParamList.params_segments_iff` says when what it says is read from the tokens.
-/

namespace ApiScaffold.Code

/-! ### Groups between commas -/

/-- Groups with tokens before the first of them. -/
def joinHead (ts : List Token) : List (List Token) → List (List Token)
  | [] => [ts]
  | group :: more => (ts ++ group) :: more

theorem joinHead_joinHead (xs ys : List Token) (gs : List (List Token)) :
    joinHead xs (joinHead ys gs) = joinHead (xs ++ ys) gs := by
  cases gs <;> simp [joinHead]

theorem groupsFrom_ne_nil (d : Int) (ts : List Token) : groupsFrom d ts ≠ [] := by
  unfold groupsFrom
  split
  · simp
  · split
    · simp
    · dsimp only
      split <;> simp

theorem joinHead_nil {gs : List (List Token)} (h : gs ≠ []) : joinHead [] gs = gs := by
  cases gs with
  | nil => exact absurd rfl h
  | cons g more => rfl

/-- How many brackets are open behind a token. -/
def depthBehind (d : Int) (t : Token) : Int :=
  if t = .mark '(' || t = .mark '[' || t = .mark '\x7b' then d + 1
  else if t = .mark ')' || t = .mark ']' || t = .mark '\x7d' then d - 1
  else d

theorem groupsFrom_comma (rest : List Token) :
    groupsFrom 0 (.mark ',' :: rest) = [] :: groupsFrom 0 rest := by
  simp [groupsFrom]

theorem groupsFrom_cons {d : Int} {t : Token} (h : t = .mark ',' → d ≠ 0) (rest : List Token) :
    groupsFrom d (t :: rest) = joinHead [t] (groupsFrom (depthBehind d t) rest) := by
  have hcond : ¬ (t = .mark ',' && d == 0) = true := by simpa using h
  rw [groupsFrom, if_neg hcond]
  dsimp only
  rw [← depthBehind]
  cases groupsFrom (depthBehind d t) rest <;> rfl

/-- Where `b` brackets are open, or more, the tokens go into one group and leave as many open. -/
def OneGroup (b : Int) (ts : List Token) : Prop :=
  ∀ d, b ≤ d → ∀ rest, groupsFrom d (ts ++ rest) = joinHead ts (groupsFrom d rest)

namespace OneGroup

theorem mono {b b' : Int} {ts : List Token} (h : OneGroup b ts) (hb : b ≤ b') : OneGroup b' ts :=
  fun d hd => h d (Int.le_trans hb hd)

theorem nil (b : Int) : OneGroup b [] := fun d _ rest =>
  (joinHead_nil (groupsFrom_ne_nil d rest)).symm

theorem append {b : Int} {xs ys : List Token} (hx : OneGroup b xs) (hy : OneGroup b ys) :
    OneGroup b (xs ++ ys) := by
  intro d hd rest
  rw [List.append_assoc, hx d hd, hy d hd, joinHead_joinHead]

theorem plain {t : Token} (hcomma : t ≠ .mark ',') (hdepth : ∀ d, depthBehind d t = d) (b : Int) :
    OneGroup b [t] := by
  intro d _ rest
  rw [List.singleton_append, groupsFrom_cons (fun e => absurd e hcomma), hdepth]

theorem ident (name : String) (b : Int) : OneGroup b [.ident name] :=
  plain (by simp) (by simp [depthBehind]) b

theorem literal (text : String) (b : Int) : OneGroup b [.literal text] :=
  plain (by simp) (by simp [depthBehind]) b

theorem ellipsis (b : Int) : OneGroup b [.ellipsis] := plain (by simp) (by simp [depthBehind]) b

theorem mark {c : Char} (h : c ∉ [',', '(', '[', '\x7b', ')', ']', '\x7d']) (b : Int) :
    OneGroup b [.mark c] := by
  simp only [List.mem_cons, List.not_mem_nil, or_false, not_or] at h
  exact plain (by simp [h]) (by simp [depthBehind, h]) b

theorem comma : OneGroup 1 [.mark ','] := by
  intro d hd rest
  rw [List.singleton_append, groupsFrom_cons (fun _ => by omega)]
  simp [depthBehind]

/-- Brackets allow what is in them to stand one deeper. -/
theorem bracket {b : Int} {inner : List Token} {o c : Char} (ho : ∀ d, depthBehind d (.mark o) = d + 1)
    (hc : ∀ d, depthBehind d (.mark c) = d - 1) (hco : o ≠ ',') (hcc : c ≠ ',')
    (h : OneGroup (b + 1) inner) : OneGroup b (.mark o :: (inner ++ [.mark c])) := by
  intro d hd rest
  rw [List.cons_append, groupsFrom_cons (by simp [hco]), ho, List.append_assoc, List.singleton_append,
    h (d + 1) (by omega), groupsFrom_cons (by simp [hcc]), hc, Int.add_sub_cancel, joinHead_joinHead,
    joinHead_joinHead]
  simp

theorem square {b : Int} {inner : List Token} (h : OneGroup (b + 1) inner) :
    OneGroup b (.mark '[' :: (inner ++ [.mark ']'])) :=
  h.bracket (by simp [depthBehind]) (by simp [depthBehind]) (by decide) (by decide)

end OneGroup

/-! ### A type is one group -/

theorem TypeName.oneGroup (n : TypeName) (b : Int) : OneGroup b n.tokens := by
  obtain ⟨_ | p, x⟩ := n
  · exact .ident _ b
  · have hmember := (OneGroup.mark (c := '.') (by decide) b).append (.ident x.text b)
    exact (OneGroup.ident _ b).append hmember

theorem Numeral.oneGroup (n : Numeral) (b : Int) : OneGroup b n.tokens := by
  obtain ⟨point, digits, exponent, marked⟩ := n
  have hpoint : OneGroup b (if point then [.mark '.'] else []) := by
    split
    · exact .mark (by decide) b
    · exact .nil b
  refine hpoint.append ((OneGroup.literal _ b).append ?_)
  cases exponent with
  | none => exact .nil b
  | some e =>
    have hsign : OneGroup b [.mark e.sign] := by
      unfold Exponent.sign
      split <;> exact .mark (by decide) b
    exact hsign.append (.literal _ b)

mutual

/-- A type has commas only between its arguments, in brackets. -/
theorem GoType.oneGroup : ∀ (t : GoType) {b : Int}, 0 ≤ b → OneGroup b t.tokens
  | .name n, b, _ => n.oneGroup b
  | .generic n args, b, h => (n.oneGroup b).append (args.oneGroup (by omega)).square
  | .pointer t, b, h => (OneGroup.mark (c := '*') (by decide) b).append (t.oneGroup h)
  | .slice t, b, h => (OneGroup.nil (b + 1)).square.append (t.oneGroup h)
  | .array n t, b, h => by
    have hsize := (n.oneGroup (b + 1)).square.append (t.oneGroup h)
    simpa [GoType.tokens] using hsize
  | .map k v, b, h => by
    have hopen : 0 ≤ b + 1 := by omega
    have hkey := (k.oneGroup hopen).square.append (v.oneGroup h)
    simpa [GoType.tokens] using (OneGroup.ident "map" b).append hkey
  | .interface, b, h => (OneGroup.ident "interface" b).append
      ((OneGroup.nil (b + 1)).bracket (o := '\x7b') (c := '\x7d') (by simp [depthBehind])
        (by simp [depthBehind]) (by decide) (by decide))

theorem TypeArgs.oneGroup : ∀ (args : TypeArgs) {b : Int}, 1 ≤ b → OneGroup b args.tokens
  | .last t, b, h => t.oneGroup (by omega)
  | .more t args, b, h =>
    (t.oneGroup (by omega)).append ((OneGroup.comma.mono h).append (args.oneGroup h))

end

theorem ParamType.oneGroup (p : ParamType) : OneGroup 0 p.tokens := by
  refine OneGroup.append ?_ (p.type.oneGroup (Int.le_refl 0))
  split
  · exact .ellipsis 0
  · exact .nil 0

theorem ParamType.tokens_ne_nil (p : ParamType) : p.tokens ≠ [] := by
  obtain ⟨_ | _, t⟩ := p
  · cases t with
    | name n => obtain ⟨_ | p, x⟩ := n <;> simp [tokens, GoType.tokens, TypeName.tokens]
    | generic n args => simp [tokens, GoType.tokens]
    | _ => simp [tokens, GoType.tokens]
  · simp [tokens]

/-! ### Lists -/

/-- Names that share a type. -/
structure NameGroup where
  before : List Identifier
  last : Identifier
  type : ParamType

def NameGroup.segments (g : NameGroup) : List (List Token) :=
  g.before.map (fun x => [.ident x.text]) ++ [.ident g.last.text :: g.type.tokens]

def NameGroup.params (g : NameGroup) : List Param :=
  (g.before ++ [g.last]).map fun x => ⟨x.text, g.type.text⟩

/-- The parameters of a function: types alone, or names with their types. -/
inductive ParamList where
  | unnamed (types : List ParamType)
  | named (groups : List NameGroup)

namespace ParamList

def segments : ParamList → List (List Token)
  | unnamed types => types.map ParamType.tokens
  | named groups => groups.flatMap NameGroup.segments

/-- What the list says: each name with its type, or each type with the number of its place. -/
def params : ParamList → List Param
  | unnamed types => types.mapIdx fun i p => ⟨argument i, p.text⟩
  | named groups => groups.flatMap NameGroup.params

end ParamList

/-- Segments with commas between them and, if there are any, perhaps one behind them. -/
def separated (trailing : Bool) : List (List Token) → List Token
  | [] => []
  | [s] => s ++ (if trailing then [.mark ','] else [])
  | s :: more => s ++ .mark ',' :: separated trailing more

theorem groupsFrom_segment {s : List Token} (h : OneGroup 0 s) (rest : List Token) :
    groupsFrom 0 (s ++ .mark ',' :: rest) = s :: groupsFrom 0 rest := by
  rw [h 0 (Int.le_refl 0), groupsFrom_comma, joinHead, List.append_nil]

/-- The groups of a list are what stands between its commas. -/
theorem groups_separated (trailing : Bool) {segments : List (List Token)}
    (hone : ∀ s ∈ segments, OneGroup 0 s) (hne : ∀ s ∈ segments, s ≠ []) :
    groups (separated trailing segments) = segments := by
  unfold groups
  fun_induction separated trailing segments with
  | case1 => simp [groupsFrom]
  | case2 s =>
    have hs : s ≠ [] := hne s (by simp)
    cases trailing with
    | false =>
      have h := hone s (by simp) 0 (Int.le_refl 0) []
      simp only [groupsFrom, joinHead, List.append_nil] at h
      simp [h, hs]
    | true =>
      have h := groupsFrom_segment (hone s (by simp)) []
      simp [h, groupsFrom, hs]
  | case3 s more _ ih =>
    have hs : s ≠ [] := hne s (by simp)
    rw [groupsFrom_segment (hone s (by simp)), List.filter_cons_of_pos (by simpa using hs),
      ih (fun s h => hone s (.tail _ h)) (fun s h => hne s (.tail _ h))]

/-- A property of types, names and names with a type is one of all segments. -/
theorem ParamList.forall_mem_segments {P : List Token → Prop} (htype : ∀ p : ParamType, P p.tokens)
    (hname : ∀ x : Identifier, P [.ident x.text])
    (hboth : ∀ (x : Identifier) (p : ParamType), P (.ident x.text :: p.tokens)) (l : ParamList) :
    ∀ s ∈ l.segments, P s := by
  intro s hs
  cases l with
  | unnamed types =>
    obtain ⟨p, -, rfl⟩ := List.mem_map.mp hs
    exact htype p
  | named groups =>
    obtain ⟨g, -, hs⟩ := List.mem_flatMap.mp hs
    rcases List.mem_append.mp hs with hs | hs
    · obtain ⟨x, -, rfl⟩ := List.mem_map.mp hs
      exact hname x
    · rw [List.mem_singleton.mp hs]
      exact hboth g.last g.type

theorem ParamList.groups_segments (l : ParamList) (trailing : Bool) :
    groups (separated trailing l.segments) = l.segments :=
  groups_separated trailing
    (l.forall_mem_segments ParamType.oneGroup (fun _ => .ident _ 0)
      fun _ p => (OneGroup.ident _ 0).append p.oneGroup)
    (l.forall_mem_segments ParamType.tokens_ne_nil (fun _ => List.cons_ne_nil _ _)
      fun _ _ => List.cons_ne_nil _ _)

/-! ### Which groups are taken for names -/

/-- A name is no type with something behind it that does not belong to the name. -/
theorem wholeType?_leftover (x : Identifier) {rest : List Token} (hend : EndsName rest)
    (hne : rest ≠ []) : wholeType? (.ident x.text :: rest) = none := by
  have hname (fuel : Nat) : type? fuel (.ident x.text :: rest) = instance? (fuel - 2) x.text rest :=
    type?_typeName ⟨none, x⟩ hend.1 fuel
  rw [wholeType?, hname, List.length_cons,
    show 3 * (rest.length + 1) + 3 - 2 = 3 * (rest.length + 1) + 1 from rfl, instance?_name hend.2]
  cases rest with
  | nil => exact absurd rfl hne
  | cons u rest => rfl

/-- Nor with a bracket behind it that no type stands in. -/
theorem wholeType?_bracket (x : Identifier) {ts : List Token} (h : ∀ fuel, type? fuel ts = none) :
    wholeType? (.ident x.text :: .mark '[' :: ts) = none := by
  have hname (fuel : Nat) : type? fuel (.ident x.text :: .mark '[' :: ts)
      = instance? (fuel - 2) x.text (.mark '[' :: ts) := type?_typeName ⟨none, x⟩ (by simp) fuel
  have hargs (fuel : Nat) : arguments? fuel ts = none := by
    by_contra hsome
    obtain ⟨r, hr⟩ := Option.ne_none_iff_exists'.mp hsome
    obtain ⟨t, rest, ht, -⟩ := arguments?_eq_some.mp hr
    rw [h] at ht
    cases ht
  rw [wholeType?, hname, instance?_bracket, hargs]
  rfl

theorem type?_closing (fuel : Nat) (ts : List Token) : type? fuel (.mark ']' :: ts) = none := by
  cases fuel <;> simp [type?]

theorem Numeral.type?_tokens (n : Numeral) (fuel : Nat) (rest : List Token) :
    type? fuel (n.tokens ++ rest) = none := by
  obtain ⟨_ | _, digits, exponent, marked⟩ := n <;> cases fuel <;> simp [Numeral.tokens, type?]

theorem isNamed_ident (x : Identifier) (rest : List Token) :
    isNamed (.ident x.text :: rest)
      = (!rest.isEmpty && (wholeType? (.ident x.text :: rest)).isNone) := by
  simp [isNamed, x.not_mem_typeWords]

theorem TypeName.endsName_tokens (n : TypeName) (rest : List Token) : EndsName (n.tokens ++ rest) := by
  obtain ⟨_ | p, x⟩ := n <;> simp [EndsName, TypeName.tokens]

/-- **A name with a type is no type**: either the type begins as no type argument does, or the name is
a type by itself and something is left. -/
theorem isNamed_name_type (x : Identifier) (p : ParamType) :
    isNamed (.ident x.text :: p.tokens) = true := by
  have hne := p.tokens_ne_nil
  have hnone : wholeType? (.ident x.text :: p.tokens) = none := by
    obtain ⟨_ | _, t⟩ := p
    · cases t with
      | slice t => exact wholeType?_bracket x fun fuel => type?_closing fuel t.tokens
      | array n t =>
        exact wholeType?_bracket x fun fuel => n.type?_tokens fuel (.mark ']' :: t.tokens)
      | name n =>
        have hend : EndsName n.tokens := List.append_nil n.tokens ▸ n.endsName_tokens []
        exact wholeType?_leftover x hend hne
      | generic n args => exact wholeType?_leftover x (n.endsName_tokens _) hne
      | _ => exact wholeType?_leftover x (by simp [EndsName, ParamType.tokens, GoType.tokens]) hne
    · exact wholeType?_leftover x (by simp [EndsName, ParamType.tokens]) hne
  rw [isNamed_ident, hnone, Option.isNone_none, Bool.and_true]
  simp [hne]

/-- A parameter without a name that is not taken for one with a name: if it is an instantiation, then
each number in its arguments is one token. -/
def ParamType.Readable (p : ParamType) : Prop :=
  p.variadic = false → ∀ n args, p.type = .generic n args → args.Plain

theorem GoType.arraySize?_tokens (t : GoType) (rest : List Token) :
    arraySize? (t.tokens ++ rest) = none := by
  cases t with
  | name n => obtain ⟨_ | p, x⟩ := n <;> rfl
  | generic n args => obtain ⟨_ | p, x⟩ := n <;> rfl
  | _ => rfl

theorem TypeArgs.arraySize?_tokens (args : TypeArgs) (rest : List Token) :
    arraySize? (args.tokens ++ rest) = none := by
  cases args with
  | last t => exact t.arraySize?_tokens rest
  | more t args =>
    rw [TypeArgs.tokens, List.append_assoc]
    exact t.arraySize?_tokens _

/-- An instantiation opens with a name; what is behind the name is no type. -/
theorem exists_tokens_generic (n : TypeName) (args : TypeArgs) :
    ∃ (x : Identifier) (rest : List Token), (GoType.generic n args).tokens = .ident x.text :: rest ∧
      rest ≠ [] ∧ EndsWord rest ∧ wholeType? rest = none := by
  obtain ⟨_ | p, x⟩ := n
  · refine ⟨x, .mark '[' :: (args.tokens ++ [.mark ']']), rfl, List.cons_ne_nil _ _,
      .mark _ _, ?_⟩
    rw [wholeType?, type?_bracket, args.arraySize?_tokens]
    rfl
  · exact ⟨p, _, rfl, List.cons_ne_nil _ _, .mark _ _, rfl⟩

theorem ParamType.exists_tokens_of_not_readable {p : ParamType} (h : ¬ p.Readable) :
    ∃ (x : Identifier) (rest : List Token), p.tokens = .ident x.text :: rest ∧ rest ≠ [] ∧
      EndsWord rest ∧ wholeType? rest = none := by
  simp only [ParamType.Readable, not_forall] at h
  obtain ⟨hvariadic, n, args, htype, -⟩ := h
  have htokens : p.tokens = (GoType.generic n args).tokens := by
    rw [ParamType.tokens, hvariadic, htype]
    rfl
  rw [htokens]
  exact exists_tokens_generic n args

/-- **A type is taken for a name with a type** exactly if it is not read as a type and opens with a
name. -/
theorem ParamType.isNamed_tokens_iff (p : ParamType) : isNamed p.tokens = true ↔ ¬ p.Readable := by
  obtain ⟨_ | _, t⟩ := p
  · cases t with
    | generic n args =>
      have hread : ParamType.Readable ⟨false, .generic n args⟩ ↔ args.Plain := by
        simp [ParamType.Readable]
      obtain ⟨x, rest, htokens, hne, -, -⟩ := exists_tokens_generic n args
      have heq : ParamType.tokens ⟨false, .generic n args⟩ = .ident x.text :: rest := htokens
      rw [hread, heq, isNamed_ident, ← heq]
      by_cases hplain : args.Plain
      · simp [wholeType?_tokens (p := ⟨false, .generic n args⟩) hplain, hplain]
      · simp [wholeType?_eq_none (p := ⟨false, .generic n args⟩) hplain, hplain, hne]
    | name n =>
      have hwhole := wholeType?_tokens (p := ⟨false, .name n⟩) trivial
      have hnamed : isNamed (ParamType.tokens ⟨false, .name n⟩) = false := by
        obtain ⟨_ | p, x⟩ := n
        · exact isNamed_ident x []
        · refine (isNamed_ident p _).trans ?_
          rw [show wholeType? (.ident p.text :: [.mark '.', .ident x.text]) = _ from hwhole]
          rfl
      simp [hnamed, ParamType.Readable]
    | _ => simp [ParamType.Readable, ParamType.tokens, GoType.tokens, isNamed, typeWords]
  · simp [ParamType.Readable, ParamType.tokens, isNamed]

/-! ### Lists with names -/

theorem namedParams_names (xs : List Identifier) (pending : List String) (params : List Param)
    (rest : List (List Token)) :
    namedParams pending params (xs.map (fun x => [.ident x.text]) ++ rest)
      = namedParams (pending ++ xs.map Identifier.text) params rest := by
  induction xs generalizing pending with
  | nil => simp
  | cons x xs ih =>
    rw [List.map_cons, List.cons_append, namedParams, ih, List.map_cons, List.append_assoc,
      List.singleton_append]

theorem namedParams_typed {name : String} {type : List Token} (h : type ≠ []) (pending : List String)
    (params : List Param) (rest : List (List Token)) :
    namedParams pending params ((.ident name :: type) :: rest)
      = namedParams [] (params ++ (pending ++ [name]).map (⟨·, typeText type⟩)) rest := by
  cases type with
  | nil => exact absurd rfl h
  | cons u type => rw [namedParams]; simp

theorem namedParams_group (g : NameGroup) (params : List Param) (rest : List (List Token)) :
    namedParams [] params (g.segments ++ rest) = namedParams [] (params ++ g.params) rest := by
  rw [NameGroup.segments, List.append_assoc, namedParams_names, List.singleton_append,
    namedParams_typed g.type.tokens_ne_nil, g.type.typeText_tokens]
  simp [NameGroup.params, Function.comp_def]

theorem namedParams_groups (groups : List NameGroup) (params : List Param) :
    namedParams [] params (groups.flatMap NameGroup.segments)
      = params ++ groups.flatMap NameGroup.params := by
  induction groups generalizing params with
  | nil => simp [namedParams]
  | cons g groups ih =>
    rw [List.flatMap_cons, namedParams_group, ih, List.append_assoc, List.flatMap_cons]

/-- A list with names is always read as what it says. -/
theorem params_named (groups : List NameGroup) (trailing : Bool) :
    Code.params (separated trailing (ParamList.named groups).segments)
      = (ParamList.named groups).params := by
  rw [Code.params, ParamList.groups_segments, ParamList.segments]
  cases groups with
  | nil => rfl
  | cons g groups =>
    have hany : ((g :: groups).flatMap NameGroup.segments).any isNamed = true := by
      refine List.any_eq_true.mpr ⟨_, ?_, isNamed_name_type g.last g.type⟩
      simp [NameGroup.segments]
    rw [if_pos hany, namedParams_groups, List.nil_append, ParamList.params]

/-! ### Lists without names -/

/-- A group gives one parameter, at once or when the type of its name comes, and what is gathered
stays in front. -/
theorem namedParams_step (pending : List String) (params : List Param) (g : List Token) :
    ∃ pending' params', params <+: params' ∧
      pending'.length + params'.length = pending.length + params.length + 1 ∧
      ∀ rest, namedParams pending params (g :: rest) = namedParams pending' params' rest := by
  match g with
  | [.ident name] =>
    refine ⟨pending ++ [name], params, List.prefix_rfl, ?_, fun rest => by rw [namedParams]⟩
    simp only [List.length_append, List.length_singleton]
    omega
  | .ident name :: u :: type =>
    refine ⟨[], _, List.prefix_append _ _, ?_,
      namedParams_typed (List.cons_ne_nil u type) pending params⟩
    simp only [List.length_append, List.length_map, List.length_singleton, List.length_nil]
    omega
  | [] | .literal _ :: _ | .mark _ :: _ | .ellipsis :: _ =>
    refine ⟨pending, _, List.prefix_append _ _, ?_, fun rest => by rw [namedParams] <;> simp⟩
    simp only [List.length_append, List.length_singleton]
    omega

theorem prefix_namedParams (gs : List (List Token)) (pending : List String) (params : List Param) :
    params <+: namedParams pending params gs := by
  induction gs generalizing pending params with
  | nil => exact List.prefix_append _ _
  | cons g gs ih =>
    obtain ⟨pending', params', hprefix, -, hstep⟩ := namedParams_step pending params g
    rw [hstep]
    exact hprefix.trans (ih pending' params')

/-- A group with a name and a type keeps its place. -/
theorem getElem?_namedParams (name : String) {type : List Token} (h : type ≠ [])
    (more gs : List (List Token)) (pending : List String) (params : List Param) :
    (namedParams pending params (gs ++ (.ident name :: type) :: more))[
      pending.length + params.length + gs.length]? = some ⟨name, typeText type⟩ := by
  induction gs generalizing pending params with
  | nil =>
    rw [List.nil_append, namedParams_typed h]
    obtain ⟨after, hafter⟩ := prefix_namedParams more []
      (params ++ (pending ++ [name]).map (Param.mk · (typeText type)))
    have hsplit : params ++ (pending ++ [name]).map (Param.mk · (typeText type)) ++ after
        = (params ++ pending.map (Param.mk · (typeText type)))
          ++ ⟨name, typeText type⟩ :: after := by
      simp
    have hplace : pending.length + params.length + ([] : List (List Token)).length
        = (params ++ pending.map (Param.mk · (typeText type))).length := by
      simp only [List.length_append, List.length_map, List.length_nil]
      omega
    rw [← hafter, hsplit, hplace, List.getElem?_append_right (Nat.le_refl _), Nat.sub_self,
      List.getElem?_cons_zero]
  | cons g gs ih =>
    obtain ⟨pending', params', -, hlength, hstep⟩ := namedParams_step pending params g
    rw [List.cons_append, hstep, List.length_cons, ← ih pending' params', hlength]
    congr 1
    omega

theorem length_tokenText_le (ts : List Token) :
    (tokenText ts).toList.length ≤ (spell false ts).length := by
  rw [tokenText, Text.dropWhileEnd, String.toList_ofList, String.toList_ofList, List.length_reverse]
  exact (List.dropWhile_suffix _).length_le.trans_eq (List.length_reverse ..)

/-- Taken for a name with a type, an instantiation loses its name from its text. -/
theorem typeText_ne_text {x : Identifier} {rest : List Token} {p : ParamType}
    (htokens : p.tokens = .ident x.text :: rest) (hend : EndsWord rest)
    (hnone : wholeType? rest = none) :
    typeText rest ≠ p.text := by
  have hspell : p.text.toList = x.text.toList ++ spell false rest := by
    rw [← p.spell_tokens, htokens, spell_ident, spell_of_endsWord hend]
  have hname : 0 < x.text.toList.length := by simp [Identifier.text]
  have hshort := length_tokenText_le rest
  intro htext
  rw [typeText, hnone, Option.getD_none] at htext
  rw [htext, hspell, List.length_append] at hshort
  omega

/-- A list without names is read as what it says, unless one of its types is taken for a name with a
type. -/
theorem params_unnamed_iff (types : List ParamType) (trailing : Bool) :
    Code.params (separated trailing (ParamList.unnamed types).segments)
        = (ParamList.unnamed types).params ↔ ∀ p ∈ types, p.Readable := by
  rw [Code.params, ParamList.groups_segments, ParamList.segments]
  constructor
  · intro hparams p hp
    by_contra hread
    -- the type that is taken for a name keeps its place and has lost its name from its text
    obtain ⟨before, after, rfl⟩ := List.append_of_mem hp
    have hany : ((before ++ p :: after).map ParamType.tokens).any isNamed = true :=
      List.any_eq_true.mpr ⟨_, List.mem_map_of_mem hp, p.isNamed_tokens_iff.mpr hread⟩
    obtain ⟨x, rest, htokens, hne, hend, hnone⟩ := ParamType.exists_tokens_of_not_readable hread
    have hplace := getElem?_namedParams x.text hne (after.map ParamType.tokens)
      (before.map ParamType.tokens) [] []
    have hsaid : (ParamList.unnamed (before ++ p :: after)).params[before.length]?
        = some ⟨argument before.length, p.text⟩ := by
      simp [ParamList.params]
    rw [← hparams, if_pos hany, List.map_append, List.map_cons, htokens] at hsaid
    simp only [List.length_nil, List.length_map, Nat.zero_add, hsaid, Option.some.injEq,
      Param.mk.injEq] at hplace
    exact typeText_ne_text htokens hend hnone hplace.2.symm
  · intro hread
    have hany : ¬ (types.map ParamType.tokens).any isNamed = true := by
      simp only [List.any_map, List.any_eq_true, not_exists, not_and]
      exact fun p hp h => p.isNamed_tokens_iff.mp h (hread p hp)
    rw [if_neg hany, ParamList.params]
    refine List.ext_getElem? fun i => ?_
    simp [Function.comp_def, ParamType.typeText_tokens]

namespace ParamList

/-- A list is read as what it says. -/
def Readable : ParamList → Prop
  | unnamed types => ∀ p ∈ types, p.Readable
  | named _ => True

theorem params_segments_iff (l : ParamList) (trailing : Bool) :
    Code.params (separated trailing l.segments) = l.params ↔ l.Readable := by
  cases l with
  | unnamed types => exact params_unnamed_iff types trailing
  | named groups => exact iff_of_true (params_named groups trailing) trivial

end ParamList

end ApiScaffold.Code
