import Mathlib.Data.List.Induction
import ApiScaffold.Path

/-!
# Components of a path

What joining, the parent and the file name of a path do to its components.  A path is its start
(`Path.lead`: the root, a dot, or nothing) and the names that follow (`Path.names`); the text between
slashes is taken apart and put together by `Text.pieces`.
-/

namespace ApiScaffold

namespace Text

theorem pieces_eq_splitOnP (p : Char → Bool) (s : List Char) : pieces p s = s.splitOnP p := by
  induction s with
  | nil => rfl
  | cons c rest ih =>
    rw [pieces, List.splitOnP_cons_eq_if_modifyHead, ← ih]
    split
    · rfl
    · cases hp : pieces p rest with
      | nil => exact absurd (ih.symm.trans hp) (List.splitOnP_ne_nil p rest)
      | cons piece more => rfl

theorem pieces_ne_nil (p : Char → Bool) (s : List Char) : pieces p s ≠ [] := by
  rw [pieces_eq_splitOnP]
  exact List.splitOnP_ne_nil p s

theorem pieces_of_forall {p : Char → Bool} {s : List Char} (h : ∀ c ∈ s, p c = false) :
    pieces p s = [s] := by
  rw [pieces_eq_splitOnP, List.splitOnP_eq_singleton h]

theorem pieces_append {p : Char → Bool} {c : Char} (hc : p c = true) (s t : List Char) :
    pieces p (s ++ c :: t) = pieces p s ++ pieces p t := by
  simp only [pieces_eq_splitOnP, List.splitOnP_append_cons s t hc]

theorem not_of_mem_pieces {p : Char → Bool} {s piece : List Char} (h : piece ∈ pieces p s) :
    ∀ c ∈ piece, p c = false := by
  rw [pieces_eq_splitOnP] at h
  induction s generalizing piece with
  | nil =>
    rw [List.mem_singleton.mp h]
    exact nofun
  | cons d rest ih =>
    rw [List.splitOnP_cons_eq_if_modifyHead] at h
    split at h
    · rcases List.mem_cons.mp h with rfl | h
      · exact nofun
      · exact ih h
    · rename_i hd
      obtain ⟨first, more, hp⟩ := List.exists_cons_of_ne_nil (List.splitOnP_ne_nil p rest)
      rw [hp, List.modifyHead_cons] at h
      rcases List.mem_cons.mp h with rfl | h
      · intro c hc
        rcases List.mem_cons.mp hc with rfl | hc
        · exact eq_false_of_ne_true hd
        · exact ih (hp ▸ List.mem_cons_self) c hc
      · exact ih (hp ▸ List.mem_cons_of_mem _ h)

theorem head?_pieces_append {p : Char → Bool} {s : List Char} (h : ∃ c ∈ s, p c = true)
    (t : List Char) : (pieces p (s ++ t)).head? = (pieces p s).head? := by
  obtain ⟨c, hc, hp⟩ := h
  obtain ⟨a, b, rfl⟩ := List.append_of_mem hc
  have head : ∀ more, (pieces p a ++ more).head? = (pieces p a).head? := by
    intro more
    cases ha : pieces p a with
    | nil => exact absurd ha (pieces_ne_nil p a)
    | cons first rest => rfl
  rw [List.append_assoc, List.cons_append, pieces_append hp, pieces_append hp, head, head]

end Text

namespace Path

/-- What the text between slashes stands for, behind the start of a path. -/
def segments (s : List Char) : List Component :=
  (Text.pieces (· == '/') s).filterMap fun name => segment? false (String.ofList name)

def names (p : Path) : List Component := segments p.text.toList

/-- Where a path starts: at the root, at a dot, or at its first name. -/
def lead (p : Path) : List Component :=
  if p.isAbsolute then [.root]
  else if (Text.pieces (· == '/') p.text.toList).head? = some ['.'] then [.current]
  else []

theorem segments_append (s t : List Char) : segments (s ++ '/' :: t) = segments s ++ segments t := by
  unfold segments
  rw [Text.pieces_append (by rfl), List.filterMap_append]

theorem segments_of_noSlash {s : List Char} (h : '/' ∉ s) :
    segments s = (segment? false (String.ofList s)).toList := by
  have hs : ∀ c ∈ s, (c == '/') = false := by
    intro c hc
    rw [beq_eq_false_iff_ne]
    rintro rfl
    exact h hc
  unfold segments
  rw [Text.pieces_of_forall hs, List.filterMap_cons, List.filterMap_nil]
  cases segment? false (String.ofList s) with
  | none => rfl
  | some c => rfl

theorem segments_nil : segments [] = [] := rfl

theorem segment?_true (name : String) :
    (segment? true name).toList
      = (if name = "." then [.current] else []) ++ (segment? false name).toList := by
  unfold segment?
  by_cases hempty : name = ""
  · subst hempty
    rfl
  · by_cases hdot : name = "."
    · subst hdot
      rfl
    · simp only [beq_eq_false_iff_ne.mpr hempty, beq_eq_false_iff_ne.mpr hdot, hdot, if_false,
        Bool.false_eq_true, List.nil_append]

theorem ofList_eq_dot {s : List Char} : String.ofList s = "." ↔ s = ['.'] := by
  constructor
  · intro h
    rw [← String.toList_ofList (l := s), h]
    rfl
  · rintro rfl
    rfl

/-- **The components of a path**: where it starts and the names behind. -/
theorem components_eq (p : Path) : p.components = p.lead ++ p.names := by
  have hmap : (Text.splitAt '/' p.text).filterMap (segment? false) = p.names := by
    rw [Text.splitAt, List.filterMap_map]
    rfl
  unfold components lead
  by_cases habs : p.isAbsolute = true
  · rw [if_pos habs, if_pos habs, ← hmap]
    rfl
  · rw [if_neg habs, if_neg habs, ← hmap]
    unfold Text.splitAt
    cases hp : Text.pieces (· == '/') p.text.toList with
    | nil => exact absurd hp (Text.pieces_ne_nil _ _)
    | cons first rest =>
      simp only [List.map_cons, segment?_true, List.filterMap_cons, List.head?_cons,
        Option.some.injEq, ofList_eq_dot]
      cases segment? false (String.ofList first) with
      | none => simp only [Option.toList_none, List.append_nil]
      | some c => simp only [Option.toList_some, List.append_assoc, List.singleton_append]

/-! ### Joining -/

theorem toList_ne_nil {p : Path} (h : p.text.isEmpty = false) : p.text.toList ≠ [] := by
  intro hnil
  have : p.text = "" := String.toList_eq_nil_iff.mp hnil
  rw [this] at h
  cases h

/-- Text behind a slash adds names and changes no start. -/
theorem components_slash (s t : List Char) :
    components ⟨String.ofList (s ++ '/' :: t)⟩
      = components ⟨String.ofList (s ++ ['/'])⟩ ++ segments t := by
  have hnames : names ⟨String.ofList (s ++ '/' :: t)⟩
      = names ⟨String.ofList (s ++ ['/'])⟩ ++ segments t := by
    unfold names
    rw [String.toList_ofList, String.toList_ofList, segments_append, segments_append, segments_nil,
      List.append_nil]
  have hlead : lead ⟨String.ofList (s ++ '/' :: t)⟩ = lead ⟨String.ofList (s ++ ['/'])⟩ := by
    have hpieces : (Text.pieces (· == '/') (s ++ '/' :: t)).head?
        = (Text.pieces (· == '/') (s ++ ['/'])).head? := by
      have := Text.head?_pieces_append (p := (· == '/')) (s := s ++ ['/']) ⟨'/', by simp, rfl⟩ t
      rw [List.append_assoc] at this
      exact this
    unfold lead isAbsolute
    rw [String.toList_ofList, String.toList_ofList, hpieces, List.head?_append, List.head?_append]
    rfl
  rw [components_eq, components_eq, hnames, hlead, List.append_assoc]

/-- A slash behind a path that is not empty says nothing. -/
theorem components_slash_nil {s : List Char} (hs : s ≠ []) :
    components ⟨String.ofList (s ++ ['/'])⟩ = components ⟨String.ofList s⟩ := by
  have hnames : names ⟨String.ofList (s ++ ['/'])⟩ = names ⟨String.ofList s⟩ := by
    unfold names
    rw [String.toList_ofList, String.toList_ofList, segments_append, segments_nil, List.append_nil]
  have hlead : lead ⟨String.ofList (s ++ ['/'])⟩ = lead ⟨String.ofList s⟩ := by
    unfold lead isAbsolute
    rw [String.toList_ofList, String.toList_ofList, Text.pieces_append (by rfl), List.head?_append,
      List.head?_append]
    obtain ⟨c, rest, hc⟩ := List.exists_cons_of_ne_nil hs
    obtain ⟨first, more, hfirst⟩ :=
      List.exists_cons_of_ne_nil (Text.pieces_ne_nil (· == '/') s)
    rw [hfirst, hc]
    rfl
  rw [components_eq, components_eq, hnames, hlead]

/-- **A path seen from another**: its names come behind. -/
theorem components_join {p q : Path} (hp : p.text.isEmpty = false) (hq : q.isAbsolute = false) :
    (p.join q).components = p.components ++ q.names := by
  have hne := toList_ne_nil hp
  unfold join
  rw [hq, hp, Bool.or_false, if_neg Bool.false_ne_true]
  by_cases hlast : p.text.toList.getLast? = some '/'
  · obtain ⟨a, ha⟩ : ∃ a, p.text.toList = a ++ ['/'] := List.getLast?_eq_some_iff.mp hlast
    have hp : p = ⟨String.ofList (a ++ ['/'])⟩ := by
      rw [← ha, String.ofList_toList]
    have htext : p.text ++ q.text = String.ofList (a ++ '/' :: q.text.toList) := by
      rw [← String.ofList_toList (s := p.text ++ q.text), String.toList_append, ha, List.append_assoc]
      rfl
    rw [if_pos (by rw [hlast]; rfl), htext, components_slash, ← hp]
    rfl
  · have htext : p.text ++ "/" ++ q.text = String.ofList (p.text.toList ++ '/' :: q.text.toList) := by
      rw [← String.ofList_toList (s := p.text ++ "/" ++ q.text), String.toList_append,
        String.toList_append, List.append_assoc]
      rfl
    rw [if_neg (by simpa using hlast), htext, components_slash, components_slash_nil hne,
      String.ofList_toList]
    rfl

theorem components_of_isEmpty {p : Path} (h : p.text.isEmpty = true) : p.components = [] := by
  have htext : p.text = "" := String.isEmpty_iff.mp h
  obtain ⟨text⟩ := p
  cases htext
  rfl

theorem join_of_isEmpty {p : Path} (h : p.text.isEmpty = true) (q : Path) : p.join q = q := by
  unfold join
  rw [h, Bool.or_true, if_pos rfl]

/-! ### Paths of given components -/

/-- A component that can stand behind the start of a path. -/
structure Component.IsSegment (c : Component) : Prop where
  read : segment? false c.text = some c
  noSlash : '/' ∉ c.text.toList

theorem isSegment_of_mem_segments {s : List Char} {c : Component} (h : c ∈ segments s) :
    c.IsSegment := by
  obtain ⟨piece, hpiece, hc⟩ := List.mem_filterMap.mp h
  have htext : c.text = String.ofList piece := by
    unfold segment? at hc
    split at hc
    · cases hc
    · split at hc
      · cases hc
      · split at hc
        · rename_i hparent
          cases hc
          exact (eq_of_beq hparent).symm
        · cases hc
          rfl
  refine ⟨by rw [htext]; exact hc, ?_⟩
  rw [htext, String.toList_ofList]
  intro hslash
  have := Text.not_of_mem_pieces hpiece '/' hslash
  cases this

theorem isSegment_of_mem_names {p : Path} {c : Component} (h : c ∈ p.names) : c.IsSegment :=
  isSegment_of_mem_segments h

theorem Component.IsSegment.segments_text {c : Component} (hc : c.IsSegment) :
    segments c.text.toList = [c] := by
  rw [segments_of_noSlash hc.noSlash, String.ofList_toList, hc.read]
  rfl

theorem Component.IsSegment.isAbsolute {c : Component} (hc : c.IsSegment) :
    isAbsolute ⟨c.text⟩ = false := by
  unfold Path.isAbsolute
  rw [beq_eq_false_iff_ne]
  intro hhead
  exact hc.noSlash (List.mem_of_mem_head? hhead)

theorem Component.IsSegment.components_text {c : Component} (hc : c.IsSegment) :
    components ⟨c.text⟩ = [c] := by
  have hlead : lead ⟨c.text⟩ = [] := by
    unfold lead
    rw [hc.isAbsolute, if_neg Bool.false_ne_true, Text.pieces_of_forall, List.head?_cons]
    · rw [if_neg]
      intro hdot
      rw [Option.some.injEq] at hdot
      have hread := hc.read
      rw [← String.ofList_toList (s := c.text), hdot] at hread
      cases hread
    · intro d hd
      rw [beq_eq_false_iff_ne]
      rintro rfl
      exact hc.noSlash hd
  rw [components_eq, hlead, List.nil_append, names, hc.segments_text]

/-- **A component that is joined to a path comes last.** -/
theorem components_joinText (p : Path) {c : Component} (hc : c.IsSegment) :
    (p.joinName c.text).components = p.components ++ [c] := by
  unfold joinName
  cases hp : p.text.isEmpty with
  | true => rw [join_of_isEmpty hp, components_of_isEmpty hp, hc.components_text, List.nil_append]
  | false => rw [components_join hp hc.isAbsolute, names, hc.segments_text]

theorem components_joinName (p : Path) {name : String} (hname : (Component.normal name).IsSegment) :
    (p.joinName name).components = p.components ++ [.normal name] :=
  p.components_joinText (c := .normal name) hname

/-- Whether a component can stand behind the start of a path; the root and the dot cannot. -/
def Component.isInner : Component → Bool
  | .root => false
  | .current => false
  | _ => true

theorem Component.IsSegment.isInner {c : Component} (hc : c.IsSegment) : c.isInner = true := by
  have hread := hc.read
  cases c with
  | root => cases hread
  | current => cases hread
  | parent => rfl
  | normal name => rfl

theorem names_eq_filter (p : Path) : p.names = p.components.filter (·.isInner) := by
  have hlead : p.lead.filter (·.isInner) = [] := by
    unfold lead
    split
    · rfl
    · split
      · rfl
      · rfl
  have hnames : p.names.filter (·.isInner) = p.names :=
    List.filter_eq_self.mpr fun c hc => (isSegment_of_mem_names hc).isInner
  rw [components_eq, List.filter_append, hlead, hnames, List.nil_append]

theorem isAbsolute_iff {p : Path} : p.isAbsolute = true ↔ .root ∈ p.components := by
  have hnames : Component.root ∉ p.names := fun h => nomatch (isSegment_of_mem_names h).isInner
  rw [components_eq, List.mem_append, or_iff_left hnames]
  unfold lead
  by_cases habs : p.isAbsolute = true
  · rw [if_pos habs]
    simp [habs]
  · rw [if_neg habs]
    split
    · simp [habs]
    · simp [habs]

/-- **Paths of the same components** have them also when they are seen from another. -/
theorem components_join_congr (base : Path) {p q : Path} (h : p.components = q.components) :
    (base.join p).components = (base.join q).components := by
  have habs : p.isAbsolute = q.isAbsolute := by
    rw [Bool.eq_iff_iff, isAbsolute_iff, isAbsolute_iff, h]
  cases hbase : base.text.isEmpty with
  | true => rw [join_of_isEmpty hbase, join_of_isEmpty hbase, h]
  | false =>
    cases hq : q.isAbsolute with
    | true =>
      unfold join
      rw [habs, hq, Bool.true_or, if_pos rfl, if_pos rfl, h]
    | false =>
      rw [components_join hbase (habs.trans hq), components_join hbase hq, names_eq_filter p, h,
        ← names_eq_filter]

/-- Components as a path has them: one start at most, then names. -/
def Lawful (cs : List Component) : Prop :=
  ∃ start rest, cs = start ++ rest ∧ (start = [] ∨ start = [.root] ∨ start = [.current])
    ∧ ∀ c ∈ rest, c.IsSegment

theorem lawful_components (p : Path) : Lawful p.components := by
  refine ⟨p.lead, p.names, p.components_eq, ?_, fun c hc => isSegment_of_mem_names hc⟩
  unfold lead
  split
  · exact Or.inr (Or.inl rfl)
  · split
    · exact Or.inr (Or.inr rfl)
    · exact Or.inl rfl

theorem isSegment_of_normal_mem {p : Path} {name : String} (h : .normal name ∈ p.components) :
    (Component.normal name).IsSegment := by
  obtain ⟨start, rest, hcs, hstart, hrest⟩ := p.lawful_components
  rw [hcs] at h
  rcases List.mem_append.mp h with hmem | hmem
  · rcases hstart with rfl | rfl | rfl
    · cases hmem
    · cases List.mem_singleton.mp hmem
    · cases List.mem_singleton.mp hmem
  · exact hrest _ hmem

/-- **The path of given components has them.** -/
theorem components_ofComponents {cs : List Component} (h : Lawful cs) :
    (ofComponents cs).components = cs := by
  obtain ⟨start, rest, rfl, hstart, hrest⟩ := h
  induction rest using List.reverseRecOn with
  | nil =>
    rcases hstart with rfl | rfl | rfl
    · rfl
    · rfl
    · rfl
  | append_singleton rest c ih =>
    have hc : c.IsSegment := hrest c (List.mem_append_right _ List.mem_cons_self)
    have ih := ih fun d hd => hrest d (List.mem_append_left _ hd)
    have hstep : ofComponents (start ++ (rest ++ [c])) = (ofComponents (start ++ rest)).joinName c.text := by
      unfold ofComponents
      rw [← List.append_assoc, List.foldl_append]
      rfl
    rw [hstep, components_joinText _ hc, ih, List.append_assoc]

/-! ### Parent and file name -/

theorem components_trimReversed (s : List Char) :
    components ⟨String.ofList (trimReversed s).reverse⟩ = components ⟨String.ofList s.reverse⟩ := by
  fun_induction trimReversed s with
  | case1 c rest ih =>
    rw [ih, List.reverse_cons (a := '/'), components_slash_nil (by simp)]
  | case2 rest ih =>
    rw [ih, List.reverse_cons (a := '.'), List.reverse_cons (a := '/'), List.append_assoc]
    show _ = components ⟨String.ofList (rest.reverse ++ '/' :: ['.'])⟩
    rw [components_slash _ ['.']]
    exact (List.append_nil _).symm
  | case3 s => rfl

/-- What is left of a text without slashes and dots at its end. -/
theorem trimReversed_cases (s : List Char) :
    trimReversed s = [] ∨ trimReversed s = ['/'] ∨
      ∃ name rest, trimReversed s = name ++ rest ∧ name ≠ [] ∧ '/' ∉ name
        ∧ (rest = [] ∨ ∃ more, rest = '/' :: more ∧ name ≠ ['.']) := by
  fun_induction trimReversed s with
  | case1 c rest ih => exact ih
  | case2 rest ih => exact ih
  | case3 s hslash hdot =>
    cases s with
    | nil => exact Or.inl rfl
    | cons c rest =>
      by_cases hc : c = '/'
      · subst hc
        cases rest with
        | nil => exact Or.inr (Or.inl rfl)
        | cons d more => exact absurd rfl (hslash d more)
      · refine Or.inr (Or.inr ⟨(c :: rest).takeWhile (· != '/'), (c :: rest).dropWhile (· != '/'),
          (List.takeWhile_append_dropWhile).symm, ?_, ?_, ?_⟩)
        · rw [List.takeWhile_cons_of_pos (by simpa using hc)]
          exact List.cons_ne_nil _ _
        · intro hmem
          have := List.all_eq_true.mp List.all_takeWhile '/' hmem
          cases this
        · cases hrest : (c :: rest).dropWhile (· != '/') with
          | nil => exact Or.inl rfl
          | cons d more =>
            have hd : d = '/' := by
              have := List.head?_dropWhile_not (· != '/') (c :: rest)
              rw [hrest] at this
              simpa using this
            refine Or.inr ⟨more, by rw [hd], ?_⟩
            -- a dot of its own before the slash would have been taken away
            intro hname
            have hwhole := List.takeWhile_append_dropWhile (p := (· != '/')) (l := c :: rest)
            rw [hname, hrest, hd] at hwhole
            exact hdot more hwhole.symm

theorem exists_isSegment {name : List Char} (hne : name ≠ []) (hslash : '/' ∉ name)
    (hdot : name ≠ ['.']) : ∃ c : Component, c.IsSegment ∧ c.text = String.ofList name := by
  have hempty : String.ofList name ≠ "" := by
    intro h
    apply hne
    rw [← String.toList_ofList (l := name), h]
    rfl
  have hdot : String.ofList name ≠ "." := fun h => hdot (ofList_eq_dot.mp h)
  by_cases hparent : String.ofList name = ".."
  · rw [hparent]
    exact ⟨.parent, ⟨rfl, by decide⟩, rfl⟩
  · refine ⟨.normal (String.ofList name), ⟨?_, ?_⟩, rfl⟩
    · unfold segment? Component.text
      rw [beq_eq_false_iff_ne.mpr hempty, beq_eq_false_iff_ne.mpr hdot,
        beq_eq_false_iff_ne.mpr hparent]
      rfl
    · show '/' ∉ (String.ofList name).toList
      rw [String.toList_ofList]
      exact hslash

theorem splitReversed?_eq {p : Path} {name rest : List Char}
    (h : trimReversed p.text.toList.reverse = name ++ rest) (hne : name ≠ []) (hslash : '/' ∉ name)
    (hrest : rest = [] ∨ ∃ more, rest = '/' :: more) :
    p.splitReversed? = some (name, trimReversed rest) := by
  have hname : (name ++ rest).takeWhile (· != '/') = name := by
    rw [List.takeWhile_append_of_pos]
    · rcases hrest with rfl | ⟨more, rfl⟩
      · exact List.append_nil _
      · exact List.append_nil _
    · intro c hc
      rw [bne_iff_ne]
      rintro rfl
      exact hslash hc
  unfold splitReversed?
  rw [h]
  split
  · rename_i hnil
    exact absurd (List.append_eq_nil_iff.mp hnil).1 hne
  · rename_i hlone
    obtain ⟨c, more, rfl⟩ := List.exists_cons_of_ne_nil hne
    rw [List.cons_append, List.cons.injEq] at hlone
    rw [hlone.1] at hslash
    exact absurd List.mem_cons_self hslash
  · simp only [hname, List.drop_left' rfl]

/-- **The last component and the rest**, as the text of a path is split at its end. -/
theorem splitReversed?_cases (p : Path) :
    (p.splitReversed? = none ∧ (p.components = [] ∨ p.components = [.root])) ∨
    (p.splitReversed? = some (['.'], []) ∧ p.components = [.current]) ∨
    ∃ (c : Component) (rest : List Char), c.IsSegment
      ∧ p.splitReversed? = some (c.text.toList.reverse, rest)
      ∧ p.components = components ⟨String.ofList rest.reverse⟩ ++ [c] := by
  have hp : p.components
      = components ⟨String.ofList (trimReversed p.text.toList.reverse).reverse⟩ := by
    rw [components_trimReversed, List.reverse_reverse, String.ofList_toList]
  rcases trimReversed_cases p.text.toList.reverse with h | h | ⟨name, rest, h, hne, hslash, hrest⟩
  · left
    rw [splitReversed?, hp, h]
    exact ⟨rfl, Or.inl rfl⟩
  · left
    rw [splitReversed?, hp, h]
    exact ⟨rfl, Or.inr rfl⟩
  · right
    have hsplit := splitReversed?_eq h hne hslash (by
      rcases hrest with rfl | ⟨more, rfl, -⟩
      · exact Or.inl rfl
      · exact Or.inr ⟨more, rfl⟩)
    have hsegment : name ≠ ['.'] →
        ∃ c : Component, c.IsSegment ∧ c.text = String.ofList name.reverse := by
      intro hdot
      refine exists_isSegment (by simpa using hne) (by simpa using hslash) ?_
      intro hrev
      exact hdot (by rw [← List.reverse_reverse name, hrev]; rfl)
    rw [hsplit]
    rcases hrest with rfl | ⟨more, rfl, hdot⟩
    -- a dot with nothing before it is where the path starts
    · by_cases hdot : name = ['.']
      · left
        rw [hp, h, hdot]
        exact ⟨rfl, rfl⟩
      · right
        obtain ⟨c, hc, htext⟩ := hsegment hdot
        refine ⟨c, [], hc, by rw [htext, String.toList_ofList, List.reverse_reverse]; rfl, ?_⟩
        rw [hp, h, List.append_nil, ← htext, hc.components_text]
        rfl
    · right
      obtain ⟨c, hc, htext⟩ := hsegment hdot
      refine ⟨c, trimReversed ('/' :: more), hc,
        by rw [htext, String.toList_ofList, List.reverse_reverse], ?_⟩
      rw [hp, h, components_trimReversed, List.reverse_append, List.reverse_cons (a := '/'),
        List.append_assoc, List.singleton_append, components_slash, ← String.toList_ofList
          (l := name.reverse), ← htext, hc.segments_text]

/-- The name that a component is. -/
def Component.name? : Component → Option String
  | .normal name => some name
  | _ => none

theorem fileName?_eq (p : Path) : p.fileName? = p.components.getLast?.bind Component.name? := by
  unfold fileName?
  rcases splitReversed?_cases p with ⟨hsplit, hp | hp⟩ | ⟨hsplit, hp⟩ | ⟨c, rest, hc, hsplit, hp⟩
  · rw [hsplit, hp]
    rfl
  · rw [hsplit, hp]
    rfl
  · rw [hsplit, hp]
    rfl
  · rw [hsplit, hp, List.getLast?_concat, Option.bind_some, Option.bind_some, List.reverse_reverse,
      String.ofList_toList]
    have hread := hc.read
    cases c with
    | root => cases hread
    | current => cases hread
    | parent => rfl
    | normal name =>
      have hname : name ≠ "." ∧ name ≠ ".." := by
        constructor
        · rintro rfl
          cases hread
        · rintro rfl
          cases hread
      show (if name == "." || name == ".." then none else some name) = some name
      rw [beq_eq_false_iff_ne.mpr hname.1, beq_eq_false_iff_ne.mpr hname.2]
      rfl

theorem slash_not_mem_fileName {p : Path} {name : String} (h : p.fileName? = some name) :
    '/' ∉ name.toList := by
  rcases splitReversed?_cases p with ⟨hsplit, -⟩ | ⟨hsplit, -⟩ | ⟨c, rest, hc, hsplit, -⟩
  · rw [fileName?, hsplit] at h
    cases h
  · rw [fileName?, hsplit] at h
    cases h
  · rw [fileName?, hsplit, Option.bind_some, List.reverse_reverse, String.ofList_toList] at h
    dsimp only at h
    split at h
    · cases h
    · cases h
      exact hc.noSlash

theorem mem_splitEnding {name : String} {c : Char} (h : c ∈ (splitEnding name).1.toList) :
    c ∈ name.toList := by
  unfold splitEnding at h
  dsimp only at h
  split at h
  · exact h
  · exact h
  · rename_i dot stem _ hdrop
    rw [String.toList_ofList, List.mem_reverse] at h
    have hmem := List.mem_of_mem_drop (hdrop ▸ List.mem_cons_of_mem dot h)
    exact List.mem_reverse.mp hmem

theorem slash_not_mem_stem (p : Path) : '/' ∉ (p.stem?.getD "").toList := by
  unfold stem?
  cases hname : p.fileName? with
  | none => exact List.not_mem_nil
  | some name => exact fun h => slash_not_mem_fileName hname (mem_splitEnding h)

theorem parent?_cases (p : Path) :
    (p.parent? = none ∧ (p.components = [] ∨ p.components = [.root])) ∨
    ∃ q c, p.parent? = some q ∧ p.components = q.components ++ [c] := by
  unfold parent?
  rcases splitReversed?_cases p with ⟨hsplit, hp⟩ | ⟨hsplit, hp⟩ | ⟨c, rest, -, hsplit, hp⟩
  · rw [hsplit]
    exact Or.inl ⟨rfl, hp⟩
  · rw [hsplit]
    exact Or.inr ⟨⟨""⟩, .current, rfl, hp⟩
  · rw [hsplit]
    exact Or.inr ⟨_, c, rfl, hp⟩

/-- **Nothing but the last component is lost** on the way to the parent. -/
theorem components_parent (p : Path) :
    (p.parent?.getD ⟨""⟩).components = p.components.dropLast := by
  rcases parent?_cases p with ⟨hnone, hp | hp⟩ | ⟨q, c, hq, hp⟩
  · rw [hnone, hp]
    rfl
  · rw [hnone, hp]
    rfl
  · rw [hq, hp, Option.getD_some, List.dropLast_concat]

end Path
end ApiScaffold
