import ApiScaffold.Proofs.Document.Nesting

/-!
# Entries and the files that they are taken from

A `Source` of an entry has a body, and it gives the entry exactly when that body is sound.  So lists
of entries, the parts of a document and the files that announce paths are resolved when all that is
taken from them is sound, and they want what their sources want.
-/

namespace ApiScaffold.Document

namespace Source

/-- The entry from a source, seen from the directory `base` of the root, and what it wants. -/
def bundle (d : Disk) (base : Path) : Source → Except Failure (Bundled Json)
  | .entry v => resolveEntry d base v
  | .file f => loadFile d f

/-- The body that an entry is made of: of a reference to a file what that selects. -/
def body? (d : Disk) (base : Path) : Source → Option Body
  | .entry v =>
    match fileReference? v with
    | some reference => (Target.ofReference base reference).body? d
    | none => some ⟨base, v⟩
  | .file f => Target.body? d ⟨f, ""⟩

/-- In how many files the body is: an entry that refers to no file is in the root itself. -/
def files : Source → Nat
  | .entry v => if (fileReference? v).isSome then 1 else 0
  | .file _ => 1

theorem files_le (s : Source) : s.files ≤ 1 := by
  cases s with
  | file f => exact Nat.le_refl 1
  | entry v =>
    show (if (fileReference? v).isSome then 1 else 0) ≤ 1
    split
    · exact Nat.le_refl 1
    · exact Nat.zero_le 1

/-- What a source needs to give its entry. -/
def Sound (d : Disk) (base : Path) (s : Source) : Prop :=
  ∃ b, s.body? d base = some b ∧ b.Sound d (nestingLimit - s.files)

/-- A component that the body of a source, or one nested in it, refers to. -/
def Wants (d : Disk) (base : Path) (s : Source) (w : Wanted) : Prop :=
  ∃ b n c, s.body? d base = some b ∧ Nests d n b c ∧ c.Asks w

variable {d : Disk} {base : Path} {s : Source}

theorem value?_eq : s.value? d base = Document.value? (s.bundle d base) := by
  cases s with
  | entry v => rfl
  | file f => rfl

theorem bundle_eq_ok_iff {out : Bundled Json} : s.bundle d base = .ok out
    ↔ ∃ b, s.body? d base = some b ∧ b.bundle d (nestingLimit - s.files) = .ok out := by
  cases s with
  | file f => exact loadTarget_eq_ok_iff
  | entry v =>
    cases href : fileReference? v with
    | some reference =>
      simp only [bundle, body?, files, resolveEntry, href]
      exact loadTarget_eq_ok_iff
    | none =>
      simp only [bundle, body?, files, resolveEntry, href]
      constructor
      · intro h
        exact ⟨⟨base, v⟩, rfl, h⟩
      · rintro ⟨b, hb, h⟩
        cases hb
        exact h

/-- **When a source gives its entry.** -/
theorem bundle_isOk_iff : (∃ out, s.bundle d base = .ok out) ↔ s.Sound d base := by
  constructor
  · rintro ⟨out, h⟩
    obtain ⟨b, hb, hbundle⟩ := bundle_eq_ok_iff.mp h
    exact ⟨b, hb, Document.bundle_isOk_iff.mp ⟨out, hbundle⟩⟩
  · rintro ⟨b, hb, hsound⟩
    obtain ⟨out, hout⟩ := Document.bundle_isOk_iff.mpr hsound
    exact ⟨out, bundle_eq_ok_iff.mpr ⟨b, hb, hout⟩⟩

theorem mem_bundle_iff {out : Bundled Json} (h : s.bundle d base = .ok out) {w : Wanted} :
    w ∈ out.2 ↔ s.Wants d base w := by
  obtain ⟨b, hb, hbundle⟩ := bundle_eq_ok_iff.mp h
  rw [Document.mem_bundle_iff hbundle]
  constructor
  · rintro ⟨n, c, hn, hc⟩
    exact ⟨b, n, c, hb, hn, hc⟩
  · rintro ⟨b', n, c, hb', hn, hc⟩
    cases hb.symm.trans hb'
    exact ⟨n, c, hn, hc⟩

end Source

section

variable {d : Disk} {base : Path}

/-! ### Entries -/

theorem resolveEntries_isOk_iff {entries : List (String × Json)} :
    (∃ out, resolveEntries d base entries = .ok out)
      ↔ ∀ p ∈ entries, (Source.entry p.2).Sound d base := by
  induction entries with
  | nil => exact ⟨fun _ => nofun, fun _ => ⟨_, rfl⟩⟩
  | cons p rest ih =>
    rw [List.forall_mem_cons, ← ih, ← Source.bundle_isOk_iff]
    constructor
    · rintro ⟨out, h⟩
      obtain ⟨v, hv, h⟩ := bind_eq_ok.mp h
      obtain ⟨more, hmore, -⟩ := bind_eq_ok.mp h
      exact ⟨⟨v, hv⟩, more, hmore⟩
    · rintro ⟨⟨v, hv⟩, more, hmore⟩
      exact ⟨_, bind_eq_ok.mpr ⟨v, hv, bind_eq_ok.mpr ⟨more, hmore, rfl⟩⟩⟩

theorem Resolves.mem_wanted_iff {entries : List (String × Json)}
    {out : Bundled (List (String × Json))} (h : Resolves d base entries out) {w : Wanted} :
    w ∈ out.2 ↔ ∃ p ∈ entries, (Source.entry p.2).Wants d base w := by
  induction h with
  | nil => exact ⟨nofun, fun ⟨p, hp, _⟩ => nomatch hp⟩
  | @cons key entry rest v out hv _ ih =>
    rw [List.mem_append, Source.mem_bundle_iff (s := .entry entry) hv, ih, List.exists_mem_cons_iff]

/-! ### Parts -/

theorem resolveParts_isOk_iff {parts : List (String × Json)} :
    (∃ out, resolveParts d base parts = .ok out)
      ↔ ∀ q ∈ parts, ∀ entries, q.2 = .obj entries →
          ∀ p ∈ entries, (Source.entry p.2).Sound d base := by
  induction parts with
  | nil => exact ⟨fun _ => nofun, fun _ => ⟨_, rfl⟩⟩
  | cons q rest ih =>
    obtain ⟨kind, v⟩ := q
    rw [List.forall_mem_cons, ← ih]
    cases hv : v.obj? with
    | some entries =>
      obtain rfl := eq_obj_of_obj? hv
      rw [resolveParts_obj]
      constructor
      · rintro ⟨out, h⟩
        obtain ⟨part, hpart, h⟩ := bind_eq_ok.mp h
        obtain ⟨more, hmore, -⟩ := bind_eq_ok.mp h
        refine ⟨fun entries' hentries => ?_, more, hmore⟩
        cases hentries
        exact resolveEntries_isOk_iff.mp ⟨part, hpart⟩
      · rintro ⟨hentries, more, hmore⟩
        obtain ⟨part, hpart⟩ := resolveEntries_isOk_iff.mpr (hentries entries rfl)
        exact ⟨_, bind_eq_ok.mpr ⟨part, hpart, bind_eq_ok.mpr ⟨more, hmore, rfl⟩⟩⟩
    | none =>
      -- a part that is no mapping is passed over, and has no entries
      rw [resolveParts_other hv]
      constructor
      · rintro ⟨out, h⟩
        obtain ⟨more, hmore, -⟩ := bind_eq_ok.mp h
        refine ⟨fun entries hentries => ?_, more, hmore⟩
        rw [show v = .obj entries from hentries] at hv
        cases hv
      · rintro ⟨-, more, hmore⟩
        exact ⟨_, bind_eq_ok.mpr ⟨more, hmore, rfl⟩⟩

theorem ResolvesParts.mem_wanted_iff {parts : List (String × Json)}
    {out : Bundled (List (String × Json))} (h : ResolvesParts d base parts out) {w : Wanted} :
    w ∈ out.2 ↔ ∃ q ∈ parts, ∃ entries, q.2 = .obj entries
      ∧ ∃ p ∈ entries, (Source.entry p.2).Wants d base w := by
  induction h with
  | nil => exact ⟨nofun, fun ⟨q, hq, _⟩ => nomatch hq⟩
  | cons hentries _ ih =>
    rw [List.mem_append, hentries.mem_wanted_iff, ih, List.exists_mem_cons_iff]
    refine or_congr_left ⟨fun h => ⟨_, rfl, h⟩, ?_⟩
    rintro ⟨entries', hobj, h⟩
    cases hobj
    exact h
  | @other kind v rest out hv _ ih =>
    rw [ih, List.exists_mem_cons_iff]
    refine ⟨.inr, fun h => h.resolve_left ?_⟩
    rintro ⟨entries, hobj, -⟩
    rw [show v = .obj entries from hobj] at hv
    cases hv

/-- A part is a mapping before its entries are resolved if it is one after that. -/
theorem ResolvesParts.part_isOk_iff {parts : List (String × Json)}
    {out : Bundled (List (String × Json))} (h : ResolvesParts d base parts out) (kind : String) :
    (∃ es, part out.1 kind = .ok es) ↔ ∃ es, part parts kind = .ok es := by
  unfold part
  induction h with
  | nil => rfl
  | @cons k entries rest part out _ _ ih =>
    rw [List.lookup_cons, List.lookup_cons]
    cases kind == k with
    | true => exact ⟨fun _ => ⟨entries, rfl⟩, fun _ => ⟨part.1, rfl⟩⟩
    | false => exact ih
  | @other k v rest out _ _ ih =>
    rw [List.lookup_cons, List.lookup_cons]
    cases kind == k with
    | true => rfl
    | false => exact ih

/-! ### Files that announce a path -/

/-- A file that announces no path, or one that is there, is not the first to announce another. -/
theorem announcer?_cons_of_skip {file : Path} {rest : List Path} {paths : List (String × Json)}
    (hskip : ∀ path, announced? d file = some path → (paths.lookup path).isSome) {path : String}
    (hpath : paths.lookup path = none) :
    announcer? d (file :: rest) path = announcer? d rest path := by
  have hfile : announced? d file ≠ some path := by
    intro h
    have := hskip path h
    rw [hpath] at this
    cases this
  rw [announcer?, List.find?_cons_of_neg (by simpa using hfile), announcer?]

/-- The paths that files announce and that are not there: `path` itself, then those of the rest. -/
theorem announcer?_cons_iff {file f : Path} {rest : List Path} {paths : List (String × Json)}
    {path : String} (hfile : announced? d file = some path) (hpath : paths.lookup path = none)
    (v : Json) :
    (∃ p, announcer? d (file :: rest) p = some f ∧ paths.lookup p = none)
      ↔ f = file ∨ ∃ p, announcer? d rest p = some f ∧ (Keyed.insert path v paths).lookup p = none := by
  have hself : announcer? d (file :: rest) path = some file := by
    rw [announcer?, List.find?_cons_of_pos (by simpa using hfile)]
  have hother : ∀ p, p ≠ path → announcer? d (file :: rest) p = announcer? d rest p := by
    intro p hp
    have hne : announced? d file ≠ some p := by
      rw [hfile]
      simpa using Ne.symm hp
    rw [announcer?, List.find?_cons_of_neg (by simpa using hne), announcer?]
  constructor
  · rintro ⟨p, hp, hnone⟩
    -- `file` takes `path` away from those behind it and has no part in other paths
    by_cases h : p = path
    · rw [h, hself] at hp
      cases hp
      exact .inl rfl
    · rw [hother p h] at hp
      exact .inr ⟨p, hp, by rw [Keyed.lookup_insert_of_ne h, hnone]⟩
  · rintro (rfl | ⟨p, hp, hnone⟩)
    · exact ⟨path, hself, hpath⟩
    · have h : p ≠ path := by
        rintro rfl
        rw [Keyed.lookup_insert_self] at hnone
        cases hnone
      rw [Keyed.lookup_insert_of_ne h] at hnone
      exact ⟨p, (hother p h).trans hp, hnone⟩

theorem Discovers.mem_wanted_iff {files : List Path} {paths : List (String × Json)}
    {out : Bundled (List (String × Json))} (h : Discovers d files paths out) {w : Wanted} :
    w ∈ out.2 ↔ ∃ f, (∃ path, announcer? d files path = some f ∧ paths.lookup path = none)
      ∧ (Source.file f).Wants d base w := by
  induction h with
  | nil => exact ⟨nofun, fun ⟨f, ⟨path, hf, _⟩, _⟩ => nomatch hf⟩
  | skip hskip _ ih =>
    rw [ih]
    refine exists_congr fun f => and_congr_left' (exists_congr fun path => and_congr_left ?_)
    intro hpath
    rw [announcer?_cons_of_skip hskip hpath]
  | @add file rest path paths item out hfile hpath hitem _ ih =>
    have hwants : w ∈ item.2 ↔ (Source.file file).Wants d base w :=
      Source.mem_bundle_iff (s := .file file) hitem
    simp only [List.mem_append, hwants, ih, announcer?_cons_iff hfile hpath item.1, or_and_right,
      exists_or, exists_eq_left]

theorem discover_of_skip {file : Path} {rest : List Path} {paths : List (String × Json)} {v : Json}
    (hread : read d file = .ok v)
    (hskip : ∀ path, announced? d file = some path → (paths.lookup path).isSome) :
    discover d (file :: rest) paths = discover d rest paths := by
  rw [discover, hread]
  have hannounced : announced? d file = v.getStr? "x-path" := by
    rw [announced?, hread]
    rfl
  rw [hannounced] at hskip
  dsimp only [bind, Except.bind]
  cases hpath : v.getStr? "x-path" with
  | none => rfl
  | some path => exact if_pos (hskip path hpath)

theorem discover_of_add {file : Path} {rest : List Path} {path : String}
    {paths : List (String × Json)} (hfile : announced? d file = some path)
    (hpath : paths.lookup path = none) : discover d (file :: rest) paths = (do
      let item ← loadFile d file
      let out ← discover d rest (Keyed.insert path item.1 paths)
      return (out.1, item.2 ++ out.2)) := by
  obtain ⟨v, hread, hv⟩ := Option.bind_eq_some_iff.mp hfile
  rw [discover, toOption_eq_some.mp hread]
  dsimp only [bind, Except.bind]
  rw [hv]
  exact if_neg (by rw [hpath]; exact Bool.false_ne_true)

variable (base) in
/-- The files are added when all of them can be read and those that announce a new path are sound. -/
theorem discover_isOk_iff {files : List Path} {paths : List (String × Json)} :
    (∃ out, discover d files paths = .ok out) ↔
      (∀ f ∈ files, ∃ v, read d f = .ok v) ∧
      ∀ f, (∃ path, announcer? d files path = some f ∧ paths.lookup path = none) →
        (Source.file f).Sound d base := by
  -- for all paths at once, as a file that adds one leaves more that are there
  induction files generalizing paths with
  | nil => exact ⟨fun _ => ⟨nofun, fun f ⟨path, hf, _⟩ => nomatch hf⟩, fun _ => ⟨_, rfl⟩⟩
  | cons file rest ih =>
    rw [List.forall_mem_cons]
    cases hread : read d file with
    | error e =>
      rw [discover, hread]
      constructor
      · rintro ⟨out, h⟩
        cases h
      · rintro ⟨⟨⟨v, h⟩, -⟩, -⟩
        cases h
    | ok v =>
      have hv : ∃ v', (Except.ok v : Except Failure Json) = .ok v' := ⟨v, rfl⟩
      by_cases hskip : ∀ path, announced? d file = some path → (paths.lookup path).isSome
      · rw [discover_of_skip hread hskip, ih, and_iff_right hv]
        refine and_congr_right' (forall_congr' fun f => ?_)
        refine imp_congr_left (exists_congr fun path => and_congr_left fun hpath => ?_)
        rw [announcer?_cons_of_skip hskip hpath]
      · obtain ⟨path, hskip⟩ := not_forall.mp hskip
        obtain ⟨hfile, hpath⟩ := Classical.not_imp.mp hskip
        rw [Option.not_isSome_iff_eq_none] at hpath
        rw [discover_of_add hfile hpath, and_iff_right hv]
        constructor
        · rintro ⟨out, h⟩
          obtain ⟨item, hitem, h⟩ := bind_eq_ok.mp h
          obtain ⟨more, hmore, -⟩ := bind_eq_ok.mp h
          obtain ⟨hfiles, hsound⟩ := ih.mp ⟨more, hmore⟩
          refine ⟨hfiles, fun f hf => ?_⟩
          rcases (announcer?_cons_iff hfile hpath item.1).mp hf with rfl | hf
          · exact Source.bundle_isOk_iff.mp ⟨item, hitem⟩
          · exact hsound f hf
        · rintro ⟨hfiles, hsound⟩
          obtain ⟨item, hitem⟩ := Source.bundle_isOk_iff.mpr
            (hsound file ((announcer?_cons_iff hfile hpath .null).mpr (.inl rfl)))
          have hrest : ∃ out, discover d rest (Keyed.insert path item.1 paths) = .ok out :=
            ih.mpr ⟨hfiles, fun f hf =>
              hsound f ((announcer?_cons_iff hfile hpath item.1).mpr (.inr hf))⟩
          obtain ⟨more, hmore⟩ := hrest
          exact ⟨_, bind_eq_ok.mpr ⟨item, hitem, bind_eq_ok.mpr ⟨more, hmore, rfl⟩⟩⟩

end

end ApiScaffold.Document
