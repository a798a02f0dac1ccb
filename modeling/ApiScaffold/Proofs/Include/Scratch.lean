import Mathlib.Data.List.Nodup
import ApiScaffold.Proofs.Disk.Listing
import ApiScaffold.Proofs.Disk.Tree
import ApiScaffold.Proofs.Document.Copy
import ApiScaffold.Proofs.Include.Merge

/-!
# The copy of a tree

A merge copies the directory of the primary to a new one, places the files of fragments there and
writes the merged root.  Every file of the primary but its root is found there under its own names.
-/

namespace ApiScaffold.Include

open ApiScaffold.Path (Component)
open Disk (Leads Opens Extends Carries)

/-! ### The directory of the copy -/

def scratchDirectory (n : Nat) : String := s!"specgen-merge-{n}"

theorem toList_scratchName (n : Nat) :
    (scratchName n).text.toList
      = '/' :: ("tmp".toList ++ '/' :: ("specgen-merge-".toList ++ Nat.toDigits 10 n)) := by
  show (toString "/tmp/specgen-merge-" ++ toString n).toList = _
  rw [String.toList_append, Nat.toString_eq_repr, Nat.toList_repr]
  rfl

theorem toList_scratchDirectory (n : Nat) :
    (scratchDirectory n).toList = "specgen-merge-".toList ++ Nat.toDigits 10 n := by
  show (toString "specgen-merge-" ++ toString n).toList = _
  rw [String.toList_append, Nat.toString_eq_repr, Nat.toList_repr]
  rfl

theorem slash_not_mem_scratchDirectory (n : Nat) : '/' ∉ (scratchDirectory n).toList := by
  rw [toList_scratchDirectory, List.mem_append]
  rintro (h | h)
  · revert h
    decide
  · have := Nat.isDigit_of_mem_toDigits (by decide) (by decide) h
    revert this
    decide

theorem isSegment_scratchDirectory (n : Nat) : (Component.normal (scratchDirectory n)).IsSegment := by
  refine ⟨?_, slash_not_mem_scratchDirectory n⟩
  have hhead : (scratchDirectory n).toList.head? = some 's' := by
    rw [toList_scratchDirectory]
    rfl
  have hne : ∀ text : String, text.toList.head? ≠ some 's' → (scratchDirectory n == text) = false := by
    intro text htext
    rw [beq_eq_false_iff_ne]
    rintro rfl
    exact htext hhead
  show Path.segment? false (scratchDirectory n) = _
  unfold Path.segment?
  rw [hne "" (by decide), hne "." (by decide), hne ".." (by decide)]
  rfl

theorem components_scratchName (n : Nat) :
    (scratchName n).components = .root :: ["tmp", scratchDirectory n].map .normal := by
  have habs : (scratchName n).isAbsolute = true := by
    unfold Path.isAbsolute
    rw [toList_scratchName]
    rfl
  have hlast : Path.segments ("specgen-merge-".toList ++ Nat.toDigits 10 n)
      = [.normal (scratchDirectory n)] := by
    rw [← toList_scratchDirectory]
    exact (isSegment_scratchDirectory n).segments_text
  rw [Path.components_eq, Path.lead, if_pos habs, Path.names, toList_scratchName,
    ← List.nil_append ('/' :: _), Path.segments_append, Path.segments_append, hlast]
  rfl

theorem kindNamed?_scratchDirectory (n : Nat) : Document.kindNamed? (scratchDirectory n) = none := by
  unfold Document.kindNamed?
  rw [List.find?_eq_none]
  intro kind hkind hsame
  have hdash : '-' ∈ (Text.toLowerAscii kind).toList := by
    rw [beq_iff_eq.mp hsame, Text.toLowerAscii, String.toList_map, toList_scratchDirectory]
    exact List.mem_map.mpr ⟨'-', List.mem_append_left _ (by decide), rfl⟩
  rw [Text.toLowerAscii, String.toList_map] at hdash
  have hall : ∀ kind ∈ Document.kinds, '-' ∉ kind.toList.map Char.toLower := by decide
  exact hall kind hkind hdash

def scratchPlace (n : Nat) : Location := ["tmp", scratchDirectory n]

theorem locate_of_absolute {d : Disk} {p : Path} {names : List String}
    (hp : p.components = .root :: names.map .normal) {l : Location} :
    d.locate p = .ok l ↔ d.node? d.start = some .directory ∧ Opens d [] names ∧ l = names
      ∧ ((∃ bytes, d.node? l = some (.file bytes)) → Disk.asksDirectory p = false) := by
  have hempty : p.text.isEmpty = false := by
    cases htext : p.text.isEmpty with
    | false => rfl
    | true =>
      rw [Path.components_of_isEmpty htext] at hp
      cases hp
  rw [Disk.locate_eq_ok, hp, List.foldlM_cons, bind_eq_ok]
  constructor
  · rintro ⟨-, ⟨l₁, hstep, hfold⟩, hasks⟩
    obtain ⟨hstart, rfl⟩ := Disk.step_eq_ok.mp hstep
    obtain ⟨hopens, rfl⟩ := Disk.foldlM_step_names.mp hfold
    exact ⟨hstart, hopens, rfl, hasks⟩
  · rintro ⟨hstart, hopens, rfl, hasks⟩
    exact ⟨hempty, ⟨[], Disk.step_eq_ok.mpr ⟨hstart, rfl⟩,
      Disk.foldlM_step_names.mpr ⟨hopens, rfl⟩⟩, hasks⟩

theorem exists_freshScratch (d : Disk) : ∃ n, freshScratch d = scratchName n := ⟨_, rfl⟩

/-- Where a directory for a copy is looked up. -/
theorem locate_scratchName {d : Disk} {n : Nat} {l : Location}
    (h : d.locate (scratchName n) = .ok l) : Opens d [] (scratchPlace n) ∧ l = scratchPlace n := by
  obtain ⟨-, hopens, hl, -⟩ := (locate_of_absolute (components_scratchName n)).mp h
  exact ⟨hopens, hl⟩

theorem scratchPlace_injective : Function.Injective scratchPlace := by
  intro n n' h
  have hname : (scratchDirectory n).toList = (scratchDirectory n').toList := by
    unfold scratchPlace at h
    rw [List.cons.injEq, List.cons.injEq] at h
    rw [h.2.1]
  rw [toList_scratchDirectory, toList_scratchDirectory] at hname
  have hvalue := congrArg (Nat.ofDigitChars 10 · 0) (List.append_cancel_left hname)
  simpa only [Nat.ofDigitChars_ten_toDigits] using hvalue

/-- **A copy goes to a directory that is not there yet**: the disk cannot have all of them. -/
theorem exist_freshScratch (d : Disk) : d.exist (freshScratch d) = false := by
  cases htaken : (List.range (d.nodes.length + 1)).find? fun n => !d.exist (scratchName n) with
  | some n =>
    have hn := List.find?_some htaken
    unfold freshScratch
    rw [htaken]
    simpa using hn
  | none =>
    have hall := List.find?_eq_none.mp htaken
    have hsub : (List.range (d.nodes.length + 1)).map scratchPlace ⊆ d.nodes.map (·.1) := by
      intro l hl
      obtain ⟨n, hn, rfl⟩ := List.mem_map.mp hl
      have hexist : d.exist (scratchName n) = true := by simpa using hall n hn
      obtain ⟨l, node, hlocate, hnode⟩ := Disk.exist_iff.mp hexist
      obtain ⟨-, -, rfl, -⟩ := (locate_of_absolute (components_scratchName n)).mp hlocate
      exact List.mem_map.mpr ⟨_, Disk.mem_nodes_of_node? (List.cons_ne_nil _ _) hnode, rfl⟩
    have hlength := ((List.Nodup.map scratchPlace_injective List.nodup_range).subperm hsub).length_le
    rw [List.length_map, List.length_map, List.length_range] at hlength
    omega

theorem asksDirectory_scratchName (n : Nat) : Disk.asksDirectory (scratchName n) = false := by
  have htext : (scratchName n).text.toList = "/tmp/".toList ++ (scratchDirectory n).toList := by
    rw [toList_scratchName, toList_scratchDirectory]
    rfl
  exact Disk.asksDirectory_eq_false (isSegment_scratchDirectory n) htext

/-- So nothing can be reached there. -/
theorem not_leads_freshScratch {d : Disk} {n : Nat} (hn : freshScratch d = scratchName n)
    (hstart : d.node? d.start = some .directory) (node : DiskNode) :
    ¬Leads d [] (scratchPlace n) node := by
  intro hleads
  have hexist : d.exist (scratchName n) = true :=
    Disk.exist_iff.mpr ⟨_, node, (locate_of_absolute (components_scratchName n)).mpr
      ⟨hstart, hleads.1, rfl, fun _ => asksDirectory_scratchName n⟩, hleads.node?_eq⟩
  rw [← hn, exist_freshScratch] at hexist
  cases hexist

theorem ancestors_scratchName (n : Nat) :
    ∃ rest, Disk.ancestors (scratchName n) = scratchName n :: rest := by
  have hlength : ∃ k, (scratchName n).text.length = k + 1 := by
    refine ⟨(scratchName n).text.length - 1, ?_⟩
    have : (scratchName n).text.toList.length ≠ 0 := by
      rw [toList_scratchName]
      exact Nat.succ_ne_zero _
    rw [String.length_toList] at this
    omega
  obtain ⟨k, hk⟩ := hlength
  unfold Disk.ancestors
  rw [hk, Disk.ancestors.go]
  rcases Path.parent?_cases (scratchName n) with ⟨-, hnone | hnone⟩ | ⟨q, c, hq, -⟩
  · rw [components_scratchName] at hnone
    cases hnone
  · rw [components_scratchName] at hnone
    cases hnone
  · rw [hq]
    exact ⟨_, rfl⟩

/-- A disk that copies can be made on: a tree with a directory for them. -/
structure TakesCopies (d : Disk) : Prop where
  tree : d.IsTree
  tmp : d.node? ["tmp"] = some .directory

namespace TakesCopies

variable {d : Disk} (h : TakesCopies d) {n : Nat} (hn : freshScratch d = scratchName n)

include h

theorem opens (n : Nat) : Opens d [] (scratchPlace n) := ⟨rfl, h.tmp, trivial⟩

theorem locate_scratchName (n : Nat) : d.locate (scratchName n) = .ok (scratchPlace n) :=
  (locate_of_absolute (components_scratchName n)).mpr
    ⟨h.tree.start, h.opens n, rfl, fun _ => asksDirectory_scratchName n⟩

include hn

theorem node?_scratchPlace : d.node? (scratchPlace n) = none := by
  cases hnode : d.node? (scratchPlace n) with
  | none => rfl
  | some node =>
    exact absurd ⟨h.tree.opens (l := []) hnode, hnode⟩ (not_leads_freshScratch hn h.tree.start node)

theorem node?_below {names : List String} (hnames : names ≠ []) :
    d.node? (scratchPlace n ++ names) = none := by
  obtain ⟨name, rest, rfl⟩ := List.exists_cons_of_ne_nil hnames
  cases hnode : d.node? (scratchPlace n ++ name :: rest) with
  | none => rfl
  | some node => cases (h.node?_scratchPlace hn).symm.trans (h.tree.opens hnode).1

theorem makeDirectories_eq :
    d.makeDirectories (scratchName n) = .ok (d.put (scratchPlace n) .directory) := by
  obtain ⟨rest, hrest⟩ := ancestors_scratchName n
  exact Disk.makeDirectories_of_makeDirectory hrest (Disk.makeDirectory_eq_ok.mpr
    ⟨_, h.locate_scratchName n, h.node?_scratchPlace hn, rfl⟩)

end TakesCopies

/-! ### Files of fragments -/

def IsPlain (p : Path) : Prop := ∀ c ∈ p.components, ∃ name, c = .normal name

theorem IsPlain.exists_names {p : Path} (h : IsPlain p) :
    ∃ names : List String, p.components = names.map .normal := by
  unfold IsPlain at h
  generalize p.components = cs at h ⊢
  induction cs with
  | nil => exact ⟨[], rfl⟩
  | cons c rest ih =>
    obtain ⟨name, rfl⟩ := h c List.mem_cons_self
    obtain ⟨names, rfl⟩ := ih fun c hc => h c (List.mem_cons_of_mem _ hc)
    exact ⟨name :: names, rfl⟩

theorem IsPlain.components_join {p q : Path} (hp : p.components ≠ []) (hq : IsPlain q) :
    (p.join q).components = p.components ++ q.components := by
  have hempty : p.text.isEmpty = false := by
    cases htext : p.text.isEmpty with
    | false => rfl
    | true => exact absurd (Path.components_of_isEmpty htext) hp
  -- a plain path has no start, neither the root nor a dot
  have hlead : ∀ c ∈ q.lead, ∃ name, c = .normal name := by
    intro c hc
    apply hq
    rw [Path.components_eq]
    exact List.mem_append_left _ hc
  unfold Path.lead at hlead
  have habs : q.isAbsolute = false := by
    cases habs : q.isAbsolute with
    | false => rfl
    | true =>
      rw [habs, if_pos rfl] at hlead
      obtain ⟨name, hname⟩ := hlead .root List.mem_cons_self
      cases hname
  rw [Path.components_join hempty habs, Path.components_eq q, Path.lead]
  rw [habs, if_neg Bool.false_ne_true] at hlead ⊢
  split
  · rename_i hdot
    rw [if_pos hdot] at hlead
    obtain ⟨name, hname⟩ := hlead .current List.mem_cons_self
    cases hname
  · rfl

theorem components_join_scratch {p : Path} {names : List String} (n : Nat)
    (hp : p.components = names.map .normal) :
    ((scratchName n).join p).components = .root :: (scratchPlace n ++ names).map .normal := by
  have hplain : IsPlain p := by
    intro c hc
    rw [hp] at hc
    obtain ⟨name, -, rfl⟩ := List.mem_map.mp hc
    exact ⟨name, rfl⟩
  rw [hplain.components_join (by rw [components_scratchName]; exact List.cons_ne_nil _ _),
    components_scratchName, hp, List.map_append]
  rfl

/-- **Placing a file of a fragment leaves all that is there in its place.** -/
theorem carries_placeFile {fragment : String} {n : Nat} {d d' : Disk} {file : Path × String}
    {ws : List Warning} (hplain : IsPlain file.1) (hstart : d.node? d.start = some .directory)
    (h : placeFile fragment (scratchName n) d file = .ok (d', ws)) : Carries d d' := by
  unfold placeFile at h
  dsimp only at h
  by_cases hexist : d.exist ((scratchName n).join file.1) = true
  · rw [if_pos hexist] at h
    cases h
    exact Carries.refl d
  · rw [if_neg hexist] at h
    obtain ⟨d₁, hmake, h⟩ := bind_eq_ok.mp h
    obtain ⟨d₂, hwrite, h⟩ := bind_eq_ok.mp h
    cases h
    have hext := Disk.extends_makeDirectories (Disk.during_eq_ok.mp hmake)
    obtain ⟨l, hl, -, -, rfl⟩ := Disk.writeText_eq_ok.mp (Disk.during_eq_ok.mp hwrite)
    refine hext.carries_put (fun node hleads => hexist ?_) _
    -- what can be reached where the file goes was there before
    obtain ⟨names, hnames⟩ := hplain.exists_names
    have hcs := components_join_scratch n hnames
    obtain ⟨-, -, rfl, hasks⟩ := (locate_of_absolute hcs).mp hl
    refine Disk.exist_iff.mpr ⟨_, node, (locate_of_absolute hcs).mpr ⟨hstart, hleads.1, rfl, ?_⟩, hleads.2⟩
    rintro ⟨bytes, hfile⟩
    exact hasks ⟨bytes, hext.node _ _ hfile⟩

theorem carries_placeFiles {n : Nat} {d d' : Disk} {files : List (String × Path × String)}
    (hplain : ∀ file ∈ files, IsPlain file.2.1) (hstart : Leads d [] d.start .directory)
    (h : placeFiles (scratchName n) d files = .ok d') : Carries d d' := by
  unfold placeFiles at h
  refine foldlM_invariant (Carries d ·) (Carries.refl d) ?_ h
  intro file hfile d₁ d₂ hcarries hstep
  obtain ⟨⟨d₃, ws⟩, hplace, rfl⟩ := map_eq_ok.mp hstep
  have hstart₁ := (hcarries.leads _ _ hstart).node?_eq
  rw [← hcarries.start] at hstart₁
  exact hcarries.trans (carries_placeFile (hplain file hfile) hstart₁ hplace)

/-! ### The tree -/

theorem copyTree_eq (d : Disk) (source target : Location) :
    copyTree d source target = ((d.walk source).map fun p => (target ++ p.1, p.2)).foldl
      (fun d p => d.put p.1 p.2) d := by
  rw [List.foldl_map]
  rfl

theorem start_copyTree (d : Disk) (source target : Location) :
    (copyTree d source target).start = d.start := by
  unfold copyTree
  exact List.foldlRecOn (motive := fun d' : Disk => d'.start = d.start) _ _ rfl fun _ h _ _ => h

theorem node?_copyTree_of_mem_walk {d : Disk} {source target : Location} {p : Location × DiskNode}
    (h : p ∈ d.walk source) : (copyTree d source target).node? (target ++ p.1) = some p.2 := by
  obtain ⟨hne, hnode⟩ := Disk.node?_of_mem_walk h
  rw [copyTree_eq]
  apply Disk.node?_foldl_put (List.append_ne_nil_of_right_ne_nil _ hne)
  · exact List.mem_map.mpr ⟨p, h, rfl⟩
  · intro node' hnode'
    obtain ⟨q, hq, heq⟩ := List.mem_map.mp hnode'
    obtain ⟨hplace, rfl⟩ := Prod.mk.inj heq
    have hq' := (Disk.node?_of_mem_walk hq).2
    rw [List.append_cancel_left hplace, hnode] at hq'
    exact (Option.some.inj hq').symm

theorem node?_copyTree_of_not_below {d : Disk} {source target l : Location}
    (h : ∀ names, names ≠ [] → l ≠ target ++ names) :
    (copyTree d source target).node? l = d.node? l := by
  rw [copyTree_eq]
  apply Disk.node?_foldl_put_of_not_mem
  intro p hp
  obtain ⟨q, hq, rfl⟩ := List.mem_map.mp hp
  exact h q.1 (Disk.node?_of_mem_walk hq).1

/-- **What lies in a copy** comes from the place that was copied, or was there before. -/
theorem node?_of_copyTree {d : Disk} {source target : Location} {names : List String}
    {node : DiskNode} (h : (copyTree d source target).node? (target ++ names) = some node) :
    d.node? (source ++ names) = some node ∨ d.node? (target ++ names) = some node := by
  by_cases hmem : ∃ p ∈ d.walk source, p.1 = names
  · obtain ⟨p, hp, rfl⟩ := hmem
    rw [node?_copyTree_of_mem_walk hp, ← (Disk.node?_of_mem_walk hp).2] at h
    exact .inl h
  · right
    rw [copyTree_eq, Disk.node?_foldl_put_of_not_mem] at h
    · exact h
    · rintro q hq heq
      obtain ⟨p, hp, rfl⟩ := List.mem_map.mp hq
      exact hmem ⟨p, hp, (List.append_cancel_left heq).symm⟩

/-- In a directory that is not there yet, a copy is all that there is. -/
theorem TakesCopies.node?_of_copy {d : Disk} (h : TakesCopies d) {n : Nat}
    (hn : freshScratch d = scratchName n) {source : Location} {names : List String} {node : DiskNode}
    (hnames : names ≠ []) (hsource : source ++ names ≠ scratchPlace n)
    (hnode : (copyTree (d.put (scratchPlace n) .directory) source (scratchPlace n)).node?
      (scratchPlace n ++ names) = some node) : d.node? (source ++ names) = some node := by
  rcases node?_of_copyTree hnode with hown | hthere
  · rwa [Disk.node?_put_of_ne d hsource] at hown
  · have hne : scratchPlace n ++ names ≠ scratchPlace n := by simpa using hnames
    rw [Disk.node?_put_of_ne d hne, h.node?_below hn hnames] at hthere
    cases hthere

/-- **The same names lead to the same in the copy.** -/
theorem leads_copyTree {d : Disk} {source target : Location}
    (htarget : d.node? target = some .directory) {names : List String} {node : DiskNode}
    (h : Leads d source names node) (hnames : names ≠ []) :
    Leads (copyTree d source target) target names node := by
  induction names using List.reverseRecOn generalizing node with
  | nil => exact absurd rfl hnames
  | append_singleton before name ih =>
    have hnode : (copyTree d source target).node? (target ++ (before ++ [name])) = some node :=
      node?_copyTree_of_mem_walk (Disk.mem_walk h hnames)
    obtain ⟨hbefore, hlast⟩ := Disk.opens_append.mp h.1
    refine ⟨Disk.opens_append.mpr ?_, hnode⟩
    by_cases hnil : before = []
    · subst hnil
      refine ⟨trivial, ?_, trivial⟩
      rw [List.append_nil, node?_copyTree_of_not_below, htarget]
      intro names hne heq
      exact hne (List.append_cancel_left (heq.symm.trans (List.append_nil _).symm))
    · obtain ⟨hopens, hdirectory⟩ := ih ⟨hbefore, hlast.1⟩ hnil
      exact ⟨hopens, hdirectory, trivial⟩

/-- The directory of the copy can still be reached from the top. -/
theorem leads_top_copyTree {d : Disk} {n : Nat} (hopens : Opens d [] (scratchPlace n))
    (source : Location) {names : List String} {node : DiskNode}
    (h : Leads (copyTree d source (scratchPlace n)) (scratchPlace n) names node) :
    Leads (copyTree d source (scratchPlace n)) [] (scratchPlace n ++ names) node := by
  refine ⟨Disk.opens_append.mpr ⟨⟨rfl, ?_, trivial⟩, h.1⟩, h.2⟩
  rw [node?_copyTree_of_not_below]
  · exact hopens.2.1
  · intro names _ heq
    have hlength := congrArg List.length heq
    rw [List.length_append] at hlength
    exact absurd hlength (by simp [scratchPlace])

/-- Nothing else is touched, where the directory of the copy could not be reached before. -/
theorem carries_copyTree {d d' : Disk} {source target : Location} (hext : Extends d d')
    (hfresh : ∀ node, ¬Leads d [] target node) : Carries d (copyTree d' source target) := by
  refine Disk.carries_of_node? ((start_copyTree _ _ _).trans hext.start) fun l node hleads => ?_
  rw [node?_copyTree_of_not_below, hext.node _ _ hleads.node?_eq]
  rintro names - rfl
  obtain ⟨node', hnode'⟩ := hleads.exists_before
  exact hfresh node' hnode'

end ApiScaffold.Include
