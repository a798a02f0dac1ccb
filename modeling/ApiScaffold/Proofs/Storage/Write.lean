import Mathlib.Data.Prod.Lex
import Mathlib.Data.String.Basic
import Mathlib.Order.Lex
import ApiScaffold.Proofs.Disk.Later
import ApiScaffold.Storage

/-!
# Writes to a storage

What a write leaves on the disk and among the files that are held back: directories are made, one
file gets its text, and nothing else changes.

Paths are ordered by the ranks and texts of their components, one after the other.  Files that are
put under different paths are held in the same order, whichever of them comes first.
-/

namespace ApiScaffold

/-! ### Files that are held back -/

namespace Files

theorem same_iff {p q : Path} : p.same q = true ↔ p.components = q.components := by
  unfold Path.same
  rw [beq_iff_eq]

/-- The text that was put is found under every spelling of its path, and no other text is touched. -/
theorem get?_put (path : Path) (text : String) (files : Files) (q : Path) :
    (files.put path text).get? q = if q.same path then some text else files.get? q := by
  have hsame : ∀ {p : Path}, path.same p = true → q.same p = q.same path := by
    intro p hp
    unfold Path.same
    rw [same_iff.mp hp]
  induction files with
  | nil =>
    cases hq : q.same path with
    | true => simp [put, get?, hq]
    | false => simp [put, get?, hq]
  | cons entry rest ih =>
    obtain ⟨p, t⟩ := entry
    unfold get? at ih ⊢
    rw [put]
    split
    · rename_i hp
      cases hq : q.same path with
      | true => simp [hsame hp, hq]
      | false => simp [hsame hp, hq]
    · split
      · cases hq : q.same path with
        | true => simp [hq]
        | false => simp [hq]
      · rename_i hp _
        cases hqp : q.same p with
        | true =>
          -- `q` is `p` here, and `p` is not `path`
          have hq : q.same path = false := by
            cases hq : q.same path with
            | false => rfl
            | true =>
              refine absurd (same_iff.mpr ?_) hp
              rw [← same_iff.mp hq, same_iff.mp hqp]
          simp [hqp, hq]
        | false => simpa [hqp] using ih

theorem get?_congr {p q : Path} (h : q.same p = true) (files : Files) :
    files.get? q = files.get? p := by
  unfold get? Path.same
  rw [same_iff.mp h]

theorem has_eq_isSome (files : Files) (path : Path) : files.has path = (files.get? path).isSome := by
  unfold has get?
  rw [Option.isSome_map, Bool.eq_iff_iff, List.any_eq_true, List.find?_isSome]

end Files

namespace Storage

open Disk (Extends)

/-! ### The disk after a write -/

section WriteBelow

variable {d d' : Disk} {target : Path} {text : String}

/-- **A write that succeeds** makes directories and puts the text where the path leads. -/
theorem writeBelow_ok (h : writeBelow d target text = (d', none)) :
    ∃ d₁ l, d.makeDirectories (target.parent?.getD ⟨""⟩) = .ok d₁ ∧ d₁.locate target = .ok l ∧
      d₁.node? l ≠ some .directory ∧ d' = d₁.put l (.file text.toUTF8) := by
  unfold writeBelow at h
  split at h
  · cases h
  · rename_i d₁ hmake
    split at h
    · cases h
    · rename_i d₂ hwrite
      cases h
      obtain ⟨l, hl, hnode, -, rfl⟩ := Disk.writeText_eq_ok.mp hwrite
      exact ⟨d₁, l, hmake, hl, hnode, rfl⟩

theorem writeBelow_error {e : DiskError} (h : writeBelow d target text = (d', some e)) :
    Extends d d' := by
  unfold writeBelow at h
  split at h
  · cases h
    exact Extends.refl d
  · rename_i d₁ hmake
    split at h
    · cases h
      exact Disk.extends_makeDirectories hmake
    · cases h

theorem later_writeBelow (d : Disk) (target : Path) (text : String) :
    Disk.Later d (writeBelow d target text).1 := by
  rcases h : writeBelow d target text with ⟨d', fault⟩
  cases fault with
  | none =>
    obtain ⟨d₁, l, hmake, -, hnode, rfl⟩ := writeBelow_ok h
    exact (Disk.Later.of_extends (Disk.extends_makeDirectories hmake)).trans (.put hnode _)
  | some e => exact .of_extends (writeBelow_error h)

/-- **A file can always be written again.** -/
theorem writeBelow_of_file {directory : List Path.Component} {name : String}
    (hp : Disk.Points target directory name) {l : Location} {bytes : ByteArray}
    (hl : d.locate target = .ok l) (hnode : d.node? l = some (.file bytes)) :
    writeBelow d target text = (d.put l (.file text.toUTF8), none) := by
  have hmake : d.makeDirectories (target.parent?.getD ⟨""⟩) = .ok d := by
    obtain ⟨before, hfold, hbefore, -⟩ := hp.locate_iff.mp hl
    refine Disk.makeDirectories_of_directory ?_ hbefore
    rw [hp.components_parent]
    exact hfold
  have hwrite : d.writeText target text = .ok (d.put l (.file text.toUTF8)) := by
    unfold Disk.writeText Disk.writeBytes
    refine bind_eq_ok.mpr ⟨l, hl, ?_⟩
    rw [hnode]
    show (if Disk.asksDirectory target = true then throw DiskError.isADirectory else
      pure (d.put l (.file text.toUTF8))) = _
    rw [hp.asks]
    rfl
  simp only [writeBelow, hmake, hwrite]

end WriteBelow

/-! ### Later storages -/

/-- More has been written. -/
structure Later (s s' : Storage) : Prop where
  base : s'.base = s.base
  held : s'.held.isSome = s.held.isSome
  disk : Disk.Later s.disk s'.disk

theorem Later.refl (s : Storage) : Later s s := ⟨rfl, rfl, .refl _⟩

theorem Later.trans {s s' s'' : Storage} (h : Later s s') (h' : Later s' s'') : Later s s'' :=
  ⟨h'.base.trans h.base, h'.held.trans h.held, h.disk.trans h'.disk⟩

theorem Later.withDisk {s : Storage} {d : Disk} (h : Disk.Later s.disk d) :
    Later s { s with disk := d } := ⟨rfl, rfl, h⟩

theorem Later.held_eq_none {s s' : Storage} (h : Later s s') : s'.held = none ↔ s.held = none := by
  rw [← Option.isNone_iff_eq_none, ← Option.isNone_iff_eq_none, ← Option.not_isSome, h.held,
    Option.not_isSome]

theorem files_withDisk (s : Storage) (d : Disk) : ({ s with disk := d } : Storage).files = s.files :=
  rfl

theorem write_of_held {s : Storage} {files : Files} (h : s.held = some files) (path : Path)
    (text : String) : s.write path text = ({ s with held := some (files.put path text) }, none) := by
  unfold write
  rw [h]

theorem write_of_disk {s : Storage} (h : s.held = none) (path : Path) (text : String) :
    s.write path text = ({ s with disk := (writeBelow s.disk (s.base.join path) text).1 },
      (writeBelow s.disk (s.base.join path) text).2) := by
  unfold write
  rw [h]

theorem onDisk_write (base : Path) (d : Disk) (path : Path) (text : String) :
    (onDisk base d).write path text = (onDisk base (writeBelow d (base.join path) text).1,
      (writeBelow d (base.join path) text).2) :=
  write_of_disk rfl path text

theorem onDisk_exist (base : Path) (d : Disk) (path : Path) :
    (onDisk base d).exist path = d.exist (base.join path) := by
  have hfiles : (onDisk base d).files = [] := rfl
  unfold exist
  rw [hfiles, Files.has, List.any_nil, Bool.false_or, onDisk]

/-- **What was written is there.** -/
theorem exist_of_write {s : Storage} {path : Path} {text : String} {directory : List Path.Component}
    {name : String} (hs : s.held = none) (hp : Disk.Points (s.base.join path) directory name)
    (h : (s.write path text).2 = none) :
    (s.write path text).1.disk.exist (s.base.join path) = true := by
  rw [write_of_disk hs] at h ⊢
  rcases hw : writeBelow s.disk (s.base.join path) text with ⟨d', fault⟩
  rw [hw] at h
  cases h
  obtain ⟨d, l, -, hlocate, hnode, rfl⟩ := writeBelow_ok hw
  have hl : l ≠ [] := by
    rintro rfl
    exact hnode rfl
  exact Disk.exist_iff.mpr
    ⟨l, _, (Disk.Later.put hnode _).locate hp hlocate, Disk.node?_put_self d hl _⟩

theorem later_write (s : Storage) (path : Path) (text : String) :
    Later s (s.write path text).1 := by
  cases h : s.held with
  | some files =>
    rw [write_of_held h]
    exact ⟨rfl, by rw [h]; rfl, .refl _⟩
  | none =>
    rw [write_of_disk h]
    exact .withDisk (later_writeBelow s.disk (s.base.join path) text)

end Storage

/-! ### The order of held files -/

namespace Path

/-- What the order of components looks at. -/
def Component.key (c : Component) : ℕ ×ₗ String := toLex (c.rank, c.text)

/-- What the order of paths looks at. -/
def key (p : Path) : List (ℕ ×ₗ String) := p.components.map Component.key

theorem Component.key_injective : Function.Injective Component.key := by
  intro a b h
  obtain ⟨hrank, htext⟩ := Prod.mk.inj (toLex.injective h)
  cases a <;> cases b <;> simp_all [rank, text]

theorem key_eq_iff {p q : Path} : p.key = q.key ↔ p.components = q.components :=
  (List.map_injective_iff.mpr Component.key_injective).eq_iff

theorem Component.lt_iff {a b : Component} : a.lt b = true ↔ a.key < b.key := by
  unfold lt key
  rw [Prod.Lex.toLex_lt_toLex]
  simp

theorem ltComponents_iff {as bs : List Component} :
    ltComponents as bs = true ↔ as.map Component.key < bs.map Component.key := by
  induction as generalizing bs with
  | nil => cases bs <;> simp [ltComponents]
  | cons a as ih =>
    cases bs with
    | nil => simp [ltComponents]
    | cons b bs =>
      rw [ltComponents, List.map_cons, List.map_cons, List.cons_lt_cons_iff, Bool.or_eq_true,
        Component.lt_iff, Bool.and_eq_true, beq_iff_eq, ih, Component.key_injective.eq_iff]

theorem same_comm (p q : Path) : p.same q = q.same p := Bool.beq_comm

theorem lt_iff {p q : Path} : p.lt q = true ↔ p.key < q.key := ltComponents_iff

end Path

namespace Files

open ApiScaffold.Path (key)

theorem same_iff_key {p q : Path} : p.same q = true ↔ p.key = q.key := by
  rw [same_iff, Path.key_eq_iff]

variable {p q : Path} (t u : String) {rest : Files}

theorem put_of_eq (h : p.key = q.key) : Files.put p t ((q, u) :: rest) = (q, t) :: rest := by
  unfold put
  rw [if_pos (same_iff_key.mpr h)]

theorem put_of_lt (h : p.key < q.key) :
    Files.put p t ((q, u) :: rest) = (p, t) :: (q, u) :: rest := by
  unfold put
  rw [if_neg (fun hs => h.ne (same_iff_key.mp hs)), if_pos (Path.lt_iff.mpr h)]

theorem put_of_gt (h : q.key < p.key) :
    Files.put p t ((q, u) :: rest) = (q, u) :: rest.put p t := by
  rw [put, if_neg (fun hs => h.ne' (same_iff_key.mp hs)),
    if_neg (fun hlt => lt_asymm h (Path.lt_iff.mp hlt))]

/-- **Files under different paths** can be put in either order. -/
theorem put_comm (h : p.key ≠ q.key) (files : Files) :
    (files.put q u).put p t = (files.put p t).put q u := by
  wlog hlt : p.key < q.key generalizing p q t u
  · exact (this u t h.symm (lt_of_le_of_ne (not_lt.mp hlt) h.symm)).symm
  induction files with
  | nil => rw [put, put, put_of_lt t u hlt, put_of_gt u t hlt, put]
  | cons file rest ih =>
    obtain ⟨r, v⟩ := file
    rcases lt_trichotomy p.key r.key with hp | hp | hp
    · -- the smaller path comes before all that is there
      rw [put_of_lt t v hp, put_of_gt u t hlt]
      rcases lt_trichotomy q.key r.key with hq | hq | hq
      · rw [put_of_lt u v hq, put_of_lt t u hlt]
      · rw [put_of_eq u v hq, put_of_lt t u hp]
      · rw [put_of_gt u v hq, put_of_lt t v hp]
    · have hq : r.key < q.key := hp ▸ hlt
      rw [put_of_eq t v hp, put_of_gt u v hq, put_of_gt u t hq, put_of_eq t v hp]
    · have hq : r.key < q.key := hp.trans hlt
      rw [put_of_gt t v hp, put_of_gt u v hq, put_of_gt u v hq, put_of_gt t v hp, ih]

end Files
end ApiScaffold
