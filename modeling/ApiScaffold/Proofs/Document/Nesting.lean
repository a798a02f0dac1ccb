import ApiScaffold.Proofs.Document.Load
import ApiScaffold.Proofs.Document.Mention

/-!
# Files one inside the other

A `Body` is a value together with the directory that its references are seen from; a reference to a
file that holds no component nests the body that it selects.  A body can be brought into one piece
exactly when every such reference selects something and no chain of them is longer than the limit
(`bundle_isOk_iff`); what it wants then are the components that the bodies nested in it refer to.
-/

namespace ApiScaffold.Document

/-- A value, and the directory that its references are seen from. -/
structure Body where
  base : Path
  value : Json

/-- What a target selects, if its file can be read and has a part behind its pointer. -/
def Target.body? (d : Disk) (t : Target) : Option Body :=
  ((read d t.file).toOption.bind (select? · t.pointer)).map (⟨directoryOf t.file, ·⟩)

namespace Body

/-- A reference to a file that a walk of the body meets points at the target. -/
def Mentions (b : Body) (t : Target) : Prop :=
  ∃ m ∈ references b.value, t = .ofReference b.base m.2

/-- The body is to be replaced, where it mentions the target, by what that selects. -/
def Inlines (b : Body) (t : Target) : Prop := b.Mentions t ∧ kindOf? t.file = none

/-- A reference to a file that a walk of the body meets becomes the reference to the component,
whatever files hold. -/
def Asks (b : Body) (w : Wanted) : Prop :=
  ∃ m ∈ references b.value, ∀ load, redirect load b.base m.1 m.2
    = .ok (.obj (Keyed.insert "$ref" (.str w.reference) m.1), [w])

/-- The components that a body asks for are those of the files that it mentions. -/
theorem asks_iff {b : Body} {w : Wanted} : b.Asks w
    ↔ ∃ t kind, b.Mentions t ∧ kindOf? t.file = some kind ∧ w = .ofFile kind t.file := by
  constructor
  · rintro ⟨m, hm, h⟩
    have hw := h fun t => .error (.ofCause (.referencesTooDeep t.file))
    dsimp only [redirect] at hw
    split at hw
    · rename_i kind hkind
      have hout := congrArg Prod.snd (Except.ok.inj hw)
      exact ⟨_, kind, ⟨m, hm, rfl⟩, hkind, (List.cons.inj hout).1.symm⟩
    · cases hw
  · rintro ⟨t, kind, ⟨m, hm, rfl⟩, hkind, rfl⟩
    refine ⟨m, hm, fun load => ?_⟩
    dsimp only [redirect]
    rw [hkind]

/-- The body in one piece, where at most `left` files are one inside the other. -/
def bundle (d : Disk) (left : Nat) (b : Body) : Except Failure (Bundled Json) :=
  internalize (loadTarget d left) b.base b.value

end Body

/-- `Nests d n b c`: `n` files are one inside the other from the body `b` to the body `c`. -/
inductive Nests (d : Disk) : Nat → Body → Body → Prop
  | here (b : Body) : Nests d 0 b b
  | inside {n : Nat} {b c e : Body} {t : Target} :
    b.Inlines t → t.body? d = some c → Nests d n c e → Nests d (n + 1) b e

/-- **What a body needs** to be brought into one piece with `left` files one inside the other. -/
structure Body.Sound (d : Disk) (left : Nat) (b : Body) : Prop where
  selects : ∀ n c t, Nests d n b c → c.Inlines t → (t.body? d).isSome
  depth : ∀ n c, Nests d n b c → n ≤ left

section

variable {d : Disk}

theorem Nests.trans {n k : Nat} {b c e : Body} (h : Nests d n b c) (h' : Nests d k c e) :
    Nests d (n + k) b e := by
  induction h with
  | here b => exact (Nat.zero_add k).symm ▸ h'
  | @inside n b c e' t ht hc _ ih =>
    rw [Nat.add_right_comm]
    exact .inside ht hc (ih h')

theorem loadTarget_eq_ok_iff {left : Nat} {t : Target} {out : Bundled Json} :
    loadTarget d (left + 1) t = .ok out ↔ ∃ b, t.body? d = some b ∧ b.bundle d left = .ok out := by
  unfold loadTarget Target.body?
  cases hread : read d t.file with
  | error e =>
    constructor
    · intro h
      cases h
    · rintro ⟨b, h, -⟩
      cases h
  | ok v =>
    rw [show (Except.ok v : Except Failure Json).toOption = some v from rfl, Option.bind_some]
    dsimp only [bind, Except.bind]
    cases select? v t.pointer with
    | none =>
      constructor
      · intro h
        cases h
      · rintro ⟨b, h, -⟩
        cases h
    | some w =>
      constructor
      · intro h
        exact ⟨⟨directoryOf t.file, w⟩, rfl, h⟩
      · rintro ⟨b, hb, h⟩
        cases hb
        exact h

theorem redirect_isOk_iff {load : Target → Except Failure (Bundled Json)} {base : Path}
    {fields : List (String × Json)} {reference : String} :
    (∃ out, redirect load base fields reference = .ok out)
      ↔ (kindOf? (Target.ofReference base reference).file = none →
          ∃ out, load (.ofReference base reference) = .ok out) := by
  dsimp only [redirect]
  cases kindOf? (Target.ofReference base reference).file with
  | some kind => exact ⟨fun _ => nofun, fun _ => ⟨_, rfl⟩⟩
  | none => exact ⟨fun h _ => h, fun h => h rfl⟩

/-- What redirecting a reference wants: its component, or what its target wants. -/
theorem mem_redirect_iff {load : Target → Except Failure (Bundled Json)} {base : Path}
    {fields : List (String × Json)} {reference : String} {out : Bundled Json}
    (h : redirect load base fields reference = .ok out) {w : Wanted} :
    w ∈ out.2 ↔
      (∃ kind, kindOf? (Target.ofReference base reference).file = some kind
        ∧ w = .ofFile kind (Target.ofReference base reference).file) ∨
      (kindOf? (Target.ofReference base reference).file = none
        ∧ ∃ o, load (.ofReference base reference) = .ok o ∧ w ∈ o.2) := by
  dsimp only [redirect] at h
  cases hkind : kindOf? (Target.ofReference base reference).file with
  | some kind =>
    rw [hkind] at h
    cases h
    simp
  | none =>
    rw [hkind] at h
    simp [show load (.ofReference base reference) = .ok out from h]

theorem bundle_isOk_iff_targets {left : Nat} {b : Body} : (∃ out, b.bundle d left = .ok out)
    ↔ ∀ t, b.Inlines t → ∃ out, loadTarget d left t = .ok out := by
  unfold Body.bundle
  rw [internalize_isOk_iff]
  constructor
  · rintro h t ⟨⟨m, hm, rfl⟩, hkind⟩
    exact redirect_isOk_iff.mp (h m hm) hkind
  · intro h m hm
    exact redirect_isOk_iff.mpr fun hkind => h _ ⟨⟨m, hm, rfl⟩, hkind⟩

/-- **When a body can be brought into one piece.** -/
theorem bundle_isOk_iff {left : Nat} {b : Body} :
    (∃ out, b.bundle d left = .ok out) ↔ b.Sound d left := by
  induction left generalizing b with
  | zero =>
    -- no further file may be nested, so the body may ask for none
    rw [bundle_isOk_iff_targets]
    constructor
    · intro h
      have hnone : ∀ t, ¬b.Inlines t := by
        intro t ht
        obtain ⟨out, hout⟩ := h t ht
        cases hout
      refine ⟨fun n c t hn ht => ?_, fun n c hn => ?_⟩
      · cases hn with
        | here => exact absurd ht (hnone t)
        | inside ht' => exact absurd ht' (hnone _)
      · cases hn with
        | here => exact Nat.le_refl 0
        | inside ht => exact absurd ht (hnone _)
    · intro h t ht
      obtain ⟨c, hc⟩ := Option.isSome_iff_exists.mp (h.selects 0 b t (.here b) ht)
      exact absurd (h.depth 1 c (.inside ht hc (.here c))) (by omega)
  | succ left ih =>
    rw [bundle_isOk_iff_targets]
    constructor
    · intro h
      -- a chain from `b` goes on from what its first reference selects, with one file less to come
      have hbody : ∀ t, b.Inlines t → ∃ c, t.body? d = some c ∧ c.Sound d left := by
        intro t ht
        obtain ⟨out, hout⟩ := h t ht
        obtain ⟨c, hc, hbundle⟩ := loadTarget_eq_ok_iff.mp hout
        exact ⟨c, hc, ih.mp ⟨out, hbundle⟩⟩
      refine ⟨fun n c t hn ht => ?_, fun n c hn => ?_⟩
      · cases hn with
        | here =>
          obtain ⟨c, hc, -⟩ := hbody t ht
          exact Option.isSome_of_eq_some hc
        | inside ht' hc' hn =>
          obtain ⟨c', hc'', hsound⟩ := hbody _ ht'
          cases hc'.symm.trans hc''
          exact hsound.selects _ c t hn ht
      · cases hn with
        | here => exact Nat.zero_le _
        | inside ht' hc' hn =>
          obtain ⟨c', hc'', hsound⟩ := hbody _ ht'
          cases hc'.symm.trans hc''
          exact Nat.succ_le_succ (hsound.depth _ c hn)
    · intro h t ht
      obtain ⟨c, hc⟩ := Option.isSome_iff_exists.mp (h.selects 0 b t (.here b) ht)
      have hsound : c.Sound d left := by
        refine ⟨fun n e t' hn ht' => ?_, fun n e hn => ?_⟩
        · exact h.selects (n + 1) e t' (.inside ht hc hn) ht'
        · exact Nat.le_of_succ_le_succ (h.depth (n + 1) e (.inside ht hc hn))
      obtain ⟨out, hout⟩ := ih.mpr hsound
      exact ⟨out, loadTarget_eq_ok_iff.mpr ⟨c, hc, hout⟩⟩

/-- **What a body wants** are the components that it and the bodies nested in it refer to. -/
theorem mem_bundle_iff {left : Nat} {b : Body} {out : Bundled Json} (h : b.bundle d left = .ok out)
    {w : Wanted} : w ∈ out.2 ↔ ∃ n c, Nests d n b c ∧ c.Asks w := by
  -- on what may still be nested; with nothing left only references to components can be redirected
  induction left generalizing b out with
  | zero =>
    rw [mem_wanted_iff h]
    constructor
    · rintro ⟨m, hm, o, ho, hw⟩
      rcases (mem_redirect_iff ho).mp hw with ⟨kind, hkind, hw⟩ | ⟨-, o', ho', -⟩
      · exact ⟨0, b, .here b, Body.asks_iff.mpr ⟨_, kind, ⟨m, hm, rfl⟩, hkind, hw⟩⟩
      · cases ho'
    · rintro ⟨n, c, hn, hc⟩
      cases hn with
      | here =>
        obtain ⟨t, kind, ⟨m, hm, rfl⟩, hkind, hw⟩ := Body.asks_iff.mp hc
        obtain ⟨o, ho⟩ := internalize_isOk_iff.mp ⟨out, h⟩ m hm
        exact ⟨m, hm, o, ho, (mem_redirect_iff ho).mpr (.inl ⟨kind, hkind, hw⟩)⟩
      | inside ht _ _ =>
        obtain ⟨o, ho⟩ := bundle_isOk_iff_targets.mp ⟨out, h⟩ _ ht
        cases ho
  | succ left ih =>
    rw [mem_wanted_iff h]
    constructor
    · rintro ⟨m, hm, o, ho, hw⟩
      rcases (mem_redirect_iff ho).mp hw with ⟨kind, hkind, hw⟩ | ⟨hkind, o', ho', hw⟩
      · exact ⟨0, b, .here b, Body.asks_iff.mpr ⟨_, kind, ⟨m, hm, rfl⟩, hkind, hw⟩⟩
      · obtain ⟨c, hc, hbundle⟩ := loadTarget_eq_ok_iff.mp ho'
        obtain ⟨n, e, hn, he⟩ := (ih hbundle).mp hw
        exact ⟨n + 1, e, .inside ⟨⟨m, hm, rfl⟩, hkind⟩ hc hn, he⟩
    · rintro ⟨n, c, hn, hc⟩
      cases hn with
      | here =>
        obtain ⟨t, kind, ⟨m, hm, rfl⟩, hkind, hw⟩ := Body.asks_iff.mp hc
        obtain ⟨o, ho⟩ := internalize_isOk_iff.mp ⟨out, h⟩ m hm
        exact ⟨m, hm, o, ho, (mem_redirect_iff ho).mpr (.inl ⟨kind, hkind, hw⟩)⟩
      | inside ht hbody hn =>
        obtain ⟨o', ho'⟩ := bundle_isOk_iff_targets.mp ⟨out, h⟩ _ ht
        obtain ⟨c', hc', hbundle⟩ := loadTarget_eq_ok_iff.mp ho'
        cases hbody.symm.trans hc'
        obtain ⟨⟨m, hm, rfl⟩, hkind⟩ := ht
        obtain ⟨o, ho⟩ := internalize_isOk_iff.mp ⟨out, h⟩ m hm
        refine ⟨m, hm, o, ho, (mem_redirect_iff ho).mpr (.inr ⟨hkind, o', ho', ?_⟩)⟩
        exact (ih hbundle).mpr ⟨_, c, hn, hc⟩

/-- Where a chain of files comes back to where it was, chains of any length start. -/
theorem Nests.repeat {n k : Nat} {b c : Body} (h : Nests d n b c) (hcycle : Nests d (k + 1) c c)
    (m : Nat) : ∃ l, m ≤ l ∧ Nests d l b c := by
  induction m with
  | zero => exact ⟨n, Nat.zero_le n, h⟩
  | succ m ih =>
    obtain ⟨l, hl, hn⟩ := ih
    exact ⟨l + (k + 1), by omega, hn.trans hcycle⟩

end

end ApiScaffold.Document
