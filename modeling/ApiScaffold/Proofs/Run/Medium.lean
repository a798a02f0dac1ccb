import ApiScaffold.Proofs.Run.Sequential

/-!
# Scripts that succeed

A `Medium` is what a script works on, as far as the script can tell; `Medium.run` is what a script
leaves on it when it succeeds.  A run of generators succeeds when the script of all that are chosen,
one after the other, succeeds on the storage (`run_eq_ok_iff`).
-/

namespace ApiScaffold

/-- What a script works on.  A write that fails leaves nothing that counts. -/
structure Medium (W : Type) where
  write : W → Path → String → Option W
  exist : W → Path → Bool
  source : W → Path → Except DiskError (Option String)

namespace Medium

variable {W : Type} (μ : Medium W)

/-- What a script leaves when it succeeds. -/
def run : W → Script → Option W
  | w, .done => some w
  | _, .fail _ => none
  | _, .panic => none
  | w, .write path text next => (μ.write w path text).bind fun w => run w next
  | w, .look path next => run w (next (μ.exist w path))
  | w, .inspect file next => run w (next (μ.source w file))

theorem run_write {w w' : W} {path : Path} {text : String} {next : Script} :
    μ.run w (.write path text next) = some w'
      ↔ ∃ w₁, μ.write w path text = some w₁ ∧ μ.run w₁ next = some w' := by
  rw [run]
  exact Option.bind_eq_some_iff

theorem run_andThen (w : W) (a b : Script) :
    μ.run w (a.andThen b) = (μ.run w a).bind fun w => μ.run w b := by
  induction a generalizing w with
  | done => rfl
  | fail f => rfl
  | panic => rfl
  | write path text next ih =>
    rw [Script.andThen, run, run]
    cases μ.write w path text with
    | none => rfl
    | some w₁ => exact ih w₁
  | look path next ih => exact ih _ w
  | inspect file next ih => exact ih _ w

theorem run_sequence_cons (w : W) (a : Script) (rest : List Script) :
    μ.run w (.sequence (a :: rest)) = (μ.run w a).bind fun w => μ.run w (.sequence rest) :=
  μ.run_andThen w a _

theorem run_sequence_append (w : W) (before after : List Script) :
    μ.run w (.sequence (before ++ after))
      = (μ.run w (.sequence before)).bind fun w => μ.run w (.sequence after) := by
  induction before generalizing w with
  | nil => rfl
  | cons a rest ih =>
    rw [List.cons_append, run_sequence_cons, run_sequence_cons, Option.bind_assoc]
    congr 1
    funext w₁
    exact ih w₁

/-- What an operation leaves that met no fault. -/
def accepted {W : Type} : W × Option DiskError → Option W
  | (w, none) => some w
  | (_, some _) => none

theorem accepted_eq_some {W : Type} {r : W × Option DiskError} {w : W} :
    accepted r = some w ↔ r = (w, none) := by
  rcases r with ⟨w', _ | e⟩
  · simp [accepted]
  · simp [accepted]

/-! ### Storages -/

def ofStorage : Medium Storage where
  write s path text := accepted (s.write path text)
  exist := Storage.exist
  source s file := s.disk.textOfFile? file

theorem ofStorage_write {s s' : Storage} {path : Path} {text : String} :
    ofStorage.write s path text = some s' ↔ s.write path text = (s', none) :=
  accepted_eq_some

theorem ofStorage_run {s s' : Storage} {script : Script} :
    ofStorage.run s script = some s' ↔ script.run s = (s', .ok ()) := by
  induction script generalizing s with
  | done => simp [run, Script.run]
  | fail f => simp [run, Script.run]
  | panic => simp [run, Script.run]
  | write path text next ih =>
    rw [run_write, Script.run]
    simp only [ofStorage_write]
    rcases s.write path text with ⟨s₁, _ | e⟩
    · simp [ih]
    · simp
  | look path next ih => exact ih _
  | inspect file next ih => exact ih _

end Medium

/-! ### Runs that succeed -/

namespace Run

open Medium (ofStorage)

/-- All generators that a run chooses, one after the other. -/
def script (generators : List Generator) (only : String) : Script :=
  .sequence ((tiers (selected (namesIn only) generators)).flatten.map (·.script))

/-- A tier in which nothing fails is its scripts one after the other. -/
theorem outcomes_iff {s s' : Storage} {tier : Numbered} :
    ((outcomes s tier).1 = s' ∧ (outcomes s tier).2.2 = [])
      ↔ ofStorage.run s (.sequence (tier.map (·.2.script))) = some s' := by
  induction tier generalizing s with
  | nil => simp [outcomes, Script.sequence, Medium.run]
  | cons p rest ih =>
    rw [List.map_cons, Medium.run_sequence_cons, Option.bind_eq_some_iff, outcomes_cons_storage,
      outcomes_cons_failed, List.append_eq_nil_iff]
    rcases hrun : p.2.script.run s with ⟨s₁, failure | _⟩
    · have hnot : ∀ s₂, ofStorage.run s p.2.script ≠ some s₂ := by
        intro s₂ h
        rw [Medium.ofStorage_run, hrun] at h
        cases h
      simp [hnot, failures, Thread.failure?]
    · have hsome : ofStorage.run s p.2.script = some s₁ := Medium.ofStorage_run.mpr hrun
      simp only [hsome, Option.some.injEq, exists_eq_left', ← ih]
      simp [failures, Thread.failure?]

/-- A tier with the places of its generators, counted from `index`. -/
def placed (index : Nat) (tier : List Generator) : Numbered :=
  tier.zipIdx (index + 1) |>.map fun (g, i) => (i, g)

theorem placed_scripts (index : Nat) (tier : List Generator) :
    (placed index tier).map (·.2.script) = tier.map (·.script) := by
  unfold placed
  rw [List.map_map]
  show (tier.zipIdx (index + 1)).map ((·.script) ∘ Prod.fst) = _
  rw [← List.map_map, List.zipIdx_map_fst]

theorem runTiers_iff {n index : Nat} {s s' : Storage} {tiers : List (List Generator)} :
    ((runTiers n index s tiers).1 = s' ∧ (runTiers n index s tiers).2.2 = none)
      ↔ ofStorage.run s (.sequence (tiers.flatten.map (·.script))) = some s' := by
  induction tiers generalizing index s with
  | nil => simp [runTiers, Script.sequence, Medium.run]
  | cons tier rest ih =>
    rcases houtcomes : outcomes s (placed index tier) with ⟨s₁, finished, failed⟩
    have htier : ∀ s₂, ofStorage.run s (.sequence (tier.map (·.script))) = some s₂
        ↔ s₁ = s₂ ∧ failed = [] := by
      intro s₂
      rw [← placed_scripts index, ← outcomes_iff, houtcomes]
    rw [List.flatten_cons, List.map_append, Medium.run_sequence_append]
    cases failed with
    | nil =>
      rw [runTiers_of_succeeded houtcomes, (htier s₁).mpr ⟨rfl, rfl⟩, Option.bind_some, ← ih]
    | cons e others =>
      rw [runTiers_of_failed houtcomes, Option.bind_eq_some_iff]
      constructor
      · rintro ⟨-, h⟩
        cases h
      · rintro ⟨s₂, h, -⟩
        cases ((htier s₂).mp h).2

/-- **A run succeeds when the script of all that it chooses does**, and leaves what that leaves. -/
theorem run_eq_ok_iff {generators : List Generator} {only : String} {s s' : Storage}
    {outcome : Summary} :
    ((run generators only s).storage = s' ∧ (run generators only s).outcome = .ok outcome)
      ↔ ofStorage.run s (script generators only) = some s'
        ∧ outcome = summary (plan generators only) := by
  rw [summary_plan]
  unfold script
  by_cases h : (tiers (selected (namesIn only) generators)).flatten = []
  · have hnil : tiers (selected (namesIn only) generators) = [] := by
      rw [List.eq_nil_iff_forall_not_mem]
      intro tier htier
      obtain ⟨p, -, -, hne⟩ := mem_tiers_iff.mp htier
      exact hne (List.flatten_eq_nil_iff.mp h tier htier)
    rw [run_idle h, hnil]
    simp [Script.sequence, Medium.run, eq_comm]
  · rw [run_busy rfl h]
    generalize tiers (selected (namesIn only) generators) = all
    rw [← @runTiers_iff all.flatten.length 0 s s' all]
    rcases runTiers all.flatten.length 0 s all with ⟨s₁, events, _ | e⟩
    · simp [eq_comm]
    · simp

end Run
end ApiScaffold
