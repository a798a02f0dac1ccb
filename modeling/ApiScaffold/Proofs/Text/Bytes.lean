import Mathlib.Data.String.Basic

/-!
# Texts and their bytes

The order of texts by code points is the order of their bytes in UTF-8.  A code point is written as
groups of six bits behind a first byte that is marked with their number, so of two characters the
smaller one has the smaller byte where their bytes first differ.
-/

namespace ApiScaffold.Text

def bytes (s : String) : List UInt8 := s.toUTF8.data.toList

theorem bytes_eq_flatMap (s : String) : bytes s = s.toList.flatMap String.utf8EncodeChar := by
  have h : bytes (String.ofList s.toList) = s.toList.flatMap String.utf8EncodeChar := by
    rw [bytes, String.toUTF8_eq_toByteArray, String.toByteArray_ofList, List.utf8Encode,
      List.toList_data_toByteArray]
  rwa [String.ofList_toList] at h

/-! ### The bytes of one character -/

namespace Utf8

theorem ofNat_lt_ofNat {m n : ℕ} (h : m < n) (hn : n < 256) : UInt8.ofNat m < UInt8.ofNat n := by
  rw [UInt8.lt_iff_toNat_lt, UInt8.toNat_ofNat', UInt8.toNat_ofNat']
  omega

/-- A number as `k` groups of six bits behind a first byte with a mark. -/
def grouped (mark : ℕ) : ℕ → ℕ → List UInt8
  | 0, n => [UInt8.ofNat (n + mark)]
  | k + 1, n => grouped mark k (n / 64) ++ [UInt8.ofNat (n % 64 + 128)]

/-- How many groups a code point needs behind the first byte. -/
def groups (n : ℕ) : ℕ := if n ≤ 0x7f then 0 else if n ≤ 0x7ff then 1 else if n ≤ 0xffff then 2 else 3

/-- The mark of a first byte before so many groups; it is above every first byte with a smaller mark. -/
def mark : ℕ → ℕ
  | 0 => 0
  | 1 => 0xc0
  | 2 => 0xe0
  | 3 => 0xf0
  | _ => 0x100

theorem toNat_lt (c : Char) : c.val.toNat < 0x110000 := by
  rcases c.valid with h | ⟨-, h⟩
  · exact lt_trans h (by decide)
  · exact h

theorem utf8EncodeChar_eq (c : Char) :
    String.utf8EncodeChar c = grouped (mark (groups c.val.toNat)) (groups c.val.toNat) c.val.toNat := by
  have hc := toNat_lt c
  unfold String.utf8EncodeChar groups
  generalize c.val.toNat = n at *
  dsimp only
  split_ifs with h₁ h₂ h₃
  · rfl
  · rw [Nat.mod_eq_of_lt (by omega : n / 64 < 0x20)]
    rfl
  · rw [Nat.mod_eq_of_lt (by omega : n / 4096 < 0x10), ← Nat.div_div_eq_div_mul n 64 64]
    rfl
  · rw [Nat.mod_eq_of_lt (by omega : n / 262144 < 0x08), ← Nat.div_div_eq_div_mul n 4096 64,
      ← Nat.div_div_eq_div_mul n 64 64]
    rfl

theorem grouped_eq_cons (mark k n : ℕ) :
    ∃ rest, grouped mark k n = UInt8.ofNat (n / 64 ^ k + mark) :: rest := by
  induction k generalizing n with
  | zero => exact ⟨[], by rw [grouped, pow_zero, Nat.div_one]⟩
  | succ k ih =>
    obtain ⟨rest, h⟩ := ih (n / 64)
    refine ⟨rest ++ [UInt8.ofNat (n % 64 + 128)], ?_⟩
    rw [grouped, h, Nat.div_div_eq_div_mul, ← pow_succ', List.cons_append]

theorem grouped_lt {mark k m n : ℕ} (h : m < n) (hn : n / 64 ^ k + mark < 256) (s t : List UInt8) :
    grouped mark k m ++ s < grouped mark k n ++ t := by
  induction k generalizing m n s t with
  | zero =>
    rw [pow_zero, Nat.div_one] at hn
    exact List.cons_lt_cons_iff.mpr (.inl (ofNat_lt_ofNat (by omega) hn))
  | succ k ih =>
    rw [pow_succ', ← Nat.div_div_eq_div_mul] at hn
    rw [grouped, grouped, List.append_assoc, List.append_assoc]
    rcases (Nat.div_le_div_right h.le : m / 64 ≤ n / 64).lt_or_eq with hlt | heq
    · exact ih hlt hn _ _
    · rw [heq]
      exact List.append_left_lt (List.cons_lt_cons_iff.mpr
        (.inl (ofNat_lt_ofNat (by omega) (by omega))))

theorem groups_mono {m n : ℕ} (h : m ≤ n) : groups m ≤ groups n := by
  unfold groups
  split_ifs <;> omega

theorem mark_mono : Monotone mark := by
  refine monotone_nat_of_le_succ fun k => ?_
  match k with
  | 0 | 1 | 2 | 3 => decide
  | _ + 4 => exact le_refl _

theorem first_lt_mark {n : ℕ} (h : n < 0x110000) :
    n / 64 ^ groups n + mark (groups n) < mark (groups n + 1) := by
  unfold groups
  split_ifs <;> simp only [mark] <;> omega

theorem mark_le (k : ℕ) : mark k ≤ 256 := by
  match k with
  | 0 | 1 | 2 | 3 => decide
  | _ + 4 => exact le_refl _

/-- **Of two characters the smaller one has the smaller bytes**, whatever stands behind. -/
theorem utf8EncodeChar_lt {c d : Char} (h : c < d) (s t : List UInt8) :
    String.utf8EncodeChar c ++ s < String.utf8EncodeChar d ++ t := by
  have hlt : c.val.toNat < d.val.toNat := h
  have hfirst := lt_of_lt_of_le (first_lt_mark (toNat_lt d)) (mark_le _)
  rw [utf8EncodeChar_eq, utf8EncodeChar_eq]
  rcases (groups_mono hlt.le).lt_or_eq with hgroups | hgroups
  · obtain ⟨rest, hc⟩ := grouped_eq_cons (mark (groups c.val.toNat)) (groups c.val.toNat) c.val.toNat
    obtain ⟨rest', hd⟩ := grouped_eq_cons (mark (groups d.val.toNat)) (groups d.val.toNat) d.val.toNat
    rw [hc, hd]
    refine List.cons_lt_cons_iff.mpr (.inl (ofNat_lt_ofNat ?_ hfirst))
    calc c.val.toNat / 64 ^ groups c.val.toNat + mark (groups c.val.toNat)
        < mark (groups c.val.toNat + 1) := first_lt_mark (toNat_lt c)
      _ ≤ mark (groups d.val.toNat) := mark_mono hgroups
      _ ≤ d.val.toNat / 64 ^ groups d.val.toNat + mark (groups d.val.toNat) := Nat.le_add_left _ _
  · rw [hgroups]
    exact grouped_lt hlt hfirst s t

end Utf8

/-! ### The bytes of a text -/

theorem flatMap_lt {s t : List Char} (h : s < t) :
    s.flatMap String.utf8EncodeChar < t.flatMap String.utf8EncodeChar := by
  induction s generalizing t with
  | nil =>
    obtain ⟨c, rest, rfl⟩ := List.exists_cons_of_ne_nil (fun ht : t = [] => List.not_lt_nil _ (ht ▸ h))
    obtain ⟨b, bytes, hb⟩ := List.exists_cons_of_ne_nil (String.utf8EncodeChar_ne_nil (c := c))
    rw [List.flatMap_cons, hb]
    exact List.nil_lt_cons _ _
  | cons c s ih =>
    cases t with
    | nil => exact absurd h (List.not_lt_nil _)
    | cons d t =>
      rcases List.cons_lt_cons_iff.mp h with hlt | ⟨rfl, hlt⟩
      · exact Utf8.utf8EncodeChar_lt hlt _ _
      · exact List.append_left_lt (ih hlt)

theorem bytes_lt_bytes {a b : String} (h : a < b) : bytes a < bytes b := by
  rw [bytes_eq_flatMap, bytes_eq_flatMap]
  exact flatMap_lt (String.lt_iff_toList_lt.mp h)

/-- **Texts are in the order of their bytes.** -/
theorem bytes_le_bytes_iff {a b : String} : bytes a ≤ bytes b ↔ a ≤ b := by
  constructor
  · intro h
    by_contra hlt
    exact h (bytes_lt_bytes (not_le.mp hlt))
  · intro h
    rcases h.lt_or_eq with hlt | rfl
    · exact List.le_of_lt (bytes_lt_bytes hlt)
    · exact List.le_refl _

end ApiScaffold.Text
