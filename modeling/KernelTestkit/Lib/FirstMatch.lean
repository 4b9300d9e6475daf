/-
KernelTestkit.Lib.FirstMatch — association lists built from optional rows.

An encoder that appends `(key, value)` only when a condition holds, and a
decoder that looks every key up on its own, meet in one fact: if no two
rows share a key, looking up the key of a row finds its value exactly when
its condition held (`lookup_present`). Rows are `(condition, key, value)`;
`present` keeps those whose condition holds.

The order of the rows does not matter, nor do rows with other keys: what is
found under a key that has at most one value depends on the pairs with that
key only (`lookup_congr`).
-/
import Mathlib.Data.List.Basic
import Mathlib.Data.List.Nodup

namespace KernelTestkit.Lib

variable {κ ν : Type}

/-- The association list a list of optional rows produces. -/
def present (rows : List (Bool × κ × ν)) : List (κ × ν) :=
  rows.filterMap fun row => if row.1 then some row.2 else none

theorem present_cons (c : Bool) (kv : κ × ν) (rows : List (Bool × κ × ν)) :
    present ((c, kv) :: rows) = if c then kv :: present rows else present rows := by
  cases c <;> rfl

/-- Renaming keys does not touch the conditions. -/
theorem present_map {κ' : Type} (f : κ → κ') (rows : List (Bool × κ × ν)) :
    (present rows).map (fun kv => (f kv.1, kv.2))
      = present (rows.map fun row => (row.1, f row.2.1, row.2.2)) := by
  induction rows with
  | nil => rfl
  | cons row rows ih =>
      obtain ⟨c, kv⟩ := row
      cases c <;> simp [present_cons, ih]

variable [BEq κ] [LawfulBEq κ]

/-- A key no row has is not found. -/
theorem lookup_present_of_notMem {k : κ} : ∀ {rows : List (Bool × κ × ν)},
    k ∉ rows.map (·.2.1) → (present rows).lookup k = none
  | [], _ => rfl
  | (c, k', v) :: rows, h => by
      simp only [List.map_cons, List.mem_cons, not_or] at h
      have hk : (k == k') = false := by simpa using h.1
      cases c <;> simp [present_cons, List.lookup_cons, hk, lookup_present_of_notMem h.2]

/-- **Looking up the key of a row** finds its value exactly when its
condition holds. -/
theorem lookup_present {c : Bool} {k : κ} {v : ν} : ∀ {rows : List (Bool × κ × ν)},
    (rows.map (·.2.1)).Nodup → (c, k, v) ∈ rows →
    (present rows).lookup k = if c then some v else none
  | (c', k', v') :: rows, hnd, hmem => by
      simp only [List.map_cons, List.nodup_cons] at hnd
      rcases List.mem_cons.mp hmem with heq | hmem
      · obtain ⟨rfl, rfl, rfl⟩ : c = c' ∧ k = k' ∧ v = v' := by simpa using heq
        cases c
        · simpa [present_cons] using lookup_present_of_notMem hnd.1
        · simp [present_cons]
      · have hne : (k == k') = false := by
          rw [beq_eq_false_iff_ne]
          intro hkk
          exact hnd.1 (List.mem_map.mpr ⟨(c, k, v), hmem, hkk⟩)
        have ih := lookup_present hnd.2 hmem
        cases c' <;> simp [present_cons, List.lookup_cons, hne, ih]

/-! ## Any order -/

/-- A pair with a key that has one value is what is found under the key. -/
theorem lookup_eq_some_of_mem {k : κ} {v : ν} : ∀ {l : List (κ × ν)},
    (∀ w, (k, w) ∈ l → w = v) → (k, v) ∈ l → l.lookup k = some v
  | (k', v') :: l, honly, hmem => by
      by_cases hk : k = k'
      · subst hk
        rw [List.lookup_cons_self, honly v' (List.mem_cons_self ..)]
      · have hne : (k == k') = false := beq_eq_false_iff_ne.mpr hk
        have htail : (k, v) ∈ l :=
          (List.mem_cons.mp hmem).resolve_left fun h => hk (congrArg Prod.fst h)
        rw [List.lookup_cons, hne]
        exact lookup_eq_some_of_mem (fun w hw => honly w (List.mem_cons_of_mem _ hw)) htail

/-- **Lookup in any order**: two lists with the same pairs under a key, and not
two of them, have the same value under it. -/
theorem lookup_congr {k : κ} {l₁ l₂ : List (κ × ν)}
    (hone : ∀ v w, (k, v) ∈ l₁ → (k, w) ∈ l₁ → v = w)
    (hsame : ∀ v, (k, v) ∈ l₁ ↔ (k, v) ∈ l₂) : l₁.lookup k = l₂.lookup k := by
  by_cases h : ∃ v, (k, v) ∈ l₁
  · obtain ⟨v, hv⟩ := h
    rw [lookup_eq_some_of_mem (fun w hw => hone w v hw hv) hv,
      lookup_eq_some_of_mem (fun w hw => hone w v ((hsame w).mpr hw) hv) ((hsame v).mp hv)]
  · have hnone : ∀ {l : List (κ × ν)}, (∀ v, (k, v) ∉ l) → l.lookup k = none := by
      intro l hno
      rw [List.lookup_eq_none_iff]
      rintro ⟨k', v⟩ hmem
      rw [bne_iff_ne]
      rintro rfl
      exact hno v hmem
    rw [hnone fun v hv => h ⟨v, hv⟩, hnone fun v hv => h ⟨v, (hsame v).mpr hv⟩]

omit [BEq κ] [LawfulBEq κ] in
/-- A list without a repeated key has one value under each. -/
theorem eq_of_mem_of_nodup {k : κ} {v w : ν} {l : List (κ × ν)} (hnd : (l.map (·.1)).Nodup)
    (hv : (k, v) ∈ l) (hw : (k, w) ∈ l) : v = w :=
  congrArg Prod.snd (List.inj_on_of_nodup_map hnd hv hw rfl)

end KernelTestkit.Lib
