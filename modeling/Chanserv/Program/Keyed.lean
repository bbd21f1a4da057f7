import Mathlib.Data.List.Basic

/-! Tables whose statements name rows by a key.

An UPDATE or a DELETE names a key and touches the rows that have it, none or
many. What it does is said by the rows of each key: those of its own key change
as it says, those of all others not at all. -/
namespace Chanserv.Program.Keyed

variable {ρ κ : Type} [DecidableEq κ] (key : ρ → κ)

/-- The rows of a key. -/
def rows (k : κ) (t : List ρ) : List ρ := t.filter fun r => key r = k

def update (k : κ) (f : ρ → ρ) (t : List ρ) : List ρ := t.map fun r => if key r = k then f r else r

def delete (k : κ) (t : List ρ) : List ρ := t.filter fun r => key r ≠ k

variable {key} {j k : κ} {f : ρ → ρ} {t : List ρ}

theorem mem_rows {r : ρ} : r ∈ rows key k t ↔ r ∈ t ∧ key r = k := by
  simp [rows]

theorem mem_rows_self {r : ρ} (h : r ∈ t) : r ∈ rows key (key r) t := mem_rows.mpr ⟨h, rfl⟩

theorem rows_cons (r : ρ) (t : List ρ) :
    rows key k (r :: t) = if key r = k then r :: rows key k t else rows key k t := by
  simp [rows, List.filter_cons]

theorem rows_append (s t : List ρ) : rows key k (s ++ t) = rows key k s ++ rows key k t :=
  List.filter_append ..

theorem rows_update (hf : ∀ r, key (f r) = key r) (t : List ρ) :
    rows key k (update key k f t) = (rows key k t).map f := by
  induction t with
  | nil => rfl
  | cons r t ih =>
    rw [update, List.map_cons, rows_cons, rows_cons, ← update, ih]
    by_cases h : key r = k
    · rw [if_pos h, if_pos h, if_pos ((hf r).trans h), List.map_cons]
    · rw [if_neg h, if_neg h, if_neg h]

theorem rows_update_ne (hf : ∀ r, key (f r) = key r) (hj : j ≠ k) (t : List ρ) :
    rows key j (update key k f t) = rows key j t := by
  induction t with
  | nil => rfl
  | cons r t ih =>
    rw [update, List.map_cons, rows_cons, rows_cons, ← update, ih]
    by_cases h : key r = k
    · rw [if_pos h, hf, if_neg fun hr => hj (hr.symm.trans h), if_neg fun hr => hj (hr.symm.trans h)]
    · rw [if_neg h]

theorem rows_delete (t : List ρ) : rows key k (delete key k t) = [] := by
  rw [rows, delete, List.filter_filter, List.filter_eq_nil_iff]
  intro r _
  simp

theorem rows_delete_ne (hj : j ≠ k) (t : List ρ) : rows key j (delete key k t) = rows key j t := by
  rw [rows, delete, List.filter_filter]
  apply List.filter_congr
  intro r _
  by_cases h : key r = j
  · simp [h, hj]
  · simp [h]

theorem find_eq_head (t : List ρ) : t.find? (fun r => key r = k) = (rows key k t).head? :=
  List.head?_filter.symm

/-- Where keys are distinct, a row is the only one of its key. -/
theorem rows_of_nodup (h : (t.map key).Nodup) {r : ρ} (hr : r ∈ t) : rows key (key r) t = [r] := by
  induction t with
  | nil => cases hr
  | cons s t ih =>
    rw [List.map_cons, List.nodup_cons] at h
    rw [rows_cons]
    rw [List.mem_cons] at hr
    rcases hr with rfl | hr
    · have hrest : rows key (key r) t = [] := by
        rw [rows, List.filter_eq_nil_iff]
        intro s hs
        simp only [decide_eq_true_eq]
        intro hkey
        exact h.1 (hkey ▸ List.mem_map_of_mem hs)
      rw [if_pos rfl, hrest]
    · have hne : key s ≠ key r := fun hkey => h.1 (hkey ▸ List.mem_map_of_mem hr)
      rw [if_neg hne, ih h.2 hr]

theorem flatMap_rows (h : (t.map key).Nodup) : (t.map key).flatMap (fun k => rows key k t) = t := by
  have hrow : ∀ r ∈ t, rows key (key r) t = [r] := fun r hr => rows_of_nodup h hr
  rw [List.flatMap_map, List.flatMap_congr hrow, List.flatMap_singleton']

/-- A table whose keys are distinct is known from the rows of each key, once no key was added. -/
theorem eq_of_rows {t' : List ρ} (h : (t.map key).Nodup) (hkeys : (t'.map key).Sublist (t.map key))
    (hrows : ∀ k, rows key k t' = rows key k t) : t' = t := by
  have hsubset : t.map key ⊆ t'.map key := by
    intro k hk
    obtain ⟨r, hr, rfl⟩ := List.mem_map.mp hk
    have hmem : r ∈ rows key (key r) t' := by
      rw [hrows]
      exact mem_rows_self hr
    exact List.mem_map_of_mem (mem_rows.mp hmem).1
  have hsame : t'.map key = t.map key := hkeys.eq_of_length_le (h.length_le_of_subset hsubset)
  have h' : (t'.map key).Nodup := hsame ▸ h
  calc t' = (t'.map key).flatMap fun k => rows key k t' := (flatMap_rows h').symm
    _ = (t.map key).flatMap fun k => rows key k t := by rw [hsame]; exact List.flatMap_congr fun k _ => hrows k
    _ = t := flatMap_rows h

/-- A row that is alone with its key splits the table. -/
theorem split_of_rows {r : ρ} (h : rows key k t = [r]) :
    ∃ before after, t = before ++ r :: after ∧ key r = k ∧ (∀ s ∈ before, key s ≠ k) ∧
      ∀ s ∈ after, key s ≠ k := by
  obtain ⟨before, after, ht, hbefore, hr, hafter⟩ := List.filter_eq_cons_iff.mp h
  refine ⟨before, after, ht, by simpa using hr, by simpa using hbefore, ?_⟩
  simpa using List.filter_eq_nil_iff.mp hafter

end Chanserv.Program.Keyed
